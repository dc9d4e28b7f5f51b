import TrustCopilot.AccountNarrative
import TrustCopilot.FloatFusion

/-! The narrative against its own validator. An account of which nothing can be told is described
by a text that speaks of signals and cites none, which the validator reports. -/
namespace TrustCopilot.NarrativeChecks

open TrustCopilot.AccountNarrative
open TrustCopilot.Binary64
open TrustCopilot.FloatFusion
open TrustCopilot.Phrases
open TrustCopilot.PyText
open TrustCopilot.Ranking
open TrustCopilot.SignalDecay (MathExp PyError SignalInput Timestamp standInExp)
open TrustCopilot.SignalFusion (Comparable FusedAccountState FusedEntry FusedSignalInput Fusing)
open TrustCopilot.TriggerTaxonomy

def known (sig : FusedSignalInput) : Prop := (getSpec sig.signalType).isSome

instance (sig : FusedSignalInput) : Decidable (known sig) :=
  inferInstanceAs (Decidable (_ = true))

section Statements

variable (m : MathExp) (isoformat : Timestamp → String) (py : StrLower) (accountId : String)
  (signals : List FusedSignalInput) (now : Timestamp) (companyName : String)

def Passes : Prop :=
  ∃ st, fuseAccountSignals toDouble m isoformat accountId signals now = .ok st ∧
    validateNarrative py (generateNarrative st companyName) = []

/-- Some signal that is not negative can be told: of a known type, it still weighs something, or
stands among the first ten that are not negative. -/
def Tellable : Prop :=
  (∃ sig ∈ signals, sig.negative = false ∧ known sig ∧
    weight toDouble m sig.toInput now ≠ .ok 0) ∨
  ∃ sig ∈ (signals.filter fun sig => !sig.negative).take 10, known sig

instance : Decidable (Tellable m signals now) := inferInstanceAs (Decidable (_ ∨ _))

def CleanName : Prop := ∀ claim ∈ forbidden, ¬ isIn claim (py.lower companyName)

instance : Decidable (CleanName py companyName) :=
  inferInstanceAs (Decidable (∀ claim ∈ forbidden, _))

end Statements

variable {m : MathExp} {isoformat : Timestamp → String} {py : StrLower} {accountId : String}
  {signals : List FusedSignalInput} {now : Timestamp} {companyName : String}
  {facts negativeFacts : List String} {whyNowScore : ℚ} {s t : String}

/-! ### The text in lower case -/

theorem isAscii_joined {ss : List String} (hs : IsAscii s) (hss : ∀ t ∈ ss, IsAscii t) :
    IsAscii (s.intercalate ss) := by
  intro c hc
  rw [String.toList_intercalate] at hc
  rcases mem_joined hc with hc | ⟨l, hl, hc⟩
  · exact hs c hc
  · obtain ⟨t, ht, rfl⟩ := List.mem_map.1 hl
    exact hss t ht c hc

theorem isAscii_number (n : ℕ) : IsAscii (toString n) := by
  intro c hc
  rw [Nat.toString_eq_ofList_toDigits, String.toList_ofList] at hc
  have hdigit : c.isDigit = true := Nat.isDigit_of_mem_toDigits (by decide) (by decide) hc
  simp only [Char.isDigit, Bool.and_eq_true, decide_eq_true_eq] at hdigit
  have hnine : c.toNat ≤ 57 := UInt32.le_iff_toNat_le.1 hdigit.2
  omega

theorem isAscii_plural (n : ℕ) : IsAscii (plural n) := by
  rw [plural]
  split
  · decide
  · decide

theorem isAscii_explanation {entries : List FusedEntry} (h : t ∈ explanations entries) :
    IsAscii t := by
  have hchars : ∀ e ∈ triggerTaxonomy.map fun spec => spec.explanation.toList,
      e.all (fun c => c.toNat < 128) = true := by
    simp only [triggerTaxonomy, List.map_cons, List.map_nil]
    repeat rw [String.toList_ofList]
    decide +kernel
  obtain ⟨spec, hspec, rfl⟩ := List.mem_map.1 (explanation_known h)
  intro c hc
  exact of_decide_eq_true (List.all_eq_true.1 (hchars _ (List.mem_map_of_mem hspec)) c hc)

theorem isAscii_behind (hfacts : ∀ t ∈ facts, IsAscii t)
    (hnegative : ∀ t ∈ negativeFacts, IsAscii t) :
    IsAscii (behind facts negativeFacts whyNowScore) := by
  have hsignals (n : ℕ) : IsAscii ("signal" ++ plural n) :=
    isAscii_append (by decide) (isAscii_plural n)
  have hcounted : IsAscii (" ".intercalate (countedSignals facts.length)) := by
    apply isAscii_joined (by decide)
    simp only [countedSignals, List.forall_mem_cons, List.not_mem_nil, false_implies,
      implies_true, and_true]
    exact ⟨by decide, isAscii_number _, by decide, hsignals _⟩
  have htiming : ∀ t ∈ timing whyNowScore, IsAscii t := by
    rw [timing]
    split
    · decide
    · split
      · decide
      · decide
  have hhowever : ∀ t ∈ however negativeFacts, IsAscii t := by
    rw [however]
    split
    · simp
    · rintro t ht
      rw [List.mem_singleton.1 ht]
      have hlist : IsAscii ("; ".intercalate (negativeFacts.take 3)) :=
        isAscii_joined (by decide) fun t ht => hnegative t (List.mem_of_mem_take ht)
      refine isAscii_append (isAscii_append (isAscii_append (isAscii_append (isAscii_append ?_ ?_)
        ?_) ?_) ?_) hlist
      · decide
      · exact isAscii_number _
      · decide
      · exact isAscii_plural _
      · decide
  apply isAscii_append _ (by decide)
  apply isAscii_joined (by decide)
  intro t ht
  rcases List.mem_cons.1 ht with rfl | ht
  · exact hcounted
  · rcases List.mem_append.1 ht with ht | ht
    · rcases List.mem_append.1 ht with ht | ht
      · exact hfacts t (List.mem_of_mem_take ht)
      · exact htiming t ht
    · exact hhowever t ht

theorem lower_behind (py : StrLower) (companyName : String) (h : IsAscii t) :
    (py.lower (companyName ++ " " ++ t)).toList =
      (py.lower companyName).toList ++ ' ' :: t.toList.map Char.toLower := by
  have hcut : py.lower (companyName ++ " " ++ t) = py.lower companyName ++ " " ++ py.lower t :=
    py.blank companyName t ' ' (by decide)
  rw [hcut, py.ascii t h]
  simp [asciiLower]

/-! ### The validator -/

theorem forbidden_lower (py : StrLower) : ∀ claim ∈ forbidden, py.lower claim = claim := by
  have hall : ∀ claim ∈ forbidden, IsAscii claim ∧ asciiLower claim = claim := by decide +kernel
  intro claim hclaim
  obtain ⟨hascii, hsame⟩ := hall claim hclaim
  rw [py.ascii claim hascii, hsame]

theorem forbidden_telling : ∀ claim ∈ forbidden, Telling Char.toLower claim.toList := by
  decide +kernel

theorem forbidden_not_told : ∀ claim ∈ forbidden, ∀ fact ∈ triggerTaxonomy.map
    TriggerSpec.explanation, ¬ claim.toList <:+: fact.toList.map Char.toLower := by
  have hchars : ∀ e ∈ triggerTaxonomy.map fun spec => spec.explanation.toList,
      ∀ c ∈ forbidden.map String.toList, ¬ c <:+: e.map Char.toLower := by
    simp only [triggerTaxonomy, forbidden, List.map_cons, List.map_nil]
    repeat rw [String.toList_ofList]
    decide +kernel
  intro claim hclaim fact hfact
  obtain ⟨spec, hspec, rfl⟩ := List.mem_map.1 hfact
  exact hchars _ (List.mem_map_of_mem hspec) _ (List.mem_map_of_mem hclaim)

/-- Without a fact the text still has the word `signals`, and the validator reports it. -/
theorem untold_reported {st : FusedAccountState} (h : explanations st.topTriggers = []) :
    validateNarrative py (generateNarrative st companyName) ≠ [] := by
  have htext : (generateNarrative st companyName).text =
      companyName ++ " " ++ "has no actionable signals at this time." := by
    rw [generateNarrative, if_pos h, String.append_assoc]
    rfl
  have hids : (generateNarrative st companyName).citedEvidenceIds = [] := by
    rw [generateNarrative, if_pos h]
  have hsignal : isIn "signal" (py.lower (generateNarrative st companyName).text) := by
    have hword : "signal".toList <:+:
        ("has no actionable signals at this time.".toList.map Char.toLower) := by decide +kernel
    rw [isIn, htext, lower_behind py companyName (by decide +kernel)]
    exact hword.trans (List.IsSuffix.isInfix ⟨(py.lower companyName).toList ++ [' '], by simp⟩)
  rw [validateNarrative, if_pos ⟨hids, hsignal⟩]
  exact List.append_ne_nil_of_right_ne_nil _ (List.cons_ne_nil _ _)

/-- With one, it reports what the company name has of its own. -/
theorem told_passes_iff {st : FusedAccountState} (h : explanations st.topTriggers ≠ []) :
    validateNarrative py (generateNarrative st companyName) = [] ↔ CleanName py companyName := by
  have htext : (generateNarrative st companyName).text = companyName ++ " " ++
      behind (explanations st.topTriggers) (explanations st.negatives) st.whyNowScore := by
    rw [generateNarrative, if_neg h]
    exact text_eq _ _ _ _
  have hclaims : (generateNarrative st companyName).forbiddenClaims = forbidden := by
    rw [generateNarrative, if_neg h]
  have hids : (generateNarrative st companyName).citedEvidenceIds ≠ [] := by
    rw [generateNarrative, if_neg h]
    exact List.append_ne_nil_of_left_ne_nil (mt explainedIds_eq_nil.1 h) _
  have hascii : IsAscii (behind (explanations st.topTriggers) (explanations st.negatives)
      st.whyNowScore) :=
    isAscii_behind (fun t => isAscii_explanation) fun t => isAscii_explanation
  have hlower := lower_behind py companyName hascii
  rw [validateNarrative, if_neg fun hempty => hids hempty.1, hclaims, List.map_eq_nil_iff,
    List.filter_eq_nil_iff, CleanName]
  apply forall₂_congr
  intro claim hclaim
  rw [decide_eq_true_eq, forbidden_lower py claim hclaim, htext, isIn, hlower, isIn, not_iff_not]
  constructor
  · intro hin
    rcases told_of_infix letterMap_toLower (forbidden_telling claim hclaim) hin with
      hname | ⟨fact, hfact, hin⟩
    · exact hname
    · exact absurd hin (forbidden_not_told claim hclaim fact (told_known hfact))
  · intro hin
    exact hin.trans (List.prefix_append _ _).isInfix

/-! ### The triggers that can be told -/

theorem foldl_topTriggers (xs : List (ℚ × FusedSignalInput)) :
    (xs.foldl (addScored toDouble isoformat) {}).topTriggers =
      (xs.filter fun x => !x.2.negative).map (entry isoformat) := by
  induction xs using List.reverseRecOn with
  | nil => rfl
  | append_singleton xs x ih =>
    rw [List.foldl_append, List.foldl_cons, List.foldl_nil, addScored, List.filter_append,
      List.map_append, ← ih]
    cases hx : x.2.negative with
    | true => simp [hx]
    | false => simp [hx]

theorem agedWeight_unknown {sig : FusedSignalInput} (h : ¬ known sig) (now : ℤ) :
    agedWeight toDouble m sig.toInput now = 0 := by
  have hnone : getSpec sig.signalType = none := by simpa [known] using h
  simp only [agedWeight, FusedSignalInput.toInput, hnone, zero_mul, toDouble_zero]

theorem told_iff (haware : now.aware = true) (m : MathExp) (signals : List FusedSignalInput) :
    (∃ x ∈ ((ranked (fun x => |x.1|) (signals.map fun sig =>
        (agedWeight toDouble m sig.toInput now.instant, sig))).filter
          fun x => !x.2.negative).take 10, known x.2) ↔ Tellable m signals now := by
  have hweightless : ∀ x ∈ (signals.map fun sig =>
      (agedWeight toDouble m sig.toInput now.instant, sig)).filter (fun x => !x.2.negative),
      ¬ known x.2 → |x.1| = 0 := by
    intro x hx hunknown
    obtain ⟨sig, -, rfl⟩ := List.mem_map.1 (List.mem_of_mem_filter hx)
    rw [agedWeight_unknown hunknown, abs_zero]
  rw [filter_ranked, Tellable]
  refine (exists_kept_iff (p := fun x : ℚ × FusedSignalInput => known x.2)
    (fun x _ => abs_nonneg x.1) hweightless (by decide)).trans (or_congr ?_ ?_)
  · simp only [List.mem_filter, List.mem_map, weight_aware haware]
    constructor
    · rintro ⟨_, ⟨⟨sig, hsig, rfl⟩, hside⟩, hknown, hweight⟩
      refine ⟨sig, hsig, by simpa using hside, hknown, fun h => hweight ?_⟩
      rw [abs_eq_zero]
      exact Except.ok.inj h
    · rintro ⟨sig, hsig, hside, hknown, hweight⟩
      refine ⟨_, ⟨⟨sig, hsig, rfl⟩, by simp [hside]⟩, hknown, fun h => hweight ?_⟩
      exact congrArg Except.ok (abs_eq_zero.1 h)
  · rw [List.filter_map, ← List.map_take]
    constructor
    · rintro ⟨x, hx, hknown⟩
      obtain ⟨sig, hsig, rfl⟩ := List.mem_map.1 hx
      exact ⟨sig, hsig, hknown⟩
    · rintro ⟨sig, hsig, hknown⟩
      exact ⟨_, List.mem_map_of_mem hsig, hknown⟩

theorem explanations_told (haware : now.aware = true) {st : FusedAccountState}
    (h : fuseAccountSignals toDouble m isoformat accountId signals now = .ok st) :
    explanations st.topTriggers ≠ [] ↔ Tellable m signals now := by
  obtain ⟨weighed, whyNow, fresh, hs, -, -, rfl⟩ := fuse_ok_iff.1 h
  rw [scored_aware haware] at hs
  cases hs
  rw [← told_iff haware m signals, ← not_iff_not, not_not, explanations,
    List.filterMap_eq_nil_iff, fusedOf, foldl_topTriggers, ← List.map_take, List.forall_mem_map]
  simp only [entry, Option.map_eq_none_iff, not_exists, not_and, known,
    Option.not_isSome_iff_eq_none]

/-- The narrative passes its validator exactly if the fusion returns, there is a fact to tell and
the company name is free of the forbidden phrases. -/
theorem passes_iff (m : MathExp) (isoformat : Timestamp → String) (py : StrLower)
    (accountId : String) (signals : List FusedSignalInput) (now : Timestamp)
    (companyName : String) :
    Passes m isoformat py accountId signals now companyName ↔
      (now.aware = true ∧ Comparable signals ∧ ScoreInRange toDouble m signals now) ∧
        Tellable m signals now ∧ CleanName py companyName := by
  constructor
  · rintro ⟨st, hst, hvalid⟩
    have htold : explanations st.topTriggers ≠ [] := fun hnil => untold_reported hnil hvalid
    have hreturns := (fuse_returns_iff isoformat accountId).1 ⟨st, hst⟩
    have hne : signals ≠ [] := by
      rintro rfl
      apply htold
      obtain ⟨weighed, whyNow, fresh, hs, -, -, rfl⟩ := fuse_ok_iff.1 hst
      cases hs
      rfl
    have hsome := hreturns.resolve_left hne
    exact ⟨hsome, (explanations_told hsome.1 hst).1 htold, (told_passes_iff htold).1 hvalid⟩
  · rintro ⟨hreturns, htellable, hclean⟩
    obtain ⟨st, hst⟩ := (fuse_returns_iff isoformat accountId).2 (Or.inr hreturns)
    exact ⟨st, hst, (told_passes_iff ((explanations_told hreturns.1 hst).2 htellable)).2 hclean⟩

/-- An account without signals. -/
theorem empty_account_reported :
    CleanName asciiStrLower "EmptyCo" ∧
    (fuseAccountSignals toDouble standInExp (fun _ => "") "acc-empty" [] ⟨0, some 0⟩).map
        (fun st => validateNarrative asciiStrLower (generateNarrative st "EmptyCo")) =
      .ok ["References signals but has no cited evidence IDs"] ∧
    ¬ Passes standInExp (fun _ => "") asciiStrLower "acc-empty" [] ⟨0, some 0⟩ "EmptyCo" := by
  have hreported :
      (fuseAccountSignals toDouble standInExp (fun _ => "") "acc-empty" [] ⟨0, some 0⟩).map
        (fun st => validateNarrative asciiStrLower (generateNarrative st "EmptyCo")) =
      .ok ["References signals but has no cited evidence IDs"] := by decide +kernel
  refine ⟨by decide +kernel, hreported, fun ⟨st, hst, hvalid⟩ => ?_⟩
  rw [hst] at hreported
  have hsome := hvalid.symm.trans (Except.ok.inj hreported)
  cases hsome

end TrustCopilot.NarrativeChecks
