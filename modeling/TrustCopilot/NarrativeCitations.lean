import TrustCopilot.AccountNarrative

/-! What the narrative cites and what its text states. Every trigger and negative that has an
explanation is counted and cited; the text states the first few of them. -/
namespace TrustCopilot.NarrativeCitations

open TrustCopilot.AccountNarrative
open TrustCopilot.PyText (isIn)
open TrustCopilot.SignalDecay
open TrustCopilot.SignalFusion
open TrustCopilot.TriggerTaxonomy

section Statements

variable (st : FusedAccountState) (companyName : String)

def entriesOf : List FusedEntry := st.topTriggers ++ st.negatives

def DistinctIds : Prop := ((entriesOf st).map FusedEntry.signalId).Nodup

instance : Decidable (DistinctIds st) := inferInstanceAs (Decidable (List.Nodup _))

def textOf : String := (generateNarrative st companyName).text

def citedOf : List String := (generateNarrative st companyName).citedEvidenceIds

def Stated (e : FusedEntry) : Prop :=
  ∃ spec, getSpec e.signalType = some spec ∧ isIn spec.explanation (textOf st companyName)

/-- The ids of the facts that the text states, and no others. -/
def CitationsMatch : Prop :=
  ∀ id, id ∈ citedOf st companyName ↔
    ∃ e ∈ entriesOf st, e.signalId = id ∧ Stated st companyName e

def toldFacts : List String :=
  if explanations st.topTriggers = [] then []
  else (explanations st.topTriggers).take 5 ++ (explanations st.negatives).take 3

/-- Nothing that is cited is cut off from the text, unless it is stated for another signal or
stands in the company name. -/
def AllTold : Prop :=
  if explanations st.topTriggers = [] then
    ∀ fact ∈ explanations st.negatives, ¬ isIn fact companyName
  else ∀ fact ∈ (explanations st.topTriggers).drop 5 ++ (explanations st.negatives).drop 3,
    fact ∈ toldFacts st ∨ isIn fact companyName

instance : Decidable (AllTold st companyName) :=
  if h : explanations st.topTriggers = [] then
    decidable_of_iff (∀ fact ∈ explanations st.negatives, ¬ isIn fact companyName)
      (by rw [AllTold, if_pos h])
  else
    decidable_of_iff (∀ fact ∈ (explanations st.topTriggers).drop 5 ++
        (explanations st.negatives).drop 3, fact ∈ toldFacts st ∨ isIn fact companyName)
      (by rw [AllTold, if_neg h])

/-- Citations and text. -/
structure Cites : Prop where
  cited : citedOf st companyName = if explanations st.topTriggers = [] then []
    else explainedIds (entriesOf st)
  once : (citedOf st companyName).Nodup
  covers : explanations st.topTriggers ≠ [] → ∀ e ∈ entriesOf st, Stated st companyName e →
    e.signalId ∈ citedOf st companyName
  states : ∀ fact ∈ triggerTaxonomy.map TriggerSpec.explanation,
    (isIn fact (textOf st companyName) ↔ isIn fact companyName ∨ fact ∈ toldFacts st)
  exact_iff : CitationsMatch st companyName ↔ AllTold st companyName

end Statements

variable {st : FusedAccountState} {companyName : String}

/-! ### What the text states -/

theorem explanation_telling :
    ∀ fact ∈ triggerTaxonomy.map TriggerSpec.explanation, Telling id fact.toList := by
  have hchars : ∀ e ∈ triggerTaxonomy.map fun spec => spec.explanation.toList, Telling id e := by
    -- the characters are written out: the kernel is slow to take them from a literal
    simp only [triggerTaxonomy, List.map_cons, List.map_nil]
    repeat rw [String.toList_ofList]
    decide +kernel
  intro fact hfact
  obtain ⟨spec, hspec, rfl⟩ := List.mem_map.1 hfact
  exact hchars _ (List.mem_map_of_mem hspec)

/-- No explanation is a part of another. -/
theorem explanation_alone : ∀ fact ∈ triggerTaxonomy.map TriggerSpec.explanation,
    ∀ other ∈ triggerTaxonomy.map TriggerSpec.explanation,
      fact.toList <:+: other.toList → fact = other := by
  have hchars : ∀ e ∈ triggerTaxonomy.map fun spec => spec.explanation.toList,
      ∀ e' ∈ triggerTaxonomy.map fun spec => spec.explanation.toList, e <:+: e' → e = e' := by
    simp only [triggerTaxonomy, List.map_cons, List.map_nil]
    repeat rw [String.toList_ofList]
    decide +kernel
  intro fact hfact other hother hin
  obtain ⟨spec, hspec, rfl⟩ := List.mem_map.1 hfact
  obtain ⟨spec', hspec', rfl⟩ := List.mem_map.1 hother
  exact String.toList_injective
    (hchars _ (List.mem_map_of_mem hspec) _ (List.mem_map_of_mem hspec') hin)

theorem explanation_not_empty_words : ∀ fact ∈ triggerTaxonomy.map TriggerSpec.explanation,
    ¬ lastWord fact.toList <:+: "has no actionable signals at this time.".toList := by
  decide +kernel

theorem stated_iff {fact : String}
    (h : fact ∈ triggerTaxonomy.map TriggerSpec.explanation) :
    isIn fact (textOf st companyName) ↔ isIn fact companyName ∨ fact ∈ toldFacts st := by
  have hblank : " ".toList = [' '] := rfl
  by_cases hfacts : explanations st.topTriggers = []
  · have htext : (textOf st companyName).toList = companyName.toList ++
        ' ' :: "has no actionable signals at this time.".toList := by
      rw [textOf, generateNarrative, if_pos hfacts, String.toList_append]
      rfl
    have hnone : fact ∉ toldFacts st := by rw [toldFacts, if_pos hfacts]; exact List.not_mem_nil
    rw [isIn, htext, or_iff_left hnone, isIn]
    constructor
    · intro hin
      rcases name_or_lastWord hin with hname | hword
      · exact hname
      · exact absurd hword (explanation_not_empty_words fact h)
    · intro hname
      exact hname.trans (List.prefix_append _ _).isInfix
  · have htext : (textOf st companyName).toList = companyName.toList ++ ' ' ::
        (behind (explanations st.topTriggers) (explanations st.negatives)
          st.whyNowScore).toList := by
      rw [textOf, generateNarrative, if_neg hfacts, text_eq, String.toList_append,
        String.toList_append, hblank, List.append_assoc]
      rfl
    have htold : toldFacts st = (explanations st.topTriggers).take 5 ++
        (explanations st.negatives).take 3 := if_neg hfacts
    rw [isIn, htext, htold, isIn]
    constructor
    · intro hin
      have hmap (t : List Char) : t.map id = t := List.map_id t
      rw [← hmap (behind _ _ _).toList] at hin
      rcases told_of_infix letterMap_id (explanation_telling fact h) hin with
        hname | ⟨other, hother, hin⟩
      · exact Or.inl hname
      · rw [hmap] at hin
        rw [explanation_alone fact h other (told_known hother) hin]
        exact Or.inr hother
    · rintro (hname | hfact)
      · exact hname.trans (List.prefix_append _ _).isInfix
      · have hbehind : fact.toList <:+: (behind (explanations st.topTriggers)
            (explanations st.negatives) st.whyNowScore).toList := behind_tells hfact
        exact hbehind.trans (List.IsSuffix.isInfix ⟨companyName.toList ++ [' '], by simp⟩)

theorem stated_entry_iff {e : FusedEntry} : Stated st companyName e ↔
    ∃ spec, getSpec e.signalType = some spec ∧
      (isIn spec.explanation companyName ∨ spec.explanation ∈ toldFacts st) := by
  apply exists_congr
  intro spec
  apply and_congr_right
  intro hspec
  exact stated_iff (List.mem_map_of_mem (getSpec_some hspec).1)

/-! ### What it cites -/

theorem explainedIds_append (xs ys : List FusedEntry) :
    explainedIds (xs ++ ys) = explainedIds xs ++ explainedIds ys := by
  rw [explainedIds, List.filter_append, List.map_append]
  rfl

theorem citedOf_eq (st : FusedAccountState) (companyName : String) : citedOf st companyName =
    if explanations st.topTriggers = [] then [] else explainedIds (entriesOf st) := by
  rw [citedOf, generateNarrative, entriesOf, explainedIds_append]
  split
  · rfl
  · rfl

theorem entry_of_id (h : DistinctIds st) {e e' : FusedEntry} (he : e ∈ entriesOf st)
    (he' : e' ∈ entriesOf st) (hid : e.signalId = e'.signalId) : e = e' :=
  List.inj_on_of_nodup_map h he he' hid

/-- With a fact to tell, every entry of a known type is cited; the citations match the text if
the text states them all. -/
theorem match_iff_stated (h : DistinctIds st) (hfacts : explanations st.topTriggers ≠ []) :
    CitationsMatch st companyName ↔ ∀ e ∈ entriesOf st, (getSpec e.signalType).isSome →
      Stated st companyName e := by
  rw [CitationsMatch, citedOf_eq, if_neg hfacts]
  constructor
  · intro hmatch e he hknown
    obtain ⟨e', he', hid, hstated⟩ :=
      (hmatch e.signalId).1 (mem_explainedIds.2 ⟨e, he, hknown, rfl⟩)
    rw [entry_of_id h he he' hid.symm]
    exact hstated
  · intro hall id
    rw [mem_explainedIds]
    constructor
    · rintro ⟨e, he, hknown, hid⟩
      exact ⟨e, he, hid, hall e he hknown⟩
    · rintro ⟨e, he, hid, spec, hspec, -⟩
      exact ⟨e, he, by rw [hspec]; rfl, hid⟩

theorem explanations_entriesOf : explanations (entriesOf st) =
    explanations st.topTriggers ++ explanations st.negatives := by
  rw [explanations, explanations, explanations, entriesOf, List.filterMap_append]

theorem forall_entries_iff {p : String → Prop} :
    (∀ e ∈ entriesOf st, (getSpec e.signalType).isSome →
      ∃ spec, getSpec e.signalType = some spec ∧ p spec.explanation) ↔
    ∀ fact ∈ explanations st.topTriggers ++ explanations st.negatives, p fact := by
  rw [← explanations_entriesOf]
  constructor
  · intro hall fact hfact
    obtain ⟨e, he, spec, hspec, rfl⟩ := mem_explanations.1 hfact
    obtain ⟨spec', hspec', hp⟩ := hall e he (by rw [hspec]; rfl)
    rw [hspec] at hspec'
    rw [Option.some.inj hspec']
    exact hp
  · intro hall e he hknown
    obtain ⟨spec, hspec⟩ := Option.isSome_iff_exists.1 hknown
    exact ⟨spec, hspec, hall _ (mem_explanations.2 ⟨e, he, spec, hspec, rfl⟩)⟩

/-- Without one, nothing is cited and the text is to state nothing. -/
theorem match_iff_unstated (hfacts : explanations st.topTriggers = []) :
    CitationsMatch st companyName ↔ ∀ e ∈ entriesOf st, ¬ Stated st companyName e := by
  rw [CitationsMatch, citedOf_eq, if_pos hfacts]
  constructor
  · intro hmatch e he hstated
    exact List.not_mem_nil ((hmatch e.signalId).2 ⟨e, he, rfl, hstated⟩)
  · intro hall id
    refine iff_of_false List.not_mem_nil ?_
    rintro ⟨e, he, -, hstated⟩
    exact hall e he hstated

theorem match_iff (h : DistinctIds st) :
    CitationsMatch st companyName ↔ AllTold st companyName := by
  by_cases hfacts : explanations st.topTriggers = []
  · have hnone : toldFacts st = [] := if_pos hfacts
    rw [match_iff_unstated hfacts, AllTold, if_pos hfacts]
    simp only [stated_entry_iff, hnone, List.not_mem_nil, or_false]
    constructor
    · intro hall fact hfact hname
      obtain ⟨e, he, spec, hspec, rfl⟩ := mem_explanations.1 hfact
      exact hall e (List.mem_append_right _ he) ⟨spec, hspec, hname⟩
    · rintro hall e he ⟨spec, hspec, hname⟩
      have hfact : spec.explanation ∈ explanations (entriesOf st) :=
        mem_explanations.2 ⟨e, he, spec, hspec, rfl⟩
      rw [explanations_entriesOf, hfacts, List.nil_append] at hfact
      exact hall _ hfact hname
  · have htold : toldFacts st = (explanations st.topTriggers).take 5 ++
        (explanations st.negatives).take 3 := if_neg hfacts
    rw [match_iff_stated h hfacts, AllTold, if_neg hfacts]
    simp only [stated_entry_iff]
    rw [@forall_entries_iff st fun fact => isIn fact companyName ∨ fact ∈ toldFacts st]
    constructor
    · intro hall fact hfact
      rw [or_comm]
      apply hall
      rcases List.mem_append.1 hfact with hfact | hfact
      · exact List.mem_append_left _ (List.mem_of_mem_drop hfact)
      · exact List.mem_append_right _ (List.mem_of_mem_drop hfact)
    · intro hall fact hfact
      rw [or_comm]
      rw [← List.take_append_drop 5 (explanations st.topTriggers),
        ← List.take_append_drop 3 (explanations st.negatives)] at hfact
      simp only [List.mem_append] at hfact
      rcases hfact with (hfact | hfact) | hfact | hfact
      · exact Or.inl (htold ▸ List.mem_append_left _ hfact)
      · exact hall fact (List.mem_append_left _ hfact)
      · exact Or.inl (htold ▸ List.mem_append_right _ hfact)
      · exact hall fact (List.mem_append_right _ hfact)

theorem explainedIds_sublist (entries : List FusedEntry) :
    (explainedIds entries).Sublist (entries.map FusedEntry.signalId) :=
  List.filter_sublist.map _

/-- The narrative cites the ids of all triggers and negatives that have an explanation, when there
is a trigger among them. No fact that it states lacks its ids then, and it cites no more than it
states exactly if nothing is cut off. -/
theorem cites (st : FusedAccountState) (companyName : String) (h : DistinctIds st) :
    Cites st companyName := by
  constructor
  · exact citedOf_eq st companyName
  · rw [citedOf_eq]
    split
    · exact List.nodup_nil
    · exact h.sublist (explainedIds_sublist _)
  · rintro hfacts e he ⟨spec, hspec, -⟩
    rw [citedOf_eq, if_neg hfacts]
    exact mem_explainedIds.2 ⟨e, he, by rw [hspec]; rfl, rfl⟩
  · exact fun fact hfact => stated_iff hfact
  · exact match_iff h

/-! ### Fused signals -/

variable {m : MathExp} {isoformat : Timestamp → String} {accountId : String}
  {signals : List FusedSignalInput} {now : ℤ}

theorem ids_of_entries (sigs : List FusedSignalInput) (n : ℕ) :
    ((((sigs.map (entry m isoformat now)).take n)).map FusedEntry.signalId).Sublist
      (sigs.map FusedSignalInput.signalId) := by
  have hids : (sigs.map (entry m isoformat now)).map FusedEntry.signalId =
      sigs.map FusedSignalInput.signalId := by
    rw [List.map_map]
    rfl
  rw [← hids]
  exact (List.take_sublist _ _).map _

/-- A fusion of signals with distinct ids has distinct ids. -/
theorem fuse_distinctIds {st : FusedAccountState}
    (h : fuseAccountSignals m isoformat accountId signals now = .ok st)
    (hids : (signals.map FusedSignalInput.signalId).Nodup) : DistinctIds st := by
  obtain ⟨whyNow, freshness, -, -, rfl⟩ := fuse_ok_iff.1 h
  have hall := (split_perm m signals now).map FusedSignalInput.signalId
  rw [List.map_append] at hall
  rw [DistinctIds, entriesOf, List.map_append]
  exact (hall.nodup_iff.2 hids).sublist
    ((ids_of_entries (triggersOf m signals now) 10).append
      (ids_of_entries (negativesOf m signals now) 5))

/-! ### Six triggers -/

def announced (signalType : String) : FusedSignalInput where
  signalId := "sig-" ++ signalType
  signalType := signalType
  observedAt := ⟨0, some 0⟩
  confidence := 1

def sixTriggers : List FusedSignalInput :=
  ["soc2_announced", "iso27001_mentioned", "trust_center_launched", "compliance_hiring",
    "security_hiring", "funding_round"].map announced

def sixFused : FusedAccountState :=
  fused standInExp (fun _ => "") "acc-1" sixTriggers 0 (9123 / 10000) 1

theorem cites_six : DistinctIds sixFused ∧ Cites sixFused "Acme Corp" :=
  have hdistinct : DistinctIds sixFused := by decide +kernel
  ⟨hdistinct, cites sixFused "Acme Corp" hdistinct⟩

/-- The funding round is cited, and the text says nothing of it. -/
theorem sixth_cited_untold :
    fuseAccountSignals standInExp (fun _ => "") "acc-1" sixTriggers 0 = .ok sixFused ∧
    DistinctIds sixFused ∧
    "sig-funding_round" ∈ citedOf sixFused "Acme Corp" ∧
    ¬ isIn "Recently closed a funding round" (textOf sixFused "Acme Corp") ∧
    ¬ CitationsMatch sixFused "Acme Corp" := by
  have hdistinct : DistinctIds sixFused := by decide +kernel
  have hcited : "sig-funding_round" ∈ citedOf sixFused "Acme Corp" := by decide +kernel
  have huntold : ¬ isIn "Recently closed a funding round" (textOf sixFused "Acme Corp") := by
    decide +kernel
  refine ⟨by decide +kernel, hdistinct, hcited, huntold, fun hmatch => ?_⟩
  rw [match_iff hdistinct] at hmatch
  exact absurd hmatch (by decide +kernel)

end TrustCopilot.NarrativeCitations
