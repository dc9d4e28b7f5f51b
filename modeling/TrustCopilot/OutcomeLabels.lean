import TrustCopilot.OfflineEvaluation
import TrustCopilot.Library.GroupedFold

/-! What became of the decisions to contact, the labels that they get from it, and what the labels
do to the evaluation of a ranking. -/
namespace TrustCopilot.OutcomeLabels

open TrustCopilot.GroupedFold
open TrustCopilot.OfflineEvaluation
open TrustCopilot.OrderedDict
open TrustCopilot.Rounding

inductive OutcomeType where
  | delivered
  | opened
  | repliedPositive
  | repliedNegative
  | uploaded
  | proofDelivered
  | paid
  | bounced
  | unsubscribed
  | ignored
  deriving DecidableEq, Repr

def OutcomeType.value : OutcomeType → String
  | .delivered => "delivered"
  | .opened => "opened"
  | .repliedPositive => "replied_positive"
  | .repliedNegative => "replied_negative"
  | .uploaded => "uploaded"
  | .proofDelivered => "proof_delivered"
  | .paid => "paid"
  | .bounced => "bounced"
  | .unsubscribed => "unsubscribed"
  | .ignored => "ignored"

theorem value_injective : Function.Injective OutcomeType.value := by
  intro t u h
  cases t <;> cases u <;> first | rfl | exact absurd h (by decide)

structure OutcomeEvent where
  accountId : String
  contactDecisionId : String
  decisionVersion : ℤ := 0
  outcomeType : OutcomeType
  deriving DecidableEq, Repr

abbrev OutcomeStore := List OutcomeEvent

def record (store : OutcomeStore) (accountId decisionId : String) (outcomeType : OutcomeType)
    (decisionVersion : ℤ := 0) : OutcomeStore :=
  store ++ [⟨accountId, decisionId, decisionVersion, outcomeType⟩]

def forDecision (store : OutcomeStore) (decisionId : String) : List OutcomeEvent :=
  store.filter fun e => e.contactDecisionId = decisionId

def conversionFunnel (store : OutcomeStore) : Dict String ℕ :=
  grouped (fun e => e.outcomeType.value) (fun _ => 0) (fun n _ => n + 1) store

/-! ### Labels -/

def labelVersion : ℕ := 1

def goodOutcomes : List OutcomeType := [.paid, .uploaded, .proofDelivered]

def positiveOutcomes : List OutcomeType := [.repliedPositive, .opened]

def badOutcomes : List OutcomeType := [.bounced, .unsubscribed]

def unsafeOutcomes : List OutcomeType := [.unsubscribed]

structure LabeledDecision where
  decisionId : String
  accountId : String
  label : DecisionLabel
  labelVersion : ℕ := labelVersion
  confidence : ℚ := 0
  reasoning : String := ""
  outcomesUsed : List String := []
  deriving DecidableEq, Repr

/-- `outcome_set & kinds` -/
def Meets (outcomes kinds : List OutcomeType) : Prop := ∃ o ∈ outcomes, o ∈ kinds

instance (outcomes kinds : List OutcomeType) : Decidable (Meets outcomes kinds) :=
  inferInstanceAs (Decidable (∃ o ∈ outcomes, o ∈ kinds))

def labelDecision (decisionId accountId : String) (outcomes : List OutcomeType) :
    LabeledDecision :=
  let labeled (label : DecisionLabel) (confidence : ℚ) (reasoning : String) : LabeledDecision :=
    { decisionId := decisionId
      accountId := accountId
      label := label
      confidence := confidence
      reasoning := reasoning
      outcomesUsed := outcomes.map OutcomeType.value }
  if Meets outcomes unsafeOutcomes then
    labeled .unsafeOutcome (95 / 100) "Unsafe outcome: unsubscribe or complaint"
  else if Meets outcomes goodOutcomes then
    labeled .good (90 / 100) "Strong positive outcome: payment, upload, or proof delivery"
  else if Meets outcomes badOutcomes then
    labeled .bad (80 / 100) "Negative outcome: bounce or complaint"
  else if Meets outcomes positiveOutcomes then
    labeled .neutral (60 / 100) "Moderate positive signal but no conversion"
  else if outcomes = [.ignored] then
    labeled .uncertain (30 / 100) "No clear outcome — keep unlabeled for review"
  else
    labeled .uncertain (20 / 100) "Ambiguous outcome combination"

def labelRecorded (store : OutcomeStore) (accountId decisionId : String) : LabeledDecision :=
  labelDecision decisionId accountId ((forDecision store decisionId).map OutcomeEvent.outcomeType)

def precedence : DecisionLabel → ℕ
  | .uncertain => 0
  | .neutral => 1
  | .bad => 2
  | .good => 3
  | .unsafeOutcome => 4

def reasonsFor : DecisionLabel → List OutcomeType
  | .unsafeOutcome => [.unsubscribed]
  | .good => [.paid, .uploaded, .proofDelivered]
  | .bad => [.bounced]
  | .neutral => [.repliedPositive, .opened]
  | .uncertain => [.delivered, .repliedNegative, .ignored]

def OutcomeType.label : OutcomeType → DecisionLabel
  | .unsubscribed => .unsafeOutcome
  | .paid | .uploaded | .proofDelivered => .good
  | .bounced => .bad
  | .repliedPositive | .opened => .neutral
  | .delivered | .repliedNegative | .ignored => .uncertain

theorem mem_reasonsFor {o : OutcomeType} {l : DecisionLabel} : o ∈ reasonsFor l ↔ o.label = l := by
  cases l <;> cases o <;> decide

theorem precedence_injective : Function.Injective precedence := by
  intro l m h
  cases l <;> cases m <;> first | rfl | exact absurd h (by decide)

theorem precedence_le (l : DecisionLabel) : precedence l ≤ 4 := by
  cases l <;> decide

theorem mem_unsafeOutcomes {o : OutcomeType} : o ∈ unsafeOutcomes ↔ precedence o.label = 4 := by
  cases o <;> decide

theorem mem_goodOutcomes {o : OutcomeType} : o ∈ goodOutcomes ↔ precedence o.label = 3 := by
  cases o <;> decide

theorem mem_badOutcomes {o : OutcomeType} :
    o ∈ badOutcomes ↔ precedence o.label = 2 ∨ precedence o.label = 4 := by
  cases o <;> decide

theorem mem_positiveOutcomes {o : OutcomeType} :
    o ∈ positiveOutcomes ↔ precedence o.label = 1 := by
  cases o <;> decide

theorem precedence_label (decisionId accountId : String) (outcomes : List OutcomeType) :
    precedence (labelDecision decisionId accountId outcomes).label =
      if Meets outcomes unsafeOutcomes then 4 else if Meets outcomes goodOutcomes then 3
      else if Meets outcomes badOutcomes then 2
      else if Meets outcomes positiveOutcomes then 1 else 0 := by
  rw [labelDecision]
  split_ifs <;> rfl

/-- The label is that of the outcome that goes before all others. -/
theorem label_spec (decisionId accountId : String) (outcomes : List OutcomeType) :
    let l := (labelDecision decisionId accountId outcomes).label
    (∀ o ∈ outcomes, precedence o.label ≤ precedence l) ∧
      (l = .uncertain ∨ ∃ o ∈ outcomes, o.label = l) := by
  intro l
  have hl : precedence l = _ := precedence_label decisionId accountId outcomes
  simp only [Meets, mem_unsafeOutcomes, mem_goodOutcomes, mem_badOutcomes,
    mem_positiveOutcomes] at hl
  have hgiven : (∃ o ∈ outcomes, precedence o.label = precedence l) →
      l = .uncertain ∨ ∃ o ∈ outcomes, o.label = l :=
    fun ⟨o, ho, he⟩ => Or.inr ⟨o, ho, precedence_injective he⟩
  split_ifs at hl with hunsafe hgood hbad hpositive
  · exact ⟨fun o _ => hl ▸ precedence_le o.label, hgiven (hl ▸ hunsafe)⟩
  · refine ⟨fun o ho => ?_, hgiven (hl ▸ hgood)⟩
    have hle := precedence_le o.label
    have hne : precedence o.label ≠ 4 := fun h => hunsafe ⟨o, ho, h⟩
    omega
  · refine ⟨fun o ho => ?_, hgiven ?_⟩
    · have hle := precedence_le o.label
      have hne : precedence o.label ≠ 4 := fun h => hunsafe ⟨o, ho, h⟩
      have hne' : precedence o.label ≠ 3 := fun h => hgood ⟨o, ho, h⟩
      omega
    · obtain ⟨o, ho, he⟩ := hbad
      exact ⟨o, ho, hl ▸ he.resolve_right fun h => hunsafe ⟨o, ho, h⟩⟩
  · refine ⟨fun o ho => ?_, hgiven (hl ▸ hpositive)⟩
    have hle := precedence_le o.label
    have hne : precedence o.label ≠ 3 := fun h => hgood ⟨o, ho, h⟩
    have hne' : ¬ (precedence o.label = 2 ∨ precedence o.label = 4) := fun h => hbad ⟨o, ho, h⟩
    omega
  · refine ⟨fun o ho => ?_, Or.inl (precedence_injective hl)⟩
    have hle := precedence_le o.label
    have hne : precedence o.label ≠ 3 := fun h => hgood ⟨o, ho, h⟩
    have hne' : ¬ (precedence o.label = 2 ∨ precedence o.label = 4) := fun h => hbad ⟨o, ho, h⟩
    have hne'' : precedence o.label ≠ 1 := fun h => hpositive ⟨o, ho, h⟩
    omega

/-! ### More outcomes -/

section Recorded

variable {store more : OutcomeStore} {accountId decisionId : String}

theorem forDecision_append : forDecision (store ++ more) decisionId =
    forDecision store decisionId ++ forDecision more decisionId := List.filter_append _ _

theorem forDecision_foreign (h : ∀ e ∈ more, e.contactDecisionId ≠ decisionId) :
    forDecision more decisionId = [] := by
  rw [forDecision, List.filter_eq_nil_iff]
  intro e he
  simpa using h e he

theorem mem_recorded {o : OutcomeType} :
    o ∈ (forDecision store decisionId).map OutcomeEvent.outcomeType ↔
      ∃ e ∈ store, e.contactDecisionId = decisionId ∧ e.outcomeType = o := by
  simp [forDecision, and_assoc]

theorem label_le (store more : OutcomeStore) (accountId decisionId : String) :
    precedence (labelRecorded store accountId decisionId).label ≤
      precedence (labelRecorded (store ++ more) accountId decisionId).label := by
  have hbefore := label_spec decisionId accountId
    ((forDecision store decisionId).map OutcomeEvent.outcomeType)
  have hafter := label_spec decisionId accountId
    ((forDecision (store ++ more) decisionId).map OutcomeEvent.outcomeType)
  rcases hbefore.2 with hnone | ⟨o, ho, he⟩
  · rw [labelRecorded, hnone]
    exact Nat.zero_le _
  · rw [labelRecorded, ← he]
    refine hafter.1 o ?_
    rw [forDecision_append, List.map_append]
    exact List.mem_append_left _ ho

/-- As more is recorded, the label of a decision gives way only to one that goes before it, and only
to one for which an outcome of that decision has come in; what is recorded of other decisions
changes nothing in it. -/
theorem label_rises (store more : OutcomeStore) (accountId decisionId : String) :
    let before := labelRecorded store accountId decisionId
    let after := labelRecorded (store ++ more) accountId decisionId
    precedence before.label ≤ precedence after.label ∧
    (before.label ≠ after.label →
      ∃ e ∈ more, e.contactDecisionId = decisionId ∧ e.outcomeType ∈ reasonsFor after.label) ∧
    ((∀ e ∈ more, e.contactDecisionId ≠ decisionId) → after = before) := by
  intro before after
  have hle : precedence before.label ≤ precedence after.label :=
    label_le store more accountId decisionId
  have hbefore := label_spec decisionId accountId
    ((forDecision store decisionId).map OutcomeEvent.outcomeType)
  have hafter := label_spec decisionId accountId
    ((forDecision (store ++ more) decisionId).map OutcomeEvent.outcomeType)
  refine ⟨hle, fun hne => ?_, fun hother => ?_⟩
  · rcases hafter.2 with hnone | ⟨o, ho, he⟩
    · have hzero : precedence after.label = 0 := congrArg precedence hnone
      exact absurd (precedence_injective (by omega)) hne
    · rw [forDecision_append, List.map_append, List.mem_append] at ho
      rcases ho with hold | hnew
      · -- an outcome that was there already had its say before
        have hge : precedence o.label ≤ precedence before.label := hbefore.1 o hold
        rw [he] at hge
        exact absurd (precedence_injective (le_antisymm hle hge)) hne
      · obtain ⟨e, hmem, hid, rfl⟩ := mem_recorded.1 hnew
        exact ⟨e, hmem, hid, mem_reasonsFor.2 he⟩
  · have hsame : forDecision (store ++ more) decisionId = forDecision store decisionId := by
      rw [forDecision_append, forDecision_foreign hother, List.append_nil]
    exact congrArg (fun es => labelDecision decisionId accountId (es.map OutcomeEvent.outcomeType))
      hsame

end Recorded

/-! ### What the labels do to an evaluation -/

structure Sample where
  accountId : String
  decisionId : String
  features : FeatureVector

def Sample.label (store : OutcomeStore) (s : Sample) : DecisionLabel :=
  (labelRecorded store s.accountId s.decisionId).label

def holdout (store : OutcomeStore) (samples : List Sample) : List EvalRecord :=
  samples.map fun s => { accountId := s.accountId, features := s.features, label := s.label store }

section Evaluation

variable {store more : OutcomeStore} {samples : List Sample}

theorem unsafe_stays {s : Sample} (h : s.label store = .unsafeOutcome) :
    s.label (store ++ more) = .unsafeOutcome := by
  have hle : precedence (s.label store) ≤ precedence (s.label (store ++ more)) :=
    label_le store more s.accountId s.decisionId
  rw [h] at hle
  exact precedence_injective (le_antisymm (precedence_le _) hle)

theorem unsafeRate_holdout (scorer : FeatureVector → ℚ) (store : OutcomeStore)
    (samples : List Sample) : unsafeRate (scored scorer (holdout store samples)) =
      (samples.countP fun s => s.label store = .unsafeOutcome) / samples.length := by
  have hlen : (scored scorer (holdout store samples)).length = samples.length := by
    rw [scored_length, holdout, List.length_map]
  have hcount : ((scored scorer (holdout store samples)).countP fun r =>
      r.label = .unsafeOutcome) = samples.countP fun s => s.label store = .unsafeOutcome := by
    rw [countP_scored (fun l => l = .unsafeOutcome), holdout, List.countP_map]
    rfl
  rw [unsafeRate, hcount, hlen]
  split
  · next hnil =>
    rw [hnil] at hlen
    rw [← hlen]
    simp
  · rfl

theorem unsafeRate_rises (scorer : FeatureVector → ℚ) (store more : OutcomeStore)
    (samples : List Sample) : unsafeRate (scored scorer (holdout store samples)) ≤
      unsafeRate (scored scorer (holdout (store ++ more) samples)) := by
  rw [unsafeRate_holdout, unsafeRate_holdout]
  refine div_le_div_of_nonneg_right ?_ (Nat.cast_nonneg _)
  refine Nat.cast_le.2 (List.countP_mono_left fun s _ h => ?_)
  simp only [decide_eq_true_iff] at h ⊢
  exact unsafe_stays h

/-- Over one holdout, outcomes that come in later never lower the share of unsafe labels, and a
ranking that failed the gate for that share stays refused whatever comes in. -/
theorem unsafe_failure_stands (fmt : EvalFormat) (store more : OutcomeStore)
    (samples : List Sample) (scorer : FeatureVector → ℚ) (modelVersion : String)
    (thresholds : Option (Dict String ℚ)) :
    let report := fun st => runEvaluation fmt (holdout st samples) scorer modelVersion thresholds
    (report store).unsafeRate ≤ (report (store ++ more)).unsafeRate ∧
    (threshold thresholds "max_unsafe_rate" < unsafeRate (scored scorer (holdout store samples)) →
      (report (store ++ more)).passedThresholds = false) := by
  have hrises := unsafeRate_rises scorer store more samples
  refine ⟨roundTo_mono 4 hrises, fun hfails => ?_⟩
  rw [← Bool.not_eq_true, passedThresholds_iff]
  intro hpass
  exact absurd (hfails.trans_le hrises) (not_lt.2 hpass.2)

end Evaluation

/-! ### The funnel -/

theorem funnel_get (store : OutcomeStore) (t : OutcomeType) :
    ((conversionFunnel store).get? t.value).getD 0 =
      store.countP fun e => e.outcomeType = t := by
  have hcount : ∀ es : List OutcomeEvent, es.foldl (fun n _ => n + 1) 0 = es.length := by
    intro es
    refine (foldl_measure (f := fun n => n) (g := fun _ => 1) (fun _ _ => rfl) 0 es).trans ?_
    simp
  rw [conversionFunnel, getD_grouped, hcount, List.countP_eq_length_filter, group]
  simp only [value_injective.eq_iff]

theorem funnel_total (store : OutcomeStore) :
    (conversionFunnel store).total (fun _ n => n) = store.length := by
  have hsum : (conversionFunnel store).total (fun _ n => n) = (store.map fun _ => 1).sum :=
    total_grouped (f := fun _ n => n) (g := fun _ => 1) (fun _ => rfl) (fun _ _ => rfl) store
  rw [hsum]
  simp

theorem decisions_le_outcomes {ids : List String} (hids : ids.Nodup) {p : String → Bool}
    {kinds : List OutcomeType} {store : OutcomeStore}
    (h : ∀ d ∈ ids, p d = true → ∃ e ∈ store, e.contactDecisionId = d ∧ e.outcomeType ∈ kinds) :
    ids.countP p ≤ store.countP fun e => e.outcomeType ∈ kinds := by
  have hsub : ids.filter p ⊆ (store.filter fun e => e.outcomeType ∈ kinds).map
      OutcomeEvent.contactDecisionId := by
    intro d hd
    obtain ⟨hmem, hp⟩ := List.mem_filter.1 hd
    obtain ⟨e, he, hid, hkind⟩ := h d hmem hp
    exact List.mem_map.2 ⟨e, List.mem_filter.2 ⟨he, decide_eq_true hkind⟩, hid⟩
  have hle := ((hids.filter p).subperm hsub).length_le
  rwa [List.length_map, ← List.countP_eq_length_filter, ← List.countP_eq_length_filter] at hle

theorem countP_mem_cons {t : OutcomeType} {ts : List OutcomeType} (h : t ∉ ts)
    (store : OutcomeStore) : (store.countP fun e => e.outcomeType ∈ t :: ts) =
      (store.countP fun e => e.outcomeType = t) + store.countP fun e => e.outcomeType ∈ ts := by
  induction store with
  | nil => rfl
  | cons e es ih =>
    rw [List.countP_cons, List.countP_cons, List.countP_cons, ih]
    by_cases ht : e.outcomeType = t
    · simp only [ht, h, List.mem_cons, true_or, decide_true, decide_false, if_true]
      simp only [Bool.false_eq_true, if_false]
      omega
    · simp only [ht, List.mem_cons, false_or, decide_false, Bool.false_eq_true, if_false]
      omega

theorem countP_kinds {kinds : List OutcomeType} (hkinds : kinds.Nodup) (store : OutcomeStore) :
    (store.countP fun e => e.outcomeType ∈ kinds) =
      (kinds.map fun t => ((conversionFunnel store).get? t.value).getD 0).sum := by
  induction kinds with
  | nil => simp
  | cons t ts ih =>
    obtain ⟨hnew, hnodup⟩ := List.nodup_cons.1 hkinds
    rw [countP_mem_cons hnew, ih hnodup, List.map_cons, List.sum_cons, funnel_get]

theorem reasonsFor_nodup (l : DecisionLabel) : (reasonsFor l).Nodup := by
  cases l <;> decide

def decisionsOf (store : OutcomeStore) : List String :=
  (store.map OutcomeEvent.contactDecisionId).dedup

/-- The funnel counts every outcome once, and of the decisions that carry a label there are never
more than it counts outcomes that the label is given for. -/
theorem funnel_covers_labels (store : OutcomeStore) (accountOf : String → String)
    (l : DecisionLabel) :
    (conversionFunnel store).total (fun _ n => n) = store.length ∧
    ((decisionsOf store).countP fun d => (labelRecorded store (accountOf d) d).label = l) ≤
      ((reasonsFor l).map fun t => ((conversionFunnel store).get? t.value).getD 0).sum := by
  refine ⟨funnel_total store, ?_⟩
  rw [← countP_kinds (reasonsFor_nodup l)]
  refine decisions_le_outcomes (List.nodup_dedup _) fun d hd hl => ?_
  have hspec := label_spec d (accountOf d) ((forDecision store d).map OutcomeEvent.outcomeType)
  have hlabel : (labelDecision d (accountOf d)
      ((forDecision store d).map OutcomeEvent.outcomeType)).label = l := of_decide_eq_true hl
  rw [hlabel] at hspec
  rcases hspec.2 with rfl | ⟨o, ho, he⟩
  · -- a decision without a clear outcome still has some outcome, and only unclear ones
    obtain ⟨e, hmem, hid⟩ := List.mem_map.1 (List.mem_dedup.1 hd)
    have hle := hspec.1 e.outcomeType (mem_recorded.2 ⟨e, hmem, hid, rfl⟩)
    refine ⟨e, hmem, hid, mem_reasonsFor.2 (precedence_injective ?_)⟩
    exact Nat.le_zero.1 hle
  · obtain ⟨e, hmem, hid, rfl⟩ := mem_recorded.1 ho
    exact ⟨e, hmem, hid, mem_reasonsFor.2 he⟩

end TrustCopilot.OutcomeLabels
