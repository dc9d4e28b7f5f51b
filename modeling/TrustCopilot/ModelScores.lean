import TrustCopilot.ModelSelection
import TrustCopilot.OfflineEvaluation

/-! The scores that accounts get while models come and go. A selector shares its registry with
whoever else holds it, and both may change it. -/
namespace TrustCopilot.ModelScores

open TrustCopilot.ModelSelection
open TrustCopilot.OfflineEvaluation
open TrustCopilot.OrderedDict
open TrustCopilot.Trace

/-- A version as a condition reads it: the empty one counts as none. -/
def named (version : Option String) : Option String := version.filter (· ≠ "")

def registryScore (r : ModelRegistry) (fv : FeatureVector) : ℚ × String :=
  match named r.activeVersion with
  | some v => (deterministicScore fv, "model_v" ++ v)
  | none => (deterministicScore fv, "deterministic")

/-- `ModelSelector.score`. The registry's score raises nothing to fall back from. -/
def score (s : ModelSelector) (fv : FeatureVector) : ℚ × String :=
  if s.config.useLearnedRanker = true ∧ (named s.config.activeVersion).isSome = true then
    registryScore s.registry fv
  else (deterministicScore fv, "deterministic")

/-- A call on the selector, or one on the registry behind its back. -/
inductive Change where
  | selector (op : Operation)
  | activate (version : String)
  | rollbackToDeterministic
  deriving DecidableEq

def next (s : ModelSelector) : Change → ModelSelector
  | .selector op => ModelSelection.next s op
  | .activate version => { s with registry := (activate s.registry version).2 }
  | .rollbackToDeterministic => { s with registry := rollbackToDeterministic s.registry }

def run (changes : List Change) : ModelSelector := runTrace next {} changes

/-! ### The number -/

structure AtMost (fv fv' : FeatureVector) : Prop where
  icpScore : fv.icpScore ≤ fv'.icpScore
  urgency : fv.urgency ≤ fv'.urgency
  monetizationProb : fv.monetizationProb ≤ fv'.monetizationProb
  whyNowScore : fv.whyNowScore ≤ fv'.whyNowScore
  buyerConfidence : fv.buyerConfidence ≤ fv'.buyerConfidence
  painConfidence : fv.painConfidence ≤ fv'.painConfidence
  negativeCount : fv'.negativeCount ≤ fv.negativeCount

theorem deterministicScore_unit (fv : FeatureVector) :
    0 ≤ deterministicScore fv ∧ deterministicScore fv ≤ 1 :=
  ⟨le_max_left _ _, max_le (by norm_num) (min_le_left _ _)⟩

theorem deterministicScore_mono {fv fv' : FeatureVector} (h : AtMost fv fv') :
    deterministicScore fv ≤ deterministicScore fv' := by
  have hpenalty : min (15 / 100 : ℚ) ((fv'.negativeCount : ℚ) * (5 / 100)) ≤
      min (15 / 100) ((fv.negativeCount : ℚ) * (5 / 100)) := by
    gcongr
    exact h.negativeCount
  refine max_le_max (le_refl _) (min_le_min (le_refl _) (sub_le_sub ?_ hpenalty))
  obtain ⟨hicp, hurgency, hmonetization, hwhyNow, hbuyer, hpain, -⟩ := h
  gcongr

theorem score_number (s : ModelSelector) (fv : FeatureVector) :
    (score s fv).1 = deterministicScore fv := by
  rw [score, registryScore]
  split
  · split <;> rfl
  · rfl

/-! ### The label -/

def Registered (r : ModelRegistry) : Prop :=
  ∀ v, r.activeVersion = some v → (r.artifacts.get? v).isSome

theorem registered_register {r : ModelRegistry} (h : Registered r) (version : String)
    (importances metrics : List (String × ℚ)) :
    Registered (register r version importances metrics) := by
  intro v hv
  rw [register, Table.get?_save]
  split
  · rfl
  · exact h v hv

theorem registered_activate {r : ModelRegistry} (h : Registered r) (version : String) :
    Registered (activate r version).2 := by
  rw [activate]
  cases hr : r.artifacts.get? version with
  | none => exact h
  | some a =>
    intro v hv
    cases hv
    have hversion : a.version = version := Table.key_of_get? hr
    rw [Table.get?_save]
    split
    · rfl
    · next hne => exact absurd hversion.symm hne

theorem registered_rollback (r : ModelRegistry) : Registered (rollbackToDeterministic r) := nofun

theorem activateModel_registry (s : ModelSelector) (version : String) :
    (activateModel s version).2.registry = (activate s.registry version).2 := by
  rw [activateModel]
  split
  · next r hr => rw [hr]
  · next r hr => rw [hr]

theorem registered_next {s : ModelSelector} (h : Registered s.registry) (c : Change) :
    Registered (next s c).registry := by
  cases c with
  | selector op =>
    cases op with
    | register version importances metrics => exact registered_register h version _ _
    | activateModel version =>
      rw [next, ModelSelection.next, activateModel_registry]
      exact registered_activate h version
    | rollback => exact registered_rollback s.registry
  | activate version => exact registered_activate h version
  | rollbackToDeterministic => exact registered_rollback s.registry

theorem registered_run (changes : List Change) : Registered (run changes).registry := by
  have hnone : Registered ({} : ModelSelector).registry := nofun
  exact history_invariant (I := fun _ (s : ModelSelector) => Registered s.registry) hnone
    (fun _ c _ hs _ => registered_next hs c) (validTrace_of_forall (fun _ _ => trivial) _ changes)

/-- Nothing but an activation through the selector takes it back to a learned ranker. -/
theorem learned_next {s : ModelSelector} (h : s.config.useLearnedRanker = false) {c : Change}
    (hc : ∀ v, c ≠ .selector (.activateModel v)) :
    (next s c).config.useLearnedRanker = false := by
  cases c with
  | selector op =>
    cases op with
    | register => exact h
    | activateModel version => exact absurd rfl (hc version)
    | rollback => rfl
  | activate => exact h
  | rollbackToDeterministic => exact h

theorem learned_run {s : ModelSelector} (h : s.config.useLearnedRanker = false)
    {changes : List Change} (hc : ∀ v, .selector (.activateModel v) ∉ changes) :
    (runTrace next s changes).config.useLearnedRanker = false := by
  induction changes generalizing s with
  | nil => exact h
  | cons c changes ih =>
    refine ih (learned_next h fun v hv => ?_) fun v hv => ?_
    · exact hc v (hv ▸ List.mem_cons_self)
    · exact hc v (List.mem_cons_of_mem c hv)

/-- Whoever changes the models and in whatever order: an account keeps its score, which lies between
nothing and one, and no better account has a lower one; a score that names a version names the
registry's active one, and it is registered; and after a rollback of the selector none is named
until it activates one again, whatever is done to the registry. -/
theorem scores_honest (changes : List Change) (fv : FeatureVector) :
    let s := run changes
    (score s fv).1 = (score {} fv).1 ∧
    (0 ≤ (score s fv).1 ∧ (score s fv).1 ≤ 1) ∧
    (∀ fv', AtMost fv fv' → (score s fv).1 ≤ (score s fv').1) ∧
    ((score s fv).2 = "deterministic" ∨ ∃ v, (score s fv).2 = "model_v" ++ v ∧
      s.registry.activeVersion = some v ∧ (s.registry.artifacts.get? v).isSome) ∧
    ∀ before after, changes = before ++ .selector .rollback :: after →
      (∀ v, .selector (.activateModel v) ∉ after) → (score s fv).2 = "deterministic" := by
  intro s
  refine ⟨?_, ?_, fun fv' h => ?_, ?_, ?_⟩
  · rw [score_number, score_number]
  · rw [score_number]
    exact deterministicScore_unit fv
  · rw [score_number, score_number]
    exact deterministicScore_mono h
  · rw [score, registryScore]
    split
    · split
      · next v hv =>
        have hactive : s.registry.activeVersion = some v := (Option.filter_eq_some_iff.1 hv).1
        exact Or.inr ⟨v, rfl, hactive, registered_run changes v hactive⟩
      · exact Or.inl rfl
    · exact Or.inl rfl
  · rintro before after rfl hafter
    have hlearned : s.config.useLearnedRanker = false := by
      have hs : s = runTrace next (next (run before) (.selector .rollback)) after :=
        runTrace_append _ _ _
      rw [hs]
      exact learned_run rfl hafter
    rw [score, hlearned, if_neg fun h => Bool.false_ne_true h.1]

end TrustCopilot.ModelScores
