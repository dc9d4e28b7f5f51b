import TrustCopilot.Library.OrderedDict
import TrustCopilot.Library.Trace
import Mathlib.Data.Rat.Init

/-! Ranking models and the selector over them. Which model is active is written down four
times: on the artifacts, in the registry, and twice in the selector's configuration. -/
namespace TrustCopilot.ModelSelection

open TrustCopilot.OrderedDict
open TrustCopilot.Trace

structure ModelArtifact where
  version : String
  featureImportances : List (String × ℚ) := []
  offlineMetrics : List (String × ℚ) := []
  isActive : Bool := false
  deriving DecidableEq

structure ModelRegistry where
  artifacts : Table ModelArtifact.version := Table.empty
  activeVersion : Option String := none

structure ModelConfig where
  activeVersion : Option String := none
  useLearnedRanker : Bool := false
  fallbackOnError : Bool := true
  shadowMode : Bool := false
  deriving DecidableEq, Repr

inductive LogEntry where
  | activate (version : String)
  | rollbackToDeterministic
  deriving DecidableEq, Repr

structure ModelSelector where
  registry : ModelRegistry := {}
  config : ModelConfig := {}
  rollbackLog : List LogEntry := []

def register (r : ModelRegistry) (version : String) (importances metrics : List (String × ℚ)) :
    ModelRegistry :=
  { r with artifacts := r.artifacts.save ⟨version, importances, metrics, false⟩ }

def deactivate (a : ModelArtifact) : ModelArtifact := { a with isActive := false }

theorem deactivate_version (a : ModelArtifact) : (deactivate a).version = a.version := rfl

def deactivateAll (artifacts : Table ModelArtifact.version) : Table ModelArtifact.version :=
  artifacts.mapValues deactivate deactivate_version

def activate (r : ModelRegistry) (version : String) : Bool × ModelRegistry :=
  match r.artifacts.get? version with
  | none => (false, r)
  | some a =>
    (true,
      { artifacts := (deactivateAll r.artifacts).save { deactivate a with isActive := true }
        activeVersion := some version })

def rollbackToDeterministic (r : ModelRegistry) : ModelRegistry where
  artifacts := deactivateAll r.artifacts
  activeVersion := none

def activateModel (s : ModelSelector) (version : String) : Bool × ModelSelector :=
  match activate s.registry version with
  | (true, r) =>
    (true,
      { registry := r
        config := { s.config with activeVersion := some version, useLearnedRanker := true }
        rollbackLog := s.rollbackLog ++ [.activate version] })
  | (false, r) => (false, { s with registry := r })

def rollback (s : ModelSelector) : ModelSelector where
  registry := rollbackToDeterministic s.registry
  config := { s.config with activeVersion := none, useLearnedRanker := false }
  rollbackLog := s.rollbackLog ++ [.rollbackToDeterministic]

def isDeterministic (s : ModelSelector) : Bool := !s.config.useLearnedRanker

inductive Operation where
  | register (version : String) (importances metrics : List (String × ℚ))
  | activateModel (version : String)
  | rollback
  deriving DecidableEq

def next (s : ModelSelector) : Operation → ModelSelector
  | .register version importances metrics =>
    { s with registry := register s.registry version importances metrics }
  | .activateModel version => (activateModel s version).2
  | .rollback => rollback s

def run (ops : List Operation) : ModelSelector := runTrace next {} ops

/-- All four places tell the same story. -/
structure Consistent (s : ModelSelector) : Prop where
  flags : ∀ a ∈ s.registry.artifacts.values,
    a.isActive = true ↔ s.registry.activeVersion = some a.version
  one : ∀ a ∈ s.registry.artifacts.values, ∀ b ∈ s.registry.artifacts.values,
    a.isActive = true → b.isActive = true → a = b
  config : s.config.activeVersion = s.registry.activeVersion
  deterministic : isDeterministic s = true ↔ s.registry.activeVersion = none

def AlwaysConsistent (ops : List Operation) : Prop := ∀ xs, xs <+: ops → Consistent (run xs)

/-- The version that is active is not registered again. -/
def SparesActive (s : ModelSelector) : Operation → Prop
  | .register version _ _ => s.registry.activeVersion ≠ some version
  | _ => True

instance (s : ModelSelector) : (op : Operation) → Decidable (SparesActive s op)
  | .register .. => inferInstanceAs (Decidable (_ ≠ _))
  | .activateModel _ => isTrue trivial
  | .rollback => isTrue trivial

variable {s : ModelSelector} {v : String} {a : ModelArtifact}

/-- Flags that agree with the registry are on at one artifact at most. -/
theorem consistent_of_flags
    (hflags : ∀ v a, s.registry.artifacts.get? v = some a →
      (a.isActive = true ↔ s.registry.activeVersion = some v))
    (hconfig : s.config.activeVersion = s.registry.activeVersion)
    (hdet : isDeterministic s = true ↔ s.registry.activeVersion = none) : Consistent s := by
  have hvalues : ∀ a ∈ s.registry.artifacts.values,
      s.registry.artifacts.get? a.version = some a := fun a ha => Table.mem_values_iff.1 ha
  refine ⟨fun a ha => hflags a.version a (hvalues a ha), fun a ha b hb hact hbact => ?_,
    hconfig, hdet⟩
  have hav := (hflags a.version a (hvalues a ha)).1 hact
  have hbv := (hflags b.version b (hvalues b hb)).1 hbact
  have hversion : a.version = b.version := Option.some.inj (hav.symm.trans hbv)
  have hrow := hvalues a ha
  rw [hversion, hvalues b hb] at hrow
  exact (Option.some.inj hrow).symm

theorem Consistent.flag (h : Consistent s) (ha : s.registry.artifacts.get? v = some a) :
    a.isActive = true ↔ s.registry.activeVersion = some v := by
  have hv : a.version = v := Table.key_of_get? ha
  rw [← hv] at ha ⊢
  exact h.flags a (Table.mem_values_iff.2 ha)

theorem consistent_initial : Consistent {} :=
  consistent_of_flags (fun _ _ h => by cases h) rfl ⟨fun _ => rfl, fun _ => rfl⟩

theorem deactivateAll_inactive {artifacts : Table ModelArtifact.version}
    (h : (deactivateAll artifacts).get? v = some a) : a.isActive = false := by
  rw [deactivateAll, Table.get?_mapValues] at h
  obtain ⟨b, -, rfl⟩ := Option.map_eq_some_iff.1 h
  rfl

theorem consistent_register (h : Consistent s) {version : String}
    {importances metrics : List (String × ℚ)}
    (hs : s.registry.activeVersion ≠ some version) :
    Consistent (next s (.register version importances metrics)) := by
  refine consistent_of_flags (fun v a ha => ?_) h.config h.deterministic
  rw [next, register, Table.get?_save] at ha
  split at ha
  · next hv =>
    -- the new artifact is not active, nor is its version
    cases ha
    rw [hv]
    exact iff_of_false Bool.false_ne_true hs
  · exact h.flag ha

theorem consistent_activateModel (h : Consistent s) (version : String) :
    Consistent (next s (.activateModel version)) := by
  rw [next, activateModel, activate]
  cases hr : s.registry.artifacts.get? version with
  | none => exact h
  | some old =>
    have hversion : old.version = version := Table.key_of_get? hr
    refine consistent_of_flags (fun v a ha => ?_) rfl ⟨nofun, nofun⟩
    dsimp only at ha ⊢
    rw [Table.get?_save] at ha
    split at ha
    · next hv =>
      cases ha
      rw [hv]
      exact iff_of_true rfl (congrArg some hversion.symm)
    · next hv =>
      rw [deactivateAll_inactive ha]
      refine iff_of_false Bool.false_ne_true fun he => hv ?_
      rw [← Option.some.inj he]
      exact hversion.symm

theorem consistent_rollback (s : ModelSelector) : Consistent (next s .rollback) := by
  refine consistent_of_flags (fun v a ha => ?_) rfl (iff_of_true rfl rfl)
  rw [deactivateAll_inactive ha]
  exact iff_of_false Bool.false_ne_true nofun

theorem consistent_next (h : Consistent s) {op : Operation} (hop : SparesActive s op) :
    Consistent (next s op) := by
  cases op with
  | register version importances metrics => exact consistent_register h hop
  | activateModel version => exact consistent_activateModel h version
  | rollback => exact consistent_rollback s

/-- A version that is registered while it is active loses its flag and nothing else. -/
theorem not_consistent_reregister {version : String} {importances metrics : List (String × ℚ)}
    (hs : s.registry.activeVersion = some version) :
    ¬ Consistent (next s (.register version importances metrics)) := by
  intro h
  have hnew := Table.get?_save_self s.registry.artifacts
    ⟨version, importances, metrics, false⟩
  have hflag := (Consistent.flag h hnew).2 hs
  cases hflag

theorem consistent_run {ops : List Operation} (h : ValidTrace SparesActive next {} ops) :
    Consistent (run ops) :=
  history_invariant (I := fun _ s => Consistent s) consistent_initial
    (fun _ _ _ hs hop => consistent_next hs hop) h

/-- The four places agree throughout a run exactly as long as nobody registers the version
that is active. -/
theorem always_consistent_iff {ops : List Operation} :
    AlwaysConsistent ops ↔ ValidTrace SparesActive next {} ops := by
  constructor
  · intro h
    refine validTrace_of_after fun xs op hp _ => ?_
    cases op with
    | register version importances metrics =>
      intro hs
      have hafter := h _ hp
      rw [run, runTrace_concat] at hafter
      exact not_consistent_reregister hs hafter
    | activateModel version => trivial
    | rollback => trivial
  · intro h xs hp
    exact consistent_run (validTrace_earlier hp h)

def reregistered : List Operation :=
  [.register "v1" [] [], .activateModel "v1", .register "v1" [] []]

theorem reregistered_inconsistent :
    (run reregistered).registry.activeVersion = some "v1" ∧
    ((run reregistered).registry.artifacts.get? "v1").map ModelArtifact.isActive =
      some false ∧
    ¬ AlwaysConsistent reregistered := by
  refine ⟨by decide, by decide, fun h => ?_⟩
  have hafter := h reregistered List.prefix_rfl
  have hflag := (Consistent.flag hafter (v := "v1") rfl).2 (by decide)
  exact absurd hflag (by decide)

end TrustCopilot.ModelSelection
