import TrustCopilot.SignalDecay
import Mathlib.Data.List.Induction

/-! How the why-now score answers to a further signal and to time. -/
namespace TrustCopilot.WhyNowScore

open TrustCopilot.SignalDecay
open TrustCopilot.TriggerTaxonomy

def Confident (signals : List SignalInput) : Prop :=
  ∀ sig ∈ signals, 0 ≤ sig.confidence ∧ sig.confidence ≤ 1

/-- The score is a fraction. A negative signal does not raise it and any other does not lower it,
wherever it stands in the list, and without negative signals it only fades. -/
structure ScoreLaws (m : MathExp) : Prop where
  bounded : ∀ signals now score, computeWhyNowScore m signals now = .ok score →
    0 ≤ score ∧ score ≤ 1
  negative : ∀ before sig after now score score', getCategory sig.signalType = .negative →
    computeWhyNowScore m (before ++ after) now = .ok score →
    computeWhyNowScore m (before ++ sig :: after) now = .ok score' → score' ≤ score
  other : ∀ before sig after now score score', getCategory sig.signalType ≠ .negative →
    Confident (before ++ sig :: after) →
    computeWhyNowScore m (before ++ after) now = .ok score →
    computeWhyNowScore m (before ++ sig :: after) now = .ok score' → score ≤ score'
  fading : ∀ signals now now' score score', Confident signals →
    (∀ sig ∈ signals, getCategory sig.signalType ≠ .negative) → now ≤ now' →
    computeWhyNowScore m signals now = .ok score →
    computeWhyNowScore m signals now' = .ok score' → score' ≤ score
  returns : ∀ signals now,
    (∃ score, computeWhyNowScore m signals now = .ok score) ↔ (tally m signals now).InRange m

variable {m : MathExp} {sig : SignalInput} {signals : List SignalInput} {t : Tally} {now now' : ℤ}

theorem weight_nonneg (hcat : getCategory sig.signalType ≠ .negative)
    (hconf : 0 ≤ sig.confidence) : 0 ≤ sig.weight m now :=
  mul_nonneg (decayedWeight_nonneg m hcat _ _) hconf

theorem weight_antitone (hcat : getCategory sig.signalType ≠ .negative)
    (hconf : 0 ≤ sig.confidence) (hle : now ≤ now') : sig.weight m now' ≤ sig.weight m now :=
  mul_le_mul_of_nonneg_right (decayedWeight_antitone m hcat _ hle) hconf

theorem add_negative_raw (h : getCategory sig.signalType = .negative) :
    (t.add m now sig).raw ≤ t.raw ∧ (t.add m now sig).maxPositive = t.maxPositive := by
  rw [add_negative h]
  refine ⟨?_, rfl⟩
  have habs := abs_nonneg (sig.weight m now)
  rw [Tally.raw, Tally.raw]
  linarith

theorem add_other_raw (h : getCategory sig.signalType ≠ .negative) (hconf : 0 ≤ sig.confidence) :
    t.raw ≤ (t.add m now sig).raw ∧ t.maxPositive ≤ (t.add m now sig).maxPositive := by
  obtain ⟨x, -, hadd⟩ := add_other (m := m) h
  have hweight : 0 ≤ sig.weight m now := weight_nonneg h hconf
  rw [hadd]
  refine ⟨?_, le_max_left _ _⟩
  rw [Tally.raw, Tally.raw]
  linarith

/-- Time takes from the raw sum and leaves the strongest type as it is. -/
theorem tally_fades (hconf : Confident signals)
    (hcat : ∀ sig ∈ signals, getCategory sig.signalType ≠ .negative) (hle : now ≤ now') :
    (tally m signals now').raw ≤ (tally m signals now).raw ∧
      (tally m signals now').maxPositive = (tally m signals now).maxPositive := by
  induction signals using List.reverseRecOn with
  | nil =>
    have hnil (now : ℤ) : tally m [] now = {} := rfl
    rw [hnil, hnil]
    exact ⟨le_refl _, rfl⟩
  | append_singleton signals sig ih =>
    obtain ⟨hraw, hmax⟩ := ih (fun s hs => hconf s (List.mem_append_left _ hs))
      fun s hs => hcat s (List.mem_append_left _ hs)
    have hin : sig ∈ signals ++ [sig] := List.mem_append_right _ List.mem_cons_self
    obtain ⟨x, -, hadd⟩ := add_other (m := m) (hcat sig hin)
    have hweight : sig.weight m now' ≤ sig.weight m now :=
      weight_antitone (hcat sig hin) (hconf sig hin).1 hle
    have hinsert := tally_insert (m := m) signals [] sig
    rw [List.append_nil] at hinsert
    rw [hinsert, hinsert, hadd, hadd]
    constructor
    · rw [Tally.raw, Tally.raw] at hraw ⊢
      dsimp only
      linarith
    · exact congrArg (max · x) hmax

end TrustCopilot.WhyNowScore
