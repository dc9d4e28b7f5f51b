import TrustCopilot.OfflineEvaluation
import TrustCopilot.Library.Binary64
import TrustCopilot.Library.GatedLog
import Mathlib.Algebra.Order.BigOperators.Group.List

/-! Candidate scores compared with live ones behind a switch, and the report on the differences.
Scores are doubles, as is a difference before it is rounded; the figures of the report are exact. -/
namespace TrustCopilot.ShadowScoring

open TrustCopilot.Binary64
open TrustCopilot.GatedLog
open TrustCopilot.OfflineEvaluation (FeatureVector)
open TrustCopilot.Rounding

structure ShadowDiff where
  accountId : String
  liveScore : ℚ
  shadowScore : ℚ
  liveSource : String
  shadowSource : String
  diff : ℚ
  deriving DecidableEq, Repr

def ShadowDiff.significant (d : ShadowDiff) : Prop := 1 / 10 < |d.diff|

instance (d : ShadowDiff) : Decidable d.significant :=
  inferInstanceAs (Decidable (1 / 10 < |d.diff|))

abbrev ShadowScorer := Gate ShadowDiff

def enable (s : ShadowScorer) : ShadowScorer := { s with enabled := true }

def disable (s : ShadowScorer) : ShadowScorer := { s with enabled := false }

def shadowDiff (fv : FeatureVector) (liveScore : ℚ) (liveSource : String)
    (shadowFn : FeatureVector → ℚ × String) : ShadowDiff where
  accountId := fv.accountId
  liveScore := liveScore
  shadowScore := (shadowFn fv).1
  liveSource := liveSource
  shadowSource := (shadowFn fv).2
  diff := roundTo 4 (toDouble ((shadowFn fv).1 - liveScore))

def score (s : ShadowScorer) (fv : FeatureVector) (liveScore : ℚ) (liveSource : String)
    (shadowFn : FeatureVector → ℚ × String) : Option ShadowDiff × ShadowScorer :=
  if s.enabled then
    let diff := shadowDiff fv liveScore liveSource shadowFn
    (some diff, { s with log := s.log ++ [diff] })
  else (none, s)

/-- The last three entries are there only if anything was compared. -/
structure DiffReport where
  total : ℕ
  significant : ℕ
  significantPct : Option ℚ := none
  avgDiff : ℚ
  maxDiff : Option ℚ := none
  minDiff : Option ℚ := none
  deriving DecidableEq, Repr

def diffReport (s : ShadowScorer) : DiffReport :=
  let diffs := s.log.map ShadowDiff.diff
  if s.log = [] then { total := 0, significant := 0, avgDiff := 0 }
  else
    let sig := s.log.countP fun d => d.significant
    let avg := diffs.sum / s.log.length
    { total := s.log.length
      significant := sig
      significantPct := some (roundTo 1 (sig / s.log.length * 100))
      avgDiff := roundTo 4 avg
      maxDiff := diffs.max?.map (roundTo 4)
      minDiff := diffs.min?.map (roundTo 4) }

structure Comparison where
  fv : FeatureVector
  liveScore : ℚ
  liveSource : String
  shadowFn : FeatureVector → ℚ × String

def Comparison.diff (c : Comparison) : ShadowDiff :=
  shadowDiff c.fv c.liveScore c.liveSource c.shadowFn

def Comparison.gap (c : Comparison) : ℚ := toDouble ((c.shadowFn c.fv).1 - c.liveScore)

def call (s : ShadowScorer) : Event Comparison → ShadowScorer
  | .enable => enable s
  | .disable => disable s
  | .offer c => (score s c.fv c.liveScore c.liveSource c.shadowFn).2

/-- The scorer after the calls. It is off at first. -/
def after (calls : List (Event Comparison)) : ShadowScorer := calls.foldl call {}

/-! ### What is recorded -/

theorem call_eq_next (s : ShadowScorer) (c : Event Comparison) :
    call s c = next s (c.map Comparison.diff) := by
  cases c with
  | enable => rfl
  | disable => rfl
  | offer c =>
    rw [call, score, Event.map, next]
    split <;> rfl

theorem after_log (calls : List (Event Comparison)) :
    (after calls).log = (admitted false calls).map Comparison.diff := by
  have hrun : after calls = run {} (calls.map (Event.map Comparison.diff)) := by
    rw [after, run, List.foldl_map, funext fun s => funext (call_eq_next s)]
  rw [hrun, run_eq, List.nil_append, admitted_map]

/-- Rounding settles ties for the even fourth decimal, so a difference counts as significant only
beyond half a unit of it over a tenth. -/
theorem significant_iff (c : Comparison) : c.diff.significant ↔ 10005 / 100000 < |c.gap| := by
  have hup : roundTo 4 c.gap ≤ ((1000 : ℤ) : ℚ) / 10 ^ 4 ↔
      c.gap ≤ (((1000 : ℤ) : ℚ) + 1 / 2) / 10 ^ 4 := roundTo_le_iff rfl
  have hdown : ((-1000 : ℤ) : ℚ) / 10 ^ 4 ≤ roundTo 4 c.gap ↔
      (((-1000 : ℤ) : ℚ) - 1 / 2) / 10 ^ 4 ≤ c.gap := le_roundTo_iff rfl
  have htenth : -(1 / 10 : ℚ) = ((-1000 : ℤ) : ℚ) / 10 ^ 4 ∧
      (1 / 10 : ℚ) = ((1000 : ℤ) : ℚ) / 10 ^ 4 := by norm_num
  have hbound : -(10005 / 100000 : ℚ) = (((-1000 : ℤ) : ℚ) - 1 / 2) / 10 ^ 4 ∧
      (10005 / 100000 : ℚ) = (((1000 : ℤ) : ℚ) + 1 / 2) / 10 ^ 4 := by norm_num
  have hdiff : c.diff.diff = roundTo 4 c.gap := rfl
  rw [ShadowDiff.significant, hdiff, ← not_le, ← not_le, abs_le, abs_le, htenth.1, htenth.2,
    hbound.1, hbound.2, hup, hdown]

/-! ### The report -/

theorem mean_between {ds : List ℚ} (hds : ds ≠ []) {lo hi : ℚ} (hlo : ∀ d ∈ ds, lo ≤ d)
    (hhi : ∀ d ∈ ds, d ≤ hi) : lo ≤ ds.sum / ds.length ∧ ds.sum / ds.length ≤ hi := by
  have hpos : (0 : ℚ) < ds.length := Nat.cast_pos.2 (List.length_pos_of_ne_nil hds)
  have hbelow := List.card_nsmul_le_sum ds lo hlo
  have habove := List.sum_le_card_nsmul ds hi hhi
  rw [nsmul_eq_mul, mul_comm] at hbelow habove
  exact ⟨(le_div_iff₀ hpos).2 hbelow, (div_le_iff₀ hpos).2 habove⟩

theorem diff_rounded (c : Comparison) : roundTo 4 c.diff.diff = c.diff.diff :=
  roundTo_exact 4 (roundHalfEven (c.gap * 10 ^ 4))

/-- Of any run the report counts the comparisons that were made while the scorer was on, and as
significant those that are more than 0.10005 apart; the mean that it gives and every difference lie
between its least and its greatest one. -/
theorem report_sound (calls : List (Event Comparison)) :
    let made := admitted false calls
    let r := diffReport (after calls)
    r.total = made.length ∧
    r.significant = made.countP (fun c => 10005 / 100000 < |c.gap|) ∧
    (∀ pct, r.significantPct = some pct → 0 ≤ pct ∧ pct ≤ 100) ∧
    ∀ lo hi, r.minDiff = some lo → r.maxDiff = some hi → lo ≤ r.avgDiff ∧ r.avgDiff ≤ hi ∧
      ∀ c ∈ made, lo ≤ c.diff.diff ∧ c.diff.diff ≤ hi := by
  intro made r
  have hlog : (after calls).log = made.map Comparison.diff := after_log calls
  have hcount : ((after calls).log.countP fun d => d.significant) =
      made.countP fun c => 10005 / 100000 < |c.gap| := by
    rw [hlog, List.countP_map]
    simp only [Function.comp_def, significant_iff]
  have hlen : (after calls).log.length = made.length := by rw [hlog, List.length_map]
  have hr : r = diffReport (after calls) := rfl
  rw [diffReport] at hr
  split at hr
  · next hnil =>
    rw [hr]
    have hmade : made = [] := List.map_eq_nil_iff.1 (hlog.symm.trans hnil)
    rw [hmade]
    exact ⟨rfl, rfl, nofun, nofun⟩
  · next hsome =>
    rw [hr]
    refine ⟨hlen, hcount, fun pct hpct => ?_, fun lo hi hlo hhi => ?_⟩
    · obtain rfl := Option.some.inj hpct
      exact roundTo_percent List.countP_le_length
    · obtain ⟨low, hlow, rfl⟩ := Option.map_eq_some_iff.1 hlo
      obtain ⟨high, hhigh, rfl⟩ := Option.map_eq_some_iff.1 hhi
      have hleast := (List.min?_eq_some_iff.1 hlow).2
      have hgreatest := (List.max?_eq_some_iff.1 hhigh).2
      have hmean := mean_between (mt List.map_eq_nil_iff.1 hsome) hleast hgreatest
      rw [List.length_map] at hmean
      refine ⟨roundTo_mono 4 hmean.1, roundTo_mono 4 hmean.2, fun c hc => ?_⟩
      have hmem : c.diff.diff ∈ (after calls).log.map ShadowDiff.diff := by
        rw [hlog]
        exact List.mem_map_of_mem (List.mem_map_of_mem hc)
      rw [← diff_rounded]
      exact ⟨roundTo_mono 4 (hleast _ hmem), roundTo_mono 4 (hgreatest _ hmem)⟩

end TrustCopilot.ShadowScoring
