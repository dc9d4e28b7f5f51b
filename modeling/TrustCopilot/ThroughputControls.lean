import TrustCopilot.Library.OrderedDict
import TrustCopilot.Library.Trace
import Mathlib.Algebra.Order.Ring.Int

/-! Daily budgets of the discovery sources. Setting the budget of a source again puts a fresh
object in the place of the old one, and what the day has used goes with it. -/
namespace TrustCopilot.ThroughputControls

open TrustCopilot.OrderedDict
open TrustCopilot.Trace

structure SourceBudget where
  sourceId : String
  dailyLimit : ℤ := 10000
  usedToday : ℕ := 0
  deriving DecidableEq, Repr

def SourceBudget.exhausted (b : SourceBudget) : Bool := b.dailyLimit ≤ b.usedToday

/-- `totalSkipped` is the counter of the metrics that a refused consumption moves. -/
structure ThroughputGovernor where
  sourceBudgets : Dict String SourceBudget
  totalSkipped : ℕ

def ThroughputGovernor.new : ThroughputGovernor := ⟨Dict.empty, 0⟩

def setSourceBudget (gov : ThroughputGovernor) (sourceId : String) (dailyLimit : ℤ) :
    ThroughputGovernor :=
  { gov with
    sourceBudgets := gov.sourceBudgets.set sourceId
      { sourceId := sourceId, dailyLimit := dailyLimit } }

def consumeSourceBudget (gov : ThroughputGovernor) (sourceId : String) :
    Bool × ThroughputGovernor :=
  match gov.sourceBudgets.get? sourceId with
  | none => (true, gov)
  | some budget =>
    if budget.exhausted then (false, { gov with totalSkipped := gov.totalSkipped + 1 })
    else
      (true,
        { gov with
          sourceBudgets := gov.sourceBudgets.set sourceId
            { budget with usedToday := budget.usedToday + 1 } })

inductive Call where
  | setSourceBudget (sourceId : String) (dailyLimit : ℤ)
  | consumeSourceBudget (sourceId : String)
  deriving DecidableEq, Repr

def next (gov : ThroughputGovernor) : Call → ThroughputGovernor
  | .setSourceBudget k limit => setSourceBudget gov k limit
  | .consumeSourceBudget k => (consumeSourceBudget gov k).2

def run (calls : List Call) : ThroughputGovernor := runTrace next .new calls

def answer (k : String) (gov : ThroughputGovernor) : Call → List Bool
  | .setSourceBudget .. => []
  | .consumeSourceBudget j => if j = k then [(consumeSourceBudget gov j).1] else []

def granted (k : String) (gov : ThroughputGovernor) (calls : List Call) : ℕ :=
  (emitted (answer k) next gov calls).count true

def limits (k : String) (calls : List Call) : List ℤ :=
  calls.filterMap fun
    | .setSourceBudget j limit => if j = k then some limit else none
    | .consumeSourceBudget _ => none

/-- At every moment after the first budget of the source was set, its successful consumptions
since then are no more than the largest of its limits. -/
def WithinLargest (k : String) (calls : List Call) : Prop :=
  ∀ before limit after, before ++ .setSourceBudget k limit :: after <+: calls →
    limits k before = [] →
    ∃ largest ∈ limit :: limits k after,
      (granted k (run (before ++ [.setSourceBudget k limit])) after : ℤ) ≤ largest

/-- The budgets of the source one after the other, each with its limit and the number of
consumptions tried while it stands. The one that stands now was tried `tries` times. -/
def spells (k : String) (limit : ℤ) (tries : ℕ) : List Call → List (ℤ × ℕ)
  | [] => [(limit, tries)]
  | .setSourceBudget j limit' :: calls =>
    if j = k then (limit, tries) :: spells k limit' 0 calls else spells k limit tries calls
  | .consumeSourceBudget j :: calls =>
    spells k limit (if j = k then tries + 1 else tries) calls

def yield (spell : ℤ × ℕ) : ℕ := min spell.2 spell.1.toNat

/-- At every moment the budgets of the source together give no more than the largest limit. -/
def SpellsWithinLargest (k : String) (calls : List Call) : Prop :=
  ∀ before limit after, before ++ .setSourceBudget k limit :: after <+: calls →
    limits k before = [] →
    ∃ largest ∈ limit :: limits k after,
      (((spells k limit 0 after).map yield).sum : ℤ) ≤ largest

variable {k : String} {gov : ThroughputGovernor} {calls : List Call}

theorem set_self (gov : ThroughputGovernor) (k : String) (limit : ℤ) :
    (setSourceBudget gov k limit).sourceBudgets.get? k =
      some { sourceId := k, dailyLimit := limit } := Dict.get?_set_self _ _ _

theorem consume_other {j : String} (h : j ≠ k) :
    (consumeSourceBudget gov j).2.sourceBudgets.get? k = gov.sourceBudgets.get? k := by
  rw [consumeSourceBudget]
  split
  · rfl
  · split
    · rfl
    · exact Dict.get?_set_other _ (Ne.symm h) _

theorem consume_exhausted {b : SourceBudget} (hb : gov.sourceBudgets.get? k = some b)
    (hx : b.exhausted = true) :
    (consumeSourceBudget gov k).1 = false ∧
      (consumeSourceBudget gov k).2.sourceBudgets.get? k = some b := by
  simp [consumeSourceBudget, hb, hx]

theorem consume_room {b : SourceBudget} (hb : gov.sourceBudgets.get? k = some b)
    (hx : b.exhausted = false) :
    (consumeSourceBudget gov k).1 = true ∧
      (consumeSourceBudget gov k).2.sourceBudgets.get? k =
        some { b with usedToday := b.usedToday + 1 } := by
  simp [consumeSourceBudget, hb, hx]

/-- A budget that was tried so often has used what it could give. -/
theorem granted_spells {b : SourceBudget} {tries : ℕ}
    (hb : gov.sourceBudgets.get? k = some b) (hused : b.usedToday = yield (b.dailyLimit, tries)) :
    granted k gov calls + b.usedToday =
      ((spells k b.dailyLimit tries calls).map yield).sum := by
  induction calls generalizing gov b tries with
  | nil => simp [granted, emitted, spells, hused]
  | cons c calls ih =>
    have hcount : granted k gov (c :: calls) =
        (answer k gov c).count true + granted k (next gov c) calls := List.count_append
    rw [hcount]
    cases c with
    | setSourceBudget j limit =>
      have hquiet : (answer k gov (.setSourceBudget j limit)).count true = 0 := rfl
      rw [hquiet, Nat.zero_add, spells, next]
      by_cases hj : j = k
      · subst hj
        have hfresh := @ih _ _ 0 (set_self gov j limit) (by simp [yield])
        rw [if_pos rfl, List.map_cons, List.sum_cons, ← hfresh, ← hused]
        exact Nat.add_comm _ _
      · rw [if_neg hj]
        exact ih ((Dict.get?_set_other _ (Ne.symm hj) _).trans hb) hused
    | consumeSourceBudget j =>
      rw [spells, next, answer]
      by_cases hj : j = k
      · subst hj
        rw [if_pos rfl, if_pos rfl]
        have hexhausted : b.exhausted = decide (b.dailyLimit ≤ b.usedToday) := rfl
        rw [yield] at hused
        cases hx : b.exhausted with
        | true =>
          obtain ⟨hanswer, hbudget⟩ := consume_exhausted hb hx
          rw [hexhausted, decide_eq_true_eq] at hx
          have hsame := @ih _ b (tries + 1) hbudget (by rw [yield]; omega)
          rw [hanswer, ← hsame]
          simp
        | false =>
          obtain ⟨hanswer, hbudget⟩ := consume_room hb hx
          rw [hexhausted, decide_eq_false_iff_not] at hx
          have hmore := @ih _ _ (tries + 1) hbudget (by rw [yield]; dsimp only; omega)
          rw [hanswer, ← hmore]
          simp
          omega
      · rw [if_neg hj, if_neg hj]
        have hsame := @ih (consumeSourceBudget gov j).2 b tries ((consume_other hj).trans hb) hused
        simpa using hsame

/-- After its first budget a source is granted what its budgets give one after the other. -/
theorem granted_after_set (k : String) (before : List Call) (limit : ℤ) (after : List Call) :
    granted k (run (before ++ [.setSourceBudget k limit])) after =
      ((spells k limit 0 after).map yield).sum := by
  have hb : (run (before ++ [.setSourceBudget k limit])).sourceBudgets.get? k =
      some { sourceId := k, dailyLimit := limit } := by
    rw [run, runTrace_concat, next]
    exact set_self _ k limit
  have hspells := @granted_spells k _ after _ 0 hb (by simp [yield])
  simpa using hspells

/-- The bound holds through every reload exactly if the budgets of the source, each as far as
its tries go, add up to no more than the largest of them. -/
theorem within_largest_iff (k : String) (calls : List Call) :
    WithinLargest k calls ↔ SpellsWithinLargest k calls := by
  constructor
  · intro h before limit after hp hfirst
    have hwithin := h before limit after hp hfirst
    rwa [granted_after_set] at hwithin
  · intro h before limit after hp hfirst
    rw [granted_after_set]
    exact h before limit after hp hfirst

def reloaded : List Call :=
  .setSourceBudget "s-1" 5 :: List.replicate 5 (.consumeSourceBudget "s-1") ++
    [.setSourceBudget "s-1" 5, .consumeSourceBudget "s-1"]

theorem reload_grants_sixth :
    granted "s-1" (run [.setSourceBudget "s-1" 5]) (reloaded.drop 1) = 6 ∧
    ¬ WithinLargest "s-1" reloaded := by
  have hsix : granted "s-1" (run [.setSourceBudget "s-1" 5]) (reloaded.drop 1) = 6 := by
    decide
  refine ⟨hsix, fun h => ?_⟩
  obtain ⟨largest, hin, hle⟩ := h [] 5 (reloaded.drop 1) ⟨[], rfl⟩ rfl
  have hfive : largest = 5 := by
    simpa [limits, reloaded] using hin
  rw [List.nil_append, hsix, hfive] at hle
  exact absurd hle (by decide)

end TrustCopilot.ThroughputControls
