import TrustCopilot.Library.SelectInsert

/-! How many rows the lane budgets have. `get_or_create_budget` selects the row of a lane and
scope and inserts one when there is none; the table has no constraint on the pair. No other
operation adds a row or changes the lane or scope of one, so a row stands by these two. -/
namespace TrustCopilot.LaneBudgetRows

open TrustCopilot.Trace
open TrustCopilot.SelectInsert

variable {κ : Type*} [DecidableEq κ]

structure BudgetKey where
  lane : String
  scope : String := "global"
  deriving DecidableEq, Repr

/-- The statements of one call; the insert is skipped when the select has found a row. -/
def getOrCreateBudget (k : κ) (key : BudgetKey) : List (Action κ BudgetKey) :=
  [.select k key, .insert k]

/-- `scalar_one_or_none` raises on more than one row. -/
def raisesMultipleResults (s : Store κ BudgetKey) (k : κ) (key : BudgetKey) : Bool :=
  lookup s k key = .multiple

structure OneBudgetRow (s : Store κ BudgetKey) : Prop where
  rows : ∀ key, s.rows.count key ≤ 1
  lookups : ∀ k key, raisesMultipleResults s k key = false

omit [DecidableEq κ] in
theorem oneBudgetRow_iff {s : Store κ BudgetKey} : OneBudgetRow s ↔ OneRowEach s := by
  constructor
  · intro h
    constructor
    · exact List.nodup_iff_count_le_one.2 h.rows
    · intro k
      apply List.nodup_iff_count_le_one.2
      intro key
      have hraise := h.lookups k key
      rw [raisesMultipleResults, decide_eq_false_iff_not, lookup_multiple_iff] at hraise
      exact not_lt.1 hraise
  · intro h
    constructor
    · exact List.nodup_iff_count_le_one.1 h.rows
    · intro k key
      rw [raisesMultipleResults, decide_eq_false_iff_not, lookup_multiple_iff, not_lt]
      exact List.nodup_iff_count_le_one.1 (h.visible k) key

/-- The budgets keep to one row a lane and scope exactly when no session inserts after another
has committed a row for the pair, and none commits while another holds an uncommitted one. -/
theorem one_budget_row_iff (es : List (Action κ BudgetKey)) :
    (∀ xs, xs <+: es → OneBudgetRow (run xs)) ↔ ValidTrace NoRival next initial es := by
  rw [← one_row_iff]
  constructor
  · intro h xs hp
    exact oneBudgetRow_iff.1 (h xs hp)
  · intro h xs hp
    exact oneBudgetRow_iff.2 (h xs hp)

def contactKey : BudgetKey := { lane := "contact" }

def bothCreate : List (Action ℕ BudgetKey) :=
  [.select 0 contactKey, .select 1 contactKey, .insert 0, .insert 1, .commit 0, .commit 1]

/-- Both rows are committed, and every later lookup raises. -/
theorem both_create_two_rows :
    (run bothCreate).rows = [contactKey, contactKey] ∧
    raisesMultipleResults (run bothCreate) 2 contactKey = true ∧
    ¬ OneBudgetRow (run bothCreate) := by
  have hraises : raisesMultipleResults (run bothCreate) 2 contactKey = true := by decide
  refine ⟨by decide, hraises, fun h => ?_⟩
  rw [h.lookups] at hraises
  cases hraises

/-- Calls that follow one another share the first row. -/
example :
    (run (getOrCreateBudget 0 contactKey ++ [.commit 0] ++ getOrCreateBudget 1 contactKey ++
      [.commit 1])).rows = [contactKey] := by decide

end TrustCopilot.LaneBudgetRows
