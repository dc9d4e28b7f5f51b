import TrustCopilot.LanePromotions

/-! Consumes of any count. The endpoint takes every integer, and both limit tests are passed by
a negative one, which gives spent units back. -/
namespace TrustCopilot.LaneRefunds

open TrustCopilot.Trace
open TrustCopilot.LaneBudgets
open TrustCopilot.LanePromotions

def setBudget (budget : LaneBudget) (dailyLimit hourlyLimit : ℤ) : LaneBudget :=
  { budget with dailyLimit := dailyLimit, hourlyLimit := hourlyLimit }

inductive LaneRequest where
  | consume (now count : ℤ)
  | checkBudget (now : ℤ)
  | setPause (paused : Bool)
  | setBudget (dailyLimit hourlyLimit : ℤ)
  deriving DecidableEq, Repr

def next (b : LaneBudget) : LaneRequest → LaneBudget
  | .consume now count => (consume b now count).1
  | .checkBudget now => (checkBudget b now).1
  | .setPause paused => setPause b paused
  | .setBudget dailyLimit hourlyLimit => setBudget b dailyLimit hourlyLimit

def run (row : LaneBudget) (requests : List LaneRequest) : LaneBudget :=
  runTrace next row requests

def LaneRequest.reading : LaneRequest → Option ℤ
  | .consume now _ => some now
  | .checkBudget now => some now
  | _ => none

/-- The request does not begin a new day, or a new hour, of the row. -/
def InDay (b : LaneBudget) (r : LaneRequest) : Prop := ∀ now ∈ r.reading, ¬ DayLapsed b now

def InHour (b : LaneBudget) (r : LaneRequest) : Prop := ∀ now ∈ r.reading, ¬ HourLapsed b now

/-- A consume that succeeds leaves no counter lower than the window reset before it. -/
def KeepsSpent (b : LaneBudget) : LaneRequest → Prop
  | .consume now count => (consume b now count).2 = .ok () →
    (maybeReset b now).usedToday ≤ (consume b now count).1.usedToday ∧
    (maybeReset b now).usedThisHour ≤ (consume b now count).1.usedThisHour
  | _ => True

/-- A negative count is not granted: the row is paused or a limit test fails even so. -/
def NoRefund (b : LaneBudget) : LaneRequest → Prop
  | .consume now count => 0 ≤ count ∨ b.hardPause = true ∨
    b.dailyLimit < (maybeReset b now).usedToday + count ∨
    b.hourlyLimit < (maybeReset b now).usedThisHour + count
  | _ => True

instance (b : LaneBudget) : (r : LaneRequest) → Decidable (NoRefund b r)
  | .consume .. => inferInstanceAs (Decidable (_ ∨ _))
  | .checkBudget _ => isTrue trivial
  | .setPause _ => isTrue trivial
  | .setBudget .. => isTrue trivial

structure SpentKept (row : LaneBudget) (requests : List LaneRequest) : Prop where
  each : ∀ xs r, xs ++ [r] <+: requests → KeepsSpent (run row xs) r
  daily : ∀ xs ys, xs ++ ys <+: requests → ValidTrace InDay next (run row xs) ys →
    (run row xs).usedToday ≤ (run row (xs ++ ys)).usedToday
  hourly : ∀ xs ys, xs ++ ys <+: requests → ValidTrace InHour next (run row xs) ys →
    (run row xs).usedThisHour ≤ (run row (xs ++ ys)).usedThisHour

variable {b row : LaneBudget} {r : LaneRequest} {requests : List LaneRequest}

theorem keepsSpent_iff (b : LaneBudget) (r : LaneRequest) : KeepsSpent b r ↔ NoRefund b r := by
  cases r with
  | consume now count =>
    rw [KeepsSpent, NoRefund]
    constructor
    · intro hkeep
      by_contra hrefund
      rw [not_or, not_or, not_or, Bool.not_eq_true] at hrefund
      obtain ⟨hcount, hpause, hday, hhour⟩ := hrefund
      have hok : (consume b now count).2 = .ok () :=
        consume_ok_iff.2 ⟨hpause, by omega, by omega⟩
      have hkept := (hkeep hok).1
      rw [consume_granted hok, granted] at hkept
      dsimp only at hkept
      omega
    · intro hrefund hok
      obtain ⟨hpause, hday, hhour⟩ := consume_ok_iff.1 hok
      have hcount : 0 ≤ count := by
        rcases hrefund with hcount | hpaused | hover | hover
        · exact hcount
        · rw [hpause] at hpaused
          cases hpaused
        · omega
        · omega
      rw [consume_granted hok, granted]
      dsimp only
      omega
  | _ => exact Iff.rfl

theorem maybeReset_inDay {now : ℤ} (h : ¬ DayLapsed b now) :
    (maybeReset b now).usedToday = b.usedToday := by
  rw [maybeReset, resetDay, if_neg h, resetHour]
  split <;> rfl

theorem maybeReset_inHour {now : ℤ} (h : ¬ HourLapsed b now) :
    (maybeReset b now).usedThisHour = b.usedThisHour := by
  rw [maybeReset, resetHour, if_neg (mt (hourLapsed_resetDay b now).1 h), resetDay]
  split <;> rfl

/-- A refused consume and a check leave the row as it is or reset, and a consume without a
refund counts on from the reset. -/
theorem next_counters (h : NoRefund b r) :
    (next b r = b ∨ (next b r).usedToday = b.usedToday ∧
      (next b r).usedThisHour = b.usedThisHour) ∨
    ∃ now ∈ r.reading, (maybeReset b now).usedToday ≤ (next b r).usedToday ∧
      (maybeReset b now).usedThisHour ≤ (next b r).usedThisHour := by
  cases r with
  | consume now count =>
    have hkeep := (keepsSpent_iff b (.consume now count)).2 h
    rcases consume_cases b now count with ⟨-, he⟩ | ⟨-, e, he⟩ | ⟨-, -, -, he⟩
    · exact Or.inl (Or.inl (by rw [next, he]))
    · exact Or.inr ⟨now, rfl, by rw [next, he]; exact ⟨Int.le_refl _, Int.le_refl _⟩⟩
    · exact Or.inr ⟨now, rfl, hkeep (by rw [he])⟩
  | checkBudget now =>
    rcases checkBudget_row_cases b now with he | he
    · exact Or.inl (Or.inl (by rw [next, he]))
    · exact Or.inr ⟨now, rfl, by rw [next, he]; exact ⟨Int.le_refl _, Int.le_refl _⟩⟩
  | setPause paused => exact Or.inl (Or.inr ⟨rfl, rfl⟩)
  | setBudget dailyLimit hourlyLimit => exact Or.inl (Or.inr ⟨rfl, rfl⟩)

theorem next_inDay (h : NoRefund b r) (hd : InDay b r) : b.usedToday ≤ (next b r).usedToday := by
  rcases next_counters h with (he | he) | ⟨now, hr, hle, -⟩
  · rw [he]
  · omega
  · rw [maybeReset_inDay (hd now hr)] at hle
    exact hle

theorem next_inHour (h : NoRefund b r) (hh : InHour b r) :
    b.usedThisHour ≤ (next b r).usedThisHour := by
  rcases next_counters h with (he | he) | ⟨now, hr, -, hle⟩
  · rw [he]
  · omega
  · rw [maybeReset_inHour (hh now hr)] at hle
    exact hle

/-- What is spent stays spent over a run exactly if no negative count is granted in it. -/
theorem spentKept_iff (row : LaneBudget) (requests : List LaneRequest) :
    SpentKept row requests ↔ ValidTrace NoRefund next row requests := by
  constructor
  · intro h
    refine validTrace_of_after fun xs r hp _ => ?_
    exact (keepsSpent_iff _ r).1 (h.each xs r hp)
  · intro h
    constructor
    · intro xs r hp
      exact (keepsSpent_iff _ r).2 (validTrace_concat.1 (validTrace_earlier hp h)).2
    · intro xs ys hp hd
      have hys := (validTrace_append.1 (validTrace_earlier hp h)).2
      rw [run, run, runTrace_append]
      exact le_runTrace (fun b r hr => next_inDay hr.1 hr.2) (validTrace_and.2 ⟨hys, hd⟩)
    · intro xs ys hp hh
      have hys := (validTrace_append.1 (validTrace_earlier hp h)).2
      rw [run, run, runTrace_append]
      exact le_runTrace (fun b r hr => next_inHour hr.1 hr.2) (validTrace_and.2 ⟨hys, hh⟩)

def spentTwice : List LaneRequest :=
  [.consume 1 100, .consume 2 (-50), .consume 3 50]

theorem refund_respent :
    ¬ SpentKept (newBudget "discovery" "global" 100 100 0) spentTwice ∧
    (run (newBudget "discovery" "global" 100 100 0) (spentTwice.take 1)).usedToday = 100 ∧
    (run (newBudget "discovery" "global" 100 100 0) (spentTwice.take 2)).usedToday = 50 ∧
    (consume (run (newBudget "discovery" "global" 100 100 0) (spentTwice.take 2)) 3 50).2 =
      .ok () := by
  refine ⟨fun h => ?_, by decide, by decide, rfl⟩
  have hkeep := h.each [.consume 1 100] (.consume 2 (-50)) (by decide) rfl
  exact absurd hkeep.1 (by decide)

end TrustCopilot.LaneRefunds
