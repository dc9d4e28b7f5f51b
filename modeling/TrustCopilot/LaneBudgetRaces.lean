import TrustCopilot.LaneBudgets
import TrustCopilot.Library.UnlockedUpdate

/-! Concurrent consumes of one budget row inside one day and one hour window. Every request
runs in its own session, which reads the row, tests and adds on its copy, and whose commit
writes the counters it computed as absolute values. -/
namespace TrustCopilot.LaneBudgetRaces

open TrustCopilot.Trace
open TrustCopilot.LaneBudgets
open TrustCopilot.UnlockedUpdate (Update Store Action Serial Stamped FreshCommit)

structure WindowRequest (row : LaneBudget) where
  now : ℤ
  count : ℤ
  positive : 1 ≤ count
  same_day : ¬ DayLapsed row now
  same_hour : ¬ HourLapsed row now

def consumeUpdate (row : LaneBudget) : Update LaneBudget (WindowRequest row) ℤ where
  apply copy x :=
    match consume copy x.now x.count with
    | (copy, .ok _) => some (copy, x.count)
    | (_, .error _) => none
  write stored copy :=
    { stored with usedToday := copy.usedToday, usedThisHour := copy.usedThisHour }
  admits _ _ := true

variable {κ : Type*} [DecidableEq κ] {row : LaneBudget}

def run (row : LaneBudget) (es : List (Action κ (WindowRequest row))) :
    Store κ LaneBudget ℤ :=
  UnlockedUpdate.run (consumeUpdate row) row es

def grantedUnits (s : Store κ LaneBudget ℤ) : ℤ := (s.log.map Prod.fst).sum

structure LimitsKept (row : LaneBudget) (s : Store κ LaneBudget ℤ) : Prop where
  daily : 0 < grantedUnits s → grantedUnits s ≤ row.dailyLimit
  hourly : 0 < grantedUnits s → grantedUnits s ≤ row.hourlyLimit
  counted : s.cell.usedToday = row.usedToday + grantedUnits s

/-- The counter the session read is still the committed one when it commits. -/
def CommitsLoadedCounter (s : Store κ LaneBudget ℤ) (e : Action κ (WindowRequest row)) :
    Prop :=
  FreshCommit (consumeUpdate row) LaneBudget.usedToday s e

instance (s : Store κ LaneBudget ℤ) (e : Action κ (WindowRequest row)) :
    Decidable (CommitsLoadedCounter s e) :=
  inferInstanceAs (Decidable (FreshCommit _ _ _ _))

def CopyOf (row b : LaneBudget) : Prop :=
  b = { row with usedToday := b.usedToday, usedThisHour := b.usedThisHour }

theorem copyOf_window {b : LaneBudget} (h : CopyOf row b) (x : WindowRequest row) :
    maybeReset b x.now = b := by
  have hd : ¬ DayLapsed b x.now := by rw [h]; exact x.same_day
  have hh : ¬ HourLapsed b x.now := by rw [h]; exact x.same_hour
  simp [maybeReset, resetDay, resetHour, hd, hh]

theorem apply_some {b b' : LaneBudget} {x : WindowRequest row} {units : ℤ} (h : CopyOf row b)
    (ha : (consumeUpdate row).apply b x = some (b', units)) :
    units = x.count ∧ b' = granted b x.count ∧
    b.usedToday + units ≤ row.dailyLimit ∧ b.usedThisHour + units ≤ row.hourlyLimit := by
  have hlimits : b.dailyLimit = row.dailyLimit ∧ b.hourlyLimit = row.hourlyLimit := by
    rw [h]; exact ⟨rfl, rfl⟩
  have hw := copyOf_window h x
  simp only [consumeUpdate] at ha
  rcases consume_cases b x.now x.count with ⟨_, he⟩ | ⟨_, _, he⟩ | ⟨_, hd, hh, he⟩ <;>
    rw [he] at ha
  · cases ha
  · cases ha
  · rw [hw] at hd hh ha
    rw [hlimits.1] at hd
    rw [hlimits.2] at hh
    cases ha
    exact ⟨rfl, rfl, hd, hh⟩

theorem consume_stamped :
    Stamped (consumeUpdate row) (CopyOf row) LaneBudget.usedToday (fun units => units) where
  good := by
    intro b x b' units h ha
    obtain ⟨-, rfl, -⟩ := apply_some h ha
    unfold CopyOf at *
    rw [h]
    rfl
  advance := by
    intro b x b' units h ha
    obtain ⟨rfl, rfl, -⟩ := apply_some h ha
    rfl
  positive := by
    intro b x b' units h ha
    have := x.positive
    rw [(apply_some h ha).1]
    omega
  write_good := by
    intro b c hb hc
    unfold CopyOf at *
    rw [hb]
    rfl
  write_stamp := rfl
  write_self := by
    intro b x b' units h ha
    obtain ⟨-, rfl, -⟩ := apply_some h ha
    rfl

/-- Consumes served one at a time never push a counter of the row past its limit. -/
theorem serial_limits {b : LaneBudget} {log : List (ℤ × LaneBudget)}
    (h : Serial (consumeUpdate row) row log b) :
    CopyOf row b ∧ b.usedToday = row.usedToday + (log.map Prod.fst).sum ∧
    b.usedThisHour = row.usedThisHour + (log.map Prod.fst).sum ∧
    (0 < (log.map Prod.fst).sum →
      b.usedToday ≤ row.dailyLimit ∧ b.usedThisHour ≤ row.hourlyLimit) := by
  induction h with
  | refl => simp [CopyOf]
  | tail _ ha ih =>
    obtain ⟨hcopy, htoday, hhour, -⟩ := ih
    have hgood := consume_stamped.good hcopy ha
    obtain ⟨rfl, rfl, hd, hh⟩ := apply_some hcopy ha
    simp only [List.map_append, List.map_cons, List.map_nil, List.sum_append, List.sum_cons,
      List.sum_nil, granted]
    exact ⟨hgood, by omega, by omega, fun _ => ⟨hd, hh⟩⟩

theorem limits_kept_iff_loaded_counter_current (hd : 0 ≤ row.usedToday)
    (hh : 0 ≤ row.usedThisHour) (es : List (Action κ (WindowRequest row))) :
    (∀ xs, xs <+: es → LimitsKept row (run row xs)) ↔
      ValidTrace CommitsLoadedCounter (UnlockedUpdate.next (consumeUpdate row))
        (UnlockedUpdate.initial row) es := by
  have hrow : CopyOf row row := rfl
  have haccount := UnlockedUpdate.accounted_iff_fresh consume_stamped hrow es
  constructor
  · intro h
    exact haccount.1 fun xs hp => (h xs hp).counted
  · intro hf xs hp
    have hserial := UnlockedUpdate.fresh_run_serial consume_stamped hrow
      (validTrace_earlier hp hf)
    obtain ⟨-, htoday, hhour, hlimit⟩ := serial_limits hserial
    constructor
    · intro hpos
      have := (hlimit hpos).1
      unfold grantedUnits run at *
      omega
    · intro hpos
      have := (hlimit hpos).2
      unfold grantedUnits run at *
      omega
    · exact htoday

def smallBudget : LaneBudget := newBudget "contact" "global" 10 10 0

def fullRequest : WindowRequest smallBudget where
  now := 1
  count := 10
  positive := by decide
  same_day := by decide
  same_hour := by decide

def lostUpdate : List (Action ℕ (WindowRequest smallBudget)) :=
  [.load 0, .load 1, .check 0 fullRequest, .check 1 fullRequest, .commit 0, .commit 1]

def servedInTurn : List (Action ℕ (WindowRequest smallBudget)) :=
  [.load 0, .check 0 fullRequest, .commit 0]

theorem limits_kept_in_turn :
    grantedUnits (run smallBudget servedInTurn) = 10 ∧
    ∀ xs, xs <+: servedInTurn → LimitsKept smallBudget (run smallBudget xs) :=
  ⟨by decide, (limits_kept_iff_loaded_counter_current (by decide) (by decide) _).2 (by decide)⟩

theorem lost_update_exceeds_limit :
    grantedUnits (run smallBudget lostUpdate) = 20 ∧
    (run smallBudget lostUpdate).cell.usedToday = 10 ∧
    ¬ LimitsKept smallBudget (run smallBudget lostUpdate) := by
  refine ⟨by decide, by decide, fun h => ?_⟩
  have hc := h.counted
  revert hc
  decide

end TrustCopilot.LaneBudgetRaces
