import TrustCopilot.Library.Trace
import TrustCopilot.Library.WindowedSum
import Mathlib.Data.List.Chain

/-! One lane budget row: the limit tests, the two window resets and the pause flag, as
`LaneBudgetService` applies them to the row it has read. Times are microseconds since the
epoch, in UTC. -/
namespace TrustCopilot.LaneBudgets

open TrustCopilot.Trace
open TrustCopilot.WindowedSum

def queueNames : List (String × String) :=
  [("discovery.raw", "queue:discovery:raw"), ("discovery.enriched", "queue:discovery:enriched"),
    ("contact.ready", "queue:contact:ready"), ("contact.send", "queue:contact:send")]

/-- A queue without a name of its own is filed under the key that is made for it. -/
def redisKey (queueKey : String) : String :=
  (queueNames.lookup queueKey).getD ("queue:" ++ queueKey)

def day : ℤ := 86400000000

def hour : ℤ := 3600000000

/-- The calendar date of a UTC time, counted in days. -/
def date (t : ℤ) : ℤ := t / day

theorem date_mono {s t : ℤ} (h : s ≤ t) : date s ≤ date t :=
  Int.ediv_le_ediv (by decide) h

structure LaneBudget where
  lane : String
  scope : String := "global"
  dailyLimit : ℤ := 10000
  hourlyLimit : ℤ := 1000
  usedToday : ℤ := 0
  usedThisHour : ℤ := 0
  dailyResetAt : ℤ
  hourlyResetAt : ℤ
  hardPause : Bool := false
  deriving DecidableEq, Repr

inductive ExhaustedKind where
  | paused
  | daily
  | hourly
  deriving DecidableEq, Repr

def ExhaustedKind.name : ExhaustedKind → String
  | .paused => "paused"
  | .daily => "daily"
  | .hourly => "hourly"

structure BudgetExhausted where
  lane : String
  scope : String
  kind : ExhaustedKind
  deriving DecidableEq, Repr

def BudgetExhausted.message (e : BudgetExhausted) : String :=
  e.lane ++ "/" ++ e.scope ++ " " ++ e.kind.name ++ " budget exhausted"

/-- The stored row, or a new one with the column defaults and the time of its insertion. -/
def getOrCreateBudget (stored : Option LaneBudget) (lane scope : String) (now : ℤ) :
    LaneBudget :=
  stored.getD { lane := lane, scope := scope, dailyResetAt := now, hourlyResetAt := now }

def DayLapsed (budget : LaneBudget) (now : ℤ) : Prop :=
  date budget.dailyResetAt < date now

def HourLapsed (budget : LaneBudget) (now : ℤ) : Prop :=
  hour ≤ now - budget.hourlyResetAt

instance (budget : LaneBudget) (now : ℤ) : Decidable (DayLapsed budget now) :=
  inferInstanceAs (Decidable (_ < _))

instance (budget : LaneBudget) (now : ℤ) : Decidable (HourLapsed budget now) :=
  inferInstanceAs (Decidable (_ ≤ _))

def resetDay (budget : LaneBudget) (now : ℤ) : LaneBudget :=
  if DayLapsed budget now then { budget with usedToday := 0, dailyResetAt := now } else budget

def resetHour (budget : LaneBudget) (now : ℤ) : LaneBudget :=
  if HourLapsed budget now then { budget with usedThisHour := 0, hourlyResetAt := now }
  else budget

def maybeReset (budget : LaneBudget) (now : ℤ) : LaneBudget :=
  resetHour (resetDay budget now) now

def checkBudget (budget : LaneBudget) (now : ℤ) : LaneBudget × Bool :=
  if budget.hardPause then (budget, false)
  else
    let budget := maybeReset budget now
    if budget.usedToday ≥ budget.dailyLimit then (budget, false)
    else if budget.usedThisHour ≥ budget.hourlyLimit then (budget, false)
    else (budget, true)

/-- The row is returned with the exception as well: a window reset stays applied to it. -/
def consume (budget : LaneBudget) (now count : ℤ) :
    LaneBudget × Except BudgetExhausted Unit :=
  if budget.hardPause then (budget, .error ⟨budget.lane, budget.scope, .paused⟩)
  else
    let budget := maybeReset budget now
    if budget.usedToday + count > budget.dailyLimit then
      (budget, .error ⟨budget.lane, budget.scope, .daily⟩)
    else if budget.usedThisHour + count > budget.hourlyLimit then
      (budget, .error ⟨budget.lane, budget.scope, .hourly⟩)
    else
      ({ budget with
          usedToday := budget.usedToday + count
          usedThisHour := budget.usedThisHour + count }, .ok ())

def setPause (budget : LaneBudget) (paused : Bool) : LaneBudget :=
  { budget with hardPause := paused }

def granted (budget : LaneBudget) (count : ℤ) : LaneBudget :=
  { budget with
    usedToday := budget.usedToday + count
    usedThisHour := budget.usedThisHour + count }

theorem consume_cases (b : LaneBudget) (now count : ℤ) :
    (b.hardPause = true ∧ consume b now count = (b, .error ⟨b.lane, b.scope, .paused⟩)) ∨
    (b.hardPause = false ∧ ∃ e, consume b now count = (maybeReset b now, .error e)) ∨
    (b.hardPause = false ∧
      (maybeReset b now).usedToday + count ≤ (maybeReset b now).dailyLimit ∧
      (maybeReset b now).usedThisHour + count ≤ (maybeReset b now).hourlyLimit ∧
      consume b now count = (granted (maybeReset b now) count, .ok ())) := by
  rw [consume]
  cases b.hardPause with
  | true => exact Or.inl ⟨rfl, rfl⟩
  | false =>
    right
    simp only [Bool.false_eq_true, if_false, true_and]
    split
    · exact Or.inl ⟨_, rfl⟩
    · split
      · exact Or.inl ⟨_, rfl⟩
      · exact Or.inr ⟨by omega, by omega, rfl⟩

theorem checkBudget_row (b : LaneBudget) (now : ℤ) :
    (checkBudget b now).1 = if b.hardPause then b else maybeReset b now := by
  rw [checkBudget]
  split
  · rfl
  · dsimp only; split
    · rfl
    · split <;> rfl

inductive BudgetCall where
  | consume (now count : ℤ)
  | checkBudget (now : ℤ)
  | setPause (now : ℤ) (paused : Bool)
  deriving DecidableEq, Repr

@[simp] def BudgetCall.now : BudgetCall → ℤ
  | .consume now _ => now
  | .checkBudget now => now
  | .setPause now _ => now

/-- What happened to the counters, in order: the window resets applied and the units granted. -/
inductive Entry where
  | dailyReset (now : ℤ)
  | hourlyReset (now : ℤ)
  | grant (now count : ℤ)
  deriving DecidableEq, Repr

@[simp] def Entry.units : Entry → ℤ
  | .grant _ count => count
  | _ => 0

@[simp] def Entry.isDailyReset : Entry → Bool
  | .dailyReset _ => true
  | _ => false

@[simp] def Entry.isHourlyReset : Entry → Bool
  | .hourlyReset _ => true
  | _ => false

@[simp] def Entry.unitsOn (d : ℤ) : Entry → ℤ
  | .grant now count => if date now = d then count else 0
  | _ => 0

@[simp] def Entry.hourlyResetTime : Entry → Option ℤ
  | .hourlyReset now => some now
  | _ => none

/-- The row with the ledger of everything that happened to its counters. -/
structure Metered where
  row : LaneBudget
  ledger : List Entry
  deriving DecidableEq, Repr

def resetEntries (b : LaneBudget) (now : ℤ) : List Entry :=
  (if DayLapsed b now then [.dailyReset now] else []) ++
    if HourLapsed b now then [.hourlyReset now] else []

def callEntries (b : LaneBudget) : BudgetCall → List Entry
  | .consume now count =>
    (if b.hardPause then [] else resetEntries b now) ++
      match (consume b now count).2 with
      | .ok _ => [.grant now count]
      | .error _ => []
  | .checkBudget now => if b.hardPause then [] else resetEntries b now
  | .setPause _ _ => []

def callRow (b : LaneBudget) : BudgetCall → LaneBudget
  | .consume now count => (consume b now count).1
  | .checkBudget now => (checkBudget b now).1
  | .setPause _ paused => setPause b paused

def serve (s : Metered) (c : BudgetCall) : Metered :=
  ⟨callRow s.row c, s.ledger ++ callEntries s.row c⟩

def serveAll (row : LaneBudget) (calls : List BudgetCall) : Metered :=
  runTrace serve ⟨row, []⟩ calls

def Positive : BudgetCall → Prop
  | .consume _ count => 1 ≤ count
  | _ => True

instance (c : BudgetCall) : Decidable (Positive c) := by
  cases c <;> unfold Positive <;> infer_instance

/-- A row as its insertion at time `created` leaves it, with the limits it is given. -/
def newBudget (lane scope : String) (dailyLimit hourlyLimit created : ℤ) : LaneBudget :=
  { getOrCreateBudget none lane scope created with
    dailyLimit := dailyLimit
    hourlyLimit := hourlyLimit }

inductive Move (now : ℤ) : Metered → Metered → Prop where
  | day {s} : DayLapsed s.row now →
      Move now s ⟨{ s.row with usedToday := 0, dailyResetAt := now },
        s.ledger ++ [.dailyReset now]⟩
  | hour {s} : HourLapsed s.row now →
      Move now s ⟨{ s.row with usedThisHour := 0, hourlyResetAt := now },
        s.ledger ++ [.hourlyReset now]⟩
  | grant {s count} : 0 ≤ count → ¬ DayLapsed s.row now →
      s.row.usedToday + count ≤ s.row.dailyLimit →
      s.row.usedThisHour + count ≤ s.row.hourlyLimit →
      Move now s ⟨granted s.row count, s.ledger ++ [.grant now count]⟩
  | pause {s} (paused : Bool) : Move now s ⟨setPause s.row paused, s.ledger⟩

abbrev Moves (now : ℤ) : Metered → Metered → Prop := Relation.ReflTransGen (Move now)

theorem resetDay_current (b : LaneBudget) (now : ℤ) : ¬ DayLapsed (resetDay b now) now := by
  rw [resetDay]
  split
  · simp [DayLapsed]
  · assumption

theorem maybeReset_current (b : LaneBudget) (now : ℤ) : ¬ DayLapsed (maybeReset b now) now := by
  have h := resetDay_current b now
  unfold maybeReset resetHour
  split <;> exact h

theorem hourLapsed_resetDay (b : LaneBudget) (now : ℤ) :
    HourLapsed (resetDay b now) now ↔ HourLapsed b now := by
  rw [resetDay]
  split <;> rfl

theorem maybeReset_moves (s : Metered) (now : ℤ) :
    Moves now s ⟨maybeReset s.row now, s.ledger ++ resetEntries s.row now⟩ := by
  have hday : Moves now s ⟨resetDay s.row now,
      s.ledger ++ if DayLapsed s.row now then [.dailyReset now] else []⟩ := by
    rw [resetDay]
    split
    · next h => exact .single (.day h)
    · rw [List.append_nil]
  refine hday.trans ?_
  have hhour := hourLapsed_resetDay s.row now
  unfold maybeReset resetHour resetEntries
  rw [← List.append_assoc]
  by_cases h : HourLapsed s.row now
  · rw [if_pos (hhour.2 h), if_pos h]
    exact .single (.hour (hhour.2 h))
  · rw [if_neg (mt hhour.1 h), if_neg h, List.append_nil]

theorem serve_moves (s : Metered) (c : BudgetCall) (hp : Positive c) :
    Moves c.now s (serve s c) := by
  cases c with
  | consume now count =>
    have hcount : 1 ≤ count := hp
    rcases consume_cases s.row now count with
      ⟨hp, he⟩ | ⟨hp, e, he⟩ | ⟨hp, hd, hh, he⟩
    · simp [serve, callRow, callEntries, hp, he, Relation.ReflTransGen.refl]
    · simpa [serve, callRow, callEntries, hp, he] using maybeReset_moves s now
    · have hgrant := Relation.ReflTransGen.tail (maybeReset_moves s now)
        (.grant (by omega) (maybeReset_current s.row now) hd hh)
      simpa [serve, callRow, callEntries, hp, he] using hgrant
  | checkBudget now =>
    cases hp : s.row.hardPause with
    | true => simp [serve, callRow, callEntries, checkBudget_row, hp, Relation.ReflTransGen.refl]
    | false =>
      simpa [serve, callRow, callEntries, checkBudget_row, hp] using maybeReset_moves s now
  | setPause now paused =>
    simpa [serve, callRow, callEntries] using Relation.ReflTransGen.single (.pause paused)

structure Tally (row : LaneBudget) (clock : ℤ) (s : Metered) : Prop where
  limits : s.row.dailyLimit = row.dailyLimit ∧ s.row.hourlyLimit = row.hourlyLimit
  day_le : date s.row.dailyResetAt ≤ date clock
  today : s.row.usedToday = since Entry.isDailyReset Entry.units s.ledger
  this_hour : s.row.usedThisHour = since Entry.isHourlyReset Entry.units s.ledger
  units_nonneg : ∀ e ∈ s.ledger, 0 ≤ e.units
  past : ∀ d, date s.row.dailyResetAt < d → total (Entry.unitsOn d) s.ledger = 0
  this_day : total (Entry.unitsOn (date s.row.dailyResetAt)) s.ledger = s.row.usedToday
  daily : ∀ d, total (Entry.unitsOn d) s.ledger ≤ max 0 row.dailyLimit
  hourly : StretchBound Entry.isHourlyReset Entry.units (max 0 row.hourlyLimit) s.ledger
  hour_le : s.row.usedThisHour ≤ max 0 row.hourlyLimit
  gaps : (row.hourlyResetAt :: s.ledger.filterMap Entry.hourlyResetTime).IsChain
    fun a b => a + TrustCopilot.LaneBudgets.hour ≤ b
  last_reset : (row.hourlyResetAt :: s.ledger.filterMap Entry.hourlyResetTime).getLast? =
    some s.row.hourlyResetAt

theorem tally_clock {row : LaneBudget} {clock now : ℤ} {s : Metered} (h : Tally row clock s)
    (hc : clock ≤ now) : Tally row now s :=
  { h with day_le := h.day_le.trans (date_mono hc) }

theorem nonneg_concat {ledger : List Entry} {e : Entry} (h : ∀ x ∈ ledger, 0 ≤ x.units)
    (he : 0 ≤ e.units) : ∀ x ∈ ledger ++ [e], 0 ≤ x.units := by
  intro x hx
  rcases List.mem_append.1 hx with hx | hx
  · exact h x hx
  · rw [List.mem_singleton.1 hx]; exact he

theorem tally_day {row : LaneBudget} {now : ℤ} {s : Metered} (h : Tally row now s)
    (hl : DayLapsed s.row now) : Tally row now
      ⟨{ s.row with usedToday := 0, dailyResetAt := now }, s.ledger ++ [.dailyReset now]⟩ := by
  constructor
  · exact h.limits
  · exact le_rfl
  · simp [since_concat]
  · simpa [since_concat] using h.this_hour
  · exact nonneg_concat h.units_nonneg le_rfl
  · intro d hd; simpa using h.past d (lt_trans hl hd)
  · simpa using h.past _ hl
  · intro d; simpa using h.daily d
  · refine stretchBound_concat (nonneg_concat h.units_nonneg le_rfl) h.hourly ?_
    simpa [since_concat, ← h.this_hour] using h.hour_le
  · exact h.hour_le
  · simpa [List.filterMap_cons] using h.gaps
  · simpa [List.filterMap_cons] using h.last_reset

theorem tally_hour {row : LaneBudget} {now : ℤ} {s : Metered} (h : Tally row now s)
    (hl : HourLapsed s.row now) : Tally row now
      ⟨{ s.row with usedThisHour := 0, hourlyResetAt := now },
        s.ledger ++ [.hourlyReset now]⟩ := by
  constructor
  · exact h.limits
  · exact h.day_le
  · simpa [since_concat] using h.today
  · simp [since_concat]
  · exact nonneg_concat h.units_nonneg le_rfl
  · intro d hd; simpa using h.past d hd
  · simpa using h.this_day
  · intro d; simpa using h.daily d
  · refine stretchBound_concat (nonneg_concat h.units_nonneg le_rfl) h.hourly ?_
    simp [since_concat]
  · exact le_max_left _ _
  · rw [List.filterMap_append, ← List.cons_append]
    refine List.isChain_append.2 ⟨h.gaps, List.isChain_singleton _, ?_⟩
    intro a ha b hb
    rw [h.last_reset, Option.mem_some_iff] at ha
    have hb : b = now := by simpa [eq_comm] using hb
    rw [HourLapsed] at hl
    omega
  · rw [List.filterMap_append, ← List.cons_append]
    exact List.getLast?_concat

theorem tally_grant {row : LaneBudget} {now count : ℤ} {s : Metered} (h : Tally row now s)
    (hcount : 0 ≤ count) (hday : ¬ DayLapsed s.row now)
    (hd : s.row.usedToday + count ≤ s.row.dailyLimit)
    (hh : s.row.usedThisHour + count ≤ s.row.hourlyLimit) :
    Tally row now ⟨granted s.row count, s.ledger ++ [.grant now count]⟩ := by
  have hdate : date now = date s.row.dailyResetAt :=
    le_antisymm (not_lt.1 hday) h.day_le
  rw [h.limits.1] at hd
  rw [h.limits.2] at hh
  have hn := nonneg_concat (e := .grant now count) h.units_nonneg hcount
  constructor
  · exact h.limits
  · exact h.day_le
  · simp [since_concat, granted, h.today]
  · simp [since_concat, granted, h.this_hour]
  · exact hn
  · intro d hd'
    have hne : date now ≠ d := by rw [hdate]; exact ne_of_lt hd'
    simpa [hne] using h.past d hd'
  · simpa [granted, hdate] using h.this_day
  · intro d
    by_cases hd' : date now = d
    · have := h.this_day
      rw [← hdate, hd'] at this
      rw [total_concat, this]
      simp only [Entry.unitsOn, hd', if_true]
      exact hd.trans (le_max_right _ _)
    · simpa [hd'] using h.daily d
  · refine stretchBound_concat hn h.hourly ?_
    rw [since_concat, ← h.this_hour]
    exact hh.trans (le_max_right _ _)
  · exact hh.trans (le_max_right _ _)
  · simpa [List.filterMap_cons] using h.gaps
  · simpa [List.filterMap_cons, granted] using h.last_reset

theorem tally_moves {row : LaneBudget} {now : ℤ} {s t : Metered} (h : Tally row now s)
    (m : Moves now s t) : Tally row now t := by
  induction m with
  | refl => exact h
  | tail _ m ih =>
    cases m with
    | day hl => exact tally_day ih hl
    | hour hl => exact tally_hour ih hl
    | grant hcount hday hd hh => exact tally_grant ih hcount hday hd hh
    | pause paused => exact { ih with }

theorem tally_new (lane scope : String) (dailyLimit hourlyLimit created : ℤ) :
    Tally (newBudget lane scope dailyLimit hourlyLimit created) created
      ⟨newBudget lane scope dailyLimit hourlyLimit created, []⟩ := by
  constructor <;> simp [newBudget, getOrCreateBudget, stretchBound_nil]

/-- The clock never runs backwards, from the insertion of the row on. -/
def ClockFrom (created : ℤ) (calls : List BudgetCall) : Prop :=
  (created :: calls.map BudgetCall.now).Pairwise (· ≤ ·)

def clockAfter (created : ℤ) (calls : List BudgetCall) : ℤ :=
  (calls.map BudgetCall.now).getLastD created

theorem tally_run {lane scope : String} {dailyLimit hourlyLimit created : ℤ}
    {calls : List BudgetCall} (hc : ClockFrom created calls) (hp : ∀ c ∈ calls, Positive c) :
    Tally (newBudget lane scope dailyLimit hourlyLimit created) (clockAfter created calls)
      (serveAll (newBudget lane scope dailyLimit hourlyLimit created) calls) := by
  induction calls using List.reverseRecOn with
  | nil => exact tally_new ..
  | append_singleton calls c ih =>
    rw [ClockFrom, List.map_append, ← List.cons_append, List.pairwise_append] at hc
    have ht := ih hc.1 fun x hx => hp x (List.mem_append_left _ hx)
    have hle : clockAfter created calls ≤ c.now :=
      hc.2.2 _ (List.getLastD_mem_cons ..) c.now (by simp)
    have hnow : clockAfter created (calls ++ [c]) = c.now := by simp [clockAfter]
    rw [hnow, serveAll, runTrace_concat]
    exact tally_moves (tally_clock ht hle) (serve_moves _ c (hp c (by simp)))

/-- What a budget promises over a run of calls. A limit below zero grants nothing. -/
structure BudgetKept (row : LaneBudget) (calls : List BudgetCall) : Prop where
  daily : ∀ d, total (Entry.unitsOn d) (serveAll row calls).ledger ≤ max 0 row.dailyLimit
  hourly : StretchBound Entry.isHourlyReset Entry.units (max 0 row.hourlyLimit)
    (serveAll row calls).ledger
  resets_apart : ((serveAll row calls).ledger.filterMap Entry.hourlyResetTime).IsChain
    fun a b => a + TrustCopilot.LaneBudgets.hour ≤ b
  used_today : (serveAll row calls).row.usedToday =
    since Entry.isDailyReset Entry.units (serveAll row calls).ledger
  used_this_hour : (serveAll row calls).row.usedThisHour =
    since Entry.isHourlyReset Entry.units (serveAll row calls).ledger
  paused : (serveAll row calls).row.hardPause = true →
    ∀ c, (serve (serveAll row calls) c).ledger = (serveAll row calls).ledger
  exhausted : ∀ now count e, (consume (serveAll row calls).row now count).2 = .error e →
    (consume (serveAll row calls).row now count).1 = (serveAll row calls).row ∨
    (consume (serveAll row calls).row now count).1 = maybeReset (serveAll row calls).row now

theorem paused_grants_nothing {s : Metered} (h : s.row.hardPause = true) (c : BudgetCall) :
    (serve s c).ledger = s.ledger := by
  cases c <;> simp [serve, callEntries, consume, h]

theorem refused_consume_row {b : LaneBudget} {now count : ℤ} {e : BudgetExhausted}
    (h : (consume b now count).2 = .error e) :
    (consume b now count).1 = b ∨ (consume b now count).1 = maybeReset b now := by
  rcases consume_cases b now count with ⟨-, he⟩ | ⟨-, _, he⟩ | ⟨-, -, -, he⟩
  · exact Or.inl (by rw [he])
  · exact Or.inr (by rw [he])
  · rw [he] at h; cases h

theorem budget_kept {lane scope : String} {dailyLimit hourlyLimit created : ℤ}
    {calls : List BudgetCall} (hc : ClockFrom created calls) (hp : ∀ c ∈ calls, Positive c) :
    BudgetKept (newBudget lane scope dailyLimit hourlyLimit created) calls := by
  have h : Tally (newBudget lane scope dailyLimit hourlyLimit created)
      (clockAfter created calls)
      (serveAll (newBudget lane scope dailyLimit hourlyLimit created) calls) := tally_run hc hp
  exact {
    daily := h.daily
    hourly := h.hourly
    resets_apart := h.gaps.tail
    used_today := h.today
    used_this_hour := h.this_hour
    paused := fun hpause => paused_grants_nothing hpause
    exhausted := fun _ _ _ => refused_consume_row }

def budgetDay : List BudgetCall :=
  [.consume 1 15, .checkBudget 2, .consume 3 15, .consume (hour + 1) 15,
    .setPause (hour + 2) true, .consume (hour + 3) 1]

theorem budget_kept_day : BudgetKept (newBudget "discovery" "global" 100 20 0) budgetDay :=
  budget_kept (by unfold ClockFrom; decide) (by decide)

example : (serveAll (newBudget "discovery" "global" 100 20 0) budgetDay).ledger =
    [.grant 1 15, .hourlyReset (hour + 1), .grant (hour + 1) 15] := by decide

end TrustCopilot.LaneBudgets
