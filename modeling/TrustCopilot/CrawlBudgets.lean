import TrustCopilot.LaneBudgets
import Mathlib.Data.List.Count

/-! The crawl budget of a domain. Only the check knows the day and only the consume counts, so a
fetch that is checked on one day and consumed on the next is counted for the day that is over. -/
namespace TrustCopilot.CrawlBudgets

open TrustCopilot.Trace
open TrustCopilot.LaneBudgets (date date_mono day)

structure CrawlMetrics where
  domain : String
  dailyBudget : ℤ := 500
  usedToday : ℤ := 0
  budgetResetAt : ℤ
  totalFetched : ℤ := 0
  totalSkippedStale : ℤ := 0
  totalSkippedDuplicate : ℤ := 0
  totalSkippedBudget : ℤ := 0
  totalRetried : ℤ := 0
  totalErrors : ℤ := 0
  deriving DecidableEq, Repr

structure CrawlGateResult where
  allowed : Bool
  skipReason : Option String := none
  deriving DecidableEq, Repr

/-- The stored row, or a new one with the column defaults and the time of its insertion. -/
def getOrCreateMetrics (stored : Option CrawlMetrics) (domain : String) (now : ℤ) :
    CrawlMetrics :=
  stored.getD { domain := domain, budgetResetAt := now }

def resetDay (m : CrawlMetrics) (now : ℤ) : CrawlMetrics :=
  if date m.budgetResetAt < date now then { m with usedToday := 0, budgetResetAt := now } else m

def checkBudget (m : CrawlMetrics) (now : ℤ) : CrawlMetrics × CrawlGateResult :=
  let m := resetDay m now
  if m.usedToday ≥ m.dailyBudget then
    ({ m with totalSkippedBudget := m.totalSkippedBudget + 1 },
      ⟨false, some "domain_budget_exhausted"⟩)
  else (m, ⟨true, none⟩)

def consume (m : CrawlMetrics) : CrawlMetrics :=
  { m with usedToday := m.usedToday + 1, totalFetched := m.totalFetched + 1 }

def recordSkip (m : CrawlMetrics) (reason : String) : CrawlMetrics :=
  if reason = "stale" then { m with totalSkippedStale := m.totalSkippedStale + 1 }
  else if reason = "duplicate" then
    { m with totalSkippedDuplicate := m.totalSkippedDuplicate + 1 }
  else if reason = "budget" then { m with totalSkippedBudget := m.totalSkippedBudget + 1 }
  else m

def recordError (m : CrawlMetrics) : CrawlMetrics := { m with totalErrors := m.totalErrors + 1 }

def recordRetry (m : CrawlMetrics) : CrawlMetrics := { m with totalRetried := m.totalRetried + 1 }

/-! ### One worker -/

structure Worker where
  metrics : CrawlMetrics
  inFlight : Option ℤ
  clock : ℤ
  deriving DecidableEq, Repr

inductive CrawlCall where
  | checkBudget (now : ℤ)
  | consume (now : ℤ)
  | recordSkip (reason : String)
  | recordError
  | recordRetry
  deriving DecidableEq, Repr

def next (w : Worker) : CrawlCall → Worker
  | .checkBudget now =>
    match checkBudget w.metrics now with
    | (metrics, gate) => ⟨metrics, if gate.allowed then some now else none, now⟩
  | .consume now => ⟨consume w.metrics, none, now⟩
  | .recordSkip reason => { w with metrics := recordSkip w.metrics reason }
  | .recordError => { w with metrics := recordError w.metrics }
  | .recordRetry => { w with metrics := recordRetry w.metrics }

/-- A check before each fetch and one consume after each check that allows it; the clock never
goes back. -/
def InTurn (w : Worker) : CrawlCall → Prop
  | .checkBudget now => w.inFlight = none ∧ w.clock ≤ now
  | .consume now => w.inFlight ≠ none ∧ w.clock ≤ now
  | _ => True

instance (w : Worker) : (c : CrawlCall) → Decidable (InTurn w c)
  | .checkBudget _ => inferInstanceAs (Decidable (_ ∧ _))
  | .consume _ => inferInstanceAs (Decidable (_ ∧ _))
  | .recordSkip _ => isTrue trivial
  | .recordError => isTrue trivial
  | .recordRetry => isTrue trivial

structure Fetch where
  checkedAt : ℤ
  consumedAt : ℤ
  deriving DecidableEq, Repr

def fetched (w : Worker) : CrawlCall → List Fetch
  | .consume now => w.inFlight.toList.map fun checkedAt => ⟨checkedAt, now⟩
  | _ => []

def start (m : CrawlMetrics) (clock : ℤ) : Worker := ⟨m, none, clock⟩

def fetches (m : CrawlMetrics) (clock : ℤ) (calls : List CrawlCall) : List Fetch :=
  emitted fetched next (start m clock) calls

def consumedOn (fs : List Fetch) (d : ℤ) : ℕ := fs.countP fun f => date f.consumedAt = d

def ownOn (fs : List Fetch) (d : ℤ) : ℕ :=
  fs.countP fun f => date f.consumedAt = d ∧ date f.checkedAt = d

def carriedOver (fs : List Fetch) (d : ℤ) : ℕ :=
  fs.countP fun f => date f.consumedAt = d ∧ date f.checkedAt ≠ d

def checkedOn (fs : List Fetch) (d : ℤ) : ℕ := fs.countP fun f => date f.checkedAt = d

def WithinBudget (m : CrawlMetrics) (clock : ℤ) (calls : List CrawlCall) : Prop :=
  ∀ d, (consumedOn (fetches m clock calls) d : ℤ) ≤ m.dailyBudget

def CarriedWithinBudget (m : CrawlMetrics) (clock : ℤ) (calls : List CrawlCall) : Prop :=
  0 ≤ m.dailyBudget ∧ ∀ d, carriedOver (fetches m clock calls) d ≠ 0 →
    (ownOn (fetches m clock calls) d : ℤ) < m.dailyBudget

/-! ### Counts -/

theorem checkedOn_concat (fs : List Fetch) (f : Fetch) (d : ℤ) :
    checkedOn (fs ++ [f]) d = checkedOn fs d + if date f.checkedAt = d then 1 else 0 := by
  rw [checkedOn, List.countP_append, ← checkedOn, List.countP_singleton]
  simp

theorem carriedOver_concat (fs : List Fetch) (f : Fetch) (d : ℤ) :
    carriedOver (fs ++ [f]) d =
      carriedOver fs d + if date f.consumedAt = d ∧ date f.checkedAt ≠ d then 1 else 0 := by
  rw [carriedOver, List.countP_append, ← carriedOver, List.countP_singleton]
  simp

theorem consumedOn_eq (fs : List Fetch) (d : ℤ) :
    consumedOn fs d = ownOn fs d + carriedOver fs d := by
  induction fs with
  | nil => rfl
  | cons f fs ih =>
    rw [consumedOn, ownOn, carriedOver] at ih ⊢
    rw [List.countP_cons, List.countP_cons, List.countP_cons, ih]
    by_cases hd : date f.consumedAt = d <;> by_cases hc : date f.checkedAt = d <;>
      simp [hd, hc] <;> omega

theorem ownOn_le (fs : List Fetch) (d : ℤ) : ownOn fs d ≤ checkedOn fs d := by
  refine List.countP_mono_left fun f _ h => ?_
  rw [decide_eq_true_iff] at h ⊢
  exact h.2

theorem carriedOver_eq_zero {fs : List Fetch} {d : ℤ}
    (h : ∀ f ∈ fs, date f.consumedAt = d → date f.checkedAt = d) : carriedOver fs d = 0 := by
  refine List.countP_eq_zero.2 fun f hf hp => ?_
  rw [decide_eq_true_iff] at hp
  exact hp.2 (h f hf hp.1)

/-! ### What the counter knows -/

/-- The row against the fetches made so far. From the day of the clock on, the counter has
every fetch that was checked on a day, since no reset has come after its check. -/
structure Books (budget : ℤ) (fs : List Fetch) (w : Worker) : Prop where
  limit : w.metrics.dailyBudget = budget
  used : 0 ≤ w.metrics.usedToday
  counted : ∀ d, date w.clock ≤ d → (checkedOn fs d : ℤ) ≤ w.metrics.usedToday
  ahead : ∀ d, date w.clock ≤ d → date w.metrics.budgetResetAt < d → checkedOn fs d = 0
  bounded : ∀ d, (checkedOn fs d : ℤ) ≤ max 0 budget
  room : ∀ t, w.inFlight = some t → (checkedOn fs (date t) : ℤ) + 1 ≤ budget
  flight : ∀ t, w.inFlight = some t → t ≤ w.clock ∧ date t ≤ date w.metrics.budgetResetAt ∧
    ∀ f ∈ fs, f.consumedAt ≤ t
  past : ∀ f ∈ fs, f.consumedAt ≤ w.clock
  carried : ∀ d, carriedOver fs d ≤ 1

variable {budget : ℤ} {fs : List Fetch} {w : Worker} {now : ℤ}

theorem books_start {m : CrawlMetrics} (h : 0 ≤ m.usedToday) (clock : ℤ) :
    Books m.dailyBudget [] (start m clock) where
  limit := rfl
  used := h
  counted _ _ := h
  ahead _ _ _ := rfl
  bounded _ := le_max_left _ _
  room _ hf := by cases hf
  flight _ hf := by cases hf
  past _ hf := absurd hf List.not_mem_nil
  carried _ := Nat.zero_le 1

theorem books_reset (h : Books budget fs w) (hclock : w.clock ≤ now) :
    Books budget fs ⟨resetDay w.metrics now, none, now⟩ ∧
      date now ≤ date (resetDay w.metrics now).budgetResetAt := by
  have hdate := date_mono hclock
  have hpast : ∀ f ∈ fs, f.consumedAt ≤ now := fun f hf => (h.past f hf).trans hclock
  have hnone {d : ℤ} (hd : date now ≤ d) (hreset : date w.metrics.budgetResetAt < d) :
      checkedOn fs d = 0 := h.ahead d (hdate.trans hd) hreset
  rw [resetDay]
  by_cases hreset : date w.metrics.budgetResetAt < date now
  · rw [if_pos hreset]
    refine ⟨{ h with
      used := le_refl _
      counted := fun d hd => ?_
      ahead := fun d hd _ => hnone hd (lt_of_lt_of_le hreset hd)
      room := fun _ hf => by cases hf
      flight := fun _ hf => by cases hf
      past := hpast }, le_refl _⟩
    rw [hnone hd (lt_of_lt_of_le hreset hd)]
    exact le_refl _
  · rw [if_neg hreset]
    exact ⟨{ h with
      counted := fun d hd => h.counted d (hdate.trans hd)
      ahead := fun d hd => hnone hd
      room := fun _ hf => by cases hf
      flight := fun _ hf => by cases hf
      past := hpast }, not_lt.1 hreset⟩

theorem books_check (h : Books budget fs w) (hclock : w.clock ≤ now) :
    Books budget fs (next w (.checkBudget now)) := by
  obtain ⟨hreset, hday⟩ := books_reset h hclock
  rw [next, checkBudget]
  dsimp only
  by_cases hspent : (resetDay w.metrics now).usedToday ≥ (resetDay w.metrics now).dailyBudget
  · rw [if_pos hspent]
    exact { hreset with }
  · rw [if_neg hspent]
    have hfree := lt_of_not_ge hspent
    rw [hreset.limit] at hfree
    have hcounted : (checkedOn fs (date now) : ℤ) ≤ (resetDay w.metrics now).usedToday :=
      hreset.counted (date now) (le_refl _)
    refine { hreset with room := fun t ht => ?_, flight := fun t ht => ?_ }
    · obtain rfl := Option.some.inj ht
      omega
    · obtain rfl := Option.some.inj ht
      exact ⟨le_refl _, hday, hreset.past⟩

theorem carried_first {t : ℤ} (h : Books budget fs w) (ht : w.inFlight = some t)
    (hclock : w.clock ≤ now) (hday : date t ≠ date now) : carriedOver fs (date now) = 0 := by
  obtain ⟨hle, -, hlast⟩ := h.flight t ht
  refine carriedOver_eq_zero fun f hf hconsumed => absurd ?_ hday
  have hdate := date_mono (hlast f hf)
  rw [hconsumed] at hdate
  exact le_antisymm (date_mono (hle.trans hclock)) hdate

theorem books_consume {t : ℤ} (h : Books budget fs w) (ht : w.inFlight = some t)
    (hclock : w.clock ≤ now) :
    Books budget (fs ++ [⟨t, now⟩]) (next w (.consume now)) := by
  have hdate := date_mono hclock
  obtain ⟨hle, hreset, -⟩ := h.flight t ht
  have hroom := h.room t ht
  constructor
  · exact h.limit
  · exact Int.le_add_one h.used
  · intro d hd
    have hcounted := h.counted d (hdate.trans hd)
    rw [checkedOn_concat, next, consume]
    dsimp only
    split <;> omega
  · intro d hd hahead
    have hnone := h.ahead d (hdate.trans hd) hahead
    have hne : date t ≠ d := ne_of_lt (lt_of_le_of_lt hreset hahead)
    rw [checkedOn_concat, hnone, if_neg hne]
  · intro d
    have hbounded := h.bounded d
    rw [checkedOn_concat]
    dsimp only
    by_cases hd : date t = d
    · subst hd
      rw [if_pos rfl]
      omega
    · rw [if_neg hd]
      exact hbounded
  · exact fun _ hf => by cases hf
  · exact fun _ hf => by cases hf
  · intro f hf
    rcases List.mem_append.1 hf with hf | hf
    · exact (h.past f hf).trans hclock
    · rw [List.mem_singleton.1 hf]
      exact le_refl _
  · intro d
    have hcarried := h.carried d
    rw [carriedOver_concat]
    dsimp only
    split
    · next hover =>
      obtain ⟨rfl, hday⟩ := hover
      rw [carried_first h ht hclock hday]
    · exact hcarried

theorem books_next (h : Books budget fs w) {c : CrawlCall} (hc : InTurn w c) :
    Books budget (fs ++ fetched w c) (next w c) := by
  cases c with
  | checkBudget now =>
    simp only [fetched, List.append_nil]
    exact books_check h hc.2
  | consume now =>
    obtain ⟨t, ht⟩ := Option.ne_none_iff_exists'.1 hc.1
    simp only [fetched, ht]
    exact books_consume h ht hc.2
  | recordSkip reason =>
    simp only [fetched, List.append_nil, next, recordSkip]
    split_ifs <;> exact { h with }
  | recordError =>
    simp only [fetched, List.append_nil]
    exact { h with }
  | recordRetry =>
    simp only [fetched, List.append_nil]
    exact { h with }

theorem run_books {m : CrawlMetrics} {clock : ℤ} {calls : List CrawlCall}
    (h0 : 0 ≤ m.usedToday) (h : ValidTrace InTurn next (start m clock) calls) :
    Books m.dailyBudget (fetches m clock calls) (runTrace next (start m clock) calls) := by
  refine history_invariant (I := fun calls w => Books m.dailyBudget (fetches m clock calls) w)
    (books_start h0 clock) (fun calls c _ hbooks hc => ?_) h
  rw [fetches, emitted_concat]
  exact books_next hbooks hc

/-- No more is consumed on a day than the budget exactly if the fetches carried over to a day,
of which there is at most one, leave room for those of the day. -/
theorem withinBudget_iff {m : CrawlMetrics} {clock : ℤ} {calls : List CrawlCall}
    (h0 : 0 ≤ m.usedToday) (h : ValidTrace InTurn next (start m clock) calls) :
    WithinBudget m clock calls ↔ CarriedWithinBudget m clock calls := by
  have hbooks := run_books h0 h
  constructor
  · intro hwithin
    have hsum (d : ℤ) : (ownOn (fetches m clock calls) d : ℤ) +
        carriedOver (fetches m clock calls) d ≤ m.dailyBudget := by
      have hd := hwithin d
      rw [consumedOn_eq] at hd
      omega
    refine ⟨?_, fun d hcarried => ?_⟩
    · have hd := hsum 0
      omega
    · have hd := hsum d
      omega
  · intro ⟨hbudget, hroom⟩ d
    have howned := ownOn_le (fetches m clock calls) d
    have hbounded := hbooks.bounded d
    have hone := hbooks.carried d
    rw [consumedOn_eq]
    by_cases hcarried : carriedOver (fetches m clock calls) d = 0
    · omega
    · have hlt := hroom d hcarried
      omega

def single : CrawlMetrics :=
  { getOrCreateMetrics none "example.com" 0 with dailyBudget := 1 }

def twoDays : List CrawlCall :=
  [.checkBudget 1, .recordRetry, .consume 2, .checkBudget 3, .recordSkip "budget",
    .checkBudget (day + 1), .consume (day + 2)]

theorem one_a_day :
    consumedOn (fetches single 0 twoDays) 1 = 1 ∧ WithinBudget single 0 twoDays := by
  have hsame : ∀ f ∈ fetches single 0 twoDays, date f.consumedAt = date f.checkedAt := by decide
  refine ⟨by decide, (withinBudget_iff (by decide) (by decide)).2 ⟨by decide, fun d hcarried => ?_⟩⟩
  exact absurd (carriedOver_eq_zero fun f hf hd => (hsame f hf).symm.trans hd) hcarried

def overMidnight : List CrawlCall :=
  [.checkBudget (day - 1), .consume day, .checkBudget (day + 1), .consume (day + 2)]

theorem two_on_one_day :
    ValidTrace InTurn next (start single 0) overMidnight ∧
    consumedOn (fetches single 0 overMidnight) 1 = 2 ∧
    ¬ WithinBudget single 0 overMidnight := by
  refine ⟨by decide, by decide, fun h => ?_⟩
  exact absurd (h 1) (by decide)

end TrustCopilot.CrawlBudgets
