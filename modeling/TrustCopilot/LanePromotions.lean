import TrustCopilot.LaneBudgets
import TrustCopilot.LaneBudgetRows
import TrustCopilot.Library.FifoTransfers

/-! Promotions between the queues of the lanes. A promotion that runs alone checks the budget,
takes the oldest item of its source, consumes one unit and pushes the item to its target. The
clock is read anew by the check and by the consume. -/
namespace TrustCopilot.LanePromotions

open TrustCopilot.Trace
open TrustCopilot.LaneBudgets
open TrustCopilot.LaneBudgetRows (BudgetKey)
open TrustCopilot.FifoTransfers

structure Lanes where
  budgets : BudgetKey → Option LaneBudget
  queues : Queues String String

structure Promotion where
  fromQueue : String
  toQueue : String
  lane : String
  scope : String := "global"
  createdAt : ℤ
  checkedAt : ℤ
  consumedAt : ℤ
  deriving DecidableEq, Repr

def Promotion.key (p : Promotion) : BudgetKey := ⟨p.lane, p.scope⟩

def rowOf (s : Lanes) (p : Promotion) : LaneBudget :=
  LaneBudgets.getOrCreateBudget (s.budgets p.key) p.lane p.scope p.createdAt

def saveBudget (s : Lanes) (key : BudgetKey) (budget : LaneBudget) : Lanes :=
  { s with budgets := Function.update s.budgets key (some budget) }

def enqueue (s : Lanes) (queueKey payload : String) : Lanes :=
  { s with queues := push s.queues (redisKey queueKey) payload }

def tryPromote (s : Lanes) (p : Promotion) : Lanes × Except BudgetExhausted Bool :=
  match checkBudget (rowOf s p) p.checkedAt with
  | (checked, false) => (saveBudget s p.key checked, .ok false)
  | (checked, true) =>
    match (s.queues (redisKey p.fromQueue)).getLast? with
    | none => (saveBudget s p.key checked, .ok false)
    | some item =>
      -- the item is gone from its queue before the units are consumed
      let s := { s with queues := dropOldest s.queues (redisKey p.fromQueue) }
      match consume checked p.consumedAt 1 with
      | (consumed, .error e) => (saveBudget s p.key consumed, .error e)
      | (consumed, .ok ()) => (enqueue (saveBudget s p.key consumed) p.toQueue item, .ok true)

inductive LaneCall where
  | enqueue (queueKey payload : String)
  | tryPromote (p : Promotion)
  deriving DecidableEq, Repr

def next (s : Lanes) : LaneCall → Lanes
  | .enqueue queueKey payload => enqueue s queueKey payload
  | .tryPromote p => (tryPromote s p).1

def run (s : Lanes) (calls : List LaneCall) : Lanes := runTrace next s calls

/-- The item that a call brings to a queue, and the queue it takes it from. -/
def transferOf (s : Lanes) : LaneCall → List (Transfer String String)
  | .enqueue queueKey payload => [⟨none, redisKey queueKey, payload⟩]
  | .tryPromote p =>
    match (tryPromote s p).2 with
    | .ok true => (s.queues (redisKey p.fromQueue)).getLast?.toList.map fun item =>
        ⟨some (redisKey p.fromQueue), redisKey p.toQueue, item⟩
    | _ => []

def transferred (s : Lanes) (calls : List LaneCall) : List (Transfer String String) :=
  emitted transferOf next s calls

def NonNegative (b : LaneBudget) : Prop := 0 ≤ b.usedToday ∧ 0 ≤ b.usedThisHour

def Counted (s : Lanes) : Prop := ∀ key b, s.budgets key = some b → NonNegative b

/-- The check and the consume of one unit agree: at one moment they say the same, a unit that
was found free can be consumed at any later time, and one that was not can be consumed only
after a window has lapsed. -/
structure Agrees (b : LaneBudget) : Prop where
  at_once : ∀ now, (checkBudget b now).2 = true ↔ (consume b now 1).2 = .ok ()
  later : ∀ checkedAt consumedAt, (checkBudget b checkedAt).2 = true →
    (consume (checkBudget b checkedAt).1 consumedAt 1).2 = .ok ()
  refused : ∀ checkedAt consumedAt, (checkBudget b checkedAt).2 = false →
    ¬ DayLapsed (checkBudget b checkedAt).1 consumedAt →
    ¬ HourLapsed (checkBudget b checkedAt).1 consumedAt →
    (consume (checkBudget b checkedAt).1 consumedAt 1).2 ≠ .ok ()

/-- A promotion does not raise. Either it answers False, and no queue has changed and nothing
is counted, or it answers True: the oldest item of the source is the newest of the target, and
one unit is counted after the window resets. -/
def PromotesOne (s : Lanes) (p : Promotion) : Prop :=
  (∃ b, (b = rowOf s p ∨ b = maybeReset (rowOf s p) p.checkedAt) ∧
    tryPromote s p = (saveBudget s p.key b, .ok false)) ∨
  ∃ item, (s.queues (redisKey p.fromQueue)).getLast? = some item ∧
    tryPromote s p =
      (⟨Function.update s.budgets p.key
          (some (granted (maybeReset (maybeReset (rowOf s p) p.checkedAt) p.consumedAt) 1)),
        transfer s.queues ⟨some (redisKey p.fromQueue), redisKey p.toQueue, item⟩⟩, .ok true)

/-! ### The two limit tests -/

theorem maybeReset_fields (b : LaneBudget) (now : ℤ) :
    (maybeReset b now).hardPause = b.hardPause ∧
    (maybeReset b now).dailyLimit = b.dailyLimit ∧
    (maybeReset b now).hourlyLimit = b.hourlyLimit := by
  rw [maybeReset, resetHour, resetDay]
  split <;> split <;> exact ⟨rfl, rfl, rfl⟩

theorem maybeReset_counters (b : LaneBudget) (now : ℤ) :
    ((maybeReset b now).usedToday = b.usedToday ∨ (maybeReset b now).usedToday = 0) ∧
    ((maybeReset b now).usedThisHour = b.usedThisHour ∨ (maybeReset b now).usedThisHour = 0) := by
  rw [maybeReset, resetHour, resetDay]
  split <;> split <;> simp

theorem maybeReset_nonNegative {b : LaneBudget} (h : NonNegative b) (now : ℤ) :
    NonNegative (maybeReset b now) := by
  obtain ⟨htoday, hhour⟩ := maybeReset_counters b now
  rw [NonNegative] at h ⊢
  omega

theorem maybeReset_same {b : LaneBudget} {now : ℤ} (hd : ¬ DayLapsed b now)
    (hh : ¬ HourLapsed b now) : maybeReset b now = b := by
  rw [maybeReset, resetDay, if_neg hd, resetHour, if_neg hh]

theorem checkBudget_iff {b : LaneBudget} {now : ℤ} :
    (checkBudget b now).2 = true ↔ b.hardPause = false ∧
      (maybeReset b now).usedToday < b.dailyLimit ∧
      (maybeReset b now).usedThisHour < b.hourlyLimit := by
  obtain ⟨-, hd, hh⟩ := maybeReset_fields b now
  rw [checkBudget]
  cases b.hardPause with
  | true => simp
  | false =>
    simp only [Bool.false_eq_true, if_false, hd, hh, true_and, ge_iff_le]
    by_cases h : b.dailyLimit ≤ (maybeReset b now).usedToday
    · rw [if_pos h]
      exact iff_of_false Bool.false_ne_true fun hlt => by omega
    · rw [if_neg h]
      by_cases h' : b.hourlyLimit ≤ (maybeReset b now).usedThisHour
      · rw [if_pos h']
        exact iff_of_false Bool.false_ne_true fun hlt => by omega
      · rw [if_neg h']
        exact iff_of_true rfl (by omega)

theorem consume_ok_iff {b : LaneBudget} {now count : ℤ} :
    (consume b now count).2 = .ok () ↔ b.hardPause = false ∧
      (maybeReset b now).usedToday + count ≤ b.dailyLimit ∧
      (maybeReset b now).usedThisHour + count ≤ b.hourlyLimit := by
  obtain ⟨-, hd, hh⟩ := maybeReset_fields b now
  rw [consume]
  cases b.hardPause with
  | true => simp
  | false =>
    simp only [Bool.false_eq_true, if_false, hd, hh, true_and, gt_iff_lt]
    by_cases h : b.dailyLimit < (maybeReset b now).usedToday + count
    · rw [if_pos h]
      exact iff_of_false (fun he => by cases he) fun hle => by omega
    · rw [if_neg h]
      by_cases h' : b.hourlyLimit < (maybeReset b now).usedThisHour + count
      · rw [if_pos h']
        exact iff_of_false (fun he => by cases he) fun hle => by omega
      · rw [if_neg h']
        exact iff_of_true rfl (by omega)

theorem consume_granted {b : LaneBudget} {now count : ℤ}
    (h : (consume b now count).2 = .ok ()) :
    consume b now count = (granted (maybeReset b now) count, .ok ()) := by
  rcases consume_cases b now count with ⟨-, he⟩ | ⟨-, e, he⟩ | ⟨-, -, -, he⟩
  · rw [he] at h
    cases h
  · rw [he] at h
    cases h
  · exact he

theorem checkBudget_row_true {b : LaneBudget} {now : ℤ} (h : (checkBudget b now).2 = true) :
    (checkBudget b now).1 = maybeReset b now := by
  rw [checkBudget_row, (checkBudget_iff.1 h).1]
  rfl

theorem agrees_of_nonNegative {b : LaneBudget} (h : NonNegative b) : Agrees b := by
  constructor
  · intro now
    rw [checkBudget_iff, consume_ok_iff]
    refine and_congr_right fun _ => ?_
    omega
  · intro checkedAt consumedAt hcheck
    rw [checkBudget_row_true hcheck]
    obtain ⟨hpause, htoday, hhour⟩ := checkBudget_iff.1 hcheck
    have hfields := maybeReset_fields b checkedAt
    have hcounters := maybeReset_counters (maybeReset b checkedAt) consumedAt
    have hnonneg := maybeReset_nonNegative h checkedAt
    rw [NonNegative] at hnonneg
    refine consume_ok_iff.2 ⟨hfields.1.trans hpause, ?_, ?_⟩
    · rw [hfields.2.1]
      omega
    · rw [hfields.2.2]
      omega
  · intro checkedAt consumedAt hcheck hday hhour hok
    have hsame := maybeReset_same hday hhour
    rw [consume_ok_iff, hsame] at hok
    rw [checkBudget_row] at hok
    cases hpause : b.hardPause with
    | true =>
      rw [hpause, if_pos rfl, hpause] at hok
      exact absurd hok.1.symm Bool.false_ne_true
    | false =>
      have hfields := maybeReset_fields b checkedAt
      rw [hpause, if_neg Bool.false_ne_true, hfields.2.1, hfields.2.2] at hok
      have htrue : (checkBudget b checkedAt).2 = true :=
        checkBudget_iff.2 ⟨hpause, by omega, by omega⟩
      rw [htrue] at hcheck
      cases hcheck

/-! ### One promotion -/

theorem rowOf_nonNegative {s : Lanes} (h : Counted s) (p : Promotion) :
    NonNegative (rowOf s p) := by
  rw [rowOf, LaneBudgets.getOrCreateBudget]
  cases hb : s.budgets p.key with
  | none => exact ⟨Int.le_refl 0, Int.le_refl 0⟩
  | some b => exact h p.key b hb

theorem checkBudget_row_cases (b : LaneBudget) (now : ℤ) :
    (checkBudget b now).1 = b ∨ (checkBudget b now).1 = maybeReset b now := by
  rw [checkBudget_row]
  split
  · exact Or.inl rfl
  · exact Or.inr rfl

theorem consume_after_check {b : LaneBudget} (h : NonNegative b) {checkedAt : ℤ}
    (hcheck : (checkBudget b checkedAt).2 = true) (consumedAt : ℤ) :
    consume (checkBudget b checkedAt).1 consumedAt 1 =
      (granted (maybeReset (maybeReset b checkedAt) consumedAt) 1, .ok ()) := by
  have hok := (agrees_of_nonNegative h).later checkedAt consumedAt hcheck
  rw [checkBudget_row_true hcheck] at hok ⊢
  exact consume_granted hok

theorem tryPromote_one {s : Lanes} (h : Counted s) (p : Promotion) : PromotesOne s p := by
  have hrow := rowOf_nonNegative h p
  have hchecked := checkBudget_row_cases (rowOf s p) p.checkedAt
  rw [PromotesOne, tryPromote]
  cases hcheck : checkBudget (rowOf s p) p.checkedAt with
  | mk checked ok =>
    rw [hcheck] at hchecked
    cases ok with
    | false => exact Or.inl ⟨checked, hchecked, rfl⟩
    | true =>
      cases hitem : (s.queues (redisKey p.fromQueue)).getLast? with
      | none => exact Or.inl ⟨checked, hchecked, rfl⟩
      | some item =>
        have hfree : (checkBudget (rowOf s p) p.checkedAt).2 = true := by rw [hcheck]
        have hgrant := consume_after_check hrow hfree p.consumedAt
        rw [hcheck] at hgrant
        refine Or.inr ⟨item, rfl, ?_⟩
        simp only [hgrant]
        rfl

theorem granted_nonNegative {b : LaneBudget} (h : NonNegative b) : NonNegative (granted b 1) := by
  rw [NonNegative, granted] at *
  dsimp only
  omega

theorem counted_save {s : Lanes} (h : Counted s) {b : LaneBudget} (hb : NonNegative b)
    (key : BudgetKey) (queues : Queues String String) :
    Counted ⟨Function.update s.budgets key (some b), queues⟩ := by
  intro k c hc
  have hrow : Function.update s.budgets key (some b) k = some c := hc
  by_cases hk : k = key
  · subst hk
    rw [Function.update_self] at hrow
    cases hrow
    exact hb
  · rw [Function.update_of_ne hk] at hrow
    exact h k c hrow

/-- What a promotion keeps, and the transfer that it is for the queues. -/
theorem counted_promote {s : Lanes} (h : Counted s) (p : Promotion) :
    Counted (tryPromote s p).1 := by
  have hrow := rowOf_nonNegative h p
  rcases tryPromote_one h p with ⟨b, hb, he⟩ | ⟨item, -, he⟩
  · rw [he]
    refine counted_save h ?_ p.key s.queues
    rcases hb with rfl | rfl
    · exact hrow
    · exact maybeReset_nonNegative hrow p.checkedAt
  · rw [he]
    have hreset := maybeReset_nonNegative hrow p.checkedAt
    exact counted_save h (granted_nonNegative (maybeReset_nonNegative hreset p.consumedAt)) p.key _

theorem counted_next {s : Lanes} (h : Counted s) (c : LaneCall) : Counted (next s c) := by
  cases c with
  | enqueue queueKey payload => exact h
  | tryPromote p => exact counted_promote h p

theorem next_queues {s : Lanes} (h : Counted s) (c : LaneCall) :
    ValidTrace Possible transfer s.queues (transferOf s c) ∧
      (next s c).queues = runTrace transfer s.queues (transferOf s c) := by
  cases c with
  | enqueue queueKey payload =>
    refine ⟨⟨fun k hk => ?_, trivial⟩, rfl⟩
    cases hk
  | tryPromote p =>
    rw [transferOf, next]
    rcases tryPromote_one h p with ⟨b, -, he⟩ | ⟨item, hitem, he⟩
    · rw [he]
      exact ⟨trivial, rfl⟩
    · rw [he]
      simp only [hitem, Option.toList_some, List.map_cons, List.map_nil]
      refine ⟨⟨fun k hk => ?_, trivial⟩, rfl⟩
      cases hk
      exact hitem

/-! ### Runs -/

theorem run_counted {s : Lanes} (h : Counted s) (calls : List LaneCall) :
    Counted (run s calls) :=
  history_invariant (I := fun _ s => Counted s) h (fun _ c _ hI _ => counted_next hI c)
    (validTrace_of_forall (fun _ _ => trivial) s calls)

theorem run_queues {s : Lanes} (h : Counted s) (calls : List LaneCall) :
    ValidTrace Possible transfer s.queues (transferred s calls) ∧
      (run s calls).queues = runTrace transfer s.queues (transferred s calls) := by
  induction calls using List.reverseRecOn with
  | nil => exact ⟨trivial, rfl⟩
  | append_singleton calls c ih =>
    obtain ⟨hvalid, hqueues⟩ := ih
    have hstep := next_queues (run_counted h calls) c
    rw [hqueues] at hstep
    rw [transferred, emitted_concat, run, runTrace_concat]
    exact ⟨validTrace_append.2 ⟨hvalid, hstep.1⟩, hstep.2.trans (runTrace_append _ _ _).symm⟩

/-- What holds after a run: for every row the check and the consume agree, a promotion is an
answer and at most one transfer, and the queues are first in, first out. -/
structure PromotedInOrder (s : Lanes) (calls : List LaneCall) : Prop where
  agree : ∀ key b, (run s calls).budgets key = some b → Agrees b
  one : ∀ p, PromotesOne (run s calls) p
  in_order : ∀ queue,
    InOrder s.queues (run s calls).queues (transferred s calls) (redisKey queue)
  leaves_source : ∀ fromQueue toQueue,
    (moved (transferred s calls) (redisKey fromQueue) (redisKey toQueue)).Sublist
      (popped (transferred s calls) (redisKey fromQueue))
  enters_target : ∀ fromQueue toQueue,
    (moved (transferred s calls) (redisKey fromQueue) (redisKey toQueue)).Sublist
      (pushed (transferred s calls) (redisKey toQueue))

theorem promoted_in_order {s : Lanes} (h : Counted s) (calls : List LaneCall) :
    PromotedInOrder s calls := by
  have hcounted := run_counted h calls
  obtain ⟨hvalid, hqueues⟩ := run_queues h calls
  constructor
  · exact fun key b hb => agrees_of_nonNegative (hcounted key b hb)
  · exact tryPromote_one hcounted
  · intro queue
    rw [hqueues]
    exact transfers_inOrder hvalid _
  · exact fun fromQueue toQueue => moved_sublist_popped _ _ _
  · exact fun fromQueue toQueue => moved_sublist_pushed _ _ _

def emptyLanes : Lanes := ⟨fun _ => none, fun _ => []⟩

def twoPromoted : List LaneCall :=
  [.enqueue "discovery.raw" "a.com", .enqueue "discovery.raw" "b.com",
    .tryPromote ⟨"discovery.raw", "discovery.enriched", "discovery", "global", 0, day - 1, day⟩,
    .tryPromote ⟨"discovery.raw", "discovery.enriched", "discovery", "global", day, day, day⟩]

theorem two_promoted_in_order : PromotedInOrder emptyLanes twoPromoted :=
  promoted_in_order (fun _ _ hb => by cases hb) twoPromoted

example : (run emptyLanes twoPromoted).queues "queue:discovery:enriched" = ["b.com", "a.com"] := by
  decide

end TrustCopilot.LanePromotions
