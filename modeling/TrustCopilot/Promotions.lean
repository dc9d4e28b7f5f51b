import TrustCopilot.LaneBudgets
import TrustCopilot.Library.OrderedDict
import Mathlib.Algebra.BigOperators.Group.Finset.Basic
import Mathlib.Data.Finset.Insert

/-! Promotions between queues. `try_promote` checks the budget, pops an item, consumes one
unit and pushes the item on, in four steps that other promotions and other users of the
budgets can come between. Redis operations are atomic. -/
namespace TrustCopilot.Promotions

open TrustCopilot.OrderedDict
open TrustCopilot.Trace
open TrustCopilot.LaneBudgets

/-- The Redis lists, head first. -/
abbrev Queues := String → List String

def lpush (queues : Queues) (key payload : String) : Queues :=
  Function.update queues key (payload :: queues key)

def rpop (queues : Queues) (key : String) : Option (String × Queues) :=
  match (queues key).getLast? with
  | none => none
  | some item => some (item, Function.update queues key (queues key).dropLast)

def enqueue (queues : Queues) (queueKey payload : String) : Queues :=
  lpush queues (redisKey queueKey) payload

structure PromoteCall where
  fromQueue : String
  toQueue : String
  lane : String
  scope : String := "global"
  deriving DecidableEq, Repr

inductive Phase where
  | ready
  | checked (call : PromoteCall)
  | popped (call : PromoteCall) (item : String)
  | paid (call : PromoteCall) (item : String)
  | returned (promoted : Bool)
  | raised (e : BudgetExhausted)
  deriving DecidableEq, Repr

structure Exchange (κ : Type*) where
  queues : Queues
  budgets : String × String → Option LaneBudget
  calls : Dict κ Phase

inductive ExchangeStep (κ : Type*) where
  | check (k : κ) (call : PromoteCall) (now : ℤ)
  | pop (k : κ)
  | consume (k : κ) (now : ℤ)
  | push (k : κ)
  | otherConsume (lane scope : String) (now count : ℤ)
  | otherPause (lane scope : String) (now : ℤ) (paused : Bool)
  deriving DecidableEq, Repr

variable {κ : Type*} [DecidableEq κ]

def Exchange.start (queues : Queues) (budgets : String × String → Option LaneBudget) :
    Exchange κ := ⟨queues, budgets, Dict.empty⟩

def phase (s : Exchange κ) (k : κ) : Phase := (s.calls.get? k).getD .ready

def budget (s : Exchange κ) (lane scope : String) (now : ℤ) : LaneBudget :=
  getOrCreateBudget (s.budgets (lane, scope)) lane scope now

def setBudget (s : Exchange κ) (lane scope : String) (row : LaneBudget) : Exchange κ :=
  { s with budgets := Function.update s.budgets (lane, scope) (some row) }

def setPhase (s : Exchange κ) (k : κ) (p : Phase) : Exchange κ :=
  { s with calls := s.calls.set k p }

/-- A call that is not in the phase a step needs takes no step. -/
def next (s : Exchange κ) : ExchangeStep κ → Exchange κ
  | .check k call now =>
    match phase s k with
    | .ready =>
      match checkBudget (budget s call.lane call.scope now) now with
      | (row, true) => setPhase (setBudget s call.lane call.scope row) k (.checked call)
      | (row, false) => setPhase (setBudget s call.lane call.scope row) k (.returned false)
    | _ => s
  | .pop k =>
    match phase s k with
    | .checked call =>
      match rpop s.queues (redisKey call.fromQueue) with
      | none => setPhase s k (.returned false)
      | some (item, queues) => setPhase { s with queues := queues } k (.popped call item)
    | _ => s
  | .consume k now =>
    match phase s k with
    | .popped call item =>
      match consume (budget s call.lane call.scope now) now 1 with
      | (row, .ok _) => setPhase (setBudget s call.lane call.scope row) k (.paid call item)
      | (row, .error e) => setPhase (setBudget s call.lane call.scope row) k (.raised e)
    | _ => s
  | .push k =>
    match phase s k with
    | .paid call item =>
      setPhase { s with queues := enqueue s.queues call.toQueue item } k (.returned true)
    | _ => s
  | .otherConsume lane scope now count =>
    setBudget s lane scope (consume (budget s lane scope now) now count).1
  | .otherPause lane scope now paused =>
    setBudget s lane scope (setPause (budget s lane scope now) paused)

def run (s : Exchange κ) (steps : List (ExchangeStep κ)) : Exchange κ := runTrace next s steps

/-! ### Where the payloads are -/

def Phase.holds (p : String) : Phase → ℕ
  | .popped _ item => if item = p then 1 else 0
  | .paid _ item => if item = p then 1 else 0
  | _ => 0

@[simp] theorem holds_popped (p : String) (call : PromoteCall) (item : String) :
    (Phase.popped call item).holds p = if item = p then 1 else 0 := rfl

@[simp] theorem holds_paid (p : String) (call : PromoteCall) (item : String) :
    (Phase.paid call item).holds p = if item = p then 1 else 0 := rfl

@[simp] theorem holds_ready (p : String) : Phase.ready.holds p = 0 := rfl

@[simp] theorem holds_checked (p : String) (call : PromoteCall) :
    (Phase.checked call).holds p = 0 := rfl

@[simp] theorem holds_returned (p : String) (promoted : Bool) :
    (Phase.returned promoted).holds p = 0 := rfl

@[simp] theorem holds_raised (p : String) (e : BudgetExhausted) :
    (Phase.raised e).holds p = 0 := rfl

def inQueues (K : Finset String) (p : String) (queues : Queues) : ℕ :=
  ∑ key ∈ K, (queues key).count p

/-- The copies of a payload that are in one of the queues or in the hands of a running call. -/
def atLarge (K : Finset String) (p : String) (s : Exchange κ) : ℕ :=
  inQueues K p s.queues + s.calls.total fun _ phase => phase.holds p

/-- The row is unpaused and, its lapsed windows reset, has a unit left in both of them. -/
def Affordable (b : LaneBudget) (now : ℤ) : Prop :=
  b.hardPause = false ∧ (maybeReset b now).usedToday + 1 ≤ (maybeReset b now).dailyLimit ∧
    (maybeReset b now).usedThisHour + 1 ≤ (maybeReset b now).hourlyLimit

instance (b : LaneBudget) (now : ℤ) : Decidable (Affordable b now) :=
  inferInstanceAs (Decidable (_ ∧ _))

theorem consume_one (b : LaneBudget) (now : ℤ) :
    (Affordable b now ∧ consume b now 1 = (granted (maybeReset b now) 1, .ok ())) ∨
    (¬ Affordable b now ∧ ∃ row e, consume b now 1 = (row, .error e)) := by
  rcases consume_cases b now 1 with ⟨hp, he⟩ | ⟨hp, e, he⟩ | ⟨hp, hd, hh, he⟩
  · exact Or.inr ⟨fun h => by simp [Affordable, hp] at h, _, _, he⟩
  · refine Or.inr ⟨fun h => ?_, _, _, he⟩
    simp only [consume, hp, Bool.false_eq_true, if_false, not_lt.2 h.2.1, not_lt.2 h.2.2]
      at he
    cases (Prod.mk.inj he).2
  · exact Or.inl ⟨⟨hp, hd, hh⟩, he⟩

/-- The budget can pay for the item that a consuming call has popped. -/
def PaysForPopped (s : Exchange κ) : ExchangeStep κ → Prop
  | .consume k now =>
    match phase s k with
    | .popped call _ => Affordable (budget s call.lane call.scope now) now
    | _ => True
  | _ => True

instance (s : Exchange κ) (e : ExchangeStep κ) : Decidable (PaysForPopped s e) := by
  cases e with
  | consume k now => unfold PaysForPopped; dsimp only; split <;> infer_instance
  | _ => exact isTrue trivial

def lost (s : Exchange κ) (p : String) : ExchangeStep κ → ℕ
  | .consume k now =>
    match phase s k with
    | .popped call item =>
      if Affordable (budget s call.lane call.scope now) now then 0
      else if item = p then 1 else 0
    | _ => 0
  | _ => 0

theorem inQueues_update {K : Finset String} {key : String} (hk : key ∈ K) (p : String)
    (queues : Queues) (items : List String) :
    inQueues K p (Function.update queues key items) + (queues key).count p =
      inQueues K p queues + items.count p := by
  have hrest : ∑ j ∈ K.erase key, (Function.update queues key items j).count p =
      ∑ j ∈ K.erase key, (queues j).count p := by
    refine Finset.sum_congr rfl fun j hj => ?_
    rw [Function.update_of_ne (Finset.ne_of_mem_erase hj)]
  have hnew := Finset.add_sum_erase K (fun j => (Function.update queues key items j).count p) hk
  have hold := Finset.add_sum_erase K (fun j => (queues j).count p) hk
  simp only [Function.update_self] at hnew
  unfold inQueues
  omega

theorem inQueues_lpush {K : Finset String} {key : String} (hk : key ∈ K) (p : String)
    (queues : Queues) (item : String) :
    inQueues K p (lpush queues key item) =
      inQueues K p queues + if item = p then 1 else 0 := by
  have h := inQueues_update hk p queues (item :: queues key)
  rw [List.count_cons] at h
  simp only [beq_iff_eq] at h
  rw [lpush]
  omega

theorem inQueues_rpop {K : Finset String} {key : String} (hk : key ∈ K) (p : String)
    {queues queues' : Queues} {item : String} (h : rpop queues key = some (item, queues')) :
    inQueues K p queues' + (if item = p then 1 else 0) = inQueues K p queues := by
  rw [rpop] at h
  split at h
  · cases h
  · next hlast =>
    cases h
    have hu := inQueues_update hk p queues (queues key).dropLast
    have hsplit := congrArg (List.count p) (List.dropLast_append_getLast? item hlast)
    simp only [List.count_append, List.count_singleton, beq_iff_eq] at hsplit
    omega

/-- A call that moves on trades what it held for what it holds. -/
theorem atLarge_setPhase (K : Finset String) (p : String) {s t : Exchange κ}
    (ht : t.calls = s.calls) (k : κ) (q : Phase) :
    atLarge K p (setPhase t k q) + inQueues K p s.queues + (phase s k).holds p =
      atLarge K p s + inQueues K p t.queues + q.holds p := by
  have h := Dict.total_set (fun _ phase => Phase.holds p phase) s.calls k q
  have hold : ((s.calls.get? k).elim 0 fun phase => Phase.holds p phase) =
      (phase s k).holds p := by
    rw [phase]
    cases s.calls.get? k <;> rfl
  rw [hold] at h
  simp only [atLarge, setPhase, ht]
  omega

omit [DecidableEq κ] in
@[simp] theorem queues_setBudget (s : Exchange κ) (lane scope : String) (row : LaneBudget) :
    (setBudget s lane scope row).queues = s.queues := rfl

theorem atLarge_setBudget (K : Finset String) (p : String) (s : Exchange κ)
    (lane scope : String) (row : LaneBudget) (k : κ) (q : Phase) :
    atLarge K p (setPhase (setBudget s lane scope row) k q) + (phase s k).holds p =
      atLarge K p s + q.holds p := by
  have h := atLarge_setPhase K p (s := s) (t := setBudget s lane scope row) rfl k q
  rw [queues_setBudget] at h
  omega

def UsesQueues (K : Finset String) (call : PromoteCall) : Prop :=
  redisKey call.fromQueue ∈ K ∧ redisKey call.toQueue ∈ K

instance (K : Finset String) (call : PromoteCall) : Decidable (UsesQueues K call) :=
  inferInstanceAs (Decidable (_ ∧ _))

def StepUses (K : Finset String) : ExchangeStep κ → Prop
  | .check _ call _ => UsesQueues K call
  | _ => True

instance (K : Finset String) (e : ExchangeStep κ) : Decidable (StepUses K e) := by
  cases e <;> unfold StepUses <;> infer_instance

def PhaseUses (K : Finset String) : Phase → Prop
  | .checked call => UsesQueues K call
  | .popped call _ => UsesQueues K call
  | .paid call _ => UsesQueues K call
  | _ => True

variable {K : Finset String} {s : Exchange κ}

theorem phase_setPhase (s : Exchange κ) (k j : κ) (q : Phase) :
    phase (setPhase s k q) j = if j = k then q else phase s j := by
  rw [phase, setPhase, Dict.get?_set]
  split <;> rfl

theorem uses_of_phase {k : κ} {q : Phase} (hw : ∀ k, PhaseUses K (phase s k))
    (hk : phase s k = q) : PhaseUses K q := hk ▸ hw k

/-! ### What one step does -/

def charged (s : Exchange κ) : ExchangeStep κ → List κ
  | .consume k now =>
    match phase s k with
    | .popped call _ =>
      match consume (budget s call.lane call.scope now) now 1 with
      | (_, .ok _) => [k]
      | (_, .error _) => []
    | _ => []
  | _ => []

def moved (s : Exchange κ) : ExchangeStep κ → List κ
  | .push k =>
    match phase s k with
    | .paid _ _ => [k]
    | _ => []
  | _ => []

/-- The item that a step loses, and the calls that it charges and moves an item for. -/
structure Yields (s : Exchange κ) (e : ExchangeStep κ) (item : Option String)
    (units moves : List κ) : Prop where
  lost : ∀ p, lost s p e = item.toList.count p
  charged : charged s e = units
  moved : moved s e = moves

/-- A step leaves the calls alone, or takes one call on to its next phase. -/
inductive Turn (s : Exchange κ) (e : ExchangeStep κ) : Exchange κ → Prop
  | quiet (t : Exchange κ) : t.calls = s.calls → t.queues = s.queues → Yields s e none [] [] →
      Turn s e t
  | checked (k : κ) (call : PromoteCall) (now : ℤ) (row : LaneBudget) : e = .check k call now →
      phase s k = .ready → Yields s e none [] [] →
      Turn s e (setPhase (setBudget s call.lane call.scope row) k (.checked call))
  | refused (k : κ) (lane scope : String) (row : LaneBudget) : phase s k = .ready →
      Yields s e none [] [] → Turn s e (setPhase (setBudget s lane scope row) k (.returned false))
  | emptied (k : κ) (call : PromoteCall) : phase s k = .checked call → Yields s e none [] [] →
      Turn s e (setPhase s k (.returned false))
  | popped (k : κ) (call : PromoteCall) (item : String) (queues : Queues) :
      phase s k = .checked call → rpop s.queues (redisKey call.fromQueue) = some (item, queues) →
      Yields s e none [] [] →
      Turn s e (setPhase { s with queues := queues } k (.popped call item))
  | paid (k : κ) (call : PromoteCall) (item : String) (row : LaneBudget) :
      phase s k = .popped call item → Yields s e none [k] [] →
      Turn s e (setPhase (setBudget s call.lane call.scope row) k (.paid call item))
  | raised (k : κ) (call : PromoteCall) (item : String) (row : LaneBudget)
      (err : BudgetExhausted) : phase s k = .popped call item → Yields s e (some item) [] [] →
      Turn s e (setPhase (setBudget s call.lane call.scope row) k (.raised err))
  | pushed (k : κ) (call : PromoteCall) (item : String) : phase s k = .paid call item →
      Yields s e none [] [k] →
      Turn s e (setPhase { s with queues := enqueue s.queues call.toQueue item } k
        (.returned true))

theorem next_turn (s : Exchange κ) (e : ExchangeStep κ) : Turn s e (next s e) := by
  cases e with
  | check k call now =>
    have hyields : Yields s (.check k call now) none [] [] := ⟨fun _ => rfl, rfl, rfl⟩
    cases hk : phase s k with
    | ready =>
      rcases hb : checkBudget (budget s call.lane call.scope now) now with ⟨row, passed⟩
      simp only [next, hk, hb]
      cases passed with
      | true => exact .checked k call now row rfl hk hyields
      | false => exact .refused k call.lane call.scope row hk hyields
    | _ => simpa only [next, hk] using .quiet s rfl rfl hyields
  | pop k =>
    have hyields : Yields s (.pop k) none [] [] := ⟨fun _ => rfl, rfl, rfl⟩
    cases hk : phase s k with
    | checked call =>
      simp only [next, hk]
      cases hpop : rpop s.queues (redisKey call.fromQueue) with
      | none => exact .emptied k call hk hyields
      | some r => exact .popped k call r.1 r.2 hk hpop hyields
    | _ => simpa only [next, hk] using .quiet s rfl rfl hyields
  | consume k now =>
    cases hk : phase s k with
    | popped call item =>
      simp only [next, hk]
      rcases consume_one (budget s call.lane call.scope now) now with
        ⟨ha, he⟩ | ⟨ha, row, err, he⟩
      · rw [he]
        refine .paid k call item _ hk ⟨fun p => ?_, ?_, rfl⟩
        · simp only [lost, hk, if_pos ha, Option.toList_none, List.count_nil]
        · simp only [charged, hk, he]
      · rw [he]
        refine .raised k call item row err hk ⟨fun p => ?_, ?_, rfl⟩
        · simp only [lost, hk, if_neg ha, Option.toList_some, List.count_singleton, beq_iff_eq]
        · simp only [charged, hk, he]
    | _ =>
      simp only [next, hk]
      refine .quiet s rfl rfl ⟨fun p => ?_, ?_, rfl⟩
      · simp only [lost, hk, Option.toList_none, List.count_nil]
      · simp only [charged, hk]
  | push k =>
    cases hk : phase s k with
    | paid call item =>
      simp only [next, hk]
      exact .pushed k call item hk ⟨fun _ => rfl, rfl, by simp only [moved, hk]⟩
    | _ =>
      simp only [next, hk]
      exact .quiet s rfl rfl ⟨fun _ => rfl, rfl, by simp only [moved, hk]⟩
  | otherConsume lane scope now count => exact .quiet _ rfl rfl ⟨fun _ => rfl, rfl, rfl⟩
  | otherPause lane scope now paused => exact .quiet _ rfl rfl ⟨fun _ => rfl, rfl, rfl⟩

/-! ### Conservation -/

theorem atLarge_next (hw : ∀ k, PhaseUses K (phase s k)) (p : String) (e : ExchangeStep κ) :
    atLarge K p (next s e) + lost s p e = atLarge K p s := by
  have hturn := next_turn s e
  generalize next s e = t at hturn ⊢
  cases hturn with
  | quiet _ hcalls hqueues hyields =>
    rw [hyields.lost, atLarge, hcalls, hqueues]
    rfl
  | checked k call now row _ hk hyields =>
    have h := atLarge_setBudget K p s call.lane call.scope row k (.checked call)
    rw [hk, holds_ready, holds_checked] at h
    rw [hyields.lost, Option.toList_none, List.count_nil]
    omega
  | refused k lane scope row hk hyields =>
    have h := atLarge_setBudget K p s lane scope row k (.returned false)
    rw [hk, holds_ready, holds_returned] at h
    rw [hyields.lost, Option.toList_none, List.count_nil]
    omega
  | emptied k call hk hyields =>
    have h := atLarge_setPhase K p (s := s) rfl k (.returned false)
    rw [hk, holds_checked, holds_returned] at h
    rw [hyields.lost, Option.toList_none, List.count_nil]
    omega
  | popped k call item queues hk hpop hyields =>
    have hu : UsesQueues K call := uses_of_phase hw hk
    have hq := inQueues_rpop hu.1 p hpop
    have h := atLarge_setPhase K p (s := s) (t := { s with queues := queues }) rfl k
      (.popped call item)
    rw [hk, holds_checked, holds_popped] at h
    rw [hyields.lost, Option.toList_none, List.count_nil]
    dsimp only at h
    omega
  | paid k call item row hk hyields =>
    have h := atLarge_setBudget K p s call.lane call.scope row k (.paid call item)
    rw [hk, holds_popped, holds_paid] at h
    rw [hyields.lost, Option.toList_none, List.count_nil]
    omega
  | raised k call item row err hk hyields =>
    have h := atLarge_setBudget K p s call.lane call.scope row k (.raised err)
    rw [hk, holds_popped, holds_raised] at h
    rw [hyields.lost, Option.toList_some, List.count_singleton]
    simp only [beq_iff_eq]
    omega
  | pushed k call item hk hyields =>
    have hu : UsesQueues K call := uses_of_phase hw hk
    have hq := inQueues_lpush hu.2 p s.queues item
    have h := atLarge_setPhase K p (s := s)
      (t := { s with queues := enqueue s.queues call.toQueue item }) rfl k (.returned true)
    rw [hk, holds_paid, holds_returned] at h
    rw [hyields.lost, Option.toList_none, List.count_nil]
    simp only [enqueue] at h ⊢
    omega

theorem phaseUses_next (hw : ∀ k, PhaseUses K (phase s k)) {e : ExchangeStep κ}
    (he : StepUses K e) (j : κ) : PhaseUses K (phase (next s e) j) := by
  have hset : ∀ (t : Exchange κ) k q, t.calls = s.calls → PhaseUses K q →
      PhaseUses K (phase (setPhase t k q) j) := by
    intro t k q ht hq
    rw [phase_setPhase]
    split
    · exact hq
    · rw [phase, ht]
      exact hw j
  have hturn := next_turn s e
  generalize next s e = t at hturn ⊢
  cases hturn with
  | quiet _ hcalls _ _ =>
    rw [phase, hcalls]
    exact hw j
  | checked k call now row hcall _ _ =>
    rw [hcall] at he
    exact hset _ k _ rfl he
  | popped k call item queues hk _ _ =>
    have hu : UsesQueues K call := uses_of_phase hw hk
    exact hset _ k _ rfl hu
  | paid k call item row hk _ =>
    have hu : UsesQueues K call := uses_of_phase hw hk
    exact hset _ k _ rfl hu
  | refused k _ _ row _ _ => exact hset _ k _ rfl trivial
  | emptied k call _ _ => exact hset _ k _ rfl trivial
  | raised k call item row err _ _ => exact hset _ k _ rfl trivial
  | pushed k call item _ _ => exact hset _ k _ rfl trivial

/-! ### Units paid and items moved -/

def unitsPaid (s : Exchange κ) (steps : List (ExchangeStep κ)) (k : κ) : ℕ :=
  (emitted charged next s steps).count k

def itemsMoved (s : Exchange κ) (steps : List (ExchangeStep κ)) (k : κ) : ℕ :=
  (emitted moved next s steps).count k

def Phase.books : Phase → ℕ × ℕ
  | .paid _ _ => (1, 0)
  | .returned true => (1, 1)
  | _ => (0, 0)

theorem books_setPhase {t : Exchange κ} (ht : t.calls = s.calls) (k : κ) (q : Phase) (u m : ℕ)
    (hq : q.books = ((phase s k).books.1 + u, (phase s k).books.2 + m)) (j : κ) :
    (phase (setPhase t k q) j).books =
      ((phase s j).books.1 + (List.replicate u k).count j,
        (phase s j).books.2 + (List.replicate m k).count j) := by
  have hphase : phase t j = phase s j := by rw [phase, phase, ht]
  rw [phase_setPhase]
  by_cases hj : j = k
  · subst j
    simpa using hq
  · simp [hj, Ne.symm hj, List.count_replicate, hphase]

/-- A call pays one unit on its way to `paid` and moves one item when it returns `True`. -/
theorem books_next (s : Exchange κ) (e : ExchangeStep κ) (j : κ) :
    (phase (next s e) j).books =
      ((phase s j).books.1 + (charged s e).count j, (phase s j).books.2 + (moved s e).count j) := by
  have hturn := next_turn s e
  generalize next s e = t at hturn ⊢
  cases hturn with
  | quiet _ hcalls _ hyields =>
    rw [hyields.charged, hyields.moved, phase, hcalls]
    rfl
  | checked k call now row _ hk hyields =>
    rw [hyields.charged, hyields.moved]
    exact books_setPhase (s := s) rfl k _ 0 0 (by rw [hk]; rfl) j
  | refused k lane scope row hk hyields =>
    rw [hyields.charged, hyields.moved]
    exact books_setPhase (s := s) rfl k _ 0 0 (by rw [hk]; rfl) j
  | emptied k call hk hyields =>
    rw [hyields.charged, hyields.moved]
    exact books_setPhase (s := s) rfl k _ 0 0 (by rw [hk]; rfl) j
  | popped k call item queues hk _ hyields =>
    rw [hyields.charged, hyields.moved]
    exact books_setPhase (s := s) rfl k _ 0 0 (by rw [hk]; rfl) j
  | paid k call item row hk hyields =>
    rw [hyields.charged, hyields.moved]
    exact books_setPhase (s := s) rfl k _ 1 0 (by rw [hk]; rfl) j
  | raised k call item row err hk hyields =>
    rw [hyields.charged, hyields.moved]
    exact books_setPhase (s := s) rfl k _ 0 0 (by rw [hk]; rfl) j
  | pushed k call item hk hyields =>
    rw [hyields.charged, hyields.moved]
    exact books_setPhase (s := s) rfl k _ 0 1 (by rw [hk]; rfl) j

/-- Every call has paid for the item it moved, and moved one item only. -/
theorem run_books (queues : Queues) (budgets : String × String → Option LaneBudget)
    (steps : List (ExchangeStep κ)) (k : κ) :
    (phase (run (.start queues budgets) steps) k).books =
      (unitsPaid (.start queues budgets) steps k, itemsMoved (.start queues budgets) steps k) := by
  induction steps using List.reverseRecOn with
  | nil => rfl
  | append_singleton steps e ih =>
    rw [run, runTrace_concat, books_next, ← run, ih, unitsPaid, unitsPaid, itemsMoved, itemsMoved,
      emitted_concat, emitted_concat, List.count_append, List.count_append]
    rfl

theorem run_uses {s : Exchange κ} (hw : ∀ k, PhaseUses K (phase s k))
    {steps : List (ExchangeStep κ)} (h : ∀ e ∈ steps, StepUses K e) (k : κ) :
    PhaseUses K (phase (run s steps) k) := by
  induction steps generalizing s with
  | nil => exact hw k
  | cons e steps ih =>
    exact ih (phaseUses_next hw (h e List.mem_cons_self))
      fun x hx => h x (List.mem_cons_of_mem e hx)

/-- What promotions between the queues of `K` promise: every payload is in one of the queues,
or in the hands of a call that has not finished, as often as it was in the queues, and every
item that moved was paid for with one unit. -/
structure PromotionsSafe (K : Finset String) (queues : Queues)
    (budgets : String × String → Option LaneBudget) (steps : List (ExchangeStep κ)) : Prop where
  conserved : ∀ p, atLarge K p (run (.start queues budgets) steps) = inQueues K p queues
  paid : ∀ k, 0 < itemsMoved (.start queues budgets) steps k →
    itemsMoved (.start queues budgets) steps k = 1 ∧
    unitsPaid (.start queues budgets) steps k = 1

def AlwaysSafe (K : Finset String) (queues : Queues)
    (budgets : String × String → Option LaneBudget) (steps : List (ExchangeStep κ)) : Prop :=
  ∀ xs, xs <+: steps → PromotionsSafe K queues budgets xs

theorem moved_paid (queues : Queues) (budgets : String × String → Option LaneBudget)
    (steps : List (ExchangeStep κ)) (k : κ)
    (h : 0 < itemsMoved (.start queues budgets) steps k) :
    itemsMoved (.start queues budgets) steps k = 1 ∧
    unitsPaid (.start queues budgets) steps k = 1 := by
  have hb := run_books queues budgets steps k
  cases hk : phase (run (.start queues budgets) steps) k with
  | returned promoted =>
    rw [hk] at hb
    cases promoted with
    | true => exact ⟨(Prod.mk.inj hb).2.symm, (Prod.mk.inj hb).1.symm⟩
    | false => rw [← (Prod.mk.inj hb).2] at h; cases h
  | _ =>
    rw [hk] at hb
    rw [← (Prod.mk.inj hb).2] at h
    cases h

theorem lost_zero_iff (s : Exchange κ) (e : ExchangeStep κ) :
    (∀ p, lost s p e = 0) ↔ PaysForPopped s e := by
  cases e with
  | consume k now =>
    cases hk : phase s k with
    | popped call item =>
      simp only [lost, hk, PaysForPopped]
      by_cases ha : Affordable (budget s call.lane call.scope now) now
      · simp [ha]
      · simp only [ha, if_false, iff_false, not_forall]
        exact ⟨item, by simp⟩
    | _ => simp only [lost, hk, PaysForPopped, implies_true]
  | _ => simp only [lost, PaysForPopped, implies_true]

def rawQueue : Queues :=
  Function.update (fun _ => []) "queue:discovery:raw" ["lead-1"]

def promoteRaw : PromoteCall where
  fromQueue := "discovery.raw"
  toQueue := "discovery.enriched"
  lane := "discovery"

def promoteQueues : Finset String := {"queue:discovery:raw", "queue:discovery:enriched"}

def undisturbed : List (ExchangeStep ℕ) :=
  [.check 0 promoteRaw 0, .pop 0, .consume 0 0, .push 0]

def pausedMidway : List (ExchangeStep ℕ) :=
  [.check 0 promoteRaw 0, .pop 0, .otherPause "discovery" "global" 0 true, .consume 0 0]

end TrustCopilot.Promotions
