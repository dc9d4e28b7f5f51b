import Mathlib.Data.List.Basic
import Mathlib.Data.List.Count
import Mathlib.Data.List.Pairwise

/-! A counting semaphore that hands its slots on in the order in which they were asked for. A slot
that is given back goes to the first waiter still asleep; it leaves the queue when it next runs,
and until then nobody new gets in. -/
namespace TrustCopilot.Semaphores

structure Waiter (α : Type*) where
  who : α
  awake : Bool
  deriving DecidableEq, Repr

structure Semaphore (α : Type*) where
  value : ℕ
  waiters : List (Waiter α) := []
  deriving DecidableEq, Repr

variable {α : Type*} {s : Semaphore α} {n held : ℕ}

def locked (s : Semaphore α) : Bool := decide (s.value = 0) || !s.waiters.isEmpty

/-- The answer is whether the slot is had at once. -/
def acquire (s : Semaphore α) (a : α) : Bool × Semaphore α :=
  if locked s then (false, { s with waiters := s.waiters ++ [⟨a, false⟩] })
  else (true, { s with value := s.value - 1 })

def wakeFirst : List (Waiter α) → List (Waiter α)
  | [] => []
  | w :: ws => if w.awake then w :: wakeFirst ws else { w with awake := true } :: ws

def wakeUpNext (s : Semaphore α) : Semaphore α :=
  if s.waiters.all Waiter.awake then s else ⟨s.value - 1, wakeFirst s.waiters⟩

def release (s : Semaphore α) : Semaphore α := wakeUpNext { s with value := s.value + 1 }

/-- A waiter that was woken runs again. It wakes the next one where a slot was given back while
nobody was asleep. -/
def resume [DecidableEq α] (s : Semaphore α) (a : α) : Semaphore α :=
  let rest : Semaphore α := { s with waiters := s.waiters.erase ⟨a, true⟩ }
  if 0 < rest.value then wakeUpNext rest else rest

/-- The slots that are handed to waiters which have not run since. -/
def handed (s : Semaphore α) : ℕ := s.waiters.countP Waiter.awake

/-- Nobody is woken before one that has waited longer. -/
def InOrder (ws : List (Waiter α)) : Prop :=
  ws.Pairwise fun a b => b.awake = true → a.awake = true

/-- The waiters that have waited longer than `a`. -/
def ahead [DecidableEq α] (s : Semaphore α) (a : α) : List (Waiter α) :=
  s.waiters.takeWhile fun w => w.who ≠ a

/-- With `n` slots and `held` of them in use: no slot is lost, and none lies unused while somebody
sleeps, unless one that is awake will pass it on. -/
structure Fair (n held : ℕ) (s : Semaphore α) : Prop where
  slots : s.value + handed s + held = n
  order : InOrder s.waiters
  heeded : 0 < s.value → (∃ w ∈ s.waiters, w.awake = false) → 0 < handed s

theorem fair_new (n : ℕ) : Fair n 0 (⟨n, []⟩ : Semaphore α) :=
  ⟨rfl, List.Pairwise.nil, fun _ ⟨_, hw, _⟩ => absurd hw List.not_mem_nil⟩

theorem wakeFirst_who (ws : List (Waiter α)) :
    (wakeFirst ws).map Waiter.who = ws.map Waiter.who := by
  induction ws with
  | nil => rfl
  | cons w ws ih =>
    rw [wakeFirst]
    split
    · rw [List.map_cons, List.map_cons, ih]
    · rfl

theorem countP_wakeFirst {ws : List (Waiter α)} (h : ¬ ws.all Waiter.awake) :
    (wakeFirst ws).countP Waiter.awake = ws.countP Waiter.awake + 1 := by
  induction ws with
  | nil => exact absurd rfl h
  | cons w ws ih =>
    rw [wakeFirst]
    split
    · next hw =>
      have hrest : ¬ ws.all Waiter.awake := fun hall => h (by rw [List.all_cons, hw, hall]; rfl)
      rw [List.countP_cons_of_pos hw, List.countP_cons_of_pos hw, ih hrest]
    · next hw =>
      have hnew : ({ w with awake := true } : Waiter α).awake = true := rfl
      rw [List.countP_cons_of_pos hnew, List.countP_cons_of_neg hw]

theorem inOrder_wakeFirst {ws : List (Waiter α)} (h : InOrder ws) : InOrder (wakeFirst ws) := by
  induction ws with
  | nil => exact h
  | cons w ws ih =>
    obtain ⟨-, hrest⟩ := List.pairwise_cons.1 h
    rw [wakeFirst]
    split
    · next hw => exact List.pairwise_cons.2 ⟨fun _ _ _ => hw, ih hrest⟩
    · exact List.pairwise_cons.2 ⟨fun _ _ _ => rfl, hrest⟩

theorem who_wakeUpNext (s : Semaphore α) :
    (wakeUpNext s).waiters.map Waiter.who = s.waiters.map Waiter.who := by
  rw [wakeUpNext]
  split
  · rfl
  · exact wakeFirst_who _

/-- A free slot that is passed on leaves the semaphore fair, whatever was asleep before. -/
theorem fair_wakeUpNext (hslots : s.value + handed s + held = n) (horder : InOrder s.waiters)
    (hfree : 0 < s.value) : Fair n held (wakeUpNext s) := by
  rw [wakeUpNext]
  split
  · next hall =>
    refine ⟨hslots, horder, fun _ ⟨w, hw, hasleep⟩ => ?_⟩
    have hawake := List.all_eq_true.1 hall w hw
    rw [hasleep] at hawake
    cases hawake
  · next hsome =>
    have hcount : handed ⟨s.value - 1, wakeFirst s.waiters⟩ = handed s + 1 :=
      countP_wakeFirst hsome
    refine ⟨?_, inOrder_wakeFirst horder, fun _ _ => ?_⟩
    · rw [hcount]
      change s.value - 1 + (handed s + 1) + held = n
      omega
    · rw [hcount]
      exact Nat.succ_pos _

theorem who_release (s : Semaphore α) :
    (release s).waiters.map Waiter.who = s.waiters.map Waiter.who := who_wakeUpNext _

theorem fair_release (h : Fair n (held + 1) s) : Fair n held (release s) := by
  refine fair_wakeUpNext ?_ h.order (Nat.succ_pos _)
  have hslots := h.slots
  change s.value + 1 + handed s + held = n
  omega

theorem acquire_cases (s : Semaphore α) (a : α) :
    acquire s a = (false, { s with waiters := s.waiters ++ [⟨a, false⟩] }) ∧
      (s.value = 0 ∨ s.waiters ≠ []) ∨
    acquire s a = (true, { s with value := s.value - 1 }) ∧ 0 < s.value ∧ s.waiters = [] := by
  rw [acquire]
  by_cases hlocked : locked s
  · refine Or.inl ⟨if_pos hlocked, ?_⟩
    simpa [locked] using hlocked
  · refine Or.inr ⟨if_neg hlocked, ?_⟩
    rw [locked, Bool.or_eq_true, not_or] at hlocked
    simpa [Nat.pos_iff_ne_zero] using hlocked

theorem fair_wait (h : Fair n held s) (hlocked : s.value = 0 ∨ s.waiters ≠ []) (a : α) :
    Fair n held { s with waiters := s.waiters ++ [⟨a, false⟩] } := by
  have hcount : handed { s with waiters := s.waiters ++ [⟨a, false⟩] } = handed s := by
    rw [handed, List.countP_append]
    rfl
  refine ⟨by rw [hcount]; exact h.slots, ?_, fun hfree _ => ?_⟩
  · refine List.pairwise_append.2 ⟨h.order, List.pairwise_singleton _ _, ?_⟩
    intro _ _ b hb hawake
    rw [List.mem_singleton.1 hb] at hawake
    cases hawake
  · rw [hcount]
    have hne : s.waiters ≠ [] := hlocked.resolve_left (Nat.pos_iff_ne_zero.1 hfree)
    obtain ⟨w, ws, hws⟩ := List.exists_cons_of_ne_nil hne
    have hw : w ∈ s.waiters := hws ▸ List.mem_cons_self
    by_cases hawake : w.awake
    · exact List.countP_pos_iff.2 ⟨w, hw, hawake⟩
    · exact h.heeded hfree ⟨w, hw, Bool.eq_false_iff.2 hawake⟩

theorem fair_enter (h : Fair n held s) (hfree : 0 < s.value) (hnone : s.waiters = []) :
    Fair n (held + 1) { s with value := s.value - 1 } := by
  refine ⟨?_, h.order, fun _ ⟨w, hw, _⟩ => ?_⟩
  · have hslots := h.slots
    change s.value - 1 + handed s + (held + 1) = n
    omega
  · have hempty : w ∈ s.waiters := hw
    rw [hnone] at hempty
    cases hempty

section Resume

variable [DecidableEq α] {a : α}

/-- Whoever runs again finds nobody asleep in front. -/
theorem ahead_awake (horder : InOrder s.waiters) (ha : ⟨a, true⟩ ∈ s.waiters) :
    ∀ w ∈ ahead s a, w.awake = true := by
  rw [ahead]
  generalize s.waiters = queue at horder ha ⊢
  induction queue with
  | nil => exact absurd ha List.not_mem_nil
  | cons v ws ih =>
    obtain ⟨hfirst, hrest⟩ := List.pairwise_cons.1 horder
    intro w hw
    by_cases hv : v.who = a
    · rw [List.takeWhile_cons_of_neg (by simp [hv])] at hw
      exact absurd hw List.not_mem_nil
    · rw [List.takeWhile_cons_of_pos (by simp [hv])] at hw
      have ha' : ⟨a, true⟩ ∈ ws := (List.mem_cons.1 ha).resolve_left fun heq =>
        hv (congrArg Waiter.who heq.symm)
      rcases List.mem_cons.1 hw with rfl | hlater
      · exact hfirst ⟨a, true⟩ ha' rfl
      · exact ih hrest ha' w hlater

theorem who_resume (s : Semaphore α) (a : α) :
    (resume s a).waiters.map Waiter.who = (s.waiters.erase ⟨a, true⟩).map Waiter.who := by
  rw [resume]
  split
  · exact who_wakeUpNext _
  · rfl

/-- A waiter that runs again holds the slot that was handed to it. -/
theorem fair_resume (h : Fair n held s) (ha : ⟨a, true⟩ ∈ s.waiters) :
    Fair n (held + 1) (resume s a) := by
  have hcount : handed s = handed { s with waiters := s.waiters.erase ⟨a, true⟩ } + 1 := by
    rw [handed, (List.perm_cons_erase ha).countP_eq, List.countP_cons_of_pos rfl]
    rfl
  have hslots : s.value + handed { s with waiters := s.waiters.erase ⟨a, true⟩ } +
      (held + 1) = n := by
    rw [← h.slots, hcount]
    omega
  have horder : InOrder (s.waiters.erase ⟨a, true⟩) := h.order.sublist List.erase_sublist
  rw [resume]
  split
  · next hfree => exact fair_wakeUpNext hslots horder hfree
  · next hfree => exact ⟨hslots, horder, fun hpos => absurd hpos hfree⟩

end Resume

/-- While somebody waits, all slots are in use unless one that is awake has yet to run. -/
theorem busy_of_waiting (h : Fair n held s) (hwait : s.waiters ≠ []) :
    held = n ∨ ∃ w ∈ s.waiters, w.awake = true := by
  by_cases hawake : ∃ w ∈ s.waiters, w.awake = true
  · exact Or.inr hawake
  · refine Or.inl ?_
    have hnone : handed s = 0 := by
      rw [handed, List.countP_eq_zero]
      exact fun w hw hw' => hawake ⟨w, hw, hw'⟩
    have hfull : s.value = 0 := by
      by_contra hfree
      obtain ⟨w, ws, hws⟩ := List.exists_cons_of_ne_nil hwait
      have hw : w ∈ s.waiters := hws ▸ List.mem_cons_self
      have hasleep : w.awake = false := Bool.eq_false_iff.2 fun hw' => hawake ⟨w, hw, hw'⟩
      have hpos := h.heeded (Nat.pos_of_ne_zero hfree) ⟨w, hw, hasleep⟩
      rw [hnone] at hpos
      cases hpos
    have hslots := h.slots
    omega

end TrustCopilot.Semaphores
