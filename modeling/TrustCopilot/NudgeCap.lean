import TrustCopilot.NudgeCadence
import Mathlib.Algebra.Order.Ring.Int

/-! The monthly cap. Every workspace has one, and nothing reads it: what bounds the nudges of
thirty days is the cooldown of a week, which lets five of them through. -/
namespace TrustCopilot.NudgeCap

open TrustCopilot.NudgeCadence
open TrustCopilot.OrderedDict
open TrustCopilot.Retention
open TrustCopilot.Trace

abbrev States := Table RetentionState.workspaceId

/-- Every state is as `get_or_create_state` makes it but for its cap. -/
def Fresh (states : States) : Prop :=
  ∀ k st, states.get? k = some st →
    st = { workspaceId := k, maxNudgesPerMonth := st.maxNudgesPerMonth }

def run (states : States) (ops : List Operation) : RetentionAgent :=
  runTrace next ⟨states, []⟩ ops

def sent (states : States) (ops : List Operation) : List Send :=
  emitted sends next ⟨states, []⟩ ops

def month : ℤ := days 30

def cap (states : States) (ops : List Operation) (k : String) : ℕ :=
  (stateOf (run states ops) k).maxNudgesPerMonth

def windowCount (states : States) (ops : List Operation) (k : String) (f : ℤ) : ℕ :=
  (sent states ops).countP fun s => s.nudge.workspaceId = k ∧ f ≤ s.sentAt ∧ s.sentAt < f + month

/-- In no run and no thirty days of it is the workspace sent more nudges than its cap. -/
def CapKept (states : States) (k : String) : Prop :=
  ∀ ops, Forward ops → ∀ f, windowCount states ops k f ≤ cap states ops k

variable {states : States} {ops : List Operation} {op : Operation} {k : String}

theorem sent_concat (states : States) (ops : List Operation) (op : Operation) :
    sent states (ops ++ [op]) = sent states ops ++ sends (run states ops) op :=
  emitted_concat sends ⟨states, []⟩ ops op

theorem cap_concat (states : States) (ops : List Operation) (op : Operation) (k : String) :
    cap states (ops ++ [op]) k = cap states ops k := by
  rw [cap, run, runTrace_concat, stateOf_next]
  split
  · cases op with
    | scheduleNudge j nudgeType context times =>
      rw [effect, nudgeFor]
      split <;> rfl
    | suppress j n now =>
      rw [effect]
      cases suppressionEnd now n <;> rfl
    | deactivate j => rfl
  · rfl

theorem cap_run (states : States) (ops : List Operation) (k : String) :
    cap states ops k = cap states [] k := by
  induction ops using List.reverseRecOn with
  | nil => rfl
  | append_singleton ops op ih => rw [cap_concat, ih]

theorem fresh_stateOf (h : Fresh states) (k : String) :
    stateOf ⟨states, []⟩ k = { workspaceId := k, maxNudgesPerMonth := cap states [] k } := by
  rw [cap, run, runTrace_nil, stateOf]
  cases hget : states.get? k with
  | none => rfl
  | some st => exact h k st hget

/-! ### What the cooldown lets through -/

theorem sentTo_concat (states : States) (ops : List Operation) (op : Operation) (k : String) :
    ((sent states (ops ++ [op])).filter fun s => s.nudge.workspaceId = k) =
      ((sent states ops).filter fun s => s.nudge.workspaceId = k) ++
        if k = op.workspaceId then sends (run states ops) op else [] := by
  rw [sent_concat, List.filter_append]
  congr 1
  split
  · next h =>
    apply List.filter_eq_self.2
    intro s hs
    rw [decide_eq_true_eq, h]
    exact sends_workspaceId hs
  · next h =>
    apply List.filter_eq_nil_iff.2
    intro s hs
    rw [decide_eq_true_eq, sends_workspaceId hs]
    exact fun he => h he.symm

theorem sent_spaced (h : Fresh states) (hf : Forward ops) (k : String) :
    Tracked (stateOf (run states ops) k)
      ((sent states ops).filter fun s => s.nudge.workspaceId = k) := by
  induction ops using List.reverseRecOn with
  | nil =>
    rw [run, runTrace_nil, fresh_stateOf h k]
    exact ⟨rfl, nofun, List.Pairwise.nil⟩
  | append_singleton ops op ih =>
    have hops := ih (forward_earlier (List.prefix_append ops [op]) hf)
    rw [run, runTrace_concat, sentTo_concat]
    exact tracked_step (forward_last hf) hops

/-- Times that lie a gap apart and within one stretch leave all but one gap in it. -/
theorem spaced_length {α : Type*} {time : α → ℤ} {gap first last : ℤ} {x : α} {xs : List α}
    (hgap : (x :: xs).Pairwise fun a b => time a + gap ≤ time b) (hfirst : first ≤ time x)
    (hlast : ∀ a ∈ x :: xs, time a < last) : first + gap * xs.length < last := by
  induction xs generalizing x first with
  | nil =>
    have hx := hlast x List.mem_cons_self
    rw [List.length_nil, Nat.cast_zero, mul_zero]
    omega
  | cons y ys ih =>
    obtain ⟨hx, hrest⟩ := List.pairwise_cons.1 hgap
    have hy := hx y List.mem_cons_self
    have hshort := @ih (first + gap) y hrest (by omega) fun a ha =>
      hlast a (List.mem_cons_of_mem x ha)
    rw [List.length_cons, Nat.cast_succ, mul_add, mul_one]
    omega

/-- Five weeks do not fit into thirty days. -/
theorem windowCount_le_five (h : Fresh states) (hf : Forward ops) (k : String) (f : ℤ) :
    windowCount states ops k f ≤ 5 := by
  have hspaced := (sent_spaced h hf k).spaced.filter fun s => f ≤ s.sentAt ∧ s.sentAt < f + month
  have hcount : windowCount states ops k f =
      (((sent states ops).filter fun s => s.nudge.workspaceId = k).filter fun s =>
        f ≤ s.sentAt ∧ s.sentAt < f + month).length := by
    rw [windowCount, List.countP_eq_length_filter, List.filter_filter]
    simp only [Bool.decide_and, Bool.and_comm]
  rw [hcount]
  have hwithin : ∀ s ∈ ((sent states ops).filter fun s => s.nudge.workspaceId = k).filter
      (fun s => f ≤ s.sentAt ∧ s.sentAt < f + month), f ≤ s.sentAt ∧ s.sentAt < f + month :=
    fun s hs => of_decide_eq_true (List.mem_filter.1 hs).2
  generalize ((sent states ops).filter fun s => s.nudge.workspaceId = k).filter
    (fun s => f ≤ s.sentAt ∧ s.sentAt < f + month) = window at hspaced hwithin ⊢
  cases window with
  | nil => exact Nat.zero_le 5
  | cons s rest =>
    have hfit := spaced_length hspaced (hwithin s List.mem_cons_self).1 fun a ha =>
      (hwithin a ha).2
    rw [List.length_cons]
    simp only [cooldown, month, days] at hfit
    omega

/-! ### A nudge a week -/

def weekly (k : String) (n : ℕ) : List Operation :=
  (List.range n).map fun i : ℕ => .scheduleNudge k .usageReminder {} (instant (days (7 * i)))

theorem weekly_succ (k : String) (n : ℕ) : weekly k (n + 1) =
    weekly k n ++ [.scheduleNudge k .usageReminder {} (instant (days (7 * n)))] := by
  rw [weekly, List.range_succ, List.map_append]
  rfl

theorem weekly_forward (k : String) : Forward (weekly k 5) := by
  have hreadings : (weekly k 5).flatMap Operation.readings =
      (List.range 5).flatMap fun i : ℕ => List.replicate 4 (days (7 * i)) := rfl
  rw [Forward, hreadings]
  decide

structure Nudged (states : States) (k : String) (n : ℕ) : Prop where
  active : (stateOf (run states (weekly k n)) k).active = true
  unsuppressed : (stateOf (run states (weekly k n)) k).suppressedUntil = none
  last : ∀ l, (stateOf (run states (weekly k n)) k).lastNudgeAt = some l →
    l + cooldown = days (7 * n)
  count : n ≤ 5 → windowCount states (weekly k n) k 0 = n

theorem nudged_weekly (h : Fresh states) (k : String) (n : ℕ) : Nudged states k n := by
  induction n with
  | zero =>
    have hstate : stateOf (run states (weekly k 0)) k =
        { workspaceId := k, maxNudgesPerMonth := cap states [] k } := fresh_stateOf h k
    exact ⟨by rw [hstate], by rw [hstate], by rw [hstate]; exact nofun, fun _ => rfl⟩
  | succ n ih =>
    have hc : canNudge (stateOf (run states (weekly k n)) k) (days (7 * n)) (days (7 * n)) =
        true := by
      refine canNudge_iff.2 ⟨ih.active, ?_, fun l hl => (ih.last l hl).le⟩
      rw [ih.unsuppressed]
      exact nofun
    have hstate : stateOf (run states (weekly k (n + 1))) k =
        { stateOf (run states (weekly k n)) k with
          lastNudgeAt := some (days (7 * n))
          nudgeCount := (stateOf (run states (weekly k n)) k).nudgeCount + 1 } := by
      rw [weekly_succ, run, runTrace_concat, stateOf_next]
      refine (if_pos rfl).trans ?_
      rw [effect, nudgeFor]
      exact congrArg Prod.snd (if_pos hc)
    refine ⟨by rw [hstate]; exact ih.active, by rw [hstate]; exact ih.unsuppressed, ?_, ?_⟩
    · rw [hstate]
      intro l hl
      cases hl
      simp only [cooldown, days]
      push_cast
      omega
    · intro hn
      have hsends : sends (run states (weekly k n))
          (.scheduleNudge k .usageReminder {} (instant (days (7 * n)))) =
            [⟨(scheduleNudge (run states (weekly k n)) k .usageReminder {}
              (instant (days (7 * n)))).1, days (7 * n)⟩] := if_pos hc
      have hto := sends_workspaceId (hsends ▸ List.mem_singleton_self _)
      have hin : 0 ≤ days (7 * n) ∧ days (7 * n) < 0 + month := by
        simp only [days, month]
        omega
      have hearlier := ih.count (by omega)
      rw [windowCount] at hearlier ⊢
      rw [weekly_succ, sent_concat, List.countP_append, hearlier, hsends, List.countP_singleton,
        if_pos (decide_eq_true ⟨hto, hin⟩)]

/-- The cap of a workspace is kept in every run exactly if it is five or more: the cooldown lets
five nudges into thirty days, and a nudge a week takes all five. -/
theorem cap_kept_iff (h : Fresh states) (k : String) : CapKept states k ↔ 5 ≤ cap states [] k := by
  constructor
  · intro hkept
    have hle := hkept (weekly k 5) (weekly_forward k) 0
    rwa [(nudged_weekly h k 5).count (le_refl 5), cap_run] at hle
  · intro hcap ops hf f
    rw [cap_run]
    exact (windowCount_le_five h hf k f).trans hcap

def roomy : States := Table.empty.save { workspaceId := "ws-1", maxNudgesPerMonth := 5 }

theorem roomy_capped : CapKept roomy "ws-1" := by
  refine (cap_kept_iff (fun k st hget => ?_) "ws-1").2 (by decide)
  rw [roomy, Table.get?_save] at hget
  split at hget
  · next hk =>
    cases hget
    rw [hk]
  · cases hget

/-- With the cap that every workspace is given, the fifth nudge is sent on day 28. -/
theorem fifth_nudge_within_month :
    Forward (weekly "ws-1" 5) ∧ windowCount Table.empty (weekly "ws-1" 5) "ws-1" 0 = 5 ∧
      cap Table.empty (weekly "ws-1" 5) "ws-1" = 4 ∧ ¬ CapKept Table.empty "ws-1" := by
  have hforward : Forward (weekly "ws-1" 5) := by decide +kernel
  have hcount : windowCount Table.empty (weekly "ws-1" 5) "ws-1" 0 = 5 := by decide +kernel
  have hcap : cap Table.empty (weekly "ws-1" 5) "ws-1" = 4 := by decide +kernel
  refine ⟨hforward, hcount, hcap, fun h => ?_⟩
  have hle := h (weekly "ws-1" 5) hforward 0
  rw [hcount, hcap] at hle
  exact absurd hle (by decide)

end TrustCopilot.NudgeCap
