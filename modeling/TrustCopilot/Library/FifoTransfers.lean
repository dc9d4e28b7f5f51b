import TrustCopilot.Library.Trace
import Mathlib.Data.List.Induction
import Mathlib.Logic.Function.Basic

/-! A family of queues between which items are moved. A transfer takes the oldest item of its
source, or brings an item from outside, to the newest end of its target. -/
namespace TrustCopilot.FifoTransfers

open TrustCopilot.Trace

variable {κ α : Type*} [DecidableEq κ]

/-- Every queue as a list with its newest item first. -/
abbrev Queues (κ α : Type*) := κ → List α

structure Transfer (κ α : Type*) where
  source : Option κ
  target : κ
  item : α
  deriving DecidableEq, Repr

def push (qs : Queues κ α) (k : κ) (a : α) : Queues κ α := Function.update qs k (a :: qs k)

def dropOldest (qs : Queues κ α) (k : κ) : Queues κ α := Function.update qs k (qs k).dropLast

def take (qs : Queues κ α) : Option κ → Queues κ α
  | none => qs
  | some k => dropOldest qs k

def transfer (qs : Queues κ α) (t : Transfer κ α) : Queues κ α :=
  push (take qs t.source) t.target t.item

/-- The item is the oldest of the source. -/
def Possible (qs : Queues κ α) (t : Transfer κ α) : Prop :=
  ∀ k, t.source = some k → (qs k).getLast? = some t.item

def pushed (ts : List (Transfer κ α)) (k : κ) : List α :=
  (ts.filter fun t => t.target = k).map Transfer.item

def popped (ts : List (Transfer κ α)) (k : κ) : List α :=
  (ts.filter fun t => t.source = some k).map Transfer.item

def moved (ts : List (Transfer κ α)) (j k : κ) : List α :=
  (ts.filter fun t => t.source = some j ∧ t.target = k).map Transfer.item

/-- What was in a queue and what came to it, oldest first, against what left it and what is
still in it. -/
def InOrder (start now : Queues κ α) (ts : List (Transfer κ α)) (k : κ) : Prop :=
  (start k).reverse ++ pushed ts k = popped ts k ++ (now k).reverse

theorem pushed_concat (ts : List (Transfer κ α)) (t : Transfer κ α) (k : κ) :
    pushed (ts ++ [t]) k = pushed ts k ++ if t.target = k then [t.item] else [] := by
  rw [pushed, List.filter_append, List.map_append, ← pushed, List.filter_singleton]
  by_cases h : t.target = k <;> simp [h]

theorem popped_concat (ts : List (Transfer κ α)) (t : Transfer κ α) (k : κ) :
    popped (ts ++ [t]) k = popped ts k ++ if t.source = some k then [t.item] else [] := by
  rw [popped, List.filter_append, List.map_append, ← popped, List.filter_singleton]
  by_cases h : t.source = some k <;> simp [h]

theorem push_reverse (qs : Queues κ α) (j k : κ) (a : α) :
    (push qs j a k).reverse = (qs k).reverse ++ if j = k then [a] else [] := by
  rw [push]
  by_cases h : j = k
  · subst h
    rw [Function.update_self, List.reverse_cons, if_pos rfl]
  · rw [Function.update_of_ne (Ne.symm h), if_neg h, List.append_nil]

/-- What a transfer takes stands at the oldest end of its source. -/
theorem take_reverse {qs : Queues κ α} {t : Transfer κ α} (h : Possible qs t) (k : κ) :
    (qs k).reverse =
      (if t.source = some k then [t.item] else []) ++ (take qs t.source k).reverse := by
  cases hs : t.source with
  | none => rw [if_neg (by simp), List.nil_append, take]
  | some j =>
    rw [take, dropOldest]
    by_cases hj : j = k
    · subst hj
      obtain ⟨rest, hrest⟩ := List.getLast?_eq_some_iff.1 (h j hs)
      rw [if_pos rfl, Function.update_self, hrest, List.dropLast_concat, List.reverse_append]
      rfl
    · rw [if_neg (by simpa using hj), Function.update_of_ne (Ne.symm hj), List.nil_append]

theorem inOrder_transfer {start qs : Queues κ α} {ts : List (Transfer κ α)} {t : Transfer κ α}
    {k : κ} (h : InOrder start qs ts k) (ht : Possible qs t) :
    InOrder start (transfer qs t) (ts ++ [t]) k := by
  rw [InOrder] at h ⊢
  rw [pushed_concat, popped_concat, transfer, push_reverse, ← List.append_assoc, h,
    take_reverse ht k]
  simp only [List.append_assoc]

theorem transfers_inOrder {start : Queues κ α} {ts : List (Transfer κ α)}
    (h : ValidTrace Possible transfer start ts) (k : κ) :
    InOrder start (runTrace transfer start ts) ts k :=
  history_invariant (I := fun ts qs => InOrder start qs ts k) (by simp [InOrder, pushed, popped])
    (fun _ _ _ hI ht => inOrder_transfer hI ht) h

/-- Items go from one queue to another in the order in which they leave the one, and come to the
other in this order. -/
theorem moved_sublist_popped (ts : List (Transfer κ α)) (j k : κ) :
    (moved ts j k).Sublist (popped ts j) := by
  refine List.Sublist.map _ (List.monotone_filter_right ts fun t ht => ?_)
  rw [decide_eq_true_iff] at ht ⊢
  exact ht.1

theorem moved_sublist_pushed (ts : List (Transfer κ α)) (j k : κ) :
    (moved ts j k).Sublist (pushed ts k) := by
  refine List.Sublist.map _ (List.monotone_filter_right ts fun t ht => ?_)
  rw [decide_eq_true_iff] at ht ⊢
  exact ht.2

end TrustCopilot.FifoTransfers
