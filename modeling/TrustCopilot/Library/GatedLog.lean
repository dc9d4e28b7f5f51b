import Mathlib.Data.List.Basic

/-! A log behind a switch: what is offered while the switch is off is not written. -/
namespace TrustCopilot.GatedLog

variable {α β : Type*}

inductive Event (α : Type*) where
  | enable
  | disable
  | offer (a : α)
  deriving DecidableEq, Repr

def Event.map (f : α → β) : Event α → Event β
  | .enable => .enable
  | .disable => .disable
  | .offer a => .offer (f a)

structure Gate (α : Type*) where
  enabled : Bool := false
  log : List α := []
  deriving DecidableEq, Repr

def next (g : Gate α) : Event α → Gate α
  | .enable => { g with enabled := true }
  | .disable => { g with enabled := false }
  | .offer a => if g.enabled then { g with log := g.log ++ [a] } else g

def run (g : Gate α) (es : List (Event α)) : Gate α := es.foldl next g

/-- Where the switch stands after the events. -/
def switched (enabled : Bool) : List (Event α) → Bool
  | [] => enabled
  | .enable :: es => switched true es
  | .disable :: es => switched false es
  | .offer _ :: es => switched enabled es

/-- What is offered while the switch is on. -/
def admitted (enabled : Bool) : List (Event α) → List α
  | [] => []
  | .enable :: es => admitted true es
  | .disable :: es => admitted false es
  | .offer a :: es => if enabled then a :: admitted enabled es else admitted enabled es

variable {enabled : Bool} {es : List (Event α)}

theorem run_eq (g : Gate α) (es : List (Event α)) :
    run g es = ⟨switched g.enabled es, g.log ++ admitted g.enabled es⟩ := by
  induction es generalizing g with
  | nil => simp [run, switched, admitted]
  | cons e es ih =>
    have hstep : run g (e :: es) = run (next g e) es := rfl
    rw [hstep, ih]
    cases e with
    | enable => rfl
    | disable => rfl
    | offer a =>
      obtain ⟨on, log⟩ := g
      cases on with
      | false => rfl
      | true => simp [next, switched, admitted]

theorem admitted_map (f : α → β) (es : List (Event α)) :
    admitted enabled (es.map (Event.map f)) = (admitted enabled es).map f := by
  induction es generalizing enabled with
  | nil => rfl
  | cons e es ih =>
    cases e with
    | enable => exact ih
    | disable => exact ih
    | offer a =>
      simp only [List.map_cons, Event.map, admitted, ih]
      split <;> rfl

theorem switched_append (before after : List (Event α)) :
    switched enabled (before ++ after) = switched (switched enabled before) after := by
  induction before generalizing enabled with
  | nil => rfl
  | cons e es ih => cases e <;> exact ih

/-- What comes later is written after all that was written before it, under the switch as it was
left. -/
theorem admitted_append (before after : List (Event α)) :
    admitted enabled (before ++ after) =
      admitted enabled before ++ admitted (switched enabled before) after := by
  induction before generalizing enabled with
  | nil => rfl
  | cons e es ih =>
    cases e with
    | enable => exact ih
    | disable => exact ih
    | offer a =>
      simp only [List.cons_append, admitted, switched, ih]
      split <;> rfl

/-- The switch is on where it was turned on last, or was on and was never turned off. -/
theorem switched_iff : switched enabled es = true ↔
    (∃ xs ys, es = xs ++ .enable :: ys ∧ .disable ∉ ys) ∨ enabled = true ∧ .disable ∉ es := by
  induction es generalizing enabled with
  | nil => simp [switched]
  | cons e es ih =>
    have hlater : (∃ xs ys, es = xs ++ .enable :: ys ∧ .disable ∉ ys) →
        ∃ xs ys, e :: es = xs ++ .enable :: ys ∧ .disable ∉ ys :=
      fun ⟨xs, ys, hes, hys⟩ => ⟨e :: xs, ys, by rw [hes, List.cons_append], hys⟩
    have hearlier : (∃ xs ys, e :: es = xs ++ .enable :: ys ∧ .disable ∉ ys) →
        (e = .enable ∧ .disable ∉ es) ∨ ∃ xs ys, es = xs ++ .enable :: ys ∧ .disable ∉ ys := by
      rintro ⟨xs, ys, hes, hys⟩
      cases xs with
      | nil =>
        obtain ⟨rfl, rfl⟩ := List.cons.inj hes
        exact Or.inl ⟨rfl, hys⟩
      | cons x xs => exact Or.inr ⟨xs, ys, (List.cons.inj hes).2, hys⟩
    cases e with
    | enable =>
      rw [switched, ih]
      constructor
      · rintro (h | ⟨-, h⟩)
        · exact Or.inl (hlater h)
        · exact Or.inl ⟨[], es, rfl, h⟩
      · rintro (h | ⟨-, h⟩)
        · rcases hearlier h with ⟨-, h⟩ | h
          · exact Or.inr ⟨rfl, h⟩
          · exact Or.inl h
        · exact Or.inr ⟨rfl, fun hd => h (List.mem_cons_of_mem _ hd)⟩
    | disable =>
      rw [switched, ih]
      constructor
      · rintro (h | ⟨h, -⟩)
        · exact Or.inl (hlater h)
        · cases h
      · rintro (h | ⟨-, h⟩)
        · rcases hearlier h with ⟨h, -⟩ | h
          · cases h
          · exact Or.inl h
        · exact absurd List.mem_cons_self h
    | offer a =>
      rw [switched, ih]
      constructor
      · rintro (h | ⟨hon, h⟩)
        · exact Or.inl (hlater h)
        · refine Or.inr ⟨hon, fun hd => ?_⟩
          rcases List.mem_cons.1 hd with hd | hd
          · cases hd
          · exact h hd
      · rintro (h | ⟨hon, h⟩)
        · rcases hearlier h with ⟨h, -⟩ | h
          · cases h
          · exact Or.inl h
        · exact Or.inr ⟨hon, fun hd => h (List.mem_cons_of_mem _ hd)⟩

end TrustCopilot.GatedLog
