import Mathlib.Data.List.Induction

/-! Walks along labelled links: every link starts where the one before it ended. A walk that
comes to lie outside a region has left it through some first link. -/
namespace TrustCopilot.Walks

variable {σ ε : Type*} (src tgt : ε → σ)

def Walk (a : σ) : List ε → σ → Prop
  | [], b => a = b
  | e :: es, b => src e = a ∧ Walk (tgt e) es b

variable {src tgt}

@[simp] theorem walk_nil {a b : σ} : Walk src tgt a [] b ↔ a = b := Iff.rfl

@[simp] theorem walk_cons {a b : σ} {e : ε} {es : List ε} :
    Walk src tgt a (e :: es) b ↔ src e = a ∧ Walk src tgt (tgt e) es b := Iff.rfl

theorem walk_append {a b : σ} {xs ys : List ε} :
    Walk src tgt a (xs ++ ys) b ↔ ∃ m, Walk src tgt a xs m ∧ Walk src tgt m ys b := by
  induction xs generalizing a with
  | nil => simp
  | cons x xs ih => simp only [List.cons_append, walk_cons, ih, exists_and_left, and_assoc]

theorem walk_concat {a b : σ} {es : List ε} {e : ε} :
    Walk src tgt a (es ++ [e]) b ↔ Walk src tgt a es (src e) ∧ tgt e = b := by
  simp [walk_append]

theorem walk_middle {a b : σ} {xs ys : List ε} {e : ε} :
    Walk src tgt a (xs ++ e :: ys) b ↔ Walk src tgt a xs (src e) ∧ Walk src tgt (tgt e) ys b := by
  simp only [walk_append, walk_cons]
  constructor
  · rintro ⟨m, hxs, rfl, hys⟩
    exact ⟨hxs, hys⟩
  · rintro ⟨hxs, hys⟩
    exact ⟨src e, hxs, rfl, hys⟩

/-- A walk to another place has a last link, which ends there. -/
theorem walk_last {a b : σ} {es : List ε} (h : Walk src tgt a es b) (hab : a ≠ b) :
    ∃ init last, es = init ++ [last] ∧ tgt last = b := by
  induction es using List.reverseRecOn with
  | nil => exact absurd h hab
  | append_singleton init last _ => exact ⟨init, last, rfl, (walk_concat.1 h).2⟩

/-- The first link that leaves a region, with all links before it inside. -/
theorem first_exit {S : σ → Prop} {a b : σ} {es : List ε} (h : Walk src tgt a es b)
    (ha : S a) (hb : ¬ S b) :
    ∃ before e after, es = before ++ e :: after ∧ S (src e) ∧ ¬ S (tgt e) ∧
      ∀ x ∈ before, S (src x) ∧ S (tgt x) := by
  induction es generalizing a with
  | nil =>
    cases h
    exact absurd ha hb
  | cons e es ih =>
    obtain ⟨rfl, hwalk⟩ := h
    by_cases he : S (tgt e)
    · obtain ⟨before, f, after, rfl, hin, hout, hall⟩ := ih hwalk he
      refine ⟨e :: before, f, after, rfl, hin, hout, fun x hx => ?_⟩
      rcases List.mem_cons.1 hx with rfl | hx
      · exact ⟨ha, he⟩
      · exact hall x hx
    · exact ⟨[], e, es, rfl, ha, he, nofun⟩

end TrustCopilot.Walks
