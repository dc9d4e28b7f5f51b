import Mathlib.Data.List.Infix
import Mathlib.Data.List.Induction

/-! Runs of a deterministic system over the list of its inputs, and the rules that carry
a fact about the inputs made so far from one step to a whole run. -/
namespace TrustCopilot.Trace

variable {σ ι : Type*} {next : σ → ι → σ} {Enabled : σ → ι → Prop}

def runTrace (next : σ → ι → σ) (s : σ) : List ι → σ
  | [] => s
  | e :: es => runTrace next (next s e) es

/-- Every input of the trace meets `Enabled` in the state it is taken in. -/
def ValidTrace (Enabled : σ → ι → Prop) (next : σ → ι → σ) (s : σ) : List ι → Prop
  | [] => True
  | e :: es => Enabled s e ∧ ValidTrace Enabled next (next s e) es

instance validTraceDecidable [∀ s e, Decidable (Enabled s e)] (s : σ) (es : List ι) :
    Decidable (ValidTrace Enabled next s es) := by
  induction es generalizing s with
  | nil => exact isTrue trivial
  | cons e es ih => exact instDecidableAnd

@[simp] theorem runTrace_nil (s : σ) : runTrace next s [] = s := rfl

@[simp] theorem validTrace_nil (s : σ) : ValidTrace Enabled next s [] := trivial

theorem runTrace_append (s : σ) (xs ys : List ι) :
    runTrace next s (xs ++ ys) = runTrace next (runTrace next s xs) ys := by
  induction xs generalizing s with
  | nil => rfl
  | cons x xs ih => exact ih (next s x)

@[simp] theorem runTrace_concat (s : σ) (es : List ι) (e : ι) :
    runTrace next s (es ++ [e]) = next (runTrace next s es) e := runTrace_append s es [e]

theorem validTrace_append {s : σ} {xs ys : List ι} :
    ValidTrace Enabled next s (xs ++ ys) ↔
      ValidTrace Enabled next s xs ∧ ValidTrace Enabled next (runTrace next s xs) ys := by
  induction xs generalizing s with
  | nil => simp
  | cons x xs ih => simp only [List.cons_append, ValidTrace, runTrace, ih, and_assoc]

theorem validTrace_concat {s : σ} {es : List ι} {e : ι} :
    ValidTrace Enabled next s (es ++ [e]) ↔
      ValidTrace Enabled next s es ∧ Enabled (runTrace next s es) e := by
  simp [validTrace_append, ValidTrace]

theorem validTrace_and {Enabled' : σ → ι → Prop} {s : σ} {es : List ι} :
    ValidTrace (fun s e => Enabled s e ∧ Enabled' s e) next s es ↔
      ValidTrace Enabled next s es ∧ ValidTrace Enabled' next s es := by
  induction es generalizing s with
  | nil => simp
  | cons e es ih =>
    simp only [ValidTrace, ih]
    exact and_and_and_comm

theorem validTrace_of_forall (h : ∀ s e, Enabled s e) (s : σ) (es : List ι) :
    ValidTrace Enabled next s es := by
  induction es generalizing s with
  | nil => trivial
  | cons e es ih => exact ⟨h s e, ih (next s e)⟩

theorem validTrace_earlier {s : σ} {xs es : List ι} (hp : xs <+: es)
    (h : ValidTrace Enabled next s es) : ValidTrace Enabled next s xs := by
  obtain ⟨ys, rfl⟩ := hp
  exact (validTrace_append.1 h).1

/-- The invariant may speak about the inputs that led to the state, not only about the state. -/
theorem history_invariant {I : List ι → σ → Prop} {s : σ} (h0 : I [] s)
    (hstep : ∀ es e, ValidTrace Enabled next s es → I es (runTrace next s es) →
      Enabled (runTrace next s es) e → I (es ++ [e]) (next (runTrace next s es) e))
    {es : List ι} (h : ValidTrace Enabled next s es) : I es (runTrace next s es) := by
  induction es using List.reverseRecOn with
  | nil => exact h0
  | append_singleton es e ih =>
    have ⟨hes, he⟩ := validTrace_concat.1 h
    rw [runTrace_concat]
    exact hstep es e hes (ih hes) he

/-- What no step makes smaller is not smaller at the end of a run. -/
theorem le_runTrace {β : Type*} [Preorder β] {f : σ → β}
    (hstep : ∀ s e, Enabled s e → f s ≤ f (next s e)) {s : σ} {es : List ι}
    (h : ValidTrace Enabled next s es) : f s ≤ f (runTrace next s es) := by
  induction es generalizing s with
  | nil => exact le_refl (f s)
  | cons e es ih => exact (hstep s e h.1).trans (ih h.2)

/-- A condition on steps holds along a whole run as soon as it follows, at each step, from
what the run establishes after that step. -/
theorem validTrace_of_after {s : σ} {es : List ι}
    (h : ∀ xs e, xs ++ [e] <+: es → ValidTrace Enabled next s xs →
      Enabled (runTrace next s xs) e) : ValidTrace Enabled next s es := by
  induction es using List.reverseRecOn with
  | nil => trivial
  | append_singleton es e ih =>
    have hes := ih fun xs x hp => h xs x (hp.trans (List.prefix_append es [e]))
    exact validTrace_concat.2 ⟨hes, h es e List.prefix_rfl hes⟩

/-- What the steps of a run put out, in order; `out` reads the state a step is taken in. -/
def emitted {ο : Type*} (out : σ → ι → List ο) (next : σ → ι → σ) (s : σ) : List ι → List ο
  | [] => []
  | e :: es => out s e ++ emitted out next (next s e) es

theorem emitted_concat {ο : Type*} (out : σ → ι → List ο) (s : σ) (es : List ι) (e : ι) :
    emitted out next s (es ++ [e]) = emitted out next s es ++ out (runTrace next s es) e := by
  induction es generalizing s with
  | nil => simp [emitted]
  | cons x xs ih => simp only [List.cons_append, emitted, runTrace, ih, List.append_assoc]

/-- Whatever a run puts out, it puts out at one of its steps. -/
theorem mem_emitted {ο : Type*} {out : σ → ι → List ο} {s : σ} {es : List ι} {a : ο}
    (h : a ∈ emitted out next s es) :
    ∃ xs e, xs ++ [e] <+: es ∧ a ∈ out (runTrace next s xs) e := by
  induction es using List.reverseRecOn with
  | nil => cases h
  | append_singleton es e ih =>
    rw [emitted_concat, List.mem_append] at h
    rcases h with h | h
    · obtain ⟨xs, x, hp, hx⟩ := ih h
      exact ⟨xs, x, hp.trans (List.prefix_append es [e]), hx⟩
    · exact ⟨es, e, List.prefix_rfl, h⟩

/-- A property of states that every step keeps holds to the end of a run, and all that the run
puts out is of the kind that a step puts out under it. -/
theorem emitted_invariant {ο : Type*} {out : σ → ι → List ο} {I : σ → Prop} {P : ο → Prop}
    {s : σ} {es : List ι} (h0 : I s)
    (hstep : ∀ s e, I s → Enabled s e → I (next s e) ∧ ∀ a ∈ out s e, P a)
    (h : ValidTrace Enabled next s es) :
    I (runTrace next s es) ∧ ∀ a ∈ emitted out next s es, P a := by
  induction es generalizing s with
  | nil => exact ⟨h0, fun _ ha => absurd ha List.not_mem_nil⟩
  | cons e es ih =>
    obtain ⟨hnext, hout⟩ := hstep s e h0 h.1
    obtain ⟨hrun, hrest⟩ := ih hnext h.2
    refine ⟨hrun, fun a ha => ?_⟩
    rcases List.mem_append.1 ha with ha | ha
    · exact hout a ha
    · exact hrest a ha

theorem concat_prefix_append {α : Type*} {l r xs : List α} {a : α} (h : xs ++ [a] <+: l ++ r) :
    xs ++ [a] <+: l ∨ ∃ ys, xs = l ++ ys ∧ ys ++ [a] <+: r := by
  rcases List.prefix_or_prefix_of_prefix h (List.prefix_append l r) with hl | ⟨t, ht⟩
  · exact Or.inl hl
  · rw [← ht, List.prefix_append_right_inj] at h
    rcases List.eq_nil_or_concat t with rfl | ⟨ys, b, rfl⟩
    · rw [List.append_nil] at ht
      exact Or.inl (ht ▸ List.prefix_rfl)
    · rw [List.concat_eq_append, ← List.append_assoc] at ht
      obtain ⟨rfl, hb⟩ := List.append_inj' ht rfl
      cases hb
      exact Or.inr ⟨ys, rfl, by simpa using h⟩

/-- An invariant that relates a state to all that was put out before it; what a step puts out is
judged by what came before it, the same step's earlier parts included. -/
theorem emitted_after {ο : Type*} {out : σ → ι → List ο} {I : List ο → σ → Prop}
    {Q : List ο → ο → Prop} {s : σ} (h0 : I [] s)
    (hstep : ∀ acc s e, I acc s → Enabled s e → I (acc ++ out s e) (next s e) ∧
      ∀ ys a, ys ++ [a] <+: out s e → Q (acc ++ ys) a)
    {es : List ι} (h : ValidTrace Enabled next s es) :
    I (emitted out next s es) (runTrace next s es) ∧
      ∀ xs a, xs ++ [a] <+: emitted out next s es → Q xs a := by
  induction es using List.reverseRecOn with
  | nil => exact ⟨h0, fun xs a hx => absurd (List.prefix_nil.1 hx) (by simp)⟩
  | append_singleton es e ih =>
    obtain ⟨hes, he⟩ := validTrace_concat.1 h
    obtain ⟨hi, hq⟩ := ih hes
    obtain ⟨hnext, hout⟩ := hstep _ _ e hi he
    rw [emitted_concat, runTrace_concat]
    refine ⟨hnext, fun xs a hx => ?_⟩
    rcases concat_prefix_append hx with hx | ⟨ys, rfl, hy⟩
    · exact hq xs a hx
    · exact hout ys a hy

theorem prefix_concat_cases {xs es : List ι} {e : ι} (h : xs <+: es ++ [e]) :
    xs <+: es ∨ xs = es ++ [e] := (List.prefix_concat_iff.1 h).symm

end TrustCopilot.Trace
