import TrustCopilot.Library.Trace
import Mathlib.Data.List.Nodup
import Mathlib.Logic.Function.Basic

/-! Any number of sessions on one table, each of which looks a key up and inserts a row for it
when it sees none. A session sees the committed rows and its own, and no constraint keeps two
rows of one key apart. -/
namespace TrustCopilot.SelectInsert

open TrustCopilot.Trace

variable {κ X : Type*}

/-- The uncommitted rows of a session, and the key it has just looked up in vain. -/
structure Session (X : Type*) where
  own : List X
  missing : Option X
  deriving DecidableEq, Repr

/-- A row stands by its key; there is one entry a row. -/
structure Store (κ X : Type*) where
  rows : List X
  session : κ → Session X

def Session.idle : Session X := ⟨[], none⟩

def initial : Store κ X := ⟨[], fun _ => .idle⟩

inductive Action (κ X : Type*) where
  | select (k : κ) (x : X)
  | insert (k : κ)
  | commit (k : κ)
  | rollback (k : κ)
  deriving DecidableEq, Repr

inductive Lookup where
  | missing
  | found
  | multiple
  deriving DecidableEq, Repr

def visible (s : Store κ X) (k : κ) : List X := s.rows ++ (s.session k).own

variable [DecidableEq κ] [DecidableEq X]

def lookup (s : Store κ X) (k : κ) (x : X) : Lookup :=
  match (visible s k).count x with
  | 0 => .missing
  | 1 => .found
  | _ => .multiple

def setSession (s : Store κ X) (k : κ) (p : Session X) : Store κ X :=
  { s with session := Function.update s.session k p }

def next (s : Store κ X) : Action κ X → Store κ X
  | .select k x =>
    match lookup s k x with
    | .missing => setSession s k { s.session k with missing := some x }
    | _ => setSession s k { s.session k with missing := none }
  | .insert k =>
    match (s.session k).missing with
    | some x => setSession s k ⟨(s.session k).own ++ [x], none⟩
    | none => s
  | .commit k => { setSession s k .idle with rows := s.rows ++ (s.session k).own }
  | .rollback k => setSession s k .idle

def run (es : List (Action κ X)) : Store κ X := runTrace next initial es

structure OneRowEach (s : Store κ X) : Prop where
  rows : s.rows.Nodup
  visible : ∀ k, (visible s k).Nodup

/-- An insert finds its key still free, and a commit finds no uncommitted row of another
session under the keys it brings. -/
def NoRival (s : Store κ X) : Action κ X → Prop
  | .insert k => ∀ x, (s.session k).missing = some x → x ∉ s.rows
  | .commit k => ∀ x ∈ (s.session k).own, ∀ j, j ≠ k → x ∉ (s.session j).own
  | _ => True

variable {s : Store κ X}

omit [DecidableEq κ] in
theorem lookup_multiple_iff {k : κ} {x : X} :
    lookup s k x = .multiple ↔ 1 < (visible s k).count x := by
  rw [lookup]
  split
  · next hcount => simp [hcount]
  · next hcount => simp [hcount]
  · next hzero hone =>
    have h0 : (visible s k).count x ≠ 0 := hzero
    have h1 : (visible s k).count x ≠ 1 := hone
    simp only [true_iff]
    omega

omit [DecidableEq κ] in
theorem lookup_missing {k : κ} {x : X} (h : lookup s k x = .missing) : x ∉ visible s k := by
  rw [lookup] at h
  split at h
  · next h0 => exact List.count_eq_zero.1 h0
  · cases h
  · cases h

omit [DecidableEq X] in
@[simp] theorem setSession_self (s : Store κ X) (k : κ) (p : Session X) :
    (setSession s k p).session k = p := by
  simp [setSession]

omit [DecidableEq X] in
theorem setSession_other (s : Store κ X) {j k : κ} (p : Session X) (h : j ≠ k) :
    (setSession s k p).session j = s.session j := by
  simp [setSession, h]

/-- Reserved keys are free to the session that reserved them. -/
structure Sound (s : Store κ X) : Prop where
  oneRow : OneRowEach s
  missing : ∀ k x, (s.session k).missing = some x → x ∉ (s.session k).own

omit [DecidableEq X] in
/-- Only the rows a session sees and the key it misses matter; those of the others stay. -/
theorem sound_setSession (h : Sound s) {k : κ} {p : Session X} (hrows : (s.rows ++ p.own).Nodup)
    (hmissing : ∀ x, p.missing = some x → x ∉ p.own) : Sound (setSession s k p) := by
  constructor
  · constructor
    · exact h.oneRow.rows
    · intro j
      by_cases hj : j = k
      · subst hj
        rw [visible, setSession_self]
        exact hrows
      · rw [visible, setSession_other s p hj]
        exact h.oneRow.visible j
  · intro j x hx
    by_cases hj : j = k
    · subst hj
      rw [setSession_self] at hx ⊢
      exact hmissing x hx
    · rw [setSession_other s p hj] at hx ⊢
      exact h.missing j x hx

theorem sound_select (h : Sound s) (k : κ) (x : X) : Sound (next s (.select k x)) := by
  rw [next]
  split
  · next hnone =>
    refine sound_setSession h (p := ⟨(s.session k).own, some x⟩) (h.oneRow.visible k) ?_
    intro y hy
    cases hy
    exact fun hown => lookup_missing hnone (List.mem_append_right _ hown)
  · refine sound_setSession h (p := ⟨(s.session k).own, none⟩) (h.oneRow.visible k) ?_
    intro y hy
    cases hy

theorem sound_insert (h : Sound s) {k : κ} (hfree : NoRival s (.insert k)) :
    Sound (next s (.insert k)) := by
  rw [next]
  split
  · next x hx =>
    apply sound_setSession h
    · rw [← List.append_assoc]
      refine List.nodup_append.2 ⟨h.oneRow.visible k, List.nodup_singleton x, ?_⟩
      rintro y hy z hz rfl
      cases List.mem_singleton.1 hz
      rcases List.mem_append.1 hy with hrow | hown
      · exact hfree _ hx hrow
      · exact h.missing k _ hx hown
    · intro y hy
      cases hy
  · exact h

theorem sound_commit (h : Sound s) {k : κ} (hfree : NoRival s (.commit k)) :
    Sound (next s (.commit k)) := by
  constructor
  · constructor
    · exact h.oneRow.visible k
    · intro j
      by_cases hj : j = k
      · subst hj
        simpa [visible, next, Session.idle] using h.oneRow.visible j
      · have hown : ((next s (.commit k)).session j).own = (s.session j).own := by
          rw [next, setSession_other s _ hj]
        rw [visible, hown, next]
        refine List.nodup_append.2 ⟨h.oneRow.visible k, ?_, ?_⟩
        · exact (List.nodup_append.1 (h.oneRow.visible j)).2.1
        · rintro x hx y hy rfl
          rcases List.mem_append.1 hx with hrow | hmine
          · exact (List.nodup_append.1 (h.oneRow.visible j)).2.2 x hrow x hy rfl
          · exact hfree x hmine j hj hy
  · intro j x hx
    by_cases hj : j = k
    · subst hj
      simp [next, Session.idle] at hx
    · rw [next, setSession_other s _ hj] at hx ⊢
      exact h.missing j x hx

theorem sound_next {e : Action κ X} (h : Sound s) (hfree : NoRival s e) : Sound (next s e) := by
  cases e with
  | select k x => exact sound_select h k x
  | insert k => exact sound_insert h hfree
  | commit k => exact sound_commit h hfree
  | rollback k =>
    rw [next]
    apply sound_setSession h
    · rw [Session.idle, List.append_nil]
      exact h.oneRow.rows
    · intro x hx
      cases hx

omit [DecidableEq κ] [DecidableEq X] in
theorem sound_initial : Sound (initial : Store κ X) where
  oneRow := ⟨List.nodup_nil, fun _ => List.nodup_nil⟩
  missing _ _ hx := by cases hx

/-- A step that meets a rival leaves two rows of one key in sight. -/
theorem noRival_of_after {e : Action κ X} (h : OneRowEach (next s e)) : NoRival s e := by
  cases e with
  | select k x => trivial
  | rollback k => trivial
  | insert k =>
    intro x hx hrow
    have hseen := h.visible k
    simp only [next, hx, visible, setSession_self] at hseen
    rw [← List.append_assoc] at hseen
    exact (List.nodup_append.1 hseen).2.2 x (List.mem_append_left _ hrow) x
      (List.mem_singleton_self x) rfl
  | commit k =>
    intro x hx j hj hown
    have hseen := h.visible j
    simp only [visible, next, setSession_other s _ hj] at hseen
    exact (List.nodup_append.1 hseen).2.2 x (List.mem_append_right _ hx) x hown rfl

/-- Every key keeps to one row, for all to see, exactly when no insert and no commit meets a
rival. -/
theorem one_row_iff (es : List (Action κ X)) :
    (∀ xs, xs <+: es → OneRowEach (run xs)) ↔ ValidTrace NoRival next initial es := by
  constructor
  · intro h
    apply validTrace_of_after
    intro xs e hp _
    have hafter := h _ hp
    rw [run, runTrace_concat] at hafter
    exact noRival_of_after hafter
  · intro h xs hp
    have hsound : Sound (run xs) :=
      history_invariant (I := fun _ s => Sound s) sound_initial
        (fun _ _ _ hs he => sound_next hs he) (validTrace_earlier hp h)
    exact hsound.oneRow

end TrustCopilot.SelectInsert
