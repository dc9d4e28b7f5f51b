import TrustCopilot.Library.Trace
import Mathlib.Algebra.BigOperators.Group.List.Basic
import Mathlib.Data.List.Chain
import Mathlib.Algebra.Order.Ring.Int
import Mathlib.Logic.Function.Basic

/-! Any number of sessions read one shared value, update their own copies and write them
back without a lock or a version test. A stamp that every update raises tells whether a
commit was computed from the value it replaces. -/
namespace TrustCopilot.UnlockedUpdate

open TrustCopilot.Trace

variable {κ α ι β : Type*}

/-- `apply` computes the updated copy and a record from the session's copy, `write` is what
the commit leaves in the store, and `admits` is the store's own constraint on its records. -/
structure Update (α ι β : Type*) where
  apply : α → ι → Option (α × β)
  write : α → α → α
  admits : List β → β → Bool

inductive Session (α β : Type*) where
  | idle
  | loaded (copy : α)
  | flushed (copy updated : α) (record : β)
  deriving DecidableEq, Repr

/-- `log` holds each committed record with the value its commit stored. -/
structure Store (κ α β : Type*) where
  cell : α
  log : List (β × α)
  session : κ → Session α β

def initial (v : α) : Store κ α β := ⟨v, [], fun _ => .idle⟩

inductive Action (κ ι : Type*) where
  | load (k : κ)
  | check (k : κ) (x : ι)
  | commit (k : κ)
  | abort (k : κ)
  deriving DecidableEq, Repr

variable [DecidableEq κ]

def setSession (s : Store κ α β) (k : κ) (p : Session α β) : Store κ α β :=
  { s with session := Function.update s.session k p }

/-- A session that is not in the phase an action needs takes no step. -/
def next (U : Update α ι β) (s : Store κ α β) : Action κ ι → Store κ α β
  | .load k =>
    match s.session k with
    | .idle => setSession s k (.loaded s.cell)
    | _ => s
  | .check k x =>
    match s.session k with
    | .loaded v =>
      match U.apply v x with
      | some (w, b) => setSession s k (.flushed v w b)
      | none => setSession s k .idle
    | _ => s
  | .commit k =>
    match s.session k with
    | .flushed _ w b =>
      if U.admits (s.log.map Prod.fst) b then
        { setSession s k .idle with
          cell := U.write s.cell w
          log := s.log ++ [(b, U.write s.cell w)] }
      else setSession s k .idle
    | _ => s
  | .abort k => setSession s k .idle

/-- The stamp the session read is still the committed one when its commit takes effect. -/
def FreshCommit (U : Update α ι β) (stamp : α → ℤ) (s : Store κ α β) : Action κ ι → Prop
  | .commit k =>
    match s.session k with
    | .flushed v _ b => U.admits (s.log.map Prod.fst) b = true → stamp v = stamp s.cell
    | _ => True
  | _ => True

instance (U : Update α ι β) (stamp : α → ℤ) (s : Store κ α β) (e : Action κ ι) :
    Decidable (FreshCommit U stamp s e) := by
  cases e with
  | commit k => unfold FreshCommit; dsimp only; split <;> infer_instance
  | _ => exact isTrue trivial

/-- Updates applied one after another, each to the value the previous one left. -/
inductive Serial (U : Update α ι β) : α → List (β × α) → α → Prop where
  | refl (v) : Serial U v [] v
  | tail {v w w' : α} {log : List (β × α)} {x : ι} {b : β} : Serial U v log w →
      U.apply w x = some (w', b) → Serial U v (log ++ [(b, w')]) w'

def committed (v : α) (s : Store κ α β) : List α := v :: s.log.map Prod.snd

theorem serial_chain {U : Update α ι β} {R : α → α → Prop}
    (hR : ∀ {v x w b}, U.apply v x = some (w, b) → R v w) {v w : α} {log : List (β × α)}
    (h : Serial U v log w) :
    (v :: log.map Prod.snd).IsChain R ∧ (v :: log.map Prod.snd).getLast? = some w := by
  induction h with
  | refl => exact ⟨List.isChain_singleton _, rfl⟩
  | @tail w w' log x b _ ha ih =>
    rw [List.map_append, ← List.cons_append]
    refine ⟨List.isChain_append.2 ⟨ih.1, List.isChain_singleton _, ?_⟩, List.getLast?_concat⟩
    intro y hy z hz
    rw [ih.2, Option.mem_some_iff] at hy
    simp only [List.map_cons, List.map_nil, List.head?_cons, Option.mem_some_iff] at hz
    subst y z
    exact hR ha

/-- What the sessions of a store rely on: every update of a good value raises its stamp by
the positive weight of its record, and writing it over the value it read stores it whole. -/
structure Stamped (U : Update α ι β) (Good : α → Prop) (stamp : α → ℤ) (weight : β → ℤ) :
    Prop where
  good : ∀ {v x w b}, Good v → U.apply v x = some (w, b) → Good w
  advance : ∀ {v x w b}, Good v → U.apply v x = some (w, b) → stamp w = stamp v + weight b
  positive : ∀ {v x w b}, Good v → U.apply v x = some (w, b) → 0 < weight b
  write_good : ∀ {v w}, Good v → Good w → Good (U.write v w)
  write_stamp : ∀ {v w}, stamp (U.write v w) = stamp w
  write_self : ∀ {v x w b}, Good v → U.apply v x = some (w, b) → U.write v w = w

/-- The commit of a flushed session, the only step that changes what is stored. -/
def Commits (U : Update α ι β) (s : Store κ α β) (k : κ) (v w : α) (b : β) : Prop :=
  s.session k = .flushed v w b ∧ U.admits (s.log.map Prod.fst) b = true

/-- Everything a step can do to the store: only a commit writes, and any other step is fresh. -/
theorem next_store_cases (U : Update α ι β) (stamp : α → ℤ) (s : Store κ α β) (e : Action κ ι) :
    (∃ k v w b, e = .commit k ∧ Commits U s k v w b ∧
      (next U s e).cell = U.write s.cell w ∧
      (next U s e).log = s.log ++ [(b, U.write s.cell w)]) ∨
    (FreshCommit U stamp s e ∧ (next U s e).cell = s.cell ∧ (next U s e).log = s.log) := by
  cases e with
  | load k => right; cases h : s.session k <;> simp [next, h, setSession, FreshCommit]
  | check k x =>
    right
    cases h : s.session k with
    | loaded v => cases ha : U.apply v x <;> simp [next, h, ha, setSession, FreshCommit]
    | _ => simp [next, h, FreshCommit]
  | commit k =>
    cases h : s.session k with
    | flushed v w b =>
      by_cases ha : U.admits (s.log.map Prod.fst) b = true
      · exact Or.inl ⟨k, v, w, b, rfl, ⟨h, ha⟩, by simp [next, h, ha], by simp [next, h, ha]⟩
      · right; simp [next, h, ha, setSession, FreshCommit]
    | _ => right; simp [next, h, FreshCommit]
  | abort k => right; simp [next, setSession, FreshCommit]

/-- Everything a step can do to a session: keep it, end it, let it read the committed value,
or let it compute an update from the copy it read. -/
theorem next_session_cases (U : Update α ι β) (s : Store κ α β) (e : Action κ ι) (j : κ) :
    (next U s e).session j = s.session j ∨ (next U s e).session j = .idle ∨
    (next U s e).session j = .loaded s.cell ∨
    ∃ v x w b, s.session j = .loaded v ∧ U.apply v x = some (w, b) ∧
      (next U s e).session j = .flushed v w b := by
  cases e with
  | load k =>
    cases h : s.session k <;> simp only [next, h, setSession, true_or]
    by_cases hj : j = k
    · subst j; simp
    · simp [Function.update_of_ne hj]
  | check k x =>
    cases h : s.session k with
    | loaded v =>
      by_cases hj : j = k
      · subst j
        cases ha : U.apply v x with
        | none => simp [next, h, ha, setSession]
        | some r => exact Or.inr (Or.inr (Or.inr ⟨v, x, r.1, r.2, h, ha, by
            simp [next, h, ha, setSession]⟩))
      · cases ha : U.apply v x <;> simp [next, h, ha, setSession, Function.update_of_ne hj]
    | _ => simp [next, h]
  | commit k =>
    cases h : s.session k with
    | flushed v w b =>
      simp only [next, h]
      split <;> by_cases hj : j = k <;>
        simp [setSession, hj, Function.update_of_ne]
    | _ => simp [next, h]
  | abort k =>
    by_cases hj : j = k <;> simp [next, setSession, hj, Function.update_of_ne]

omit [DecidableEq κ] in
theorem fresh_commit_iff (U : Update α ι β) (stamp : α → ℤ) {s : Store κ α β} {k : κ}
    {v w : α} {b : β} (h : Commits U s k v w b) :
    FreshCommit (ι := ι) U stamp s (.commit k) ↔ stamp v = stamp s.cell := by
  simp [FreshCommit, h.1, h.2]

def Reads : Session α β → α → Prop
  | .idle, _ => False
  | .loaded u, v => u = v
  | .flushed u _ _, v => u = v

def run (U : Update α ι β) (v : α) (es : List (Action κ ι)) : Store κ α β :=
  runTrace (next U) (initial v) es

theorem run_concat (U : Update α ι β) (v : α) (es : List (Action κ ι)) (e : Action κ ι) :
    run U v (es ++ [e]) = next U (run U v es) e := runTrace_concat _ _ _

theorem log_next (U : Update α ι β) (s : Store κ α β) (e : Action κ ι) :
    s.log <+: (next U s e).log := by
  rcases next_store_cases U (fun _ => 0) s e with ⟨k, v, w, b, _, _, _, hl⟩ | ⟨_, _, hl⟩
  · rw [hl]; exact List.prefix_append _ _
  · rw [hl]

theorem log_prefix (U : Update α ι β) (v : α) {xs es : List (Action κ ι)} (h : xs <+: es) :
    (run U v xs).log <+: (run U v es).log := by
  induction es using List.reverseRecOn with
  | nil => rw [List.prefix_nil.1 h]
  | append_singleton es e ih =>
    rcases prefix_concat_cases h with h | rfl
    · rw [run_concat]; exact (ih h).trans (log_next U _ e)
    · exact List.prefix_rfl

theorem committed_last (U : Update α ι β) (v : α) (es : List (Action κ ι)) :
    (committed v (run U v es)).getLast? = some (run U v es).cell := by
  induction es using List.reverseRecOn with
  | nil => rfl
  | append_singleton es e ih =>
    rw [run_concat]
    rcases next_store_cases U (fun _ => 0) (run U v es) e with
      ⟨k, _, w, b, _, _, he, hl⟩ | ⟨_, he, hl⟩
    · rw [committed, hl, he, List.map_append, ← List.cons_append]
      exact List.getLast?_concat
    · rw [committed, hl, he]; exact ih

structure Sound (U : Update α ι β) (Good : α → Prop) (s : Store κ α β) : Prop where
  cell : Good s.cell
  reads : ∀ k v, Reads (s.session k) v → Good v
  computed : ∀ k v w b, s.session k = .flushed v w b → ∃ x, U.apply v x = some (w, b)

/-- What stamp-fresh commits keep: no session holds a copy that a later commit could
confuse with the committed value, so the log is a run of updates one at a time. -/
structure Current (U : Update α ι β) (stamp : α → ℤ) (v₀ : α) (s : Store κ α β) : Prop where
  behind : ∀ k v, Reads (s.session k) v → stamp v ≤ stamp s.cell
  same : ∀ k v, Reads (s.session k) v → stamp v = stamp s.cell → v = s.cell
  serial : Serial U v₀ s.log s.cell

def Accounted (stamp : α → ℤ) (weight : β → ℤ) (v₀ : α) (s : Store κ α β) : Prop :=
  stamp s.cell = stamp v₀ + (s.log.map fun r => weight r.1).sum

theorem reads_next (U : Update α ι β) (s : Store κ α β) (e : Action κ ι) {j : κ} {v : α}
    (h : Reads ((next U s e).session j) v) : Reads (s.session j) v ∨ v = s.cell := by
  rcases next_session_cases U s e j with hs | hs | hs | ⟨u, x, w, b, hl, _, hs⟩ <;> rw [hs] at h
  · exact Or.inl h
  · exact h.elim
  · exact Or.inr h.symm
  · exact Or.inl (by rw [hl]; exact h)

section Laws

variable {U : Update α ι β} {Good : α → Prop} {stamp : α → ℤ} {weight : β → ℤ}

theorem sound_next (L : Stamped U Good stamp weight) {s : Store κ α β} (h : Sound U Good s)
    (e : Action κ ι) : Sound U Good (next U s e) := by
  constructor
  · rcases next_store_cases U stamp s e with ⟨k, v, w, b, _, hc, he, _⟩ | ⟨_, he, _⟩
    · obtain ⟨x, ha⟩ := h.computed k v w b hc.1
      have hv : Good v := h.reads k v (by rw [hc.1]; rfl)
      rw [he]
      exact L.write_good h.cell (L.good hv ha)
    · rw [he]; exact h.cell
  · intro j v hr
    rcases reads_next U s e hr with hr | rfl
    · exact h.reads j v hr
    · exact h.cell
  · intro j v w b hs
    rcases next_session_cases U s e j with hn | hn | hn | ⟨u, x, w', b', _, ha, hn⟩ <;>
      rw [hn] at hs
    · exact h.computed j v w b hs
    · cases hs
    · cases hs
    · cases hs; exact ⟨x, ha⟩

theorem run_sound (L : Stamped U Good stamp weight) {v₀ : α} (h₀ : Good v₀)
    (es : List (Action κ ι)) : Sound U Good (run U v₀ es) := by
  induction es using List.reverseRecOn with
  | nil => exact ⟨h₀, fun _ _ h => h.elim, fun _ _ _ _ h => by cases h⟩
  | append_singleton es e ih => rw [run_concat]; exact sound_next L ih e

omit [DecidableEq κ] in
/-- Without any assumption on the commits, a commit raises the stamp to one more weight than
the stamp its session read. -/
theorem commit_stamp (L : Stamped U Good stamp weight) {s : Store κ α β} (h : Sound U Good s)
    {k : κ} {v w : α} {b : β} (hc : Commits U s k v w b) :
    stamp (U.write s.cell w) = stamp v + weight b ∧ 0 < weight b := by
  obtain ⟨x, ha⟩ := h.computed k v w b hc.1
  have hv : Good v := h.reads k v (by rw [hc.1]; rfl)
  exact ⟨by rw [L.write_stamp, L.advance hv ha], L.positive hv ha⟩

theorem current_next (L : Stamped U Good stamp weight) {v₀ : α} {s : Store κ α β}
    (hs : Sound U Good s) (h : Current U stamp v₀ s) {e : Action κ ι}
    (hf : FreshCommit U stamp s e) : Current U stamp v₀ (next U s e) := by
  have old : ∀ j v, Reads ((next U s e).session j) v →
      stamp v ≤ stamp s.cell ∧ (stamp v = stamp s.cell → v = s.cell) := by
    intro j v hr
    rcases reads_next U s e hr with hr | rfl
    · exact ⟨h.behind j v hr, h.same j v hr⟩
    · exact ⟨le_rfl, fun _ => rfl⟩
  rcases next_store_cases U stamp s e with ⟨k, v, w, b, rfl, hc, he, hl⟩ | ⟨_, he, hl⟩
  · obtain ⟨x, ha⟩ := hs.computed k v w b hc.1
    have hread : Reads (s.session k) v := by rw [hc.1]; rfl
    have hv : v = s.cell := h.same k v hread ((fresh_commit_iff U stamp hc).1 hf)
    have hw : U.write s.cell w = w := by
      rw [← hv]; exact L.write_self (hs.reads k v hread) ha
    -- the commit raised the stamp past every copy still held, so `same` is vacuous
    have hlt : stamp s.cell < stamp (U.write s.cell w) := by
      have := commit_stamp L hs hc
      rw [hv] at this
      omega
    constructor
    · intro j u hr; rw [he]; exact (old j u hr).1.trans hlt.le
    · intro j u hr heq; rw [he] at heq; have := (old j u hr).1; omega
    · rw [he, hl, hw]; rw [hv] at ha; exact h.serial.tail ha
  · constructor
    · intro j u hr; rw [he]; exact (old j u hr).1
    · intro j u hr heq; rw [he] at heq ⊢; exact (old j u hr).2 heq
    · rw [he, hl]; exact h.serial

/-- Commits that all find the stamp they read make the log a serial run of the updates. -/
theorem fresh_run_serial (L : Stamped U Good stamp weight) {v₀ : α} (h₀ : Good v₀)
    {es : List (Action κ ι)}
    (hf : ValidTrace (FreshCommit U stamp) (next U) (initial v₀) es) :
    Serial U v₀ (run U v₀ es).log (run U v₀ es).cell := by
  refine (history_invariant (I := fun _ s => Current U stamp v₀ s) ?_ ?_ hf).serial
  · exact ⟨fun _ _ h => h.elim, fun _ _ h => h.elim, .refl _⟩
  · intro xs e _ hc he
    exact current_next L (run_sound L h₀ xs) hc he

theorem accounted_next_iff (L : Stamped U Good stamp weight) {v₀ : α} {s : Store κ α β}
    (hs : Sound U Good s) (h : Accounted stamp weight v₀ s) (e : Action κ ι) :
    Accounted stamp weight v₀ (next U s e) ↔ FreshCommit U stamp s e := by
  unfold Accounted at *
  rcases next_store_cases U stamp s e with ⟨k, v, w, b, rfl, hc, he, hl⟩ | ⟨hf, he, hl⟩
  · have hw := (commit_stamp L hs hc).1
    rw [fresh_commit_iff U stamp hc, he, hl, hw, List.map_append, List.sum_append]
    simp only [List.map_cons, List.map_nil, List.sum_cons, List.sum_nil]
    constructor <;> intro hx <;> omega
  · rw [he, hl]
    exact iff_of_true h hf

/-- The stamps add up in every state of a run exactly when every commit was fresh. -/
theorem accounted_iff_fresh (L : Stamped U Good stamp weight) {v₀ : α} (h₀ : Good v₀)
    (es : List (Action κ ι)) :
    (∀ xs, xs <+: es → Accounted stamp weight v₀ (run U v₀ xs)) ↔
      ValidTrace (FreshCommit U stamp) (next U) (initial v₀) es := by
  constructor
  · intro h
    refine validTrace_of_after fun xs e hp _ => ?_
    have hx := h xs ((List.prefix_append xs [e]).trans hp)
    have hy := h (xs ++ [e]) hp
    rw [run_concat] at hy
    exact (accounted_next_iff L (run_sound L h₀ xs) hx e).1 hy
  · intro hf xs hp
    refine history_invariant (I := fun _ s => Accounted stamp weight v₀ s) ?_ ?_
      (validTrace_earlier hp hf)
    · simp [Accounted, initial]
    · intro ys e _ hy he
      exact (accounted_next_iff L (run_sound L h₀ ys) hy e).2 he

end Laws

end TrustCopilot.UnlockedUpdate
