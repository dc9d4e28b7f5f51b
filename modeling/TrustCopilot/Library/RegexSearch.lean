import Mathlib.Data.List.Induction

/-! Regular expressions with tests on the characters around a position. `Matches` says what
a pattern matches; `ends` computes it, and `search` finds the leftmost position of a match. -/
namespace TrustCopilot.RegexSearch

variable {α : Type*}

inductive Regex (α : Type*) where
  | empty
  | one (p : α → Bool)
  | look (p : Option α → Option α → Bool)
  | seq (a b : Regex α)
  | alt (a b : Regex α)
  | star (a : Regex α)

/-- A position in a text: the character before it and the text from it on. -/
@[ext] structure Cursor (α : Type*) where
  before : Option α
  rest : List α

def after (before : Option α) (s : List α) : Option α := s.foldl (fun _ x => some x) before

theorem after_append (b : Option α) (s t : List α) : after b (s ++ t) = after (after b s) t :=
  List.foldl_append

@[simp] theorem after_nil (b : Option α) : after b [] = b := rfl

@[simp] theorem after_concat (b : Option α) (s : List α) (x : α) :
    after b (s ++ [x]) = some x := by
  rw [after_append]
  rfl

theorem after_eq_getLast? (b : Option α) (s : List α) : after b s = s.getLast?.or b := by
  induction s using List.reverseRecOn with
  | nil => rfl
  | append_singleton s x _ => rw [after_concat, List.getLast?_concat, Option.some_or]

inductive Matches : Regex α → Cursor α → Cursor α → Prop
  | empty (c) : Matches .empty c c
  | one {p b x xs} (h : p x = true) : Matches (.one p) ⟨b, x :: xs⟩ ⟨some x, xs⟩
  | look {p c} (h : p c.before c.rest.head? = true) : Matches (.look p) c c
  | seq {a b c d e} (ha : Matches a c d) (hb : Matches b d e) : Matches (.seq a b) c e
  | altLeft {a b c d} (h : Matches a c d) : Matches (.alt a b) c d
  | altRight {a b c d} (h : Matches b c d) : Matches (.alt a b) c d
  | starNil {a} (c) : Matches (.star a) c c
  | starCons {a c d e} (ha : Matches a c d) (hs : Matches (.star a) d e) :
      Matches (.star a) c e

/-- A match consumes the text between the two positions. -/
theorem Matches.span {r : Regex α} {c d : Cursor α} (h : Matches r c d) :
    ∃ s, c.rest = s ++ d.rest ∧ d.before = after c.before s := by
  induction h with
  | empty | look | starNil => exact ⟨[], rfl, rfl⟩
  | one => exact ⟨[_], rfl, rfl⟩
  | altLeft _ ih | altRight _ ih => exact ih
  | seq _ _ iha ihb | starCons _ _ iha ihb =>
    obtain ⟨s, hs, hb⟩ := iha
    obtain ⟨t, ht, hbt⟩ := ihb
    exact ⟨s ++ t, by rw [hs, ht, List.append_assoc], by rw [hbt, hb, after_append]⟩

theorem Matches.eq_of_length {r : Regex α} {c d : Cursor α} (h : Matches r c d)
    (hl : c.rest.length ≤ d.rest.length) : d = c := by
  obtain ⟨s, hs, hb⟩ := h.span
  have hnil : s = [] := by
    rw [hs, List.length_append] at hl
    exact List.eq_nil_of_length_eq_zero (by omega)
  subst hnil
  exact Cursor.ext hb hs.symm

theorem matches_seq_iff {a b : Regex α} {c e : Cursor α} :
    Matches (.seq a b) c e ↔ ∃ d, Matches a c d ∧ Matches b d e := by
  constructor
  · intro h
    cases h with
    | seq ha hb => exact ⟨_, ha, hb⟩
  · rintro ⟨d, ha, hb⟩
    exact .seq ha hb

theorem matches_look_iff {p : Option α → Option α → Bool} {c d : Cursor α} :
    Matches (.look p) c d ↔ d = c ∧ p c.before c.rest.head? = true := by
  constructor
  · intro h
    cases h with
    | look h => exact ⟨rfl, h⟩
  · rintro ⟨rfl, h⟩
    exact .look h

/-- The positions reached by at most `n` rounds of `f`, each of which consumes something. -/
def rounds (f : Cursor α → List (Cursor α)) : ℕ → Cursor α → List (Cursor α)
  | 0, c => [c]
  | n + 1, c =>
    c :: ((f c).filter fun d => d.rest.length < c.rest.length).flatMap (rounds f n)

def ends : Regex α → Cursor α → List (Cursor α)
  | .empty, c => [c]
  | .one p, c =>
    match c.rest with
    | [] => []
    | x :: xs => if p x then [⟨some x, xs⟩] else []
  | .look p, c => if p c.before c.rest.head? then [c] else []
  | .seq a b, c => (ends a c).flatMap (ends b)
  | .alt a b, c => ends a c ++ ends b c
  | .star a, c => rounds (ends a) c.rest.length c

theorem rounds_sound {a : Regex α} (ha : ∀ c d, d ∈ ends a c → Matches a c d) {n : ℕ}
    {c d : Cursor α} (h : d ∈ rounds (ends a) n c) : Matches (.star a) c d := by
  induction n generalizing c with
  | zero =>
    rw [List.mem_singleton.1 h]
    exact .starNil c
  | succ n ih =>
    rcases List.mem_cons.1 h with rfl | h
    · exact .starNil d
    · obtain ⟨e, he, hd⟩ := List.mem_flatMap.1 h
      exact .starCons (ha c e (List.mem_filter.1 he).1) (ih hd)

theorem rounds_complete {a : Regex α} (ha : ∀ c d, Matches a c d → d ∈ ends a c)
    {c d : Cursor α} (h : Matches (.star a) c d) :
    ∀ n, c.rest.length ≤ n → d ∈ rounds (ends a) n c := by
  generalize hr : Regex.star a = r at h
  induction h with
  | starNil c =>
    intro n _
    cases n with
    | zero => exact List.mem_singleton_self c
    | succ n => exact List.mem_cons_self
  | @starCons a' c e d hce _ _ ihs =>
    cases hr
    intro n hn
    by_cases hlt : e.rest.length < c.rest.length
    · cases n with
      | zero => omega
      | succ n =>
        have hd := ihs rfl n (by omega)
        refine List.mem_cons_of_mem _ (List.mem_flatMap.2 ⟨e, ?_, hd⟩)
        exact List.mem_filter.2 ⟨ha c e hce, by simpa using hlt⟩
    · -- a round that consumes nothing ends where it began
      have he := hce.eq_of_length (by omega)
      subst he
      exact ihs rfl n hn
  | _ => cases hr

theorem mem_ends_iff {r : Regex α} {c d : Cursor α} : d ∈ ends r c ↔ Matches r c d := by
  induction r generalizing c d with
  | empty =>
    rw [ends, List.mem_singleton]
    constructor
    · rintro rfl; exact .empty d
    · intro h; cases h; rfl
  | one p =>
    obtain ⟨b, rest⟩ := c
    rw [ends]
    constructor
    · intro h
      cases rest with
      | nil => cases h
      | cons x xs =>
        by_cases hp : p x = true
        · simp only [hp, if_true, List.mem_singleton] at h
          subst h
          exact .one hp
        · simp [hp] at h
    · intro h
      cases h with
      | one hp => simp [hp]
  | look p =>
    rw [ends, matches_look_iff]
    by_cases hp : p c.before c.rest.head? = true
    · simp [hp]
    · simp [hp]
  | seq a b iha ihb =>
    rw [ends, List.mem_flatMap, matches_seq_iff]
    exact exists_congr fun e => and_congr iha ihb
  | alt a b iha ihb =>
    rw [ends, List.mem_append, iha, ihb]
    constructor
    · rintro (h | h)
      · exact .altLeft h
      · exact .altRight h
    · intro h
      cases h with
      | altLeft h => exact Or.inl h
      | altRight h => exact Or.inr h
  | star a ih =>
    rw [ends]
    constructor
    · exact rounds_sound fun c d => ih.1
    · exact fun h => rounds_complete (fun c d => ih.2) h _ (Nat.le_refl _)

def matchesAt (r : Regex α) (c : Cursor α) : Bool := !(ends r c).isEmpty

theorem matchesAt_iff {r : Regex α} {c : Cursor α} :
    matchesAt r c = true ↔ ∃ d, Matches r c d := by
  rw [matchesAt, Bool.not_eq_true', List.isEmpty_eq_false_iff_exists_mem]
  exact exists_congr fun d => mem_ends_iff

/-- The leftmost position of a match, in a text that follows `before`. -/
def searchFrom (r : Regex α) (before : Option α) : List α → Option ℕ
  | [] => if matchesAt r ⟨before, []⟩ then some 0 else none
  | x :: xs =>
    if matchesAt r ⟨before, x :: xs⟩ then some 0
    else (searchFrom r (some x) xs).map (· + 1)

def search (r : Regex α) (text : List α) : Option ℕ := searchFrom r none text

/-- The text up to the first match, or the whole text when there is none. -/
def cutAt (r : Regex α) (text : List α) : List α :=
  match search r text with
  | some n => text.take n
  | none => text

theorem searchFrom_isSome_iff {r : Regex α} {b : Option α} {text : List α} :
    (searchFrom r b text).isSome = true ↔
      ∃ s t d, text = s ++ t ∧ Matches r ⟨after b s, t⟩ d := by
  induction text generalizing b with
  | nil =>
    rw [searchFrom]
    constructor
    · intro h
      split at h
      · next hm =>
        obtain ⟨d, hd⟩ := matchesAt_iff.1 hm
        exact ⟨[], [], d, rfl, hd⟩
      · cases h
    · rintro ⟨s, t, d, hst, hd⟩
      obtain ⟨rfl, rfl⟩ := List.append_eq_nil_iff.1 hst.symm
      have hm : matchesAt r ⟨b, []⟩ = true := matchesAt_iff.2 ⟨d, hd⟩
      rw [if_pos hm]
      rfl
  | cons x xs ih =>
    rw [searchFrom]
    by_cases hm : matchesAt r ⟨b, x :: xs⟩ = true
    · rw [if_pos hm]
      obtain ⟨d, hd⟩ := matchesAt_iff.1 hm
      exact iff_of_true rfl ⟨[], x :: xs, d, rfl, hd⟩
    · rw [if_neg hm, Option.isSome_map, ih]
      constructor
      · rintro ⟨s, t, d, rfl, hd⟩
        exact ⟨x :: s, t, d, rfl, hd⟩
      · rintro ⟨s, t, d, hst, hd⟩
        cases s with
        | nil =>
          rw [List.nil_append] at hst
          subst hst
          exact absurd (matchesAt_iff.2 ⟨d, hd⟩) hm
        | cons y s =>
          obtain ⟨rfl, rfl⟩ := List.cons.inj hst
          exact ⟨s, t, d, rfl, hd⟩

/-! ### Patterns without tests on the surroundings -/

def Plain : Regex α → Prop
  | .empty => True
  | .one _ => True
  | .look _ => False
  | .seq a b => Plain a ∧ Plain b
  | .alt a b => Plain a ∧ Plain b
  | .star a => Plain a

inductive Accepts : Regex α → List α → Prop
  | empty : Accepts .empty []
  | one {p x} (h : p x = true) : Accepts (.one p) [x]
  | seq {a b s t} (ha : Accepts a s) (hb : Accepts b t) : Accepts (.seq a b) (s ++ t)
  | altLeft {a b s} (h : Accepts a s) : Accepts (.alt a b) s
  | altRight {a b s} (h : Accepts b s) : Accepts (.alt a b) s
  | starNil {a} : Accepts (.star a) []
  | starCons {a s t} (ha : Accepts a s) (hs : Accepts (.star a) t) : Accepts (.star a) (s ++ t)

theorem Accepts.matches {r : Regex α} {s : List α} (h : Accepts r s) (b : Option α)
    (rest : List α) : Matches r ⟨b, s ++ rest⟩ ⟨after b s, rest⟩ := by
  induction h generalizing b rest with
  | empty | starNil => constructor
  | one hp => exact .one hp
  | altLeft _ ih => exact .altLeft (ih b rest)
  | altRight _ ih => exact .altRight (ih b rest)
  | seq _ _ iha ihb =>
    rw [List.append_assoc, after_append]
    exact .seq (iha b _) (ihb _ rest)
  | starCons _ _ iha ihs =>
    rw [List.append_assoc, after_append]
    exact .starCons (iha b _) (ihs _ rest)

theorem Matches.accepts {r : Regex α} {c d : Cursor α} (h : Matches r c d) (hp : Plain r) :
    ∃ s, c.rest = s ++ d.rest ∧ d.before = after c.before s ∧ Accepts r s := by
  induction h with
  | empty => exact ⟨[], rfl, rfl, .empty⟩
  | starNil => exact ⟨[], rfl, rfl, .starNil⟩
  | one h => exact ⟨[_], rfl, rfl, .one h⟩
  | look => exact hp.elim
  | altLeft _ ih =>
    obtain ⟨s, hs, hb, h⟩ := ih hp.1
    exact ⟨s, hs, hb, .altLeft h⟩
  | altRight _ ih =>
    obtain ⟨s, hs, hb, h⟩ := ih hp.2
    exact ⟨s, hs, hb, .altRight h⟩
  | seq _ _ iha ihb =>
    obtain ⟨s, hs, hbs, ha⟩ := iha hp.1
    obtain ⟨t, ht, hbt, hb⟩ := ihb hp.2
    exact ⟨s ++ t, by rw [hs, ht, List.append_assoc], by rw [hbt, hbs, after_append], .seq ha hb⟩
  | starCons _ _ iha ihs =>
    obtain ⟨s, hs, hbs, ha⟩ := iha hp
    obtain ⟨t, ht, hbt, hb⟩ := ihs hp
    exact ⟨s ++ t, by rw [hs, ht, List.append_assoc], by rw [hbt, hbs, after_append],
      .starCons ha hb⟩

/-- No test of the pattern passes on `x`. -/
def avoids (x : α) : Regex α → Bool
  | .empty => true
  | .one p => !p x
  | .look _ => true
  | .seq a b => avoids x a && avoids x b
  | .alt a b => avoids x a && avoids x b
  | .star a => avoids x a

theorem Accepts.not_mem {r : Regex α} {s : List α} (h : Accepts r s) {x : α}
    (hx : avoids x r = true) : x ∉ s := by
  induction h with
  | empty | starNil => exact List.not_mem_nil
  | @one p y hp =>
    rw [avoids, Bool.not_eq_true'] at hx
    intro hin
    rw [← List.mem_singleton.1 hin, hx] at hp
    cases hp
  | altLeft _ ih => exact ih (Bool.and_eq_true_iff.1 hx).1
  | altRight _ ih => exact ih (Bool.and_eq_true_iff.1 hx).2
  | seq _ _ iha ihb =>
    have hab := Bool.and_eq_true_iff.1 hx
    exact fun hin => (List.mem_append.1 hin).elim (iha hab.1) (ihb hab.2)
  | starCons _ _ iha ihs =>
    exact fun hin => (List.mem_append.1 hin).elim (iha hx) (ihs hx)

@[simp] theorem accepts_empty_iff {s : List α} : Accepts .empty s ↔ s = [] := by
  constructor
  · intro h
    cases h
    rfl
  · rintro rfl
    exact .empty

@[simp] theorem accepts_one_iff {p : α → Bool} {s : List α} :
    Accepts (.one p) s ↔ ∃ x, s = [x] ∧ p x = true := by
  constructor
  · intro h
    cases h with
    | one hp => exact ⟨_, rfl, hp⟩
  · rintro ⟨x, rfl, hp⟩
    exact .one hp

@[simp] theorem accepts_alt_iff {a b : Regex α} {s : List α} :
    Accepts (.alt a b) s ↔ Accepts a s ∨ Accepts b s := by
  constructor
  · intro h
    cases h with
    | altLeft h => exact Or.inl h
    | altRight h => exact Or.inr h
  · rintro (h | h)
    · exact .altLeft h
    · exact .altRight h

theorem accepts_seq_iff {a b : Regex α} {s : List α} :
    Accepts (.seq a b) s ↔ ∃ u v, s = u ++ v ∧ Accepts a u ∧ Accepts b v := by
  constructor
  · intro h
    cases h with
    | seq ha hb => exact ⟨_, _, rfl, ha, hb⟩
  · rintro ⟨u, v, rfl, ha, hb⟩
    exact .seq ha hb

@[simp] theorem accepts_empty_seq_iff {r : Regex α} {s : List α} :
    Accepts (.seq .empty r) s ↔ Accepts r s := by
  simp [accepts_seq_iff]

@[simp] theorem accepts_seq_empty_iff {r : Regex α} {s : List α} :
    Accepts (.seq r .empty) s ↔ Accepts r s := by
  simp [accepts_seq_iff]

@[simp] theorem accepts_seq_seq_iff {a b r : Regex α} {s : List α} :
    Accepts (.seq (.seq a b) r) s ↔ Accepts (.seq a (.seq b r)) s := by
  simp only [accepts_seq_iff]
  constructor
  · rintro ⟨_, w, rfl, ⟨u, v, rfl, ha, hb⟩, hr⟩
    exact ⟨u, v ++ w, List.append_assoc u v w, ha, v, w, rfl, hb, hr⟩
  · rintro ⟨u, _, rfl, ha, v, w, rfl, hb, hr⟩
    exact ⟨u ++ v, w, (List.append_assoc u v w).symm, ⟨u, v, rfl, ha, hb⟩, hr⟩

@[simp] theorem not_accepts_one_seq_nil {p : α → Bool} {r : Regex α} :
    ¬ Accepts (.seq (.one p) r) [] := by
  intro h
  obtain ⟨u, v, huv, hu, -⟩ := accepts_seq_iff.1 h
  obtain ⟨x, rfl, -⟩ := accepts_one_iff.1 hu
  cases huv

@[simp] theorem accepts_one_seq_cons_iff {p : α → Bool} {r : Regex α} {x : α} {s : List α} :
    Accepts (.seq (.one p) r) (x :: s) ↔ p x = true ∧ Accepts r s := by
  constructor
  · intro h
    obtain ⟨u, v, huv, hu, hv⟩ := accepts_seq_iff.1 h
    obtain ⟨y, rfl, hy⟩ := accepts_one_iff.1 hu
    obtain ⟨rfl, rfl⟩ := List.cons.inj huv
    exact ⟨hy, hv⟩
  · rintro ⟨hp, hr⟩
    exact .seq (.one hp) hr

theorem accepts_star_one_iff {p : α → Bool} {s : List α} :
    Accepts (.star (.one p)) s ↔ ∀ x ∈ s, p x = true := by
  constructor
  · generalize hr : Regex.star (.one p) = r
    intro h
    induction h with
    | starNil => exact fun x hx => nomatch hx
    | starCons ha _ _ ihs =>
      cases hr
      cases ha with
      | one hp =>
        intro x hx
        rcases List.mem_cons.1 hx with rfl | hx
        · exact hp
        · exact ihs rfl x hx
    | _ => cases hr
  · intro h
    induction s with
    | nil => exact .starNil
    | cons x s ih =>
      have hs := ih fun y hy => h y (List.mem_cons_of_mem _ hy)
      exact .starCons (.one (h x List.mem_cons_self)) hs

end TrustCopilot.RegexSearch
