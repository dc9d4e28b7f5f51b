import TrustCopilot.Library.RegexSearch

/-! The match that a backtracking search reports: the leftmost, and at its position the one that is
tried first, where a star takes as much as it can. -/
namespace TrustCopilot.RegexSearch

variable {α : Type*}

/-- As `rounds`, the longest first. -/
def greedyRounds (f : Cursor α → List (Cursor α)) : ℕ → Cursor α → List (Cursor α)
  | 0, c => [c]
  | n + 1, c =>
    ((f c).filter fun d => d.rest.length < c.rest.length).flatMap (greedyRounds f n) ++ [c]

/-- The positions at which a match from `c` can end, in the order they are tried in. -/
def tries : Regex α → Cursor α → List (Cursor α)
  | .empty, c => [c]
  | .one p, c =>
    match c.rest with
    | [] => []
    | x :: xs => if p x then [⟨some x, xs⟩] else []
  | .look p, c => if p c.before c.rest.head? then [c] else []
  | .seq a b, c => (tries a c).flatMap (tries b)
  | .alt a b, c => tries a c ++ tries b c
  | .star a, c => greedyRounds (tries a) c.rest.length c

theorem mem_greedyRounds_iff {f g : Cursor α → List (Cursor α)}
    (h : ∀ c d, d ∈ f c ↔ d ∈ g c) {n : ℕ} {c d : Cursor α} :
    d ∈ greedyRounds f n c ↔ d ∈ rounds g n c := by
  induction n generalizing c with
  | zero => exact Iff.rfl
  | succ n ih =>
    rw [greedyRounds, rounds, List.mem_append, List.mem_singleton, or_comm, List.mem_cons,
      List.mem_flatMap, List.mem_flatMap]
    apply or_congr_right
    apply exists_congr
    intro e
    rw [List.mem_filter, List.mem_filter, h, ih]

/-- What is tried first changes nothing in what matches. -/
theorem mem_tries_iff {r : Regex α} {c d : Cursor α} : d ∈ tries r c ↔ Matches r c d := by
  rw [← mem_ends_iff]
  induction r generalizing c d with
  | empty => exact Iff.rfl
  | one p => exact Iff.rfl
  | look p => exact Iff.rfl
  | seq a b iha ihb =>
    rw [tries, ends, List.mem_flatMap, List.mem_flatMap]
    exact exists_congr fun e => and_congr iha ihb
  | alt a b iha ihb => rw [tries, ends, List.mem_append, List.mem_append, iha, ihb]
  | star a ih => exact mem_greedyRounds_iff fun _ _ => ih

def between (c d : Cursor α) : List α := c.rest.take (c.rest.length - d.rest.length)

theorem Matches.between {r : Regex α} {c d : Cursor α} (h : Matches r c d) :
    c.rest = between c d ++ d.rest := by
  obtain ⟨s, hs, -⟩ := h.span
  rw [RegexSearch.between, hs, List.length_append, Nat.add_sub_cancel, List.take_left]

/-- Where the first match begins and what it matches, in a text that follows `before`. -/
def firstMatch (r : Regex α) (before : Option α) : List α → Option (ℕ × List α)
  | [] => (tries r ⟨before, []⟩).head?.map fun d => (0, between ⟨before, []⟩ d)
  | x :: xs =>
    match (tries r ⟨before, x :: xs⟩).head? with
    | some d => some (0, between ⟨before, x :: xs⟩ d)
    | none => (firstMatch r (some x) xs).map fun m => (m.1 + 1, m.2)

/-- The texts of the matches one behind the other, for a pattern that does not match the empty
text. -/
def findAllFrom (r : Regex α) : ℕ → Option α → List α → List (List α)
  | 0, _, _ => []
  | fuel + 1, before, text =>
    match firstMatch r before text with
    | none => []
    | some (n, m) => m :: findAllFrom r fuel (after before (text.take (n + m.length)))
        (text.drop (n + m.length))

def findAll (r : Regex α) (text : List α) : List (List α) :=
  findAllFrom r (text.length + 1) none text

def Occurs (r : Regex α) (text s m : List α) : Prop :=
  ∃ d, text = s ++ (m ++ d.rest) ∧ Matches r ⟨s.getLast?, m ++ d.rest⟩ d

variable {r : Regex α} {before : Option α} {text s t m : List α} {d : Cursor α} {n : ℕ}

theorem between_of_try (h : (tries r ⟨before, text⟩).head? = some d) :
    text = between ⟨before, text⟩ d ++ d.rest ∧ Matches r ⟨before, text⟩ d := by
  have hmatch : Matches r ⟨before, text⟩ d := mem_tries_iff.1 (List.mem_of_mem_head? h)
  exact ⟨hmatch.between, hmatch⟩

theorem firstMatch_some (h : firstMatch r before text = some (n, m)) :
    ∃ s d, text = s ++ (m ++ d.rest) ∧ s.length = n ∧
      Matches r ⟨after before s, m ++ d.rest⟩ d := by
  induction text generalizing before n with
  | nil =>
    obtain ⟨d, hd, heq⟩ := Option.map_eq_some_iff.1 h
    cases heq
    obtain ⟨htext, hmatch⟩ := between_of_try hd
    exact ⟨[], d, htext, rfl, by rw [← htext]; exact hmatch⟩
  | cons x xs ih =>
    rw [firstMatch] at h
    split at h
    · next d hd =>
      cases h
      obtain ⟨htext, hmatch⟩ := between_of_try hd
      exact ⟨[], d, htext, rfl, by rw [← htext]; exact hmatch⟩
    · obtain ⟨⟨k, m'⟩, hrest, heq⟩ := Option.map_eq_some_iff.1 h
      cases heq
      obtain ⟨s, d, hxs, hlen, hmatch⟩ := ih hrest
      exact ⟨x :: s, d, by rw [hxs]; rfl, by rw [List.length_cons, hlen], hmatch⟩

/-- Where the pattern matches somewhere there is a first match, and none begins before it. -/
theorem firstMatch_le (hst : text = s ++ t) (h : Matches r ⟨after before s, t⟩ d) :
    ∃ n m, firstMatch r before text = some (n, m) ∧ n ≤ s.length := by
  induction text generalizing before s with
  | nil =>
    obtain ⟨rfl, rfl⟩ := List.append_eq_nil_iff.1 hst.symm
    have hin : d ∈ tries r ⟨before, []⟩ := mem_tries_iff.2 h
    obtain ⟨e, he⟩ := Option.isSome_iff_exists.1
      (List.isSome_head?.2 (List.ne_nil_of_mem hin))
    exact ⟨0, _, by rw [firstMatch, he]; rfl, Nat.zero_le _⟩
  | cons x xs ih =>
    rw [firstMatch]
    cases hhead : (tries r ⟨before, x :: xs⟩).head? with
    | some e => exact ⟨0, _, rfl, Nat.zero_le _⟩
    | none =>
      cases s with
      | nil =>
        rw [List.nil_append] at hst
        rw [List.head?_eq_none_iff] at hhead
        have hin : d ∈ tries r ⟨before, x :: xs⟩ := mem_tries_iff.2 (hst ▸ h)
        rw [hhead] at hin
        cases hin
      | cons y s =>
        obtain ⟨rfl, rfl⟩ := List.cons.inj hst
        obtain ⟨k, m, hk, hle⟩ := ih rfl h
        refine ⟨k + 1, m, ?_, Nat.succ_le_succ hle⟩
        simp only [hk, Option.map_some]

theorem firstMatch_occurs (h : firstMatch r none text = some (n, m)) :
    ∃ s, s.length = n ∧ Occurs r text s m := by
  obtain ⟨s, d, htext, hlen, hmatch⟩ := firstMatch_some h
  rw [after_eq_getLast?, Option.or_none] at hmatch
  exact ⟨s, hlen, d, htext, hmatch⟩

theorem Occurs.firstMatch (h : Occurs r text s m) :
    ∃ k u, firstMatch r none text = some (k, u) ∧ k ≤ s.length := by
  obtain ⟨d, htext, hmatch⟩ := h
  apply firstMatch_le htext
  rw [after_eq_getLast?, Option.or_none]
  exact hmatch

end TrustCopilot.RegexSearch
