import TrustCopilot.Library.TextLines

/-! Texts as paragraphs. A break between two paragraphs is a run of at least two line breaks;
the text that is put together from paragraphs comes apart into them again. -/
namespace TrustCopilot.Paragraphs

open TrustCopilot.PyText
open TrustCopilot.TextLines

/-- `re.split(r"\n{2,}", text)`, in the middle of a break or not. -/
def splitFrom : Bool → List Char → List (List Char)
  | _, [] => [[]]
  | true, '\n' :: t => splitFrom true t
  | false, '\n' :: t =>
    if t.head? = some '\n' then [] :: splitFrom true t
    else (splitFrom false t).modifyHead ('\n' :: ·)
  | _, c :: t => (splitFrom false t).modifyHead (c :: ·)

def splitParagraphs (t : List Char) : List (List Char) := splitFrom false t

def IsBreak (s : List Char) : Prop := 2 ≤ s.length ∧ ∀ c ∈ s, c = '\n'

inductive Pieces : List Char → List (List Char) → Prop
  | last (p : List Char) : Pieces p [p]
  | more (p : List Char) {s t : List Char} {ps : List (List Char)} (hs : IsBreak s)
    (ht : Pieces t ps) : Pieces (p ++ (s ++ t)) (p :: ps)

theorem splitFrom_char {c : Char} (hc : c ≠ '\n') (inBreak : Bool) (t : List Char) :
    splitFrom inBreak (c :: t) = (splitFrom false t).modifyHead (c :: ·) := by
  rw [splitFrom] <;> simp [hc]

theorem Pieces.cons (c : Char) {t : List Char} {ps : List (List Char)} (h : Pieces t ps) :
    Pieces (c :: t) (ps.modifyHead (c :: ·)) := by
  cases h with
  | last => exact .last (c :: t)
  | more p hs ht => exact .more (c :: p) hs ht

theorem pieces_splitFrom (t : List Char) :
    Pieces t (splitFrom false t) ∧
      Pieces (t.dropWhile (· = '\n')) (splitFrom true t) := by
  induction t with
  | nil => exact ⟨.last [], .last []⟩
  | cons c t ih =>
    by_cases hc : c = '\n'
    · subst hc
      refine ⟨?_, by simpa [splitFrom] using ih.2⟩
      rw [splitFrom]
      split
      · next hhead =>
        have hbreak : IsBreak ('\n' :: t.takeWhile (· = '\n')) := by
          constructor
          · cases t with
            | nil => cases hhead
            | cons x t =>
              rw [Option.some.inj hhead]
              simp
          · intro x hx
            rcases List.mem_cons.1 hx with rfl | hx
            · rfl
            · simpa using List.mem_takeWhile_imp hx
        have hpieces := Pieces.more [] hbreak ih.2
        rwa [List.nil_append, List.cons_append, List.takeWhile_append_dropWhile] at hpieces
      · exact .cons '\n' ih.1
    · rw [splitFrom_char hc, splitFrom_char hc, List.dropWhile_cons_of_neg (by simpa using hc)]
      exact ⟨.cons c ih.1, .cons c ih.1⟩

theorem pieces_splitParagraphs (t : List Char) : Pieces t (splitParagraphs t) :=
  (pieces_splitFrom t).1

/-! ### Taking the text apart again -/

/-- A paragraph without a break in it and without white space around it. -/
structure Paragraph (p : List Char) : Prop where
  nonempty : p ≠ []
  solid : Solid p
  unbroken : ¬ ['\n', '\n'] <:+: p

/-- `"\n\n".join(parts)` -/
def joinParagraphs (parts : List (List Char)) : List Char := ['\n', '\n'].intercalate parts

theorem joinParagraphs_one (p : List Char) : joinParagraphs [p] = p := List.intercalate_singleton

theorem joinParagraphs_cons (p q : List Char) (parts : List (List Char)) :
    joinParagraphs (p :: q :: parts) = p ++ (['\n', '\n'] ++ joinParagraphs (q :: parts)) := by
  rw [joinParagraphs, List.intercalate_cons_cons, List.append_assoc, joinParagraphs]

theorem splitFrom_alone {p : List Char} (h : ¬ ['\n', '\n'] <:+: p) : splitFrom false p = [p] := by
  induction p with
  | nil => rfl
  | cons c p ih =>
    have hp := ih fun hin => h (hin.trans (List.suffix_cons c p).isInfix)
    by_cases hc : c = '\n'
    · subst hc
      have hhead : p.head? ≠ some '\n' := by
        intro hhead
        obtain ⟨q, rfl⟩ := List.head?_eq_some_iff.1 hhead
        exact h (List.prefix_append ['\n', '\n'] q).isInfix
      rw [splitFrom, if_neg hhead, hp]
      rfl
    · rw [splitFrom_char hc, hp]
      rfl

theorem splitFrom_break {p rest : List Char} (h : ¬ ['\n', '\n'] <:+: p)
    (hend : p.getLast? ≠ some '\n') (hrest : rest.head? ≠ some '\n') :
    splitFrom false (p ++ '\n' :: '\n' :: rest) = p :: splitFrom false rest := by
  induction p with
  | nil =>
    have hstart : splitFrom true ('\n' :: rest) = splitFrom false rest := by
      cases rest with
      | nil => rfl
      | cons c rest =>
        have hc : c ≠ '\n' := fun he => hrest (congrArg some he)
        rw [splitFrom, splitFrom_char hc, splitFrom_char hc]
    rw [List.nil_append, splitFrom, List.head?_cons, if_pos rfl, hstart]
  | cons c p ih =>
    have hp : splitFrom false (p ++ '\n' :: '\n' :: rest) = p :: splitFrom false rest := by
      apply ih
      · exact fun hin => h (hin.trans (List.suffix_cons c p).isInfix)
      · intro hlast
        rw [List.getLast?_cons, hlast] at hend
        exact hend rfl
    by_cases hc : c = '\n'
    · subst hc
      cases p with
      | nil => exact absurd rfl hend
      | cons x p =>
        have hx : (x :: p ++ '\n' :: '\n' :: rest).head? ≠ some '\n' := by
          intro hhead
          rw [Option.some.inj hhead] at h
          exact h (List.prefix_append ['\n', '\n'] p).isInfix
        rw [List.cons_append, splitFrom, if_neg hx, hp]
        rfl
    · rw [List.cons_append, splitFrom_char hc, hp]
      rfl

theorem Paragraph.ends_ne {p : List Char} (h : Paragraph p) :
    p.head? ≠ some '\n' ∧ p.getLast? ≠ some '\n' := by
  constructor
  · intro he
    have hspace := h.solid.front _ he
    rw [isSpace_lf] at hspace
    cases hspace
  · intro he
    have hspace := h.solid.back _ he
    rw [isSpace_lf] at hspace
    cases hspace

theorem head?_joinParagraphs {p : List Char} (hp : Paragraph p) (parts : List (List Char)) :
    (joinParagraphs (p :: parts)).head? = p.head? := by
  cases parts with
  | nil => rw [joinParagraphs_one]
  | cons q parts => rw [joinParagraphs_cons, List.head?_append_of_ne_nil p hp.nonempty]

/-- What is joined comes apart again. -/
theorem splitParagraphs_join {parts : List (List Char)} (hne : parts ≠ [])
    (h : ∀ p ∈ parts, Paragraph p) : splitParagraphs (joinParagraphs parts) = parts := by
  induction parts with
  | nil => exact absurd rfl hne
  | cons p parts ih =>
    have hp := h p List.mem_cons_self
    cases parts with
    | nil =>
      rw [joinParagraphs_one]
      exact splitFrom_alone hp.unbroken
    | cons q parts =>
      have hq := h q (List.mem_cons_of_mem p List.mem_cons_self)
      have hrest : (joinParagraphs (q :: parts)).head? ≠ some '\n' := by
        rw [head?_joinParagraphs hq]
        exact hq.ends_ne.1
      have hcut := splitFrom_break hp.unbroken hp.ends_ne.2 hrest
      rw [joinParagraphs_cons]
      exact hcut.trans (congrArg (p :: ·) (ih (List.cons_ne_nil q parts)
        fun x hx => h x (List.mem_cons_of_mem p hx)))

theorem unbroken_cons {c : Char} {p : List Char} (hp : ¬ ['\n', '\n'] <:+: p)
    (h : c ≠ '\n' ∨ p.head? ≠ some '\n') : ¬ ['\n', '\n'] <:+: c :: p := by
  rw [List.infix_cons_iff]
  rintro (hpre | hin)
  · obtain ⟨rest, hrest⟩ := hpre
    obtain ⟨rfl, rfl⟩ := List.cons.inj hrest
    exact h.elim (fun hc => hc rfl) fun hhead => hhead rfl
  · exact hp hin

theorem unbroken_modifyHead {c : Char} {ps : List (List Char)}
    (hps : ∀ p ∈ ps, ¬ ['\n', '\n'] <:+: p)
    (h : c ≠ '\n' ∨ ∀ p ∈ ps.head?, p.head? ≠ some '\n') :
    ∀ p ∈ ps.modifyHead (c :: ·), ¬ ['\n', '\n'] <:+: p := by
  cases ps with
  | nil => exact hps
  | cons first ps =>
    intro p hp
    rcases List.mem_cons.1 hp with rfl | hp
    · exact unbroken_cons (hps first List.mem_cons_self) (h.imp_right fun hhead => hhead first rfl)
    · exact hps p (List.mem_cons_of_mem first hp)

theorem unbroken_splitFrom (t : List Char) (inBreak : Bool) :
    ∀ p ∈ splitFrom inBreak t, ¬ ['\n', '\n'] <:+: p := by
  have hnil : ¬ ['\n', '\n'] <:+: ([] : List Char) := by simp
  induction t generalizing inBreak with
  | nil =>
    intro p hp
    rw [splitFrom, List.mem_singleton] at hp
    rw [hp]
    exact hnil
  | cons c t ih =>
    by_cases hc : c = '\n'
    · subst hc
      cases inBreak with
      | true => exact ih true
      | false =>
        rw [splitFrom]
        split
        · intro p hp
          rcases List.mem_cons.1 hp with rfl | hp
          · exact hnil
          · exact ih true p hp
        · next hhead =>
          refine unbroken_modifyHead (ih false) (Or.inr ?_)
          intro p hp
          cases t with
          | nil =>
            rw [← Option.some.inj hp]
            exact nofun
          | cons x t =>
            have hx : x ≠ '\n' := fun he => hhead (congrArg some he)
            rw [splitFrom_char hx, List.head?_modifyHead, Option.mem_def,
              Option.map_eq_some_iff] at hp
            obtain ⟨q, -, rfl⟩ := hp
            exact fun he => hx (Option.some.inj he)
    · rw [splitFrom_char hc]
      exact unbroken_modifyHead (ih false) (Or.inl hc)

/-- The stripped text of a piece, unless it is empty, is a paragraph. -/
theorem paragraph_of_piece {t p : List Char} (hp : p ∈ splitParagraphs t)
    (hne : stripChars p ≠ []) : Paragraph (stripChars p) where
  nonempty := hne
  solid := stripChars_solid p
  unbroken := by
    intro hin
    obtain ⟨a, z, hparts, -, -⟩ := stripChars_split p
    have hmid : stripChars p <:+: p := ⟨a, z, by rw [List.append_assoc, ← hparts]⟩
    exact unbroken_splitFrom t false p hp (hin.trans hmid)

theorem prefix_joinParagraphs {p : List Char} {parts : List (List Char)}
    (h : p ∈ parts.head?) : p <+: joinParagraphs parts := by
  obtain ⟨rest, rfl⟩ := List.head?_eq_some_iff.1 h
  cases rest with
  | nil => exact ⟨[], by rw [joinParagraphs_one, List.append_nil]⟩
  | cons q rest =>
    rw [joinParagraphs_cons]
    exact List.prefix_append _ _

theorem suffix_joinParagraphs {p : List Char} {parts : List (List Char)}
    (h : p ∈ parts.getLast?) : p <:+ joinParagraphs parts := by
  induction parts with
  | nil => cases h
  | cons first parts ih =>
    cases parts with
    | nil =>
      have hp : first = p := Option.some.inj h
      exact ⟨[], by rw [joinParagraphs_one, List.nil_append, hp]⟩
    | cons q parts =>
      rw [joinParagraphs_cons, ← List.append_assoc]
      exact (ih h).trans (List.suffix_append _ _)

/-! ### Where the paragraphs stand -/

/-- The text is white space and the paragraphs in between, and the white space between two of
them has a break in it. -/
inductive Layout : List Char → List (List Char) → Prop
  | blank {t : List Char} (ht : ∀ c ∈ t, isSpace c = true) : Layout t []
  | item {w x r : List Char} {xs : List (List Char)} (hw : ∀ c ∈ w, isSpace c = true)
    (hx : x ≠ []) (hsolid : Solid x) (hr : Layout r xs)
    (hbreak : xs ≠ [] → ['\n', '\n'] <:+: r.takeWhile isSpace) :
    Layout (w ++ (x ++ r)) (x :: xs)

theorem layout_behind {w t : List Char} {xs : List (List Char)}
    (hw : ∀ c ∈ w, isSpace c = true) (h : Layout t xs) : Layout (w ++ t) xs := by
  cases h with
  | blank ht => exact .blank (blank_append hw ht)
  | item hv hx hsolid hr hbreak =>
    rw [← List.append_assoc]
    exact .item (blank_append hw hv) hx hsolid hr hbreak

/-- The stripped pieces of a text, without the empty ones, and where they stand. -/
theorem layout_pieces {t : List Char} {ps : List (List Char)} (h : Pieces t ps) :
    Layout t ((ps.map stripChars).filter (· ≠ [])) := by
  induction h with
  | last p =>
    obtain ⟨a, z, hp, ha, hz⟩ := stripChars_split p
    by_cases hne : stripChars p = []
    · rw [hne, List.nil_append] at hp
      rw [List.map_singleton, List.filter_cons_of_neg (by simpa using hne), hp]
      exact .blank (blank_append ha hz)
    · rw [List.map_singleton, List.filter_cons_of_pos (by simpa using hne)]
      have hitem := Layout.item ha hne (stripChars_solid p) (.blank hz) fun h => absurd rfl h
      rwa [← hp] at hitem
  | @more p s t ps hs ht ih =>
    obtain ⟨a, z, hp, ha, hz⟩ := stripChars_split p
    have hblank : ∀ c ∈ s, isSpace c = true := fun c hc => hs.2 c hc ▸ isSpace_lf
    have hbehind : Layout (z ++ (s ++ t)) ((ps.map stripChars).filter (· ≠ [])) :=
      layout_behind hz (layout_behind hblank ih)
    rw [List.map_cons]
    by_cases hne : stripChars p = []
    · rw [hne, List.nil_append] at hp
      rw [List.filter_cons_of_neg (by simpa using hne), hp, List.append_assoc]
      exact layout_behind ha hbehind
    · rw [List.filter_cons_of_pos (by simpa using hne)]
      have hbreak : ['\n', '\n'] <:+: (z ++ (s ++ t)).takeWhile isSpace := by
        obtain ⟨n, hn⟩ : ∃ n, s.length = n + 2 := ⟨s.length - 2, by have := hs.1; omega⟩
        have hrun : s = ['\n', '\n'] ++ List.replicate n '\n' := by
          have hrep : s = List.replicate (n + 2) '\n' := List.eq_replicate_iff.2 ⟨hn, hs.2⟩
          rw [hrep]
          rfl
        rw [List.takeWhile_append_of_pos hz, List.takeWhile_append_of_pos hblank, hrun]
        exact ⟨z, List.replicate n '\n' ++ t.takeWhile isSpace, by simp⟩
      have hitem := Layout.item ha hne (stripChars_solid p) hbehind fun _ => hbreak
      have htext : a ++ (stripChars p ++ (z ++ (s ++ t))) = p ++ (s ++ t) := by
        conv_rhs => rw [hp]
        simp only [List.append_assoc]
      rwa [htext] at hitem

end TrustCopilot.Paragraphs
