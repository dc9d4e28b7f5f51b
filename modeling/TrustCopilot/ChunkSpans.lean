import TrustCopilot.ChunkSections

/-! The character offsets of the chunks. They are counted from the chunks' own texts, without
what lies between these in the page: they are right for a page that is one chunk. -/
namespace TrustCopilot.ChunkSpans

open TrustCopilot.PyText
open TrustCopilot.TextLines
open TrustCopilot.Paragraphs
open TrustCopilot.Extractor
open TrustCopilot.ChunkSections

/-- `text[c.char_offset_start : c.char_offset_end]` -/
def spanText (text : String) (c : TextChunk) : List Char :=
  (text.toList.take c.charOffsetEnd).drop c.charOffsetStart

/-- The span of the chunk cites its paragraphs. -/
structure Cited (text : String) (c : TextChunk) : Prop where
  first : ∀ p ∈ (chunkParagraphs c).head?, p.toList <+: spanText text c
  last : ∀ p ∈ (chunkParagraphs c).getLast?, p.toList <:+ spanText text c
  single : (chunkParagraphs c).length = 1 → spanText text c = c.text.toList

/-- Stripped paragraphs with the places where they stand, each behind the white space that
follows the one before it. -/
def placed : ℕ → List Char → List String → List (String × ℕ)
  | _, _, [] => []
  | n, t, p :: ps =>
    let start := n + (t.takeWhile isSpace).length
    (p, start) :: placed (start + p.length) ((t.dropWhile isSpace).drop p.length) ps

def placedBodies (upper : Char → Bool) (text : String) : List (String × ℕ) :=
  (placed 0 text.toList (contents text)).filter fun x => !isHeading upper x.1

def RealSpans : List TextChunk → List (String × ℕ) → Prop
  | [], _ => True
  | c :: cs, ps =>
    (∀ p ∈ (ps.take (chunkParagraphs c).length).head?, c.charOffsetStart = p.2) ∧
    (∀ p ∈ (ps.take (chunkParagraphs c).length).getLast?,
      c.charOffsetEnd = p.2 + p.1.length) ∧
    RealSpans cs (ps.drop (chunkParagraphs c).length)

/-- The text begins with its body paragraphs, an empty line between any two of them and no
heading above the last, and they fit into one chunk. -/
structure InPlace (upper : Char → Bool) (maxChunkChars : ℤ) (text : String) : Prop where
  front : bodies upper text <+: contents text
  together : (joinParagraphs ((bodies upper text).map String.toList)) <+: text.toList
  fits : (bodies upper text).dropLast = [] ∨
    (chars (bodies upper text).dropLast : ℤ) < maxChunkChars

example : InPlace (fun _ => false) 2000 "We encrypt data.\n\nWe run audits.\n\nContact" :=
  ⟨by decide +kernel, by decide +kernel, Or.inr (by decide +kernel)⟩

variable {upper : Char → Bool} {method : String} {maxChunkChars : ℤ} {title : Option String}
  {parts ps hs : List String} {text : String} {n : ℕ} {t : List Char}

/-! ### The places of the paragraphs -/

theorem map_placed (n : ℕ) (t : List Char) (ps : List String) :
    (placed n t ps).map Prod.fst = ps := by
  induction ps generalizing n t with
  | nil => rfl
  | cons p ps ih => rw [placed, List.map_cons, ih]

theorem placed_append (n : ℕ) (t : List Char) (ps hs : List String) :
    ∃ rest, placed n t (ps ++ hs) = placed n t ps ++ rest ∧ rest.map Prod.fst = hs := by
  induction ps generalizing n t with
  | nil => exact ⟨placed n t hs, rfl, map_placed n t hs⟩
  | cons p ps ih =>
    obtain ⟨rest, hrest, hfst⟩ := ih (n + (t.takeWhile isSpace).length + p.length)
      ((t.dropWhile isSpace).drop p.length)
    refine ⟨rest, ?_, hfst⟩
    rw [List.cons_append, placed, hrest, placed, List.cons_append]

theorem takeWhile_solid {w x r : List Char} (hw : ∀ c ∈ w, isSpace c = true) (hx : x ≠ [])
    (hsolid : Solid x) :
    (w ++ (x ++ r)).takeWhile isSpace = w ∧ (w ++ (x ++ r)).dropWhile isSpace = x ++ r := by
  obtain ⟨c, x, rfl⟩ := List.exists_cons_of_ne_nil hx
  have hc : isSpace c = false := hsolid.front c rfl
  rw [List.takeWhile_append_of_pos hw, List.dropWhile_append_of_pos hw, List.cons_append,
    List.takeWhile_cons_of_neg (by simp [hc]), List.dropWhile_cons_of_neg (by simp [hc]),
    List.append_nil]
  exact ⟨rfl, rfl⟩

theorem placed_item {w r : List Char} {p : String} (hw : ∀ c ∈ w, isSpace c = true)
    (hp : p.toList ≠ []) (hsolid : Solid p.toList) (n : ℕ) (ps : List String) :
    placed n (w ++ (p.toList ++ r)) (p :: ps) =
      (p, n + w.length) :: placed (n + w.length + p.length) r ps := by
  obtain ⟨htake, hdrop⟩ := @takeWhile_solid w _ r hw hp hsolid
  rw [placed, htake, hdrop, ← String.length_toList, List.drop_left]

theorem placed_skip {w : List Char} (hw : ∀ c ∈ w, isSpace c = true) (n : ℕ) (t : List Char)
    (p : String) (ps : List String) :
    placed n (w ++ t) (p :: ps) = placed (n + w.length) t (p :: ps) := by
  rw [placed, placed, List.takeWhile_append_of_pos hw, List.dropWhile_append_of_pos hw,
    List.length_append]
  simp only [Nat.add_assoc]

theorem layout_cons {p : String} (h : Layout t ((p :: ps).map String.toList)) :
    ∃ w r, t = w ++ (p.toList ++ r) ∧ (∀ c ∈ w, isSpace c = true) ∧ p.toList ≠ [] ∧
      Solid p.toList ∧ Layout r (ps.map String.toList) ∧
      (ps ≠ [] → ['\n', '\n'] <:+: r.takeWhile isSpace) := by
  rw [List.map_cons] at h
  cases h with
  | item hw hx hsolid hr hbreak =>
    exact ⟨_, _, rfl, hw, hx, hsolid, hr, fun hne => hbreak (by simpa using hne)⟩

theorem placed_ge {x : String × ℕ} (hx : x ∈ placed n t ps) :
    n + (t.takeWhile isSpace).length ≤ x.2 := by
  induction ps generalizing n t with
  | nil => cases hx
  | cons p ps ih =>
    rcases List.mem_cons.1 hx with rfl | hx
    · exact Nat.le_refl _
    · have hle := ih hx
      omega

theorem placed_real (h : Layout t (ps.map String.toList)) {x : String × ℕ}
    (hx : x ∈ placed n t ps) : x.1.toList <+: t.drop (x.2 - n) := by
  induction ps generalizing n t with
  | nil => cases hx
  | cons p ps ih =>
    obtain ⟨w, r, rfl, hw, hp, hsolid, hr, -⟩ := layout_cons h
    rw [placed_item hw hp hsolid] at hx
    rcases List.mem_cons.1 hx with rfl | hx
    · rw [Nat.add_sub_cancel_left, List.drop_left]
      exact List.prefix_append _ _
    · have hge := placed_ge hx
      have hdrop : x.2 - n = w.length + (p.length + (x.2 - (n + w.length + p.length))) := by omega
      have hitem : (p.toList ++ r).drop p.length = r := by
        rw [← String.length_toList, List.drop_left]
      rw [hdrop, ← List.drop_drop, List.drop_left, ← List.drop_drop, hitem]
      exact ih hr hx

theorem placed_pairwise (h : Layout t (ps.map String.toList)) (n : ℕ) :
    (placed n t ps).Pairwise fun a b => a.2 + a.1.length < b.2 := by
  induction ps generalizing n t with
  | nil => exact .nil
  | cons p ps ih =>
    obtain ⟨w, r, rfl, hw, hp, hsolid, hr, hbreak⟩ := layout_cons h
    rw [placed_item hw hp hsolid]
    refine .cons (fun x hx => ?_) (ih hr _)
    have hne : ps ≠ [] := by
      rintro rfl
      cases hx
    have hgap := (hbreak hne).length_le
    have hge := placed_ge hx
    simp only [List.length_cons, List.length_nil] at hgap ⊢
    omega

theorem length_joinParagraphs (p q : String) (ps : List String) :
    (joinParagraphs ((p :: q :: ps).map String.toList)).length =
      p.length + 2 + (joinParagraphs ((q :: ps).map String.toList)).length := by
  rw [List.map_cons, List.map_cons, joinParagraphs_cons, List.length_append, List.length_append,
    String.length_toList, Nat.add_assoc]
  rfl

/-- The paragraphs take at least the room they take when they are joined, and just that room
only if they stand as when they are joined. -/
theorem placed_tight (h : Layout t ((ps ++ hs).map String.toList)) (hne : ps ≠ []) (n : ℕ) :
    ∀ x ∈ (placed n t ps).getLast?,
      n + (t.takeWhile isSpace).length + (joinParagraphs (ps.map String.toList)).length ≤
        x.2 + x.1.length ∧
      (x.2 + x.1.length =
          n + (t.takeWhile isSpace).length + (joinParagraphs (ps.map String.toList)).length →
        joinParagraphs (ps.map String.toList) <+: t.dropWhile isSpace) := by
  induction ps generalizing n t with
  | nil => exact absurd rfl hne
  | cons p ps ih =>
    rw [List.cons_append] at h
    obtain ⟨w, r, rfl, hw, hp, hsolid, hr, hbreak⟩ := layout_cons h
    obtain ⟨htake, hdrop⟩ := @takeWhile_solid w _ r hw hp hsolid
    rw [placed_item hw hp hsolid, htake, hdrop]
    cases ps with
    | nil =>
      intro x hx
      rw [← Option.some.inj hx]
      rw [List.map_singleton, joinParagraphs_one, String.length_toList]
      exact ⟨Nat.le_refl _, fun _ => List.prefix_append _ _⟩
    | cons q ps =>
      intro x hx
      have hlast : x ∈ (placed (n + w.length + p.length) r (q :: ps)).getLast? := by
        rw [placed] at hx ⊢
        exact hx
      obtain ⟨hle, htight⟩ := ih hr (List.cons_ne_nil q ps) _ x hlast
      have hin := hbreak (List.cons_ne_nil q _)
      have hgap := hin.length_le
      simp only [List.length_cons, List.length_nil] at hgap
      rw [length_joinParagraphs]
      refine ⟨by omega, fun he => ?_⟩
      -- no room is left for more than the two line breaks
      have htwo : (r.takeWhile isSpace).length = 2 := by omega
      have hlf : ['\n', '\n'] = r.takeWhile isSpace := hin.eq_of_length htwo.symm
      obtain ⟨rest, hrest⟩ := htight (by omega)
      refine ⟨rest, ?_⟩
      rw [← List.takeWhile_append_dropWhile (p := isSpace) (l := r), ← hlf, ← hrest,
        List.map_cons, List.map_cons, joinParagraphs_cons]
      simp only [List.append_assoc]

theorem placed_joined (hne : parts ≠ []) (h : ∀ p ∈ parts, Paragraph p.toList) (n : ℕ)
    (rest : List Char) :
    (∀ x ∈ (placed n (joinParagraphs (parts.map String.toList) ++ rest) parts).head?, x.2 = n) ∧
    ∀ x ∈ (placed n (joinParagraphs (parts.map String.toList) ++ rest) parts).getLast?,
      x.2 + x.1.length = n + (joinParagraphs (parts.map String.toList)).length := by
  have hnone : ∀ c ∈ ([] : List Char), isSpace c = true := fun c hc => nomatch hc
  induction parts generalizing n with
  | nil => exact absurd rfl hne
  | cons p parts ih =>
    have hp := h p List.mem_cons_self
    cases parts with
    | nil =>
      have hplaced := @placed_item [] rest p hnone hp.nonempty hp.solid n []
      rw [List.nil_append] at hplaced
      rw [List.map_singleton, joinParagraphs_one, hplaced, String.length_toList]
      constructor
      · intro x hx
        rw [← Option.some.inj hx]
        rfl
      · intro x hx
        rw [← Option.some.inj hx]
        rfl
    | cons q parts =>
      have hbreak : ∀ c ∈ ['\n', '\n'], isSpace c = true := by simp [isSpace_lf]
      have hjoin : joinParagraphs ((p :: q :: parts).map String.toList) ++ rest =
          [] ++ (p.toList ++ (['\n', '\n'] ++
            (joinParagraphs ((q :: parts).map String.toList) ++ rest))) := by
        rw [List.map_cons, List.map_cons, joinParagraphs_cons]
        simp only [List.append_assoc, List.nil_append]
      rw [hjoin, placed_item hnone hp.nonempty hp.solid, placed_skip hbreak,
        length_joinParagraphs]
      obtain ⟨-, hlast⟩ := ih (List.cons_ne_nil q parts)
        (fun x hx => h x (List.mem_cons_of_mem p hx)) (n + 0 + p.length + 2)
      constructor
      · intro x hx
        rw [← Option.some.inj hx]
        rfl
      · intro x hx
        rw [hlast x hx]
        omega

/-! ### A page that is one chunk -/

theorem map_contents (pieces : List (List Char)) :
    (((pieces.map String.ofList).map strip).filter (· ≠ "")).map String.toList =
      (pieces.map stripChars).filter (· ≠ []) := by
  induction pieces with
  | nil => rfl
  | cons p pieces ih =>
    have hstrip : strip (String.ofList p) = String.ofList (stripChars p) := by
      rw [strip, String.toList_ofList]
    rw [List.map_cons, List.map_cons, List.map_cons, hstrip]
    by_cases hp : stripChars p = []
    · have hempty : String.ofList (stripChars p) = "" := by rw [hp]
      rw [List.filter_cons_of_neg (by simpa using hempty),
        List.filter_cons_of_neg (by simpa using hp), ih]
    · have hne : String.ofList (stripChars p) ≠ "" := by
        intro he
        have hlist := congrArg String.toList he
        rw [String.toList_ofList] at hlist
        exact hp hlist
      rw [List.filter_cons_of_pos (by simpa using hne), List.map_cons, String.toList_ofList, ih,
        List.filter_cons_of_pos (by simpa using hp)]

theorem layout_contents (text : String) :
    Layout text.toList ((contents text).map String.toList) := by
  rw [contents, paragraphs, map_contents]
  exact layout_pieces (pieces_splitParagraphs _)

theorem bodies_body {p : String} (h : p ∈ bodies upper text) : isHeading upper p = false := by
  simpa using (List.mem_filter.1 h).2

/-- Without a heading above the last body paragraph only headings come behind it. -/
theorem below_headings {below : List String} (h : bodies upper text ++ below = contents text) :
    ∀ p ∈ below, isHeading upper p = true := by
  have hall : (bodies upper text ++ below).filter (fun p => !isHeading upper p) =
      bodies upper text := by rw [h, bodies]
  rw [List.filter_append, filter_bodies fun p => bodies_body, List.append_right_eq_self] at hall
  intro p hp
  simpa using List.filter_eq_nil_iff.1 hall p hp

theorem placedBodies_front {below : List String}
    (h : bodies upper text ++ below = contents text) :
    placedBodies upper text = placed 0 text.toList (bodies upper text) := by
  obtain ⟨rest, hrest, hfst⟩ := placed_append 0 text.toList (bodies upper text) below
  have hkeep : ∀ x ∈ placed 0 text.toList (bodies upper text),
      (!isHeading upper x.1) = true := by
    intro x hx
    have hmem := List.mem_map_of_mem (f := Prod.fst) hx
    rw [map_placed] at hmem
    rw [bodies_body hmem]
    rfl
  have hdrop : ∀ x ∈ rest, ¬ (!isHeading upper x.1) = true := by
    intro x hx
    have hmem := List.mem_map_of_mem (f := Prod.fst) hx
    rw [hfst] at hmem
    simp [below_headings h _ hmem]
  rw [placedBodies, ← h, hrest, List.filter_append, List.filter_eq_self.2 hkeep,
    List.filter_eq_nil_iff.2 hdrop, List.append_nil]

theorem blocksFrom_headings (h : ∀ p ∈ ps, isHeading upper p = true) :
    blocksFrom upper maxChunkChars title parts ps = closed title parts := by
  induction ps generalizing title parts with
  | nil => rfl
  | cons p ps ih =>
    have hnone : closed (some p) [] = [] := rfl
    rw [blocksFrom, if_pos (h p List.mem_cons_self),
      ih fun q hq => h q (List.mem_cons_of_mem p hq), hnone, List.append_nil]

theorem blocksFrom_single (hbodies : ∀ p ∈ ps, isHeading upper p = false)
    (hbelow : ∀ p ∈ hs, isHeading upper p = true) (hne : parts ++ ps ≠ [])
    (hfits : (parts ++ ps).dropLast = [] ∨ (chars (parts ++ ps).dropLast : ℤ) < maxChunkChars) :
    blocksFrom upper maxChunkChars title parts (ps ++ hs) = [⟨title, parts ++ ps⟩] := by
  induction ps generalizing parts with
  | nil =>
    rw [List.append_nil] at hne ⊢
    rw [List.nil_append, blocksFrom_headings hbelow, closed_of_ne_nil hne]
  | cons p ps ih =>
    have hp := hbodies p List.mem_cons_self
    have hcons : parts ++ p :: ps = (parts ++ [p]) ++ ps := by simp
    have hopen : parts ++ [p] ≠ [] := by simp
    rw [hcons] at hne hfits ⊢
    rw [List.cons_append, blocksFrom, if_neg (by simp [hp])]
    split
    · next hfull =>
      have hnil : ps = [] := by
        by_contra hps
        rw [List.dropLast_append_of_ne_nil hps] at hfits
        have hlt := hfits.resolve_left (by simp)
        rw [chars_append] at hlt
        push_cast at hlt
        omega
      rw [hnil, List.append_nil, List.nil_append, blocksFrom_headings hbelow,
        closed_of_ne_nil hopen]
      rfl
    · exact ih (fun q hq => hbodies q (List.mem_cons_of_mem p hq)) hne hfits

theorem inPlace_chunks (h : InPlace upper maxChunkChars text) (hne : bodies upper text ≠ []) :
    splitIntoChunks upper text method maxChunkChars =
      [(⟨none, bodies upper text⟩ : Block).chunk method 0 0] := by
  obtain ⟨below, hbelow⟩ := h.front
  have hsingle := @blocksFrom_single upper maxChunkChars none [] (bodies upper text) below
    (fun p => bodies_body) (below_headings hbelow) hne h.fits
  rw [hbelow, List.nil_append] at hsingle
  rw [splitIntoChunks_eq, blocks, hsingle, chunksOf, chunksOf]

theorem no_chunks (hnone : bodies upper text = []) :
    splitIntoChunks upper text method maxChunkChars = [] := by
  have hblocks := @blocks_bodies upper maxChunkChars text
  rw [hnone, List.flatMap_eq_nil_iff] at hblocks
  cases hb : blocks upper maxChunkChars text with
  | nil => rw [splitIntoChunks_eq, hb, chunksOf]
  | cons b bs =>
    have hmem : b ∈ blocks upper maxChunkChars text := hb ▸ List.mem_cons_self
    exact absurd (hblocks b hmem) (blocksFrom_nonempty hmem)

theorem bodies_paragraph {p : String} (h : p ∈ bodies upper text) : Paragraph p.toList :=
  contents_paragraph (List.mem_of_mem_filter h)

theorem text_single (upper : Char → Bool) (text : String) :
    (⟨none, bodies upper text⟩ : Block).text.toList =
      joinParagraphs ((bodies upper text).map String.toList) :=
  String.toList_intercalate

theorem inPlace_cited (h : InPlace upper maxChunkChars text) :
    ∀ c ∈ splitIntoChunks upper text method maxChunkChars, Cited text c := by
  by_cases hne : bodies upper text = []
  · rw [no_chunks hne]
    exact fun c hc => nomatch hc
  · rw [inPlace_chunks h hne]
    intro c hc
    rw [List.mem_singleton.1 hc]
    obtain ⟨rest, hrest⟩ := h.together
    have hparas : chunkParagraphs ((⟨none, bodies upper text⟩ : Block).chunk method 0 0) =
        bodies upper text := paragraphs_joined hne fun p => bodies_paragraph
    have hspan : spanText text ((⟨none, bodies upper text⟩ : Block).chunk method 0 0) =
        joinParagraphs ((bodies upper text).map String.toList) := by
      rw [spanText, Block.chunk, ← String.length_toList, text_single, Nat.zero_add, ← hrest,
        List.take_left, List.drop_zero]
    constructor
    · intro p hp
      rw [hparas] at hp
      rw [hspan]
      apply prefix_joinParagraphs
      rw [List.head?_map, Option.mem_def.1 hp]
      rfl
    · intro p hp
      rw [hparas] at hp
      rw [hspan]
      apply suffix_joinParagraphs
      rw [List.getLast?_map, Option.mem_def.1 hp]
      rfl
    · intro _
      rw [hspan]
      exact (text_single upper text).symm

theorem inPlace_realSpans (h : InPlace upper maxChunkChars text) :
    RealSpans (splitIntoChunks upper text method maxChunkChars) (placedBodies upper text) := by
  by_cases hne : bodies upper text = []
  · rw [no_chunks hne]
    trivial
  · obtain ⟨below, hbelow⟩ := h.front
    obtain ⟨rest, hrest⟩ := h.together
    obtain ⟨hfirst, hlast⟩ := @placed_joined (bodies upper text) hne
      (fun p => bodies_paragraph) 0 rest
    have hparas : chunkParagraphs ((⟨none, bodies upper text⟩ : Block).chunk method 0 0) =
        bodies upper text := paragraphs_joined hne fun p => bodies_paragraph
    have hall : (placedBodies upper text).take (bodies upper text).length =
        placed 0 (joinParagraphs ((bodies upper text).map String.toList) ++ rest)
          (bodies upper text) := by
      rw [placedBodies_front hbelow, hrest, List.take_of_length_le]
      rw [← List.length_map (f := Prod.fst), map_placed]
    rw [inPlace_chunks h hne, RealSpans, hparas, hall]
    refine ⟨?_, ?_, trivial⟩
    · intro x hx
      rw [hfirst x hx]
      rfl
    · intro x hx
      rw [hlast x hx, Block.chunk, ← text_single, String.length_toList]

theorem map_placedBodies (upper : Char → Bool) (text : String) :
    (placedBodies upper text).map Prod.fst = bodies upper text := by
  rw [placedBodies, bodies]
  conv_rhs => rw [← map_placed 0 text.toList (contents text)]
  rw [List.filter_map]
  rfl

theorem placedBodies_real {x : String × ℕ} (hx : x ∈ placedBodies upper text) :
    x.1.toList <+: text.toList.drop x.2 :=
  placed_real (layout_contents text) (List.mem_of_mem_filter hx)

theorem placedBodies_pairwise (upper : Char → Bool) (text : String) :
    (placedBodies upper text).Pairwise fun a b => a.2 + a.1.length < b.2 :=
  (placed_pairwise (layout_contents text) 0).filter _

/-! ### Real spans -/

/-- The first chunk begins at the start of the page only if its first paragraph stands there. -/
theorem starts_with_body {x : String × ℕ} (hx : x ∈ placedBodies upper text) (hzero : x.2 = 0) :
    text.toList.takeWhile isSpace = [] ∧
      ∀ p ∈ (contents text).head?, isHeading upper p = false := by
  obtain ⟨hmem, hbody⟩ := List.mem_filter.1 hx
  have hlayout := layout_contents text
  cases hc : contents text with
  | nil =>
    rw [hc] at hmem
    cases hmem
  | cons p ps =>
    rw [hc] at hmem hlayout
    obtain ⟨w, r, ht, hw, hp, hsolid, -, -⟩ := layout_cons hlayout
    rw [ht, placed_item hw hp hsolid] at hmem
    rw [ht, (takeWhile_solid hw hp hsolid).1]
    have hpos := List.length_pos_of_ne_nil hp
    rw [String.length_toList] at hpos
    rcases List.mem_cons.1 hmem with rfl | hmem
    · simp only at hzero hbody
      refine ⟨List.length_eq_zero_iff.1 (by omega), fun q hq => ?_⟩
      rw [← Option.some.inj hq]
      simpa using hbody
    · have hge := placed_ge hmem
      omega

theorem one_block {b : Block} {bs : List Block}
    (hblocks : blocks upper maxChunkChars text = b :: bs)
    (h : RealSpans (splitIntoChunks upper text method maxChunkChars) (placedBodies upper text)) :
    bs = [] := by
  have hparas : ∀ x ∈ b :: bs, paragraphs x.text = x.parts :=
    fun x hx => paragraphs_block (hblocks ▸ hx)
  have hlen : (placedBodies upper text).length =
      b.parts.length + (bs.flatMap (·.parts)).length := by
    rw [← List.length_map (f := Prod.fst), map_placedBodies, ← @blocks_bodies upper maxChunkChars,
      hblocks, List.flatMap_cons, List.length_append]
  cases bs with
  | nil => rfl
  | cons b' bs =>
    have hb : chunkParagraphs (b.chunk method 0 0) = b.parts := hparas b List.mem_cons_self
    have hb' : chunkParagraphs (b'.chunk method (0 + 1) (0 + b.text.length)) = b'.parts :=
      hparas b' (List.mem_cons_of_mem b List.mem_cons_self)
    have hpos : ∀ x ∈ b :: b' :: bs, 0 < x.parts.length := by
      intro x hx
      rw [← hblocks] at hx
      exact List.length_pos_of_ne_nil (blocksFrom_nonempty hx)
    have hpos₁ := hpos b List.mem_cons_self
    have hpos₂ := hpos b' (List.mem_cons_of_mem b List.mem_cons_self)
    rw [List.flatMap_cons, List.length_append] at hlen
    have htake : (placedBodies upper text).take b.parts.length ≠ [] := by
      intro hnil
      have hzero := congrArg List.length hnil
      rw [List.length_take, List.length_nil] at hzero
      omega
    have hdrop : ((placedBodies upper text).drop b.parts.length).take b'.parts.length ≠ [] := by
      intro hnil
      have hzero := congrArg List.length hnil
      rw [List.length_take, List.length_drop, List.length_nil] at hzero
      omega
    rw [splitIntoChunks_eq, hblocks, chunksOf, chunksOf, RealSpans, RealSpans, hb, hb'] at h
    obtain ⟨-, hlast, hfirst, -⟩ := h
    have hend := hlast _ (List.getLast?_eq_some_getLast htake)
    have hstart := hfirst _ (List.head?_eq_some_head hdrop)
    have hpairs := placedBodies_pairwise upper text
    rw [← List.take_append_drop b.parts.length (placedBodies upper text),
      List.pairwise_append] at hpairs
    have hlt := hpairs.2.2 _ (List.getLast_mem htake) _
      (List.mem_of_mem_take (List.head_mem hdrop))
    simp only [Block.chunk] at hend hstart
    omega

theorem front_of_single {b : Block} (hblocks : blocks upper maxChunkChars text = [b])
    (hhead : ∀ p ∈ (contents text).head?, isHeading upper p = false) :
    bodies upper text <+: contents text := by
  have hbodies := @blocks_bodies upper maxChunkChars text
  rw [hblocks, List.flatMap_cons, List.flatMap_nil, List.append_nil] at hbodies
  have hsplit : blocks upper maxChunkChars text = [] ++ b :: [] := hblocks
  obtain ⟨above, below, hcontents, habove, -⟩ :=
    blocksFrom_section (fun p hp => absurd hp List.not_mem_nil) hsplit
  rw [List.nil_append, hbodies] at hcontents
  have hnone : above = [] := by
    cases above with
    | nil => rfl
    | cons p above =>
      have hp : isHeading upper p = false := hhead p (by rw [hcontents]; rfl)
      rw [List.filter_cons_of_pos (by simp [hp])] at habove
      cases habove
  rw [hnone, List.nil_append] at hcontents
  exact ⟨below, hcontents.symm⟩

theorem together_of_tight (hfront : bodies upper text <+: contents text)
    (hblank : text.toList.takeWhile isSpace = []) {x : String × ℕ}
    (hx : x ∈ (placedBodies upper text).getLast?)
    (hend : (joinParagraphs ((bodies upper text).map String.toList)).length =
      x.2 + x.1.length) :
    joinParagraphs ((bodies upper text).map String.toList) <+: text.toList := by
  obtain ⟨below, hcontents⟩ := hfront
  have hlayout := layout_contents text
  rw [← hcontents] at hlayout
  rw [placedBodies_front hcontents] at hx
  have hne : bodies upper text ≠ [] := by
    intro hnil
    rw [hnil] at hx
    cases hx
  have hdrop : text.toList.dropWhile isSpace = text.toList := by
    conv_rhs => rw [← List.takeWhile_append_dropWhile (p := isSpace) (l := text.toList), hblank,
      List.nil_append]
  have htight := (placed_tight hlayout hne 0 x hx).2
  rw [hdrop, hblank] at htight
  exact htight (by rw [← hend]; simp)

theorem realSpans_inPlace
    (h : RealSpans (splitIntoChunks upper text method maxChunkChars) (placedBodies upper text)) :
    InPlace upper maxChunkChars text := by
  by_cases hne : bodies upper text = []
  · refine ⟨?_, ?_, Or.inl ?_⟩
    · rw [hne]
      exact List.nil_prefix
    · rw [hne]
      exact List.nil_prefix
    · rw [hne]
      rfl
  have hbodies := @blocks_bodies upper maxChunkChars text
  cases hblocks : blocks upper maxChunkChars text with
  | nil =>
    rw [hblocks] at hbodies
    exact absurd hbodies.symm hne
  | cons b bs =>
    obtain rfl := one_block hblocks h
    rw [hblocks, List.flatMap_cons, List.flatMap_nil, List.append_nil] at hbodies
    have hmem : b ∈ blocks upper maxChunkChars text := hblocks ▸ List.mem_cons_self
    have hparas : chunkParagraphs (b.chunk method 0 0) = bodies upper text := by
      rw [← hbodies]
      exact paragraphs_block hmem
    have hmap := map_placedBodies upper text
    have hlen := congrArg List.length hmap
    rw [List.length_map] at hlen
    have hplaced : placedBodies upper text ≠ [] := by
      intro hnil
      rw [hnil] at hmap
      exact hne hmap.symm
    rw [splitIntoChunks_eq, hblocks, chunksOf, chunksOf, RealSpans, hparas,
      List.take_of_length_le (Nat.le_of_eq hlen)] at h
    obtain ⟨hfirst, hlast, -⟩ := h
    obtain ⟨hblank, hhead⟩ := starts_with_body (List.head_mem hplaced)
      (hfirst _ (List.head?_eq_some_head hplaced)).symm
    have hfront := front_of_single hblocks hhead
    have hend := hlast _ (List.getLast?_eq_some_getLast hplaced)
    have htext : b.text.toList = joinParagraphs ((bodies upper text).map String.toList) := by
      rw [← hbodies]
      exact String.toList_intercalate
    have hroom : (joinParagraphs ((bodies upper text).map String.toList)).length =
        0 + b.text.length := by rw [← htext, String.length_toList, Nat.zero_add]
    constructor
    · exact hfront
    · exact together_of_tight hfront hblank (List.getLast?_eq_some_getLast hplaced)
        (hroom.trans hend)
    · rw [← hbodies]
      exact blocksFrom_size (Or.inl rfl) hmem

/-- The offsets are the places of the paragraphs exactly for a page that is one chunk from its
first character on, and there each chunk cites its paragraphs. -/
theorem spans_real_iff (upper : Char → Bool) (text method : String) (maxChunkChars : ℤ) :
    (InPlace upper maxChunkChars text →
      ∀ c ∈ splitIntoChunks upper text method maxChunkChars, Cited text c) ∧
    (RealSpans (splitIntoChunks upper text method maxChunkChars) (placedBodies upper text) ↔
      InPlace upper maxChunkChars text) :=
  ⟨inPlace_cited, realSpans_inPlace, inPlace_realSpans⟩

-- by chance another paragraph begins with the one that the chunk holds
example : (splitIntoChunks (fun _ => false) "A. B\n\nA." "test" 2000).map
    (fun c => (c.text, String.ofList (spanText "A. B\n\nA." c))) = [("A.", "A.")] := by
  decide +kernel

/-- The heading above it shifts a paragraph. -/
theorem span_shifted :
    (splitIntoChunks (fun _ => false) "Title\n\nWe encrypt data." "test" 2000).map
        (fun c => (c.text, String.ofList (spanText "Title\n\nWe encrypt data." c))) =
      [("We encrypt data.", "Title\n\nWe encryp")] ∧
    ∃ c ∈ splitIntoChunks (fun _ => false) "Title\n\nWe encrypt data." "test" 2000,
      (chunkParagraphs c).length = 1 ∧
        spanText "Title\n\nWe encrypt data." c ≠ c.text.toList := by
  refine ⟨by decide +kernel, by decide +kernel⟩

end TrustCopilot.ChunkSpans
