import TrustCopilot.Extractor

/-! What the chunks of a text keep. Every body paragraph goes into one chunk, under the nearest
heading above it; a heading with no body paragraph directly below it is lost. -/
namespace TrustCopilot.ChunkSections

open TrustCopilot.PyText
open TrustCopilot.TextLines
open TrustCopilot.Paragraphs
open TrustCopilot.Extractor

def chunkParagraphs (c : TextChunk) : List String := paragraphs c.text

/-- What the chunks say about the text. The paragraphs of a chunk stand together in the text, so
no heading comes between them. -/
structure Preserved (upper : Char → Bool) (text : String) (maxChunkChars : ℤ)
    (chunks : List TextChunk) : Prop where
  body : chunks.flatMap chunkParagraphs = bodies upper text
  index : ∀ i (c : TextChunk), chunks[i]? = some c → c.chunkIndex = i
  inSection : ∀ before (c : TextChunk) after, chunks = before ++ c :: after →
    ∃ above below, contents text = above ++ (chunkParagraphs c ++ below) ∧
      (above.filter fun p => !isHeading upper p) = before.flatMap chunkParagraphs ∧
      c.sectionTitle = lastHeading upper above
  size : ∀ c ∈ chunks, (chars (chunkParagraphs c).dropLast : ℤ) < maxChunkChars

variable {upper : Char → Bool} {method : String} {maxChunkChars : ℤ} {title : Option String}
  {parts ps : List String} {text : String}

/-! ### The blocks of a text -/

theorem closed_parts (title : Option String) (parts : List String) :
    (closed title parts).flatMap (·.parts) = parts := by
  rw [closed]
  split
  · next h => rw [h, List.flatMap_nil]
  · exact List.append_nil parts

theorem mem_closed {b : Block} (h : b ∈ closed title parts) :
    parts ≠ [] ∧ b = ⟨title, parts⟩ := by
  rw [closed] at h
  split at h
  · cases h
  · next hne => exact ⟨hne, List.mem_singleton.1 h⟩

theorem blocksFrom_parts (title : Option String) (parts ps : List String) :
    (blocksFrom upper maxChunkChars title parts ps).flatMap (·.parts) =
      parts ++ ps.filter fun p => !isHeading upper p := by
  induction ps generalizing title parts with
  | nil => rw [blocksFrom, closed_parts, List.filter_nil, List.append_nil]
  | cons p ps ih =>
    rw [blocksFrom]
    by_cases hp : isHeading upper p = true
    · rw [if_pos hp, List.flatMap_append, closed_parts, ih, List.filter_cons_of_neg (by simp [hp]),
        List.nil_append]
    · rw [if_neg hp, List.filter_cons_of_pos (by simp [hp])]
      split
      · rw [List.flatMap_append, closed_parts, ih, List.nil_append, List.append_assoc,
          List.singleton_append]
      · rw [ih, List.append_assoc, List.singleton_append]

/-- What holds of every block that is closed, be it by a heading, by its last paragraph or by the
end of the text. `I` is what is known of the parts in between. -/
theorem blocksFrom_forall {I : List String → Prop} {P : Block → Prop} (hnil : I [])
    (hclosed : ∀ title parts, parts ≠ [] → I parts → P ⟨title, parts⟩)
    (hfull : ∀ title parts p, I parts → P ⟨title, parts ++ [p]⟩)
    (hroom : ∀ parts, (chars parts : ℤ) < maxChunkChars → I parts) (hparts : I parts) :
    ∀ b ∈ blocksFrom upper maxChunkChars title parts ps, P b := by
  induction ps generalizing title parts with
  | nil =>
    intro b hb
    obtain ⟨hne, rfl⟩ := mem_closed hb
    exact hclosed title parts hne hparts
  | cons p ps ih =>
    intro b hb
    rw [blocksFrom] at hb
    split at hb
    · rcases List.mem_append.1 hb with hb | hb
      · obtain ⟨hne, rfl⟩ := mem_closed hb
        exact hclosed title parts hne hparts
      · exact ih hnil b hb
    · split at hb
      · rcases List.mem_append.1 hb with hb | hb
        · obtain ⟨-, rfl⟩ := mem_closed hb
          exact hfull title parts p hparts
        · exact ih hnil b hb
      · next hlt => exact ih (hroom _ (Int.not_le.1 hlt)) b hb

theorem blocksFrom_nonempty {b : Block} (h : b ∈ blocksFrom upper maxChunkChars title parts ps) :
    b.parts ≠ [] :=
  blocksFrom_forall (I := fun _ => True) (P := fun b => b.parts ≠ []) trivial
    (fun _ _ hne _ => hne) (fun _ _ _ _ => by simp) (fun _ _ => trivial) trivial b h

theorem chars_append (as bs : List String) : chars (as ++ bs) = chars as + chars bs := by
  rw [chars, List.map_append, List.sum_append, chars, chars]

theorem chars_dropLast_le (parts : List String) : chars parts.dropLast ≤ chars parts := by
  rcases List.eq_nil_or_concat parts with rfl | ⟨init, p, rfl⟩
  · exact Nat.le_refl _
  · rw [List.concat_eq_append, List.dropLast_concat, chars_append]
    exact Nat.le_add_right _ _

theorem blocksFrom_size (hparts : parts = [] ∨ (chars parts : ℤ) < maxChunkChars) {b : Block}
    (h : b ∈ blocksFrom upper maxChunkChars title parts ps) :
    b.parts.dropLast = [] ∨ (chars b.parts.dropLast : ℤ) < maxChunkChars := by
  refine blocksFrom_forall (I := fun parts => parts = [] ∨ (chars parts : ℤ) < maxChunkChars)
    (P := fun b => b.parts.dropLast = [] ∨ (chars b.parts.dropLast : ℤ) < maxChunkChars)
    (Or.inl rfl) ?_ ?_ (fun _ => Or.inr) hparts b h
  · intro title parts hne hopen
    have hle := chars_dropLast_le parts
    have hlt := hopen.resolve_left hne
    right
    simp only
    omega
  · intro title parts p hopen
    simp only [List.dropLast_concat]
    exact hopen

theorem lastHeading_append (as bs : List String) :
    lastHeading upper (as ++ bs) = (lastHeading upper bs).or (lastHeading upper as) := by
  rw [lastHeading, List.filter_append, List.getLast?_append]
  rfl

theorem lastHeading_bodies (h : ∀ p ∈ ps, isHeading upper p = false) :
    lastHeading upper ps = none := by
  have hnil : ps.filter (isHeading upper) = [] :=
    List.filter_eq_nil_iff.2 fun p hp => by simp [h p hp]
  rw [lastHeading, hnil]
  rfl

theorem lastHeading_under {p : String} (hp : isHeading upper p = true)
    (hparts : ∀ q ∈ parts, isHeading upper q = false) (above : List String) :
    lastHeading upper (parts ++ p :: above) = (lastHeading upper above).or (some p) := by
  have hone : lastHeading upper [p] = some p := by simp [lastHeading, hp]
  have hcons : p :: above = [p] ++ above := rfl
  rw [hcons, lastHeading_append, lastHeading_append, lastHeading_bodies hparts, hone,
    Option.or_none]

theorem filter_bodies (h : ∀ p ∈ parts, isHeading upper p = false) :
    (parts.filter fun p => !isHeading upper p) = parts :=
  List.filter_eq_self.2 fun p hp => by simp [h p hp]

theorem closed_split {before after rest : List Block} {b : Block}
    (h : closed title parts ++ rest = before ++ b :: after) :
    (before = [] ∧ b = ⟨title, parts⟩) ∨
      ∃ before', before = closed title parts ++ before' ∧ rest = before' ++ b :: after := by
  by_cases hnil : parts = []
  · have hclosed : closed title parts = [] := if_pos hnil
    rw [hclosed] at h ⊢
    exact Or.inr ⟨before, rfl, h⟩
  · rw [closed_of_ne_nil hnil] at h ⊢
    cases before with
    | nil => exact Or.inl ⟨rfl, (List.cons.inj h).1.symm⟩
    | cons first before =>
      obtain ⟨rfl, hrest⟩ := List.cons.inj h
      exact Or.inr ⟨before, rfl, hrest⟩

/-- Each block stands together in the text, under the last heading above it. -/
theorem blocksFrom_section (hparts : ∀ p ∈ parts, isHeading upper p = false)
    {before after : List Block} {b : Block}
    (h : blocksFrom upper maxChunkChars title parts ps = before ++ b :: after) :
    ∃ above below, parts ++ ps = above ++ (b.parts ++ below) ∧
      (above.filter fun p => !isHeading upper p) = before.flatMap (·.parts) ∧
      b.title = (lastHeading upper above).or title := by
  have hnone : ∀ q ∈ ([] : List String), isHeading upper q = false := fun q hq => nomatch hq
  induction ps generalizing title parts before with
  | nil =>
    rw [blocksFrom, ← List.append_nil (closed title parts)] at h
    rcases closed_split h with ⟨rfl, rfl⟩ | ⟨before', -, hrest⟩
    · exact ⟨[], [], rfl, rfl, rfl⟩
    · simp at hrest
  | cons p ps ih =>
    rw [blocksFrom] at h
    by_cases hp : isHeading upper p = true
    · rw [if_pos hp] at h
      rcases closed_split h with ⟨rfl, rfl⟩ | ⟨before', rfl, hrest⟩
      · exact ⟨[], p :: ps, rfl, rfl, rfl⟩
      · obtain ⟨above, below, hps, hbodies, htitle⟩ := ih hnone hrest
        refine ⟨parts ++ p :: above, below, ?_, ?_, ?_⟩
        · rw [← List.nil_append ps, hps, List.append_assoc, List.cons_append]
        · rw [List.filter_append, filter_bodies hparts, List.filter_cons_of_neg (by simp [hp]),
            hbodies, List.flatMap_append, closed_parts]
        · rw [htitle, lastHeading_under hp hparts]
          cases lastHeading upper above <;> rfl
    · rw [if_neg hp] at h
      have hparts' : ∀ q ∈ parts ++ [p], isHeading upper q = false := by
        intro q hq
        rcases List.mem_append.1 hq with hq | hq
        · exact hparts q hq
        · rw [List.mem_singleton.1 hq]
          exact Bool.eq_false_iff.2 hp
      have hcons : parts ++ p :: ps = (parts ++ [p]) ++ ps := by simp
      rw [hcons]
      split at h
      · rcases closed_split h with ⟨rfl, rfl⟩ | ⟨before', rfl, hrest⟩
        · exact ⟨[], ps, rfl, rfl, rfl⟩
        · obtain ⟨above, below, hps, hbodies, htitle⟩ := ih hnone hrest
          refine ⟨(parts ++ [p]) ++ above, below, ?_, ?_, ?_⟩
          · rw [← List.nil_append ps, hps, List.append_assoc (parts ++ [p])]
          · rw [List.filter_append, filter_bodies hparts', hbodies, List.flatMap_append,
              closed_parts]
          · rw [htitle, lastHeading_append, lastHeading_bodies hparts', Option.or_none]
      · exact ih hparts' h

/-! ### The chunks of the blocks -/

theorem contents_paragraph {p : String} (h : p ∈ contents text) : Paragraph p.toList := by
  obtain ⟨hmem, hne⟩ := List.mem_filter.1 h
  obtain ⟨para, hpara, rfl⟩ := List.mem_map.1 hmem
  obtain ⟨piece, hpiece, rfl⟩ := List.mem_map.1 hpara
  rw [strip, String.toList_ofList] at hne ⊢
  rw [String.toList_ofList]
  apply paragraph_of_piece hpiece
  rintro hnil
  rw [hnil] at hne
  simp at hne

theorem paragraphs_joined (hne : parts ≠ []) (h : ∀ p ∈ parts, Paragraph p.toList) :
    paragraphs ("\n\n".intercalate parts) = parts := by
  have hbreak : "\n\n".toList = ['\n', '\n'] := rfl
  have hlists : ∀ l ∈ parts.map String.toList, Paragraph l := by
    intro l hl
    obtain ⟨p, hp, rfl⟩ := List.mem_map.1 hl
    exact h p hp
  have hsplit := splitParagraphs_join (by simpa using hne) hlists
  rw [paragraphs, String.toList_intercalate, hbreak, ← joinParagraphs, hsplit, List.map_map]
  simp [Function.comp_def]

theorem blocks_bodies (text : String) :
    (blocks upper maxChunkChars text).flatMap (·.parts) = bodies upper text :=
  blocksFrom_parts none [] (contents text)

theorem paragraphs_block {b : Block} (h : b ∈ blocks upper maxChunkChars text) :
    paragraphs b.text = b.parts := by
  apply paragraphs_joined (blocksFrom_nonempty h)
  intro p hp
  have hbody : p ∈ bodies upper text := blocks_bodies text ▸ List.mem_flatMap.2 ⟨b, h, hp⟩
  exact contents_paragraph (List.mem_of_mem_filter hbody)

theorem chunksOf_split {index offset : ℕ} {bs : List Block} {before after : List TextChunk}
    {c : TextChunk} (h : chunksOf method index offset bs = before ++ c :: after) :
    ∃ above b below, bs = above ++ b :: below ∧ before = chunksOf method index offset above ∧
      c = b.chunk method (index + above.length) (offset + textLength above) := by
  induction before generalizing index offset bs with
  | nil =>
    cases bs with
    | nil => cases h
    | cons b bs => exact ⟨[], b, bs, rfl, rfl, (List.cons.inj h).1.symm⟩
  | cons first before ih =>
    cases bs with
    | nil => cases h
    | cons b bs =>
      obtain ⟨rfl, hrest⟩ := List.cons.inj h
      obtain ⟨above, b', below, rfl, rfl, rfl⟩ := ih hrest
      refine ⟨b :: above, b', below, rfl, rfl, ?_⟩
      rw [textLength_cons, List.length_cons, Nat.add_assoc index, Nat.add_comm 1, Nat.add_assoc]

theorem chunksOf_index {index offset i : ℕ} {bs : List Block} {c : TextChunk}
    (h : (chunksOf method index offset bs)[i]? = some c) : c.chunkIndex = index + i := by
  induction bs generalizing index offset i with
  | nil => cases h
  | cons b bs ih =>
    cases i with
    | zero =>
      cases h
      rfl
    | succ i =>
      rw [ih h]
      omega

theorem flatMap_chunksOf {bs : List Block} (h : ∀ b ∈ bs, paragraphs b.text = b.parts)
    (index offset : ℕ) :
    (chunksOf method index offset bs).flatMap chunkParagraphs = bs.flatMap (·.parts) := by
  induction bs generalizing index offset with
  | nil => rfl
  | cons b bs ih =>
    have hb : chunkParagraphs (b.chunk method index offset) = b.parts := h b List.mem_cons_self
    rw [chunksOf, List.flatMap_cons, ih fun x hx => h x (List.mem_cons_of_mem b hx), hb,
      List.flatMap_cons]

theorem mem_chunks {c : TextChunk}
    (h : c ∈ splitIntoChunks upper text method maxChunkChars) :
    ∃ b ∈ blocks upper maxChunkChars text, chunkParagraphs c = b.parts ∧
      c.sectionTitle = b.title := by
  rw [splitIntoChunks_eq] at h
  obtain ⟨before, after, hc⟩ := List.append_of_mem h
  obtain ⟨above, b, below, hbs, -, rfl⟩ := chunksOf_split hc
  have hb : b ∈ blocks upper maxChunkChars text := hbs ▸ List.mem_append_right _ List.mem_cons_self
  exact ⟨b, hb, paragraphs_block hb, rfl⟩

/-- Every body paragraph is kept once and in order, and stands under its own heading. -/
theorem splitIntoChunks_preserves (hmax : 0 < maxChunkChars) (text method : String) :
    Preserved upper text maxChunkChars (splitIntoChunks upper text method maxChunkChars) where
  body := by
    rw [splitIntoChunks_eq, flatMap_chunksOf (fun b hb => paragraphs_block hb), blocks_bodies]
  index i c h := by
    rw [splitIntoChunks_eq] at h
    rw [chunksOf_index h, Nat.zero_add]
  inSection before c after h := by
    rw [splitIntoChunks_eq] at h
    obtain ⟨above, b, below, hbs, rfl, rfl⟩ := chunksOf_split h
    have hmem : ∀ x ∈ above ++ b :: below, paragraphs x.text = x.parts :=
      fun x hx => paragraphs_block (hbs ▸ hx)
    obtain ⟨upto, rest, hcontents, hbodies, htitle⟩ :=
      blocksFrom_section (fun p hp => absurd hp List.not_mem_nil) hbs
    have hb : chunkParagraphs (b.chunk method (0 + above.length) (0 + textLength above)) =
        b.parts := hmem b (List.mem_append_right _ List.mem_cons_self)
    refine ⟨upto, rest, ?_, ?_, ?_⟩
    · rw [hb]
      exact hcontents
    · rw [flatMap_chunksOf fun x hx => hmem x (List.mem_append_left _ hx)]
      exact hbodies
    · exact htitle.trans Option.or_none
  size c h := by
    obtain ⟨b, hb, hparts, -⟩ := mem_chunks h
    rw [hparts]
    rcases blocksFrom_size (Or.inl rfl) hb with hnil | hlt
    · rw [hnil]
      exact hmax
    · exact hlt

theorem sections_preserved :
    Preserved (fun _ => false) "Security\n\nWe encrypt data.\n\nWe run audits." 2000
      (splitIntoChunks (fun _ => false) "Security\n\nWe encrypt data.\n\nWe run audits." "test"
        2000) :=
  splitIntoChunks_preserves (by decide) _ _

/-! ### Lost headings -/

def AboveBody (upper : Char → Bool) (ps : List String) (t : String) : Prop :=
  ∃ p, isHeading upper p = false ∧ [t, p] <:+: ps

theorem aboveBody_cons {t p : String} :
    AboveBody upper (p :: ps) t ↔
      (p = t ∧ ∃ q ∈ ps.head?, isHeading upper q = false) ∨ AboveBody upper ps t := by
  have hpair : ∀ q, [t, q] <:+: p :: ps ↔ (p = t ∧ ps.head? = some q) ∨ [t, q] <:+: ps := by
    intro q
    rw [List.infix_cons_iff, List.cons_prefix_cons, List.singleton_prefix_iff_head?_eq_some,
      eq_comm (a := t)]
  simp only [AboveBody, hpair, Option.mem_def]
  grind

def Titled (bs : List Block) (t : String) : Prop := ∃ b ∈ bs, b.title = some t

theorem titled_append {as bs : List Block} {t : String} :
    Titled (as ++ bs) t ↔ Titled as t ∨ Titled bs t := by
  simp only [Titled, List.mem_append, or_and_right, exists_or]

theorem titled_closed {t : String} :
    Titled (closed title parts) t ↔ title = some t ∧ parts ≠ [] := by
  constructor
  · rintro ⟨b, hb, ht⟩
    obtain ⟨hne, rfl⟩ := mem_closed hb
    exact ⟨ht, hne⟩
  · rintro ⟨ht, hne⟩
    exact ⟨⟨title, parts⟩, closed_of_ne_nil hne ▸ List.mem_cons_self, ht⟩

/-- The title of a block is the heading that is open, or one directly above a body paragraph. -/
theorem titled_blocksFrom {t : String} :
    Titled (blocksFrom upper maxChunkChars title parts ps) t ↔
      (title = some t ∧ (parts ≠ [] ∨ ∃ p ∈ ps.head?, isHeading upper p = false)) ∨
        (isHeading upper t = true ∧ AboveBody upper ps t) := by
  induction ps generalizing title parts with
  | nil =>
    rw [blocksFrom, titled_closed]
    simp [AboveBody]
  | cons p ps ih =>
    rw [blocksFrom, aboveBody_cons]
    by_cases hp : isHeading upper p = true
    · rw [if_pos hp, titled_append, titled_closed, ih]
      simp only [List.head?_cons, Option.mem_some_iff, Option.some.injEq, ne_eq, not_true_eq_false,
        false_or, exists_eq_left', hp, Bool.true_eq_false, or_false]
      grind
    · rw [if_neg hp]
      have hbody : isHeading upper p = false := Bool.eq_false_iff.2 hp
      have hopen : parts ++ [p] ≠ [] := by simp
      split
      · rw [titled_append, titled_closed, ih]
        simp only [List.head?_cons, Option.mem_some_iff, exists_eq_left', hbody]
        grind
      · rw [ih]
        simp only [List.head?_cons, Option.mem_some_iff, exists_eq_left', hbody]
        grind

theorem titled_chunksOf (index offset : ℕ) (bs : List Block) {t : String} :
    (∃ c ∈ chunksOf method index offset bs, c.sectionTitle = some t) ↔ Titled bs t := by
  induction bs generalizing index offset with
  | nil => simp [chunksOf, Titled]
  | cons b bs ih =>
    rw [chunksOf, List.exists_mem_cons_iff, ih, Titled, Titled, List.exists_mem_cons_iff]
    rfl

/-- Every heading becomes the title of a chunk exactly if each of their texts stands directly
above a body paragraph somewhere. -/
theorem headings_kept_iff (text method : String) (maxChunkChars : ℤ) :
    (∀ t ∈ headings upper text,
        ∃ c ∈ splitIntoChunks upper text method maxChunkChars, c.sectionTitle = some t) ↔
      ∀ t ∈ headings upper text, AboveBody upper (contents text) t := by
  have htitle : ∀ t, (∃ c ∈ splitIntoChunks upper text method maxChunkChars,
      c.sectionTitle = some t) ↔ isHeading upper t = true ∧ AboveBody upper (contents text) t := by
    intro t
    rw [splitIntoChunks_eq, titled_chunksOf, blocks, titled_blocksFrom]
    simp
  constructor
  · intro h t ht
    exact ((htitle t).1 (h t ht)).2
  · intro h t ht
    exact (htitle t).2 ⟨(List.mem_filter.1 ht).2, h t ht⟩

/-- Of two bullets above a paragraph only the second becomes a title. -/
theorem bullet_lost :
    "SOC 2 Type II certified" ∈ headings (fun _ => false)
      "SOC 2 Type II certified\n\nISO 27001 certified\n\nWe encrypt data." ∧
    ∀ c ∈ splitIntoChunks (fun _ => false)
        "SOC 2 Type II certified\n\nISO 27001 certified\n\nWe encrypt data." "test" 2000,
      c.sectionTitle ≠ some "SOC 2 Type II certified" := by
  refine ⟨by decide +kernel, by decide +kernel⟩

end TrustCopilot.ChunkSections
