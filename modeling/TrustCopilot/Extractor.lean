import TrustCopilot.Library.Paragraphs

/-! A page's text cut into chunks. A heading closes the chunk before it and gives its text to the
chunks that follow; a chunk that gets too long is closed as well. -/
namespace TrustCopilot.Extractor

open TrustCopilot.PyText
open TrustCopilot.TextLines
open TrustCopilot.Paragraphs

structure TextChunk where
  sectionTitle : Option String
  text : String
  chunkIndex : ℕ
  charOffsetStart : ℕ
  charOffsetEnd : ℕ
  extractionMethod : String
  deriving DecidableEq, Repr

structure SplitState where
  chunks : List TextChunk := []
  currentSection : Option String := none
  currentTextParts : List String := []
  offset : ℕ := 0

def flush (method : String) (st : SplitState) : SplitState :=
  if st.currentTextParts = [] then st
  else
    let joined := "\n\n".intercalate st.currentTextParts
    let stop := st.offset + joined.length
    { st with
      chunks := st.chunks ++ [{
        sectionTitle := st.currentSection
        text := joined
        chunkIndex := st.chunks.length
        charOffsetStart := st.offset
        charOffsetEnd := stop
        extractionMethod := method }]
      currentTextParts := []
      offset := stop }

def chars (parts : List String) : ℕ := (parts.map String.length).sum

section Split

variable (upper : Char → Bool)

/-- `str.isupper` of one character. `upper` stands for it outside ASCII. -/
def isUpper (c : Char) : Bool := if c.toNat < 128 then c.isUpper else upper c

def isHeading (stripped : String) : Bool :=
  stripped.length < 120 && stripped.toList.getLast? != some '.' &&
    stripped.toList.head?.any (isUpper upper) && !stripped.toList.contains '\n'

def addParagraph (method : String) (maxChunkChars : ℤ) (st : SplitState) (stripped : String) :
    SplitState :=
  if isHeading upper stripped = true ∧ st.currentTextParts ≠ [] then
    { flush method st with currentSection := some stripped }
  else if isHeading upper stripped = true ∧ st.currentTextParts = [] then
    { st with currentSection := some stripped }
  else
    let st := { st with currentTextParts := st.currentTextParts ++ [stripped] }
    if maxChunkChars ≤ chars st.currentTextParts then flush method st else st

def step (method : String) (maxChunkChars : ℤ) (st : SplitState) (para : String) : SplitState :=
  let stripped := strip para
  if stripped = "" then st else addParagraph upper method maxChunkChars st stripped

def paragraphs (text : String) : List String :=
  (splitParagraphs text.toList).map String.ofList

def splitIntoChunks (text method : String) (maxChunkChars : ℤ) : List TextChunk :=
  (flush method ((paragraphs text).foldl (step upper method maxChunkChars) {})).chunks

end Split

/-! ### What the chunks hold -/

def contents (text : String) : List String := ((paragraphs text).map strip).filter (· ≠ "")

section Blocks

variable (upper : Char → Bool)

def headings (text : String) : List String := (contents text).filter (isHeading upper)

def bodies (text : String) : List String := (contents text).filter fun p => !isHeading upper p

def lastHeading (ps : List String) : Option String := (ps.filter (isHeading upper)).getLast?

structure Block where
  title : Option String
  parts : List String

def Block.text (b : Block) : String := "\n\n".intercalate b.parts

def closed (title : Option String) (parts : List String) : List Block :=
  if parts = [] then [] else [⟨title, parts⟩]

def blocksFrom (maxChunkChars : ℤ) : Option String → List String → List String → List Block
  | title, parts, [] => closed title parts
  | title, parts, p :: ps =>
    if isHeading upper p then closed title parts ++ blocksFrom maxChunkChars (some p) [] ps
    else if maxChunkChars ≤ chars (parts ++ [p]) then
      closed title (parts ++ [p]) ++ blocksFrom maxChunkChars title [] ps
    else blocksFrom maxChunkChars title (parts ++ [p]) ps

def blocks (maxChunkChars : ℤ) (text : String) : List Block :=
  blocksFrom upper maxChunkChars none [] (contents text)

end Blocks

def Block.chunk (b : Block) (method : String) (index offset : ℕ) : TextChunk where
  sectionTitle := b.title
  text := b.text
  chunkIndex := index
  charOffsetStart := offset
  charOffsetEnd := offset + b.text.length
  extractionMethod := method

def chunksOf (method : String) : ℕ → ℕ → List Block → List TextChunk
  | _, _, [] => []
  | index, offset, b :: bs =>
    b.chunk method index offset :: chunksOf method (index + 1) (offset + b.text.length) bs

def textLength (bs : List Block) : ℕ := (bs.map fun b => b.text.length).sum

variable {upper : Char → Bool} {method : String} {maxChunkChars : ℤ} {st : SplitState}
  {title : Option String} {parts ps : List String}

theorem textLength_cons (b : Block) (bs : List Block) :
    textLength (b :: bs) = b.text.length + textLength bs := List.sum_cons

theorem chunksOf_append (index offset : ℕ) (as bs : List Block) :
    chunksOf method index offset (as ++ bs) = chunksOf method index offset as ++
      chunksOf method (index + as.length) (offset + textLength as) bs := by
  induction as generalizing index offset with
  | nil => rfl
  | cons a as ih =>
    rw [List.cons_append, chunksOf, ih, chunksOf, List.cons_append, List.length_cons,
      textLength_cons, Nat.add_assoc index, Nat.add_comm 1, ← Nat.add_assoc offset]

theorem length_chunksOf (index offset : ℕ) (bs : List Block) :
    (chunksOf method index offset bs).length = bs.length := by
  induction bs generalizing index offset with
  | nil => rfl
  | cons b bs ih => rw [chunksOf, List.length_cons, ih, List.length_cons]

theorem closed_of_ne_nil (h : parts ≠ []) : closed title parts = [⟨title, parts⟩] := if_neg h

theorem flush_eq (method : String) (st : SplitState) :
    flush method st =
      { chunks := st.chunks ++ chunksOf method st.chunks.length st.offset
          (closed st.currentSection st.currentTextParts)
        currentSection := st.currentSection
        currentTextParts := []
        offset := st.offset + textLength (closed st.currentSection st.currentTextParts) } := by
  rw [flush, closed]
  split
  · next hnil =>
    rw [chunksOf, List.append_nil, textLength, List.map_nil, List.sum_nil, Nat.add_zero, ← hnil]
  · simp [chunksOf, Block.chunk, textLength, Block.text]

theorem addParagraph_heading {p : String} (h : isHeading upper p = true) :
    addParagraph upper method maxChunkChars st p =
      { flush method st with currentSection := some p } := by
  rw [addParagraph]
  by_cases hnil : st.currentTextParts = []
  · have hflush : flush method st = st := if_pos hnil
    rw [if_neg fun hand => hand.2 hnil, if_pos ⟨h, hnil⟩, hflush]
  · rw [if_pos ⟨h, hnil⟩]

theorem addParagraph_body {p : String} (h : isHeading upper p = false) :
    addParagraph upper method maxChunkChars st p =
      if maxChunkChars ≤ chars (st.currentTextParts ++ [p]) then
        flush method { st with currentTextParts := st.currentTextParts ++ [p] }
      else { st with currentTextParts := st.currentTextParts ++ [p] } := by
  rw [addParagraph, if_neg fun hand => by simp [h] at hand, if_neg fun hand => by simp [h] at hand]

theorem run_blocks (ps : List String) (st : SplitState) :
    (flush method (ps.foldl (addParagraph upper method maxChunkChars) st)).chunks =
      st.chunks ++ chunksOf method st.chunks.length st.offset
        (blocksFrom upper maxChunkChars st.currentSection st.currentTextParts ps) := by
  induction ps generalizing st with
  | nil => rw [List.foldl_nil, flush_eq, blocksFrom]
  | cons p ps ih =>
    rw [List.foldl_cons, ih, blocksFrom]
    by_cases hp : isHeading upper p = true
    · rw [addParagraph_heading hp, flush_eq, if_pos hp]
      simp only [chunksOf_append, List.length_append, length_chunksOf, List.append_assoc]
    · rw [addParagraph_body (Bool.eq_false_iff.2 hp), if_neg hp]
      split
      · rw [flush_eq]
        simp only [chunksOf_append, List.length_append, length_chunksOf, List.append_assoc]
      · rfl

theorem foldl_step (paras : List String) (st : SplitState) :
    paras.foldl (step upper method maxChunkChars) st =
      ((paras.map strip).filter (· ≠ "")).foldl (addParagraph upper method maxChunkChars) st := by
  induction paras generalizing st with
  | nil => rfl
  | cons para paras ih =>
    rw [List.foldl_cons, ih, List.map_cons, step]
    by_cases hempty : strip para = ""
    · rw [if_pos hempty, List.filter_cons_of_neg (by simpa using hempty)]
    · rw [if_neg hempty, List.filter_cons_of_pos (by simpa using hempty), List.foldl_cons]

theorem splitIntoChunks_eq (text : String) :
    splitIntoChunks upper text method maxChunkChars =
      chunksOf method 0 0 (blocks upper maxChunkChars text) := by
  rw [splitIntoChunks, foldl_step, run_blocks]
  rfl

end TrustCopilot.Extractor
