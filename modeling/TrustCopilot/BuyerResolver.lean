import TrustCopilot.Library.PyRegex
import Mathlib.Algebra.Order.Ring.Rat
import Mathlib.Data.List.Sort
import Mathlib.Tactic.Linarith
import Mathlib.Tactic.NormNum

/-! The buyer resolver: the people named on a company's pages, each name once, with a confidence
that comes from the pattern and the page. Confidences are exact rationals. -/
namespace TrustCopilot.BuyerResolver

open TrustCopilot.RegexSearch
open TrustCopilot.PyRegex
open TrustCopilot.PyText

structure BuyerCandidate where
  name : String
  role : String
  normalizedRole : String
  confidence : ℚ
  source : String
  evidenceUrl : String := ""
  evidenceSnippet : String := ""
  deriving DecidableEq, Repr

/-- The groups `name`, `title` and `0` of a match. -/
structure PersonMatch where
  name : String
  title : String
  whole : String

structure Page where
  text : String
  source : String
  url : String

/-- What the resolver takes from Python: `finditer` of the two patterns, `str.lower`, and
`str.isalnum` outside ASCII. -/
structure TextTools where
  titleMatches : String → List PersonMatch
  structuredMatches : String → List PersonMatch
  lower : String → String
  alnum : Char → Bool

/-! ### Roles -/

/-- `(of\s*)?` -/
def optOf : Regex Char := opt (seqs [ilit "of", spaces])

def anyWord (words : List String) : Regex Char := alts (words.map ilit)

section Roles

variable (alnum : Char → Bool)

def roleNormalization : List (String × Regex Char) :=
  [("founder_ceo", bounded alnum (alts [ilit "founder",
      seqs [ilit "co", opt (lit "-"), ilit "founder"], ilit "ceo", phrase ["chief", "executive"]])),
    ("cto", bounded alnum (alts [ilit "cto", phrase ["chief", "technology"],
      phrase ["chief", "technical"]])),
    ("ciso", bounded alnum (alts [ilit "ciso", phrase ["chief", "information", "security"]])),
    ("vp_eng", bounded alnum (alts [seqs [ilit "vp", spaces, optOf, ilit "engineering"],
      seqs [phrase ["vice", "president"], .star dot, ilit "engineering"]])),
    ("head_security", bounded alnum (alts [phrase ["head", "of", "security"],
      seqs [ilit "director", .star dot, ilit "security"], phrase ["security", "lead"]])),
    ("head_compliance", bounded alnum (alts [phrase ["head", "of", "compliance"],
      spaced [ilit "compliance", anyWord ["director", "lead", "manager"]],
      spaced [ilit "grc", anyWord ["lead", "manager", "director"]]])),
    ("head_engineering", bounded alnum (alts [phrase ["head", "of", "engineering"],
      spaced [ilit "engineering", anyWord ["director", "lead"]]])),
    ("head_product", bounded alnum (alts [phrase ["head", "of", "product"],
      spaced [ilit "product", anyWord ["director", "vp"]],
      seqs [ilit "vp", spaces, optOf, ilit "product"]])),
    ("head_it", bounded alnum (alts [phrase ["head", "of", "it"],
      spaced [ilit "it", anyWord ["director", "manager"]], ilit "cio"])),
    ("devops_lead", bounded alnum (alts [
      spaced [ilit "devops", anyWord ["lead", "manager", "director"]],
      spaced [ilit "platform", ilit "engineering", anyWord ["lead", "director"]]]))]

def normalizeRole (title : String) : Option String :=
  ((roleNormalization alnum).find? fun p => found p.2 title.toList).map Prod.fst

end Roles

example : normalizeRole (fun _ => false) "CTO" = some "cto" := by decide +kernel

/-! ### Extraction -/

structure Gathering where
  candidates : List BuyerCandidate := []
  seen : List String := []

def Gathering.add (lower : String → String) (g : Gathering) (c : BuyerCandidate) : Gathering where
  candidates := g.candidates ++ [c]
  seen := lower c.name :: g.seen

section Resolver

variable (tools : TextTools)

def addMatch (confidence : ℚ) (source url : String) (g : Gathering) (m : PersonMatch) :
    Gathering :=
  let name := strip m.name
  let title := strip m.title
  if tools.lower name ∈ g.seen then g
  else
    match normalizeRole tools.alnum title with
    | none => g
    | some norm => g.add tools.lower
      { name := name
        role := title
        normalizedRole := norm
        confidence := confidence
        source := source
        evidenceUrl := url
        evidenceSnippet := String.ofList ((strip m.whole).toList.take 120) }

def titleConfidence : ℚ := 70 / 100

def structuredConfidence : ℚ := 80 / 100

def extractFromText (page : Page) : List BuyerCandidate :=
  let titled := (tools.titleMatches page.text).foldl
    (addMatch tools titleConfidence page.source page.url) {}
  let both := (tools.structuredMatches page.text).foldl
    (addMatch tools structuredConfidence "structured_data" page.url) titled
  both.candidates

/-! ### Resolution -/

def sourceConfidenceBoost (source : String) : ℚ :=
  if source = "team_page" then 10 / 100
  else if source = "leadership" then 15 / 100
  else if source = "about" then 5 / 100
  else 0

def maxConfidence : ℚ := 95 / 100

def boosted (source : String) (c : BuyerCandidate) : BuyerCandidate :=
  { c with confidence := min maxConfidence (c.confidence + sourceConfidenceBoost source) }

def addCandidate (source : String) (g : Gathering) (c : BuyerCandidate) : Gathering :=
  if tools.lower c.name ∈ g.seen then g else g.add tools.lower (boosted source c)

def addPage (g : Gathering) (page : Page) : Gathering :=
  (extractFromText tools page).foldl (addCandidate tools page.source) g

def MoreConfident (a b : BuyerCandidate) : Prop := b.confidence ≤ a.confidence

instance : DecidableRel MoreConfident := fun a b =>
  inferInstanceAs (Decidable (b.confidence ≤ a.confidence))

/-- The sort is stable. -/
def resolveBuyers (pages : List Page) : List BuyerCandidate :=
  (pages.foldl (addPage tools) {}).candidates.insertionSort MoreConfident

end Resolver

/-! ### The band of the confidences -/

def Confident (c : BuyerCandidate) : Prop :=
  titleConfidence ≤ c.confidence ∧ c.confidence ≤ maxConfidence

structure Gathered (lower : String → String) (P : BuyerCandidate → Prop) (g : Gathering) :
    Prop where
  all : ∀ c ∈ g.candidates, P c
  names : g.candidates.map (fun c => lower c.name) = g.seen.reverse
  distinct : g.seen.Nodup

variable {tools : TextTools} {P : BuyerCandidate → Prop} {g : Gathering} {c : BuyerCandidate}

theorem gathered_empty (lower : String → String) : Gathered lower P {} :=
  ⟨fun _ => nofun, rfl, List.nodup_nil⟩

theorem gathered_add {lower : String → String} (hg : Gathered lower P g) (hc : P c)
    (hnew : lower c.name ∉ g.seen) : Gathered lower P (g.add lower c) := by
  constructor
  · intro d hd
    rcases List.mem_append.1 hd with hold | hlast
    · exact hg.all d hold
    · rw [List.mem_singleton.1 hlast]
      exact hc
  · simp [Gathering.add, hg.names]
  · exact List.nodup_cons.2 ⟨hnew, hg.distinct⟩

theorem addMatch_gathered {confidence : ℚ} {source url : String} {m : PersonMatch}
    (hP : ∀ c : BuyerCandidate, c.confidence = confidence → P c)
    (hg : Gathered tools.lower P g) :
    Gathered tools.lower P (addMatch tools confidence source url g m) := by
  rw [addMatch]
  split
  · exact hg
  · next hnew =>
    split
    · exact hg
    · exact gathered_add hg (hP _ rfl) hnew

theorem extractFromText_confidence {page : Page} (h : c ∈ extractFromText tools page) :
    c.confidence = titleConfidence ∨ c.confidence = structuredConfidence := by
  have htitled : Gathered tools.lower
      (fun c => c.confidence = titleConfidence ∨ c.confidence = structuredConfidence)
      ((tools.titleMatches page.text).foldl
        (addMatch tools titleConfidence page.source page.url) {}) :=
    List.foldlRecOn _ _ (gathered_empty _) fun g hg m _ => addMatch_gathered (fun _ => Or.inl) hg
  have hboth := List.foldlRecOn (tools.structuredMatches page.text)
    (addMatch tools structuredConfidence "structured_data" page.url) htitled
    fun g hg m _ => addMatch_gathered (fun _ => Or.inr) hg
  exact hboth.all c h

theorem sourceConfidenceBoost_nonneg (source : String) : 0 ≤ sourceConfidenceBoost source := by
  rw [sourceConfidenceBoost]
  split_ifs <;> norm_num

theorem boosted_confident {page : Page} (h : c ∈ extractFromText tools page) :
    Confident (boosted page.source c) := by
  have hboost := sourceConfidenceBoost_nonneg page.source
  constructor
  · apply le_min
    · norm_num [titleConfidence, maxConfidence]
    · rcases extractFromText_confidence h with hc | hc
      · rw [hc]
        linarith
      · rw [hc, structuredConfidence, titleConfidence]
        linarith
  · exact min_le_left _ _

theorem addPage_gathered {page : Page} (hg : Gathered tools.lower Confident g) :
    Gathered tools.lower Confident (addPage tools g page) := by
  refine List.foldlRecOn _ _ hg fun g hg c hc => ?_
  rw [addCandidate]
  split
  · exact hg
  · next hnew => exact gathered_add hg (boosted_confident hc) hnew

theorem pages_gathered (pages : List Page) :
    Gathered tools.lower Confident (pages.foldl (addPage tools) {}) :=
  List.foldlRecOn _ _ (gathered_empty _) fun _ hg _ _ => addPage_gathered hg

theorem resolveBuyers_confident {pages : List Page} (h : c ∈ resolveBuyers tools pages) :
    Confident c :=
  (pages_gathered pages).all c ((List.mem_insertionSort MoreConfident).1 h)

end TrustCopilot.BuyerResolver
