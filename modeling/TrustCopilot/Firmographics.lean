import TrustCopilot.IcpScoring
import TrustCopilot.Library.PyRegex

/-! The firmographic estimator: size band, industry, go-to-market motion and product type, read
off a text by tables of patterns. Scores are exact rationals. -/
namespace TrustCopilot.Firmographics

open TrustCopilot.RegexSearch
open TrustCopilot.PyRegex
open TrustCopilot.Rounding
open TrustCopilot.IcpScoring (NumberFormat)

structure FirmographicEstimate extends IcpScoring.FirmographicEstimate where
  productType : String
  confidence : ℚ
  matchedRules : List String
  explanation : String
  deriving DecidableEq, Repr

structure Rule (α : Type) where
  value : α
  pattern : Regex Char
  ruleId : String

def range (a b : Char) : Regex Char := .one fun x => a ≤ x && x ≤ b

section Tables

variable (alnum digit : Char → Bool)

/-- `\d`, where `digit` says what is a decimal digit outside ASCII. -/
def isDecimal (x : Char) : Bool := x.isDigit || (128 ≤ x.toNat && digit x)

def decimal : Regex Char := .one (isDecimal digit)

def headcount (number : Regex Char) : Regex Char :=
  seqs [wordBoundary alnum, number, spaces, ilit "employee"]

def microNumber : Regex Char := alts [range '1' '9', lit "10"]

def smallNumber : Regex Char :=
  alts [seqs [lit "1", range '1' '9'], seqs [range '2' '4', decimal digit]]

def midNumber : Regex Char :=
  alts [seqs [lit "5", decimal digit], seqs [range '6' '9', decimal digit],
    seqs [range '1' '2', decimal digit, decimal digit]]

def growthNumber : Regex Char :=
  alts [seqs [range '3' '9', decimal digit, decimal digit],
    seqs [lit "1", decimal digit, decimal digit, decimal digit]]

/-- `[2-9]\d{3,}` -/
def enterpriseNumber : Regex Char :=
  seqs [range '2' '9', decimal digit, decimal digit, decimal digit, .star (decimal digit)]

/-- `\d{2,3},\d{3}` -/
def groupedNumber : Regex Char :=
  seqs [decimal digit, decimal digit, opt (decimal digit), lit ",", decimal digit, decimal digit,
    decimal digit]

def sizePatterns : List (Rule String) := [
  ⟨"micro", headcount alnum microNumber, "size_micro"⟩,
  ⟨"small", headcount alnum (smallNumber digit), "size_small"⟩,
  ⟨"mid", headcount alnum (midNumber digit), "size_mid"⟩,
  ⟨"growth", headcount alnum (growthNumber digit), "size_growth"⟩,
  ⟨"enterprise", alts [headcount alnum (enterpriseNumber digit),
    headcount alnum (groupedNumber digit)], "size_enterprise"⟩]

def starting (rs : List (Regex Char)) : Regex Char := seqs [wordBoundary alnum, alts rs]

def industryPatterns : List (Rule String) := [
  ⟨"fintech", starting alnum [ilit "fintech", phrase ["financial", "technology"],
    phrase ["banking", "api"], ilit "payment"], "ind_fintech"⟩,
  ⟨"healthtech", starting alnum [ilit "healthtech", phrase ["health", "tech"], ilit "hipaa",
    ilit "ehr", ilit "telehealth", ilit "clinical"], "ind_health"⟩,
  ⟨"devtools", starting alnum [phrase ["developer", "tool"], ilit "devtool",
    phrase ["api", "platform"], ilit "sdk", ilit "infrastructure"], "ind_devtools"⟩,
  ⟨"cybersecurity", starting alnum [ilit "cybersecurity", phrase ["threat", "detection"],
    ilit "endpoint", ilit "siem", ilit "xdr"], "ind_cyber"⟩,
  ⟨"edtech", starting alnum [ilit "edtech", phrase ["education", "technology"],
    seqs [ilit "e", opt (lit "-"), ilit "learning"], ilit "lms"], "ind_edtech"⟩,
  ⟨"martech", starting alnum [ilit "martech", phrase ["marketing", "tech"],
    phrase ["analytics", "platform"], ilit "crm"], "ind_martech"⟩,
  ⟨"saas", bounded alnum (alts [ilit "saas", phrase ["software", "as", "a", "service"],
    phrase ["cloud", "platform"]]), "ind_saas"⟩,
  ⟨"ecommerce", starting alnum [seqs [ilit "e", opt (lit "-"), ilit "commerce"],
    phrase ["online", "store"], ilit "shopify", ilit "marketplace"], "ind_ecomm"⟩]

def b2bPatterns : List (Rule ℚ) := [
  ⟨3 / 10, starting alnum [ilit "enterprise", ilit "b2b", phrase ["business", "customer"],
    ilit "vendor", ilit "procurement"], "b2b_enterprise"⟩,
  ⟨2 / 10, starting alnum [ilit "api", ilit "sdk", ilit "integration", ilit "developer",
    ilit "platform"], "b2b_platform"⟩,
  ⟨-(3 / 10), starting alnum [ilit "consumer", ilit "b2c", phrase ["retail", "customer"],
    phrase ["download", "the", "app"]], "b2c_consumer"⟩]

def enterpriseMotionPatterns : List (Rule ℚ) := [
  ⟨25 / 100, starting alnum [seqs [ilit "enterprise", spaces, alts [ilit "plan", ilit "tier",
    ilit "grade", ilit "customer", ilit "deal"]]], "ent_plan"⟩,
  ⟨20 / 100, starting alnum [phrase ["soc", "2"], phrase ["iso", "27001"], ilit "compliance",
    phrase ["security", "review"]], "ent_compliance"⟩,
  ⟨20 / 100, starting alnum [phrase ["sales", "team"], phrase ["account", "executive"],
    phrase ["demo", "request"]], "ent_sales_team"⟩,
  ⟨15 / 100, starting alnum [phrase ["custom", "pricing"], phrase ["contact", "sales"],
    phrase ["talk", "to", "sales"]], "ent_custom_price"⟩]

def productTypePatterns : List (Rule String) := [
  ⟨"platform", starting alnum [ilit "platform", ilit "infrastructure", ilit "cloud"],
    "prod_platform"⟩,
  ⟨"tool", starting alnum [ilit "tool", ilit "app", ilit "widget", ilit "extension",
    ilit "plugin"], "prod_tool"⟩,
  ⟨"marketplace", starting alnum [ilit "marketplace", ilit "exchange", ilit "aggregator"],
    "prod_marketplace"⟩,
  ⟨"service", starting alnum [ilit "consulting", ilit "agency", ilit "services",
    ilit "managed"], "prod_service"⟩]

end Tables

def firstRule {α : Type} (rules : List (Rule α)) (text : List Char) : Option (Rule α) :=
  rules.find? fun r => found r.pattern text

def ruleValue (rule : Option (Rule String)) : String := (rule.map Rule.value).getD "unknown"

def matching {α : Type} (rules : List (Rule α)) (text : List Char) : List (Rule α) :=
  rules.filter fun r => found r.pattern text

def deltaScore (start : ℚ) (rules : List (Rule ℚ)) (text : List Char) : ℚ :=
  max 0 (min 1 (start + ((matching rules text).map Rule.value).sum))

def combinedText (text : String) (jobTitles : Option (List String)) : List Char :=
  match jobTitles with
  | none | some [] => text.toList
  | some titles => (text ++ " " ++ " ".intercalate titles).toList

def estimateFirmographics (fmt : NumberFormat) (alnum digit : Char → Bool) (text : String)
    (_domain : String := "") (jobTitles : Option (List String) := none) : FirmographicEstimate :=
  let combined := combinedText text jobTitles
  let size := firstRule (sizePatterns alnum digit) combined
  let industry := firstRule (industryPatterns alnum) combined
  let b2bScore := deltaScore (5 / 10) (b2bPatterns alnum) combined
  let entScore := deltaScore 0 (enterpriseMotionPatterns alnum) combined
  let product := firstRule (productTypePatterns alnum) combined
  let rules := size.toList.map Rule.ruleId ++ industry.toList.map Rule.ruleId ++
    (matching (b2bPatterns alnum) combined).map Rule.ruleId ++
    (matching (enterpriseMotionPatterns alnum) combined).map Rule.ruleId ++
    product.toList.map Rule.ruleId
  let confidence : ℚ := min (3 / 10 + 1 / 10 * rules.length) (95 / 100)
  let sizeBand := ruleValue size
  let parts := (if sizeBand ≠ "unknown" then ["Size: " ++ sizeBand] else []) ++
    (if ruleValue industry ≠ "unknown" then ["Industry: " ++ ruleValue industry] else []) ++
    ["B2B likelihood: " ++ fmt.percent b2bScore, "Enterprise motion: " ++ fmt.percent entScore]
  { sizeBand := sizeBand
    industry := ruleValue industry
    isB2b := roundTo 2 b2bScore
    enterpriseMotion := roundTo 2 entScore
    productType := ruleValue product
    confidence := roundTo 2 confidence
    matchedRules := rules
    explanation := "; ".intercalate parts }

theorem deltaScore_bounds (start : ℚ) (rules : List (Rule ℚ)) (text : List Char) :
    0 ≤ deltaScore start rules text ∧ deltaScore start rules text ≤ 1 :=
  ⟨le_max_left _ _, max_le zero_le_one (min_le_left _ _)⟩

theorem roundTo_unit {x : ℚ} (h : 0 ≤ x ∧ x ≤ 1) (decimals : ℕ) :
    0 ≤ roundTo decimals x ∧ roundTo decimals x ≤ 1 := by
  constructor
  · rw [← roundTo_zero (R := ℚ) decimals]
    exact roundTo_mono decimals h.1
  · rw [← roundTo_one (R := ℚ) decimals]
    exact roundTo_mono decimals h.2

variable (fmt : NumberFormat) (alnum digit : Char → Bool) (text domain : String)
  (jobTitles : Option (List String))

theorem estimate_likelihoods :
    let e := estimateFirmographics fmt alnum digit text domain jobTitles
    (0 ≤ e.isB2b ∧ e.isB2b ≤ 1) ∧ 0 ≤ e.enterpriseMotion ∧ e.enterpriseMotion ≤ 1 :=
  ⟨roundTo_unit (deltaScore_bounds _ _ _) 2, roundTo_unit (deltaScore_bounds _ _ _) 2⟩

def Rule.entry {α : Type} (r : Rule α) : String × Regex Char := (r.ruleId, r.pattern)

def patternTable (alnum digit : Char → Bool) : List (String × Regex Char) :=
  (sizePatterns alnum digit ++ industryPatterns alnum ++ productTypePatterns alnum).map
    Rule.entry ++ (b2bPatterns alnum ++ enterpriseMotionPatterns alnum).map Rule.entry

theorem firstRule_found {α : Type} {rules : List (Rule α)} {text : List Char} {id : String}
    (h : id ∈ (firstRule rules text).toList.map Rule.ruleId) :
    ∃ r ∈ rules, r.ruleId = id ∧ found r.pattern text = true := by
  obtain ⟨r, hr, hid⟩ := List.mem_map.1 h
  have hfind : rules.find? (fun r => found r.pattern text) = some r := Option.mem_toList.1 hr
  exact ⟨r, List.mem_of_find?_eq_some hfind, hid,
    List.find?_some (p := fun r : Rule α => found r.pattern text) hfind⟩

theorem matching_found {α : Type} {rules : List (Rule α)} {text : List Char} {id : String}
    (h : id ∈ (matching rules text).map Rule.ruleId) :
    ∃ r ∈ rules, r.ruleId = id ∧ found r.pattern text = true := by
  obtain ⟨r, hr, hid⟩ := List.mem_map.1 h
  obtain ⟨hmem, hfound⟩ := List.mem_filter.1 hr
  exact ⟨r, hmem, hid, hfound⟩

theorem matchedRules_found {id : String}
    (h : id ∈ (estimateFirmographics fmt alnum digit text domain jobTitles).matchedRules) :
    ∃ pattern, (id, pattern) ∈ patternTable alnum digit ∧
      found pattern (combinedText text jobTitles) = true := by
  have hstring : ∀ {rules : List (Rule String)},
      rules ⊆ sizePatterns alnum digit ++ industryPatterns alnum ++ productTypePatterns alnum →
      (∃ r ∈ rules, r.ruleId = id ∧ found r.pattern (combinedText text jobTitles) = true) →
      ∃ pattern, (id, pattern) ∈ patternTable alnum digit ∧
        found pattern (combinedText text jobTitles) = true := by
    rintro rules hsub ⟨r, hr, rfl, hfound⟩
    exact ⟨r.pattern, List.mem_append_left _ (List.mem_map.2 ⟨r, hsub hr, rfl⟩), hfound⟩
  have hdelta : ∀ {rules : List (Rule ℚ)},
      rules ⊆ b2bPatterns alnum ++ enterpriseMotionPatterns alnum →
      (∃ r ∈ rules, r.ruleId = id ∧ found r.pattern (combinedText text jobTitles) = true) →
      ∃ pattern, (id, pattern) ∈ patternTable alnum digit ∧
        found pattern (combinedText text jobTitles) = true := by
    rintro rules hsub ⟨r, hr, rfl, hfound⟩
    exact ⟨r.pattern, List.mem_append_right _ (List.mem_map.2 ⟨r, hsub hr, rfl⟩), hfound⟩
  simp only [estimateFirmographics, List.mem_append] at h
  rcases h with (((h | h) | h) | h) | h
  · exact hstring (fun _ hr => by simp [hr]) (firstRule_found h)
  · exact hstring (fun _ hr => by simp [hr]) (firstRule_found h)
  · exact hdelta (List.subset_append_left _ _) (matching_found h)
  · exact hdelta (List.subset_append_right _ _) (matching_found h)
  · exact hstring (List.subset_append_right _ _) (firstRule_found h)

end TrustCopilot.Firmographics
