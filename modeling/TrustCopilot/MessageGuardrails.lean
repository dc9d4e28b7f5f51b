import TrustCopilot.Library.PyRegex
import TrustCopilot.Library.RegexMatches
import TrustCopilot.Library.Rounding
import Mathlib.Data.Rat.Floor

/-! The guardrails of a message. Of each pattern of claims the first phrase in the body is
compared with the facts, and the phrases behind it are not. -/
namespace TrustCopilot.MessageGuardrails

open TrustCopilot.PyRegex
open TrustCopilot.PyText
open TrustCopilot.RegexSearch
open TrustCopilot.Rounding

structure GuardrailResult where
  passed : Bool
  failures : List String
  warnings : List String
  deriving DecidableEq, Repr

def formatWhole (x : ℚ) : String :=
  if x < 0 ∧ roundHalfEven x = 0 then "-0" else toString (roundHalfEven x)

def checkStaleness (triggerAgeDays : ℚ) (maxAge : ℚ := 90) : List String :=
  if maxAge < triggerAgeDays then
    ["Stale trigger: " ++ formatWhole triggerAgeDays ++ " days old (max " ++
      formatWhole maxAge ++ ")"]
  else []

def checkDomainDuplicate (recipientDomain : String) (recentDomains : List String) :
    List String :=
  if recipientDomain ∈ recentDomains then
    ["Duplicate domain: already sent to " ++ recipientDomain ++ " recently"]
  else []

/-- What the patterns and the messages take from the interpreter: `str.isalnum` and the decimal
digits outside ASCII, `str.lower`, and how a set of texts is written. -/
structure Interpreter where
  alnum : Char → Bool
  digit : Char → Bool
  py : StrLower
  showSet : List String → String

section Guardrails

variable (interp : Interpreter)

/-- `UNSUPPORTED_CLAIMS`, under `re.I`. -/
def unsupportedClaims : List (Regex Char) :=
  [bounded interp.alnum (alts [seqs [ilit "recently", spaces, ilit "raised"],
      seqs [ilit "just", spaces, ilit "announced"],
      seqs [ilit "recently", spaces, ilit "launched"]]),
    bounded interp.alnum (alts
      [seqs [ilit "your", spaces, ilit "team", spaces, ilit "of", spaces, digits interp.digit],
        seqs [ilit "you", spaces, ilit "have", spaces, digits interp.digit, spaces,
          ilit "employees"]])]

def factKeywords (groundingFacts : List String) : List String :=
  groundingFacts.flatMap fun fact => (words (interp.py.lower fact)).filter (3 < ·.length)

def claimWords (claim : String) : List String :=
  ((words claim).filter (3 < ·.length)).map interp.py.lower

/-- `claim_words & fact_keywords` has a word. -/
def supported (groundingFacts : List String) (claim : String) : Bool :=
  (claimWords interp claim).any fun w => w ∈ factKeywords interp groundingFacts

/-- `m.group(0)` of the search, as far as it is not supported. -/
def unsupportedFirst (body : String) (groundingFacts : List String) (pattern : Regex Char) :
    Option String :=
  ((firstMatch pattern none body.toList).map fun m => String.ofList m.2).filter fun claim =>
    !supported interp groundingFacts claim

def checkGrounding (body : String) (groundingFacts : List String) : List String :=
  ((unsupportedClaims interp).filterMap (unsupportedFirst interp body groundingFacts)).map
    fun claim => "Unsupported claim: '" ++ claim ++ "' not in grounding facts"

def frameworks : Regex Char :=
  bounded interp.alnum (alts [seqs [ilit "soc", spaces, ilit "2"],
    seqs [ilit "iso", spaces, ilit "27001"], ilit "hipaa", ilit "gdpr"])

/-- `set(re.findall(..))`: the pattern's one group is what stands between its word boundaries. -/
def frameworksIn (text : String) : List String :=
  ((findAll (frameworks interp) text.toList).map String.ofList).dedup

-- the test for "not interested" has no effect in the source
def checkThreadContradiction (body : String) (priorMessages : List String) : List String :=
  priorMessages.flatMap fun prior =>
    let newClaims := frameworksIn interp body
    let contradictions := (frameworksIn interp prior).filter (· ∉ newClaims)
    if contradictions ≠ [] ∧ newClaims ≠ [] then
      ["Prior thread mentioned " ++ interp.showSet contradictions ++
        " but new message doesn't — potential inconsistency"]
    else []

/-- The other arguments of `run_guardrails`; `None` stands for no domains and no messages. -/
structure SendContext where
  triggerAgeDays : ℚ := 0
  recipientDomain : String := ""
  recentDomains : List String := []
  priorMessages : List String := []
  deriving DecidableEq, Repr

def failuresOf (body : String) (groundingFacts : List String) (ctx : SendContext) :
    List String :=
  checkGrounding interp body groundingFacts ++ checkStaleness ctx.triggerAgeDays ++
    checkDomainDuplicate ctx.recipientDomain ctx.recentDomains

def runGuardrails (body : String) (groundingFacts : List String) (ctx : SendContext) :
    GuardrailResult where
  passed := (failuresOf interp body groundingFacts ctx).length = 0
  failures := failuresOf interp body groundingFacts ctx
  warnings := checkThreadContradiction interp body ctx.priorMessages

end Guardrails

section Statements

variable (interp : Interpreter) (body : String) (groundingFacts : List String) (ctx : SendContext)

/-- A phrase of the body that the pattern matches, behind `s`. -/
def Phrase (pattern : Regex Char) (s m : List Char) : Prop := Occurs pattern body.toList s m

def Supported (m : List Char) : Prop :=
  supported interp groundingFacts (String.ofList m) = true

def Grounded : Prop :=
  (runGuardrails interp body groundingFacts ctx).passed = true →
    ∀ pattern ∈ unsupportedClaims interp, ∀ s m, Phrase body pattern s m →
      Supported interp groundingFacts m

def IsFirst (pattern : Regex Char) (s m : List Char) : Prop :=
  firstMatch pattern none body.toList = some (s.length, m)

/-- The age or the domain stops the message, or the first phrase of some pattern does. -/
def Stopped : Prop :=
  90 < ctx.triggerAgeDays ∨ ctx.recipientDomain ∈ ctx.recentDomains ∨
  ∃ pattern ∈ unsupportedClaims interp, ∃ s m, Phrase body pattern s m ∧ IsFirst body pattern s m ∧
    ¬ Supported interp groundingFacts m

/-- No phrase behind the first of its pattern lacks a word of the facts. -/
def RestSupported : Prop :=
  ∀ pattern ∈ unsupportedClaims interp, ∀ s m, Phrase body pattern s m →
    ¬ IsFirst body pattern s m → Supported interp groundingFacts m

end Statements

variable {interp : Interpreter} {body : String} {groundingFacts : List String}
  {ctx : SendContext}

theorem checkStaleness_eq_nil {age : ℚ} : checkStaleness age = [] ↔ ¬ 90 < age := by
  rw [checkStaleness]
  split
  · next h => simp [h]
  · next h => simp [h]

theorem checkDomainDuplicate_eq_nil {domain : String} {recent : List String} :
    checkDomainDuplicate domain recent = [] ↔ domain ∉ recent := by
  rw [checkDomainDuplicate]
  split
  · next h => simp [h]
  · next h => simp [h]

/-- A pattern reports nothing exactly if its first phrase, should it have one, is supported. -/
theorem unsupportedFirst_eq_none {pattern : Regex Char} :
    unsupportedFirst interp body groundingFacts pattern = none ↔
      ∀ s m, Phrase body pattern s m → IsFirst body pattern s m →
        Supported interp groundingFacts m := by
  rw [unsupportedFirst]
  cases hfirst : firstMatch pattern none body.toList with
  | none =>
    refine iff_of_true rfl fun s m _ h => ?_
    rw [IsFirst, hfirst] at h
    cases h
  | some found =>
    obtain ⟨n, m⟩ := found
    obtain ⟨s, rfl, hphrase⟩ := firstMatch_occurs hfirst
    rw [Option.map_some, Option.filter_some]
    constructor
    · intro hnone s' m' _ h
      rw [IsFirst, hfirst, Option.some.injEq, Prod.mk.injEq] at h
      rw [← h.2, Supported]
      by_contra hsupported
      simp [hsupported] at hnone
    · intro hall
      have hsupported : supported interp groundingFacts (String.ofList m) = true :=
        hall s m hphrase hfirst
      simp [hsupported]

theorem passed_iff :
    (runGuardrails interp body groundingFacts ctx).passed = true ↔
      ¬ Stopped interp body groundingFacts ctx := by
  have hgrounding : checkGrounding interp body groundingFacts = [] ↔
      ¬ ∃ pattern ∈ unsupportedClaims interp, ∃ s m, Phrase body pattern s m ∧
        IsFirst body pattern s m ∧ ¬ Supported interp groundingFacts m := by
    rw [checkGrounding, List.map_eq_nil_iff, List.filterMap_eq_nil_iff]
    simp only [unsupportedFirst_eq_none, not_exists, not_and, not_not]
  rw [runGuardrails, decide_eq_true_eq, List.length_eq_zero_iff, failuresOf,
    List.append_eq_nil_iff, List.append_eq_nil_iff, hgrounding, checkStaleness_eq_nil,
    checkDomainDuplicate_eq_nil, Stopped, not_or, not_or]
  constructor
  · rintro ⟨⟨hfirst, hage⟩, hdomain⟩
    exact ⟨hage, hdomain, hfirst⟩
  · rintro ⟨hage, hdomain, hfirst⟩
    exact ⟨⟨hfirst, hage⟩, hdomain⟩

/-- A body of which no phrase is supported does not pass. -/
theorem unsupported_stopped {pattern : Regex Char} (hpattern : pattern ∈ unsupportedClaims interp)
    {s m : List Char} (hphrase : Phrase body pattern s m)
    (h : ∀ s m, Phrase body pattern s m → ¬ Supported interp groundingFacts m) :
    (runGuardrails interp body groundingFacts ctx).passed = false := by
  obtain ⟨n, u, hfirst, -⟩ := hphrase.firstMatch
  obtain ⟨s', rfl, hoccurs⟩ := firstMatch_occurs hfirst
  rw [← Bool.not_eq_true, passed_iff, not_not]
  exact Or.inr (Or.inr ⟨pattern, hpattern, s', u, hoccurs, hfirst, h s' u hoccurs⟩)

/-- A message that passes is grounded exactly if what comes after the first phrase of a pattern
is; a message that is stopped need not be. -/
theorem grounded_iff (interp : Interpreter) (body : String) (groundingFacts : List String)
    (ctx : SendContext) : Grounded interp body groundingFacts ctx ↔
      Stopped interp body groundingFacts ctx ∨ RestSupported interp body groundingFacts := by
  rw [Grounded, passed_iff]
  by_cases hstopped : Stopped interp body groundingFacts ctx
  · exact iff_of_true (fun h => absurd hstopped h) (Or.inl hstopped)
  · rw [or_iff_right hstopped]
    constructor
    · intro hgrounded pattern hpattern s m hphrase _
      exact hgrounded hstopped pattern hpattern s m hphrase
    · intro hrest _ pattern hpattern s m hphrase
      by_cases hfirst : IsFirst body pattern s m
      · by_contra hunsupported
        exact hstopped (Or.inr (Or.inr
          ⟨pattern, hpattern, s, m, hphrase, hfirst, hunsupported⟩))
      · exact hrest pattern hpattern s m hphrase hfirst

def plainInterpreter : Interpreter where
  alnum _ := false
  digit _ := false
  py := asciiStrLower
  showSet _ := ""

def twoClaims : String := "You recently raised a round and just announced SOC 2"

theorem second_claim_passes :
    (runGuardrails plainInterpreter twoClaims ["recently raised a round"] {}).passed = true ∧
    ¬ Grounded plainInterpreter twoClaims ["recently raised a round"] {} := by
  have hpassed : (runGuardrails plainInterpreter twoClaims
      ["recently raised a round"] {}).passed = true := by decide +kernel
  have hmatch : ((unsupportedClaims plainInterpreter).any fun pattern =>
      (ends pattern ⟨"You recently raised a round and ".toList.getLast?,
        "just announced".toList ++ " SOC 2".toList⟩).any fun d =>
          d.rest = " SOC 2".toList) = true := by decide +kernel
  obtain ⟨pattern, hpattern, hends⟩ := List.any_eq_true.1 hmatch
  obtain ⟨d, hd, hrest⟩ := List.any_eq_true.1 hends
  have hrest : d.rest = " SOC 2".toList := of_decide_eq_true hrest
  refine ⟨hpassed, fun hgrounded => ?_⟩
  have hsupported : Supported plainInterpreter ["recently raised a round"]
      "just announced".toList := by
    apply hgrounded hpassed pattern hpattern "You recently raised a round and ".toList
    refine ⟨d, ?_, ?_⟩
    · rw [hrest]
      decide +kernel
    · rw [hrest]
      exact mem_ends_iff.1 hd
  rw [Supported] at hsupported
  revert hsupported
  decide +kernel

end TrustCopilot.MessageGuardrails
