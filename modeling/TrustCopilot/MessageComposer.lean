import TrustCopilot.Library.PyRegex
import TrustCopilot.Library.Phrases

/-! The composer of messages and its validator. The validator reads from two flags of the message
whether its body has the footer and a way to unsubscribe; the composer sets them by what it has
written. -/
namespace TrustCopilot.MessageComposer

open TrustCopilot.Phrases
open TrustCopilot.PyRegex
open TrustCopilot.PyText
open TrustCopilot.RegexSearch

inductive CTAType where
  | uploadQuestionnaire
  | sendProofPage
  | sendDetails
  | bookCall
  | noCta
  deriving DecidableEq, Repr

structure MessageStrategy where
  painFraming : String
  proofHook : String
  ctaType : CTAType
  objectionPrehandle : String
  groundingFacts : List String
  deriving DecidableEq, Repr

structure ComposedMessage where
  subject : String
  bodyText : String
  triggerFactsUsed : List String
  painAngle : String
  ctaType : CTAType
  variantType : String
  hasFooter : Bool := false
  hasUnsubscribe : Bool := false
  deriving DecidableEq, Repr

structure ValidationResult where
  valid : Bool
  errors : List String
  deriving DecidableEq, Repr

def requiredFooter : String := "[Company Name] | [Address]"
def requiredUnsub : String := "unsubscribe"
def maxSubjectLength : ℕ := 80
def maxBodyLength : ℕ := 1200
def minBodyLength : ℕ := 50

/-- A pattern of `PROHIBITED_CLAIMS` under `re.I`, with its text. -/
structure ProhibitedClaim where
  pattern : String
  regex : Regex Char

section Validator

variable (alnum : Char → Bool)

def prohibitedClaims : List ProhibitedClaim :=
  [⟨"\\b(guarantee|100%|never\\s*fail|zero\\s*risk|perfect)\\b",
      bounded alnum (alts [ilit "guarantee", ilit "100%", seqs [ilit "never", spaces, ilit "fail"],
        seqs [ilit "zero", spaces, ilit "risk"], ilit "perfect"])⟩,
    ⟨"\\b(best\\s*in\\s*class|industry\\s*leading|#1\\s*rated)\\b",
      bounded alnum (alts [seqs [ilit "best", spaces, ilit "in", spaces, ilit "class"],
        seqs [ilit "industry", spaces, ilit "leading"], seqs [ilit "#1", spaces, ilit "rated"]])⟩]

/-- `pattern.search(msg.body_text) or pattern.search(msg.subject)` -/
def claimed (msg : ComposedMessage) (claim : ProhibitedClaim) : Bool :=
  found claim.regex msg.bodyText.toList || found claim.regex msg.subject.toList

/-- `errors.append(text)` under a condition. -/
def report (p : Prop) [Decidable p] (text : String) : List String := if p then [text] else []

def errorsOf (msg : ComposedMessage) : List String :=
  report (maxSubjectLength < msg.subject.length) ("Subject exceeds " ++ toString maxSubjectLength ++
    " chars: " ++ toString msg.subject.length) ++
  report (msg.subject = "") "Subject is empty" ++
  report (maxBodyLength < msg.bodyText.length) ("Body exceeds " ++ toString maxBodyLength ++
    " chars: " ++ toString msg.bodyText.length) ++
  report (msg.bodyText.length < minBodyLength) ("Body too short: " ++
    toString msg.bodyText.length ++ " chars (min " ++ toString minBodyLength ++ ")") ++
  report (msg.triggerFactsUsed = []) "No trigger facts cited — message not grounded" ++
  ((prohibitedClaims alnum).filter (claimed msg)).map
    (fun claim => "Prohibited claim detected: " ++ claim.pattern) ++
  report (msg.hasFooter = false) "Missing required footer content" ++
  report (msg.hasUnsubscribe = false) "Missing unsubscribe mechanism" ++
  report (msg.ctaType = .noCta ∧ msg.variantType = "first_touch") "First touch requires a CTA"

def validateMessage (msg : ComposedMessage) : ValidationResult where
  valid := (errorsOf alnum msg).length = 0
  errors := errorsOf alnum msg

end Validator

def ctaText : CTAType → String
  | .uploadQuestionnaire =>
    "Would it help if you could upload a questionnaire and get a response in minutes?"
  | .sendProofPage => "I can send a sample proof page showing how this works in practice."
  | .sendDetails => "Happy to share more details if useful."
  | .bookCall => "Would a quick call this week be helpful?"
  | .noCta => ""

def opening (strategy : MessageStrategy) (companyName recipientName : String) : List String :=
  ["Hi " ++ recipientName ++ ","] ++
  (if strategy.proofHook ≠ "" then
    ["\n" ++ strategy.proofHook ++ ", I thought this might be relevant."]
  else ["\nI noticed " ++ companyName ++ " might be " ++ strategy.painFraming ++ "."]) ++
  ["\nMany teams in similar situations have found a faster path through this."] ++
  (if strategy.objectionPrehandle ≠ "" then ["\n" ++ strategy.objectionPrehandle] else []) ++
  (if ctaText strategy.ctaType ≠ "" then ["\n" ++ ctaText strategy.ctaType] else []) ++
  ["\nBest,\n[Sender Name]", "\n---\n" ++ requiredFooter]

def optOut : String :=
  "If you'd prefer not to hear from us, reply '" ++ requiredUnsub ++
    "' and we'll remove you immediately."

def composeMessage (py : StrLower) (strategy : MessageStrategy)
    (companyName recipientName : String) (variantType : String := "first_touch") :
    ComposedMessage :=
  let subject := "Quick question about " ++ strategy.painFraming
  let body := "\n".intercalate (opening strategy companyName recipientName ++ [optOut])
  { subject :=
      if maxSubjectLength < subject.length then
        String.ofList (subject.toList.take (maxSubjectLength - 3)) ++ "..."
      else subject
    bodyText := body
    triggerFactsUsed := strategy.groundingFacts
    painAngle := strategy.painFraming
    ctaType := strategy.ctaType
    variantType := variantType
    hasFooter := isIn requiredFooter body
    hasUnsubscribe := isIn (py.lower requiredUnsub) (py.lower body) }

section Statements

variable (alnum : Char → Bool) (py : StrLower) (msg : ComposedMessage)

def HasFooter : Prop := isIn requiredFooter msg.bodyText

def HasUnsubscribe : Prop := isIn requiredUnsub (py.lower msg.bodyText)

instance : Decidable (HasFooter msg) := inferInstanceAs (Decidable (isIn _ _))

instance : Decidable (HasUnsubscribe py msg) := inferInstanceAs (Decidable (isIn _ _))

def Sound : Prop :=
  (validateMessage alnum msg).valid = true → HasFooter msg ∧ HasUnsubscribe py msg

/-- No flag of the message is set without what it stands for. -/
def Truthful : Prop :=
  (msg.hasFooter = true → HasFooter msg) ∧ (msg.hasUnsubscribe = true → HasUnsubscribe py msg)

def Rejected : Prop :=
  maxSubjectLength < msg.subject.length ∨ msg.subject = "" ∨
  maxBodyLength < msg.bodyText.length ∨ msg.bodyText.length < minBodyLength ∨
  msg.triggerFactsUsed = [] ∨
  (∃ claim ∈ prohibitedClaims alnum, claimed msg claim = true) ∨
  msg.hasFooter = false ∨ msg.hasUnsubscribe = false ∨
  (msg.ctaType = .noCta ∧ msg.variantType = "first_touch")

end Statements

variable {alnum : Char → Bool} {py : StrLower} {msg : ComposedMessage}

/-! ### The validator -/

theorem report_eq_nil {p : Prop} [Decidable p] {text : String} : report p text = [] ↔ ¬ p := by
  rw [report]
  split
  · next h => simp [h]
  · next h => simp [h]

theorem valid_iff : (validateMessage alnum msg).valid = true ↔ ¬ Rejected alnum msg := by
  have hclaims : ((prohibitedClaims alnum).filter (claimed msg)).map
      (fun claim => "Prohibited claim detected: " ++ claim.pattern) = [] ↔
      ¬ ∃ claim ∈ prohibitedClaims alnum, claimed msg claim = true := by
    simp only [List.map_eq_nil_iff, List.filter_eq_nil_iff, not_exists, not_and]
  rw [validateMessage, Rejected, decide_eq_true_eq, List.length_eq_zero_iff, errorsOf]
  simp only [List.append_eq_nil_iff, report_eq_nil, hclaims, not_or, and_assoc]

/-- The validator is right about a message exactly if the flags are, or if it is rejected for
another reason. -/
theorem sound_iff (alnum : Char → Bool) (py : StrLower) (msg : ComposedMessage) :
    Sound alnum py msg ↔ Truthful py msg ∨ Rejected alnum msg := by
  rw [Sound, valid_iff]
  by_cases hrejected : Rejected alnum msg
  · exact iff_of_true (fun h => absurd hrejected h) (Or.inr hrejected)
  · rw [or_iff_left hrejected]
    constructor
    · intro hsound
      obtain ⟨hfooter, hunsubscribe⟩ := hsound hrejected
      exact ⟨fun _ => hfooter, fun _ => hunsubscribe⟩
    · rintro ⟨hfooter, hunsubscribe⟩ -
      simp only [Rejected, not_or, Bool.not_eq_false] at hrejected
      obtain ⟨-, -, -, -, -, -, hfoot, hunsub, -⟩ := hrejected
      exact ⟨hfooter hfoot, hunsubscribe hunsub⟩

/-! ### The composer -/

theorem lower_unsub (py : StrLower) : py.lower requiredUnsub = requiredUnsub := by
  rw [py.ascii requiredUnsub (by decide)]
  decide

theorem compose_truthful (py : StrLower) (strategy : MessageStrategy)
    (companyName recipientName variantType : String) :
    Truthful py (composeMessage py strategy companyName recipientName variantType) := by
  have hfooter : (composeMessage py strategy companyName recipientName variantType).hasFooter =
      decide (isIn requiredFooter
        (composeMessage py strategy companyName recipientName variantType).bodyText) := by
    rw [composeMessage]
  have hunsubscribe :
      (composeMessage py strategy companyName recipientName variantType).hasUnsubscribe =
      decide (isIn (py.lower requiredUnsub) (py.lower
        (composeMessage py strategy companyName recipientName variantType).bodyText)) := by
    rw [composeMessage]
  rw [Truthful, hfooter, hunsubscribe, decide_eq_true_eq, decide_eq_true_eq, lower_unsub]
  exact ⟨id, id⟩

/-- What is composed always has the footer and the way to unsubscribe, and both flags. -/
theorem compose_complete (py : StrLower) (strategy : MessageStrategy)
    (companyName recipientName variantType : String) :
    (composeMessage py strategy companyName recipientName variantType).hasFooter = true ∧
    (composeMessage py strategy companyName recipientName variantType).hasUnsubscribe = true := by
  constructor
  · have hfooter : requiredFooter.toList <:+: ("\n---\n" ++ requiredFooter).toList := by
      decide +kernel
    apply decide_eq_true
    rw [isIn, String.toList_intercalate]
    refine hfooter.trans (infix_of_mem_joined (List.mem_map_of_mem ?_))
    simp [opening]
  · have hword : requiredUnsub.toList <:+: (asciiLower optOut).toList := by decide +kernel
    have hne : opening strategy companyName recipientName ≠ [] := by simp [opening]
    have hbody : py.lower ("\n".intercalate (opening strategy companyName recipientName ++
        [optOut])) =
        py.lower ("\n".intercalate (opening strategy companyName recipientName)) ++
          "\n" ++ asciiLower optOut := by
      rw [String.intercalate_append_of_ne_nil hne (List.cons_ne_nil _ _),
        String.intercalate_singleton, ← py.ascii optOut (by decide +kernel)]
      exact py.blank ("\n".intercalate (opening strategy companyName recipientName)) optOut '\n'
        (by decide)
    apply decide_eq_true
    rw [lower_unsub, hbody, isIn, String.toList_append]
    exact hword.trans (List.suffix_append _ _).isInfix

def trimmed : ComposedMessage where
  subject := "Quick question about security reviews"
  bodyText := "Hi Bob, would a quick call this week be helpful? Best, Ann"
  triggerFactsUsed := ["soc2_announced"]
  painAngle := "security reviews"
  ctaType := .bookCall
  variantType := "first_touch"
  hasFooter := true
  hasUnsubscribe := true

theorem trimmed_valid :
    validateMessage (fun _ => false) trimmed = ⟨true, []⟩ ∧ ¬ HasFooter trimmed ∧
    ¬ HasUnsubscribe asciiStrLower trimmed ∧ ¬ Sound (fun _ => false) asciiStrLower trimmed := by
  have hvalid : validateMessage (fun _ => false) trimmed = ⟨true, []⟩ := by decide +kernel
  have hfooter : ¬ HasFooter trimmed := by decide +kernel
  refine ⟨hvalid, hfooter, by decide +kernel, fun hsound => hfooter ?_⟩
  exact (hsound (by rw [hvalid])).1

end TrustCopilot.MessageComposer
