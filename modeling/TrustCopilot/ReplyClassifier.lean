import TrustCopilot.MailText
import Mathlib.Data.Rat.Defs

/-! The rules that classify a reply, and what they make of a request to unsubscribe. -/
namespace TrustCopilot.ReplyClassifier

open TrustCopilot.RegexSearch
open TrustCopilot.PyRegex
open TrustCopilot.PyText
open TrustCopilot.MailText

inductive ReplyLabel where
  | interested
  | sendDetails
  | referral
  | wrongPerson
  | notNow
  | legalPrivacy
  | unsubscribe
  | outOfOffice
  | alreadySolved
  | unclear
  deriving DecidableEq, Repr

inductive NextAction where
  | openIntake
  | sendProof
  | sendDetails
  | updateBuyer
  | snooze30
  | snooze90
  | suppressForever
  | followUpReferral
  | noAction
  deriving DecidableEq, Repr

structure ClassificationResult where
  label : ReplyLabel
  confidence : ℚ
  reasoning : String
  nextAction : NextAction
  isOverride : Bool := false
  deriving DecidableEq, Repr

structure OverrideRule where
  label : ReplyLabel
  pattern : Regex Char
  action : NextAction
  reasoning : String

structure ClassificationRule where
  label : ReplyLabel
  pattern : Regex Char
  confidence : ℚ
  action : NextAction
  reasoning : String

section Rules

variable (alnum : Char → Bool)

def unsubscribeRule : OverrideRule where
  label := .unsubscribe
  pattern := bounded alnum (alts [ilit "unsubscribe", phrase ["remove", "me"],
    phrase ["stop", "emailing"], phrase ["opt", "out"], phrase ["take", "me", "off"]])
  action := .suppressForever
  reasoning := "Explicit unsubscribe request — suppress immediately"

def legalPrivacyRule : OverrideRule where
  label := .legalPrivacy
  pattern := bounded alnum (alts [ilit "gdpr", ilit "ccpa", ilit "legal", ilit "attorney",
    ilit "lawyer", phrase ["cease", "and", "desist"], phrase ["privacy", "request"],
    phrase ["delete", "my", "data"]])
  action := .suppressForever
  reasoning := "Legal/privacy concern — suppress immediately"

def overrideRules : List OverrideRule := [unsubscribeRule alnum, legalPrivacyRule alnum]

def outOfOfficeRule : ClassificationRule where
  label := .outOfOffice
  pattern := bounded alnum (alts [
    seqs [phrase ["out", "of"], spaces, opt (seqs [ilit "the", spaces]), ilit "office"],
    ilit "ooo", seqs [ilit "auto", opt (alts [lit "-", lit " "]), ilit "reply"],
    phrase ["on", "vacation"], phrase ["on", "leave"]])
  confidence := 90 / 100
  action := .snooze30
  reasoning := "Auto-reply / out of office detected"

def interestedRule : ClassificationRule where
  label := .interested
  pattern := bounded alnum (alts [ilit "interested",
    seqs [ilit "sound", opt (ilit "s"), spaces, ilit "good"], phrase ["tell", "me", "more"],
    seqs [ilit "let", opt (lit "'"), opt (ilit "s"), spaces,
      alts [ilit "chat", ilit "talk", ilit "connect", ilit "meet"]],
    ilit "schedule",
    seqs [phrase ["set", "up"], spaces, opt (seqs [ilit "a", spaces]),
      alts [ilit "call", ilit "time", ilit "meeting"]]])
  confidence := 80 / 100
  action := .openIntake
  reasoning := "Positive interest signal detected"

def sendDetailsRule : ClassificationRule where
  label := .sendDetails
  pattern := bounded alnum (alts [
    seqs [ilit "send", spaces, opt (seqs [ilit "me", spaces]), ilit "more", spaces,
      alts [ilit "info", ilit "details", ilit "information"]],
    phrase ["learn", "more"], phrase ["more", "details"],
    phrase ["what", "does", "it", "cost"]])
  confidence := 75 / 100
  action := .sendDetails
  reasoning := "Request for more information"

def referralRule : ClassificationRule where
  label := .referral
  pattern := bounded alnum (alts [phrase ["talk", "to"], phrase ["reach", "out", "to"],
    ilit "contact", seqs [ilit "cc", opt (lit "'"), ilit "ing"],
    seqs [ilit "forward", .star dot, ilit "to"], phrase ["right", "person", "is"],
    phrase ["better", "person"]])
  confidence := 70 / 100
  action := .followUpReferral
  reasoning := "Referral to another person"

def wrongPersonRule : ClassificationRule where
  label := .wrongPerson
  pattern := bounded alnum (alts [phrase ["wrong", "person"],
    seqs [ilit "not", spaces, opt (seqs [ilit "the", spaces]),
      alts [ilit "right", ilit "correct"], spaces, ilit "person"],
    seqs [ilit "don", opt (lit "'"), ilit "t", spaces, ilit "handle"],
    seqs [phrase ["not", "my"], spaces,
      alts [ilit "area", ilit "department", ilit "responsibility"]]])
  confidence := 75 / 100
  action := .updateBuyer
  reasoning := "Wrong person indication"

def notNowRule : ClassificationRule where
  label := .notNow
  pattern := bounded alnum (alts [
    seqs [ilit "not", spaces, opt (seqs [ilit "right", spaces]), ilit "now"],
    phrase ["bad", "timing"], phrase ["maybe", "later"],
    seqs [ilit "next", spaces, alts [ilit "quarter", ilit "year", ilit "month"]],
    phrase ["circle", "back"], ilit "revisit"])
  confidence := 70 / 100
  action := .snooze90
  reasoning := "Bad timing — snooze for re-contact"

def alreadySolvedRule : ClassificationRule where
  label := .alreadySolved
  pattern := bounded alnum (alts [
    seqs [ilit "already", spaces,
      alts [ilit "have", ilit "use", ilit "using", ilit "solved", ilit "covered"]],
    seqs [ilit "we", opt (lit "'"), ilit "r", opt (ilit "e"), spaces, ilit "good"],
    seqs [ilit "we", opt (lit "'"), ilit "r", opt (ilit "e"), spaces, ilit "set"],
    phrase ["not", "interested"], seqs [ilit "no", spaces, ilit "thank", opt (ilit "s")],
    phrase ["not", "looking"]])
  confidence := 75 / 100
  action := .snooze90
  reasoning := "Already solved or not interested"

def classificationRules : List ClassificationRule :=
  [outOfOfficeRule alnum, interestedRule alnum, sendDetailsRule alnum, referralRule alnum,
    wrongPersonRule alnum, notNowRule alnum, alreadySolvedRule alnum]

def classifyReply (cleanBody : String) : ClassificationResult :=
  match (overrideRules alnum).find? fun rule => found rule.pattern cleanBody.toList with
  | some rule =>
    { label := rule.label
      confidence := 99 / 100
      reasoning := rule.reasoning
      nextAction := rule.action
      isOverride := true }
  | none =>
    match (classificationRules alnum).find? fun rule => found rule.pattern cleanBody.toList with
    | some rule =>
      { label := rule.label
        confidence := rule.confidence
        reasoning := rule.reasoning
        nextAction := rule.action }
    | none =>
      { label := .unclear
        confidence := 30 / 100
        reasoning := "No clear intent pattern matched"
        nextAction := .noAction }

end Rules

variable {alnum : Char → Bool}

/-- Only the override rules suppress, and all of them do. -/
theorem suppressForever_iff (cleanBody : String) :
    (classifyReply alnum cleanBody).nextAction = .suppressForever ↔
      ∃ rule ∈ overrideRules alnum, found rule.pattern cleanBody.toList = true := by
  have hover : ∀ rule ∈ overrideRules alnum, rule.action = .suppressForever := by
    intro rule h
    simp only [overrideRules, List.mem_cons, List.not_mem_nil, or_false] at h
    rcases h with rfl | rfl <;> rfl
  have hother : ∀ rule ∈ classificationRules alnum, rule.action ≠ .suppressForever := by
    intro rule h
    simp only [classificationRules, List.mem_cons, List.not_mem_nil, or_false] at h
    rcases h with rfl | rfl | rfl | rfl | rfl | rfl | rfl <;> exact nofun
  rw [classifyReply]
  split
  · next rule h =>
    have hmem := List.mem_of_find?_eq_some h
    exact iff_of_true (hover rule hmem) ⟨rule, hmem, by simpa using List.find?_some h⟩
  · next h =>
    have hnone : ¬ ∃ rule ∈ overrideRules alnum, found rule.pattern cleanBody.toList = true := by
      rintro ⟨rule, hmem, hf⟩
      exact List.find?_eq_none.1 h rule hmem hf
    refine iff_of_false ?_ hnone
    split
    · next rule h' => exact hother rule (List.mem_of_find?_eq_some h')
    · exact nofun

def unsubscribeWord (alnum : Char → Bool) : Regex Char := bounded alnum (ilit "unsubscribe")

theorem wordlike_unsubscribe : Wordlike (ilit "unsubscribe") :=
  wordlike_ilit (by decide)

/-- Some line that is not quoted with `>` has the word in it. -/
def SenderUnsubscribes (alnum : Char → Bool) (body : String) : Prop :=
  ∃ line ∈ bodyLines body, line.head? ≠ some '>' ∧ found (unsubscribeWord alnum) line = true

/-- An override phrase stands above the first line that looks quoted and the first sign-off
line of the body. -/
def OverridePhraseKept (alnum : Char → Bool) (body : String) : Prop :=
  ∃ rule ∈ overrideRules alnum,
    found rule.pattern (stripChars (['\n'].intercalate (keptLines body))) = true

theorem kept_unsubscribe_phrase {body : String} {line : List Char} (h : line ∈ keptLines body)
    (hw : found (unsubscribeWord alnum) line = true) : OverridePhraseKept alnum body := by
  refine ⟨unsubscribeRule alnum, List.mem_cons_self, ?_⟩
  exact found_bounded_mono (fun c d hm => .altLeft hm)
    (found_line_in_text wordlike_unsubscribe h hw)

/-- A reply is suppressed when an override phrase stands above its first quoted line and its
first sign-off, and only then; a line up there that asks to unsubscribe is enough. -/
theorem reply_suppressed_iff_phrase_kept (alnum : Char → Bool) (body : String) :
    ((classifyReply alnum (stripQuotedContent body)).nextAction = .suppressForever ↔
      OverridePhraseKept alnum body) ∧
    ∀ line ∈ keptLines body, found (unsubscribeWord alnum) line = true →
      (classifyReply alnum (stripQuotedContent body)).nextAction = .suppressForever := by
  have hiff : (classifyReply alnum (stripQuotedContent body)).nextAction = .suppressForever ↔
      OverridePhraseKept alnum body := by
    rw [suppressForever_iff, stripQuotedContent_eq, String.toList_ofList]
    rfl
  exact ⟨hiff, fun line h hw => hiff.2 (kept_unsubscribe_phrase h hw)⟩

/-- The request stands below the quoted line, and is lost with it. -/
theorem bottom_posted_unsubscribe_lost :
    SenderUnsubscribes (fun _ => false) "> hi\nunsubscribe" ∧
    (classifyReply (fun _ => false) (stripQuotedContent "> hi\nunsubscribe")).nextAction =
      .noAction ∧
    ¬ OverridePhraseKept (fun _ => false) "> hi\nunsubscribe" := by
  have haction : (classifyReply (fun _ => false)
      (stripQuotedContent "> hi\nunsubscribe")).nextAction = .noAction := by decide
  refine ⟨⟨"unsubscribe".toList, by decide, by decide, by decide⟩, haction, fun h => ?_⟩
  rw [OverridePhraseKept] at h
  revert h
  decide

end TrustCopilot.ReplyClassifier
