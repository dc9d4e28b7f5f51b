import TrustCopilot.MailText
import TrustCopilot.Sending
import Mathlib.Data.Finset.Insert

/-! The inbox ingestor: threads are resolved from message ids, accounts and campaigns from the
thread. `sha256Hex` stands for SHA-256 in hexadecimal. -/
namespace TrustCopilot.Inbox

open TrustCopilot.OrderedDict
open TrustCopilot.MailText (stripQuotedContent)
open TrustCopilot.Sending (takeChars)

structure InboundMessage where
  messageId : String
  fromEmail : String
  bodyRaw : String
  references : List String := []
  inReplyTo : String := ""
  attachments : List String := []
  deriving DecidableEq, Repr

structure ProcessedReply where
  messageId : String
  threadId : String
  fromEmail : String
  cleanBody : String
  isDuplicate : Bool := false
  accountId : String := ""
  contactId : String := ""
  campaignId : String := ""
  attachmentKeys : List String := []
  deriving DecidableEq, Repr

/-- Accounts and campaigns are kept by thread id, threads by message id. -/
structure InboxIngestor where
  seenIds : Finset String
  threadMap : Dict String String
  accountMap : Dict String String
  contactMap : Dict String String
  campaignMap : Dict String String
  deriving DecidableEq

def InboxIngestor.new : InboxIngestor := ⟨∅, Dict.empty, Dict.empty, Dict.empty, Dict.empty⟩

def registerOutbound (ing : InboxIngestor)
    (messageId threadId accountId contactId campaignId : String) : InboxIngestor :=
  { ing with
    threadMap := ing.threadMap.set messageId threadId
    contactMap :=
      if contactId ≠ "" ∧ '@' ∈ contactId.toList then ing.contactMap.set contactId contactId
      else ing.contactMap
    accountMap :=
      if accountId ≠ "" then ing.accountMap.set threadId accountId else ing.accountMap
    campaignMap :=
      if campaignId ≠ "" then ing.campaignMap.set threadId campaignId else ing.campaignMap }

section Processing

variable (sha256Hex : String → String)

def resolveThread (ing : InboxIngestor) (msg : InboundMessage) : String :=
  match if msg.inReplyTo = "" then none else ing.threadMap.get? msg.inReplyTo with
  | some threadId => threadId
  | none =>
    match msg.references.findSome? fun ref => ing.threadMap.get? ref with
    | some threadId => threadId
    | none => "thread_" ++ takeChars 12 (sha256Hex msg.fromEmail)

def process (ing : InboxIngestor) (msg : InboundMessage) : InboxIngestor × ProcessedReply :=
  if msg.messageId ∈ ing.seenIds then
    (ing, { messageId := msg.messageId
            threadId := ""
            fromEmail := msg.fromEmail
            cleanBody := ""
            isDuplicate := true })
  else
    let threadId := resolveThread sha256Hex ing msg
    ({ ing with
       seenIds := insert msg.messageId ing.seenIds
       threadMap := ing.threadMap.set msg.messageId threadId },
     { messageId := msg.messageId
       threadId := threadId
       fromEmail := msg.fromEmail
       cleanBody := stripQuotedContent msg.bodyRaw
       accountId := (ing.accountMap.get? threadId).getD ""
       contactId := (ing.contactMap.get? msg.fromEmail).getD ""
       campaignId := (ing.campaignMap.get? threadId).getD ""
       attachmentKeys := msg.attachments.map fun a =>
         "attachments/" ++ threadId ++ "/" ++ takeChars 12 (sha256Hex a) })

variable {sha256Hex}

/-- A reply to a known message belongs to the thread of that message. -/
theorem resolveThread_reply {ing : InboxIngestor} {msg : InboundMessage} {threadId : String}
    (hne : msg.inReplyTo ≠ "") (h : ing.threadMap.get? msg.inReplyTo = some threadId) :
    resolveThread sha256Hex ing msg = threadId := by
  simp [resolveThread, hne, h]

theorem process_fresh {ing : InboxIngestor} {msg : InboundMessage}
    (h : msg.messageId ∉ ing.seenIds) :
    (process sha256Hex ing msg).2.accountId =
      (ing.accountMap.get? (resolveThread sha256Hex ing msg)).getD "" ∧
    (process sha256Hex ing msg).2.campaignId =
      (ing.campaignMap.get? (resolveThread sha256Hex ing msg)).getD "" := by
  rw [process, if_neg h]
  exact ⟨rfl, rfl⟩

@[simp] theorem process_accountMap (ing : InboxIngestor) (msg : InboundMessage) :
    (process sha256Hex ing msg).1.accountMap = ing.accountMap := by
  rw [process]
  split <;> rfl

@[simp] theorem process_campaignMap (ing : InboxIngestor) (msg : InboundMessage) :
    (process sha256Hex ing msg).1.campaignMap = ing.campaignMap := by
  rw [process]
  split <;> rfl

theorem process_threadMap_other (ing : InboxIngestor) {msg : InboundMessage} {k : String}
    (h : k ≠ msg.messageId) :
    (process sha256Hex ing msg).1.threadMap.get? k = ing.threadMap.get? k := by
  rw [process]
  split
  · rfl
  · exact Dict.get?_set_other _ h _

theorem process_duplicate {ing : InboxIngestor} {msg : InboundMessage}
    (h : msg.messageId ∈ ing.seenIds) :
    (process sha256Hex ing msg).1 = ing ∧
      (process sha256Hex ing msg).2.isDuplicate = true := by
  rw [process, if_pos h]
  exact ⟨rfl, rfl⟩

end Processing

end TrustCopilot.Inbox
