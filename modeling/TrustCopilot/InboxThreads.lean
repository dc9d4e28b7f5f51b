import TrustCopilot.Inbox
import TrustCopilot.Library.Latest
import TrustCopilot.Library.Trace

/-! Histories of registrations and inbound mail on one ingestor. Both write the same map from
message ids to threads, and inbound ids are whatever the sender put in the header. -/
namespace TrustCopilot.InboxThreads

open TrustCopilot.OrderedDict
open TrustCopilot.Trace
open TrustCopilot.Latest
open TrustCopilot.Sending (takeChars)
open TrustCopilot.Inbox

structure Outbound where
  messageId : String
  threadId : String
  accountId : String := ""
  contactId : String := ""
  campaignId : String := ""
  deriving DecidableEq, Repr

inductive Operation where
  | registerOutbound (out : Outbound)
  | process (msg : InboundMessage)
  deriving DecidableEq, Repr

def Operation.messageId : Operation → String
  | .registerOutbound out => out.messageId
  | .process msg => msg.messageId

def registrations (ops : List Operation) : List Outbound :=
  ops.filterMap fun
    | .registerOutbound out => some out
    | .process _ => none

variable (sha256Hex : String → String)

def next (ing : InboxIngestor) : Operation → InboxIngestor
  | .registerOutbound out =>
    registerOutbound ing out.messageId out.threadId out.accountId out.contactId out.campaignId
  | .process msg => (process sha256Hex ing msg).1

def run (ops : List Operation) : InboxIngestor := runTrace (next sha256Hex) InboxIngestor.new ops

def namedThread (ing : InboxIngestor) (msg : InboundMessage) : Option String :=
  ((if msg.inReplyTo = "" then [] else [msg.inReplyTo]) ++ msg.references).findSome? fun id =>
    ing.threadMap.get? id

def senderThread (msg : InboundMessage) : String :=
  "thread_" ++ takeChars 12 (sha256Hex msg.fromEmail)

def OutboundIdsDistinct (ops : List Operation) : Prop :=
  ((registrations ops).map Outbound.messageId).Nodup

instance (ops : List Operation) : Decidable (OutboundIdsDistinct ops) :=
  inferInstanceAs (Decidable (List.Nodup _))

/-- Processing never moves a known message id to another thread, and after any part of the
history a reply that names an outbound message is attached to its thread. -/
structure ThreadsKept (ops : List Operation) : Prop where
  kept : ∀ before msg, before ++ [.process msg] <+: ops → ∀ id threadId,
    (run sha256Hex before).threadMap.get? id = some threadId →
    (process sha256Hex (run sha256Hex before) msg).1.threadMap.get? id = some threadId
  replies : ∀ before, before <+: ops → ∀ out ∈ registrations before, ∀ msg : InboundMessage,
    msg.messageId ∉ (run sha256Hex before).seenIds →
    msg.inReplyTo ≠ "" → msg.inReplyTo = out.messageId →
    (process sha256Hex (run sha256Hex before) msg).2.threadId = out.threadId

/-- A message that comes in for the first time under an id that is known already belongs to
the thread of that id: by what its headers name, or, if they name nothing known, by its
sender. -/
def OwnThread (ing : InboxIngestor) : Operation → Prop
  | .registerOutbound _ => True
  | .process msg => msg.messageId ∈ ing.seenIds ∨
    ∀ threadId ∈ ing.threadMap.get? msg.messageId,
      namedThread ing msg = some threadId ∨
        namedThread ing msg = none ∧ senderThread sha256Hex msg = threadId

instance (ing : InboxIngestor) (op : Operation) : Decidable (OwnThread sha256Hex ing op) :=
  match op with
  | .registerOutbound _ => isTrue trivial
  | .process _ => inferInstanceAs (Decidable (_ ∨ _))

variable {sha256Hex} {ops : List Operation} {ing : InboxIngestor} {msg : InboundMessage}

theorem resolveThread_eq (ing : InboxIngestor) (msg : InboundMessage) :
    resolveThread sha256Hex ing msg =
      (namedThread ing msg).getD (senderThread sha256Hex msg) := by
  rw [resolveThread, namedThread, List.findSome?_append]
  by_cases hreply : msg.inReplyTo = ""
  · rw [if_pos hreply, if_pos hreply, List.findSome?_nil, Option.none_or]
    cases msg.references.findSome? fun id => ing.threadMap.get? id <;> rfl
  · rw [if_neg hreply, if_neg hreply, List.findSome?_singleton]
    cases ing.threadMap.get? msg.inReplyTo with
    | some threadId => rfl
    | none => cases msg.references.findSome? fun id => ing.threadMap.get? id <;> rfl

theorem resolveThread_eq_iff {threadId : String} :
    resolveThread sha256Hex ing msg = threadId ↔
      namedThread ing msg = some threadId ∨
        namedThread ing msg = none ∧ senderThread sha256Hex msg = threadId := by
  rw [resolveThread_eq]
  cases namedThread ing msg with
  | none => simp
  | some t => simp

theorem process_threadId (h : msg.messageId ∉ ing.seenIds) :
    (process sha256Hex ing msg).2.threadId = resolveThread sha256Hex ing msg := by
  rw [process, if_neg h]

theorem process_threadMap_self (h : msg.messageId ∉ ing.seenIds) :
    (process sha256Hex ing msg).1.threadMap.get? msg.messageId =
      some (resolveThread sha256Hex ing msg) := by
  rw [process, if_neg h]
  exact Dict.get?_set_self _ _ _

/-- Processing keeps every known id exactly when the message belongs to its own id's thread. -/
theorem threads_kept_step_iff (ing : InboxIngestor) (msg : InboundMessage) :
    (∀ id threadId, ing.threadMap.get? id = some threadId →
      (process sha256Hex ing msg).1.threadMap.get? id = some threadId) ↔
      OwnThread sha256Hex ing (.process msg) := by
  by_cases hseen : msg.messageId ∈ ing.seenIds
  · rw [(@process_duplicate sha256Hex _ _ hseen).1]
    exact ⟨fun _ => Or.inl hseen, fun _ _ _ h => h⟩
  · constructor
    · intro hkept
      refine Or.inr fun threadId hknown => ?_
      have hself := hkept msg.messageId threadId hknown
      rw [process_threadMap_self hseen] at hself
      exact resolveThread_eq_iff.1 (Option.some.inj hself)
    · rintro (h | hown) id threadId hknown
      · exact absurd h hseen
      · by_cases hid : id = msg.messageId
        · rw [hid] at hknown ⊢
          rw [process_threadMap_self hseen, resolveThread_eq_iff.2 (hown threadId hknown)]
        · rw [process_threadMap_other ing hid]
          exact hknown

theorem run_concat (ops : List Operation) (op : Operation) :
    run sha256Hex (ops ++ [op]) = next sha256Hex (run sha256Hex ops) op :=
  runTrace_concat InboxIngestor.new ops op

theorem next_other {op : Operation} {id : String} (h : id ≠ op.messageId) :
    (next sha256Hex ing op).threadMap.get? id = ing.threadMap.get? id ∧
      (id ∈ (next sha256Hex ing op).seenIds ↔ id ∈ ing.seenIds) := by
  cases op with
  | registerOutbound out => exact ⟨Dict.get?_set_other _ h _, Iff.rfl⟩
  | process msg =>
    refine ⟨process_threadMap_other ing h, ?_⟩
    rw [next, process]
    split
    · exact Iff.rfl
    · rw [Finset.mem_insert]
      exact or_iff_right h

@[simp] theorem registrations_register (ops : List Operation) (out : Outbound) :
    registrations (ops ++ [.registerOutbound out]) = registrations ops ++ [out] :=
  List.filterMap_append

@[simp] theorem registrations_process (ops : List Operation) (msg : InboundMessage) :
    registrations (ops ++ [.process msg]) = registrations ops :=
  List.filterMap_append.trans (List.append_nil _)

theorem outboundIdsDistinct_earlier {earlier : List Operation} (hp : earlier <+: ops)
    (h : OutboundIdsDistinct ops) : OutboundIdsDistinct earlier := by
  obtain ⟨later, rfl⟩ := hp
  rw [OutboundIdsDistinct, registrations, List.filterMap_append, List.map_append] at h
  exact (List.nodup_append.1 h).1

/-- As long as every message keeps to its own thread, an outbound id stays where it was
registered. -/
theorem registered_thread (h : OutboundIdsDistinct ops)
    (hown : ValidTrace (OwnThread sha256Hex) (next sha256Hex) InboxIngestor.new ops)
    {out : Outbound} (hout : out ∈ registrations ops) :
    (run sha256Hex ops).threadMap.get? out.messageId = some out.threadId := by
  induction ops using List.reverseRecOn with
  | nil => cases hout
  | append_singleton ops op ih =>
    obtain ⟨hops, hop⟩ := validTrace_concat.1 hown
    have ih := ih (outboundIdsDistinct_earlier (List.prefix_append ops [op]) h) hops
    rw [run_concat]
    cases op with
    | registerOutbound new =>
      rw [registrations_register] at hout
      rw [OutboundIdsDistinct, registrations_register, List.map_append, List.nodup_append] at h
      simp only [next, registerOutbound, Dict.get?_set]
      rcases List.mem_append.1 hout with hold | hnew
      · rw [if_neg]
        · exact ih hold
        · exact h.2.2 _ (List.mem_map_of_mem hold) _ (List.mem_singleton_self _)
      · cases List.mem_singleton.1 hnew
        rw [if_pos rfl]
    | process msg =>
      rw [registrations_process] at hout
      exact (threads_kept_step_iff _ msg).2 hop _ _ (ih hout)

/-- The threads are kept exactly when every message that comes in under a known id belongs to
the thread of that id. -/
theorem threads_kept_iff (h : OutboundIdsDistinct ops) :
    ThreadsKept sha256Hex ops ↔
      ValidTrace (OwnThread sha256Hex) (next sha256Hex) InboxIngestor.new ops := by
  constructor
  · intro hkept
    apply validTrace_of_after
    intro before op hp _
    cases op with
    | registerOutbound out => trivial
    | process msg => exact (threads_kept_step_iff _ msg).1 (hkept.kept before msg hp)
  · intro hown
    constructor
    · intro before msg hp
      exact (threads_kept_step_iff _ msg).2
        (validTrace_concat.1 (validTrace_earlier hp hown)).2
    · intro before hp out hout msg hfresh hne hreply
      rw [process_threadId hfresh]
      apply resolveThread_reply hne
      rw [hreply]
      exact registered_thread (outboundIdsDistinct_earlier hp h) (validTrace_earlier hp hown)
        hout

def registeredAccount (ops : List Operation) (threadId : String) : String :=
  (latest (assignedTo (unlessBlank "" Outbound.threadId Outbound.accountId) threadId)
    (registrations ops)).getD ""

theorem holdsLatest_accounts (ops : List Operation) :
    HoldsLatest (unlessBlank "" Outbound.threadId Outbound.accountId) (registrations ops)
      (run sha256Hex ops).accountMap := by
  induction ops using List.reverseRecOn with
  | nil => exact holdsLatest_empty _
  | append_singleton ops op ih =>
    rw [run_concat]
    cases op with
    | registerOutbound out =>
      have hset := holdsLatest_set ih out
      rw [registrations_register]
      simp only [next, registerOutbound]
      by_cases hblank : out.accountId = "" <;>
        simpa [unlessBlank, setIfSome, hblank] using hset
    | process msg =>
      rw [registrations_process, next, process_accountMap]
      exact ih

def oneReply : List Operation :=
  [.registerOutbound { messageId := "out-1", threadId := "thread-abc", accountId := "acc-1" },
    .process
      { messageId := "reply-1", fromEmail := "alice@acme.com", bodyRaw := "Thanks!",
        inReplyTo := "out-1" },
    .process
      { messageId := "reply-2", fromEmail := "alice@acme.com", bodyRaw := "One more thing.",
        references := ["out-1", "reply-1"] }]

/-- SHA-256 on the address of our own mailbox, and on the one that answers it. -/
def mailboxDigest (address : String) : String :=
  if address = "send@myco.com" then
    "2e7fc84887b9dd972bde8b703a97a968958e5b2548263700745f4298b29b1816"
  else "0a0a58273565a8f3dcf779375d9debd0f685d94dc56651a16bff3bf901c0b127"

theorem one_reply_threads :
    ThreadsKept mailboxDigest oneReply ↔
      ValidTrace (OwnThread mailboxDigest) (next mailboxDigest) InboxIngestor.new oneReply :=
  threads_kept_iff (by decide)

/-- Our own message comes back to the mailbox that it was sent from. -/
def loopedBack : List Operation :=
  [.registerOutbound { messageId := "out-1", threadId := "thread-abc", accountId := "acc-1" },
    .process { messageId := "out-1", fromEmail := "send@myco.com", bodyRaw := "Hello" }]

def lateReply : InboundMessage :=
  { messageId := "reply-1", fromEmail := "alice@acme.com", bodyRaw := "Thanks!",
    inReplyTo := "out-1" }

/-- It takes the registered thread with it: a reply that comes after it goes elsewhere. -/
theorem looped_back_message_moves_thread :
    OutboundIdsDistinct loopedBack ∧
    (process mailboxDigest (run mailboxDigest loopedBack) lateReply).2.threadId =
      "thread_2e7fc84887b9" ∧
    ¬ ThreadsKept mailboxDigest loopedBack := by
  have hthread : (process mailboxDigest (run mailboxDigest loopedBack) lateReply).2.threadId =
      "thread_2e7fc84887b9" := by decide
  refine ⟨by decide, hthread, fun h => ?_⟩
  have hkept := h.replies loopedBack List.prefix_rfl _ List.mem_cons_self lateReply
    (by decide) (by decide) rfl
  rw [hthread] at hkept
  revert hkept
  decide

end TrustCopilot.InboxThreads
