import TrustCopilot.Inbox
import TrustCopilot.Library.Latest
import Mathlib.Data.Fintype.EquivFin

/-! Which account and campaign a reply is attributed to, over histories of sends and inbound
mail. Every successful send is registered with the inbox at once. -/
namespace TrustCopilot.ReplyAttribution

open TrustCopilot.PyText (asciiLower append_ne_empty)
open TrustCopilot.OrderedDict
open TrustCopilot.Trace
open TrustCopilot.Latest
open TrustCopilot.Sending hiding next run
open TrustCopilot.Inbox

inductive Event where
  | call (c : Call)
  | inbound (msg : InboundMessage)

structure Exchange where
  worker : SendWorker
  inbox : InboxIngestor

def Exchange.new : Exchange := ⟨SendWorker.new, InboxIngestor.new⟩

abbrev SentMessage := SendTask × SendResult

variable (lower sha256Hex : String → String)

def sentBy (w : SendWorker) : Call → Option SentMessage
  | .send task att =>
    let result := (send lower sha256Hex w task att).2.1
    if result.success then some (task, result) else none
  | _ => none

def register (ing : InboxIngestor) : Option SentMessage → InboxIngestor
  | some (task, result) =>
    registerOutbound ing result.providerMessageId result.threadId task.accountId task.contactId
      task.campaignId
  | none => ing

def next (s : Exchange) : Event → Exchange
  | .call c =>
    { worker := Sending.next lower sha256Hex s.worker c
      inbox := register s.inbox (sentBy lower sha256Hex s.worker c) }
  | .inbound msg => { s with inbox := (process sha256Hex s.inbox msg).1 }

def run (es : List Event) : Exchange := runTrace (next lower sha256Hex) Exchange.new es

def sentIn (s : Exchange) : Event → List SentMessage
  | .call c => (sentBy lower sha256Hex s.worker c).toList
  | .inbound _ => []

def sentMessages (es : List Event) : List SentMessage :=
  emitted (sentIn lower sha256Hex) (next lower sha256Hex) Exchange.new es

/-- No message id is used twice for what was sent, nor by a message that came in. -/
structure MessageIdsDistinct (es : List Event) : Prop where
  sent : ((sentMessages lower sha256Hex es).map fun m => m.2.providerMessageId).Nodup
  inbound : ∀ msg, .inbound msg ∈ es → ∀ m ∈ sentMessages lower sha256Hex es,
    m.2.providerMessageId ≠ msg.messageId

def RepliesAttributed (es : List Event) : Prop :=
  ∀ m ∈ sentMessages lower sha256Hex es, ∀ msg : InboundMessage,
    msg.messageId ∉ (run lower sha256Hex es).inbox.seenIds →
    msg.inReplyTo = m.2.providerMessageId →
    (process sha256Hex (run lower sha256Hex es).inbox msg).2.accountId = m.1.accountId ∧
    (process sha256Hex (run lower sha256Hex es).inbox msg).2.campaignId = m.1.campaignId

def ThreadsSeparate (es : List Event) : Prop :=
  ∀ m ∈ sentMessages lower sha256Hex es, ∀ n ∈ sentMessages lower sha256Hex es,
    m.1.accountId ≠ n.1.accountId → m.2.threadId ≠ n.2.threadId

/-- Tasks whose account ids begin with the same eight characters belong to one account and
one campaign. -/
def StartsTellApart (es : List Event) : Prop :=
  ∀ m ∈ sentMessages lower sha256Hex es, ∀ n ∈ sentMessages lower sha256Hex es,
    takeChars 8 m.1.accountId = takeChars 8 n.1.accountId →
    m.1.accountId = n.1.accountId ∧ m.1.campaignId = n.1.campaignId

variable {lower sha256Hex}

/-- The thread of a task is as good as the first eight characters of its account id. -/
theorem threadId_eq_iff {s t : SendTask} :
    threadId s = threadId t ↔ takeChars 8 s.accountId = takeChars 8 t.accountId := by
  have hblank : ∀ s : String, takeChars 8 s = "" ↔ s = "" := fun _ =>
    takeChars_eq_empty_iff (by omega)
  have hthread : ∀ s : String, "thread_" ++ s ≠ "" := fun _ => append_ne_empty (by decide)
  simp only [threadId]
  by_cases hs : s.accountId = "" <;> by_cases ht : t.accountId = ""
  · simp [hs, ht]
  · have hne : takeChars 8 t.accountId ≠ takeChars 8 s.accountId := by
      rw [(hblank _).2 hs]
      exact fun h => ht ((hblank _).1 h)
    simp [hs, ht, (hthread _).symm, hs ▸ hne.symm]
  · have hne : takeChars 8 s.accountId ≠ takeChars 8 t.accountId := by
      rw [(hblank _).2 ht]
      exact fun h => hs ((hblank _).1 h)
    simp [hs, ht, hthread, ht ▸ hne]
  · simp only [if_neg hs, if_neg ht, String.append_right_inj]

/-- What a successful send answers: an id of the provider and the thread of the task. -/
theorem sentBy_some {w : SendWorker} {c : Call} {m : SentMessage}
    (h : sentBy lower sha256Hex w c = some m) :
    m.2.threadId = threadId m.1 ∧ m.2.providerMessageId ≠ "" := by
  cases c with
  | send task att =>
    simp only [sentBy] at h
    split at h
    · next hs =>
      cases h
      revert hs
      rw [send]
      split
      · intro hs; cases hs
      · split
        · intro hs; cases hs
        · exact fun _ => ⟨rfl, append_ne_empty (by decide)⟩
    · cases h
  | _ => cases h

structure Recorded (sent : List SentMessage) (ing : InboxIngestor) : Prop where
  shape : ∀ m ∈ sent, m.2.threadId = threadId m.1 ∧ m.2.providerMessageId ≠ ""
  threads : ∀ m ∈ sent, ing.threadMap.get? m.2.providerMessageId = some m.2.threadId
  accounts : HoldsLatest (unlessBlank "" (fun m : SentMessage => m.2.threadId)
    fun m => m.1.accountId) sent ing.accountMap
  campaigns : HoldsLatest (unlessBlank "" (fun m : SentMessage => m.2.threadId)
    fun m => m.1.campaignId) sent ing.campaignMap

theorem recorded_new : Recorded [] InboxIngestor.new where
  shape _ hm := absurd hm List.not_mem_nil
  threads _ hm := absurd hm List.not_mem_nil
  accounts := holdsLatest_empty _
  campaigns := holdsLatest_empty _

theorem recorded_register {sent : List SentMessage} {ing : InboxIngestor} {m : SentMessage}
    (h : Recorded sent ing)
    (hm : m.2.threadId = threadId m.1 ∧ m.2.providerMessageId ≠ "")
    (hnew : ∀ n ∈ sent, n.2.providerMessageId ≠ m.2.providerMessageId) :
    Recorded (sent ++ [m]) (register ing (some m)) := by
  obtain ⟨task, result⟩ := m
  constructor
  · intro n hn
    rcases List.mem_append.1 hn with hn | hn
    · exact h.shape n hn
    · cases List.mem_singleton.1 hn
      exact hm
  · intro n hn
    simp only [register, registerOutbound, Dict.get?_set]
    rcases List.mem_append.1 hn with hn | hn
    · rw [if_neg (hnew n hn)]
      exact h.threads n hn
    · cases List.mem_singleton.1 hn
      rw [if_pos rfl]
  · have hset := holdsLatest_set h.accounts (task, result)
    simp only [register, registerOutbound]
    by_cases hb : task.accountId = "" <;> simpa [unlessBlank, setIfSome, hb] using hset
  · have hset := holdsLatest_set h.campaigns (task, result)
    simp only [register, registerOutbound]
    by_cases hb : task.campaignId = "" <;> simpa [unlessBlank, setIfSome, hb] using hset

theorem recorded_process {sent : List SentMessage} {ing : InboxIngestor} {msg : InboundMessage}
    (h : Recorded sent ing) (hother : ∀ m ∈ sent, m.2.providerMessageId ≠ msg.messageId) :
    Recorded sent (process sha256Hex ing msg).1 where
  shape := h.shape
  threads m hm := by rw [process_threadMap_other ing (hother m hm)]; exact h.threads m hm
  accounts := by rw [process_accountMap]; exact h.accounts
  campaigns := by rw [process_campaignMap]; exact h.campaigns

theorem messageIdsDistinct_earlier {es : List Event} {e : Event}
    (h : MessageIdsDistinct lower sha256Hex (es ++ [e])) :
    MessageIdsDistinct lower sha256Hex es := by
  have hsent := h.sent
  have hin := h.inbound
  rw [sentMessages, emitted_concat] at hsent hin
  rw [List.map_append] at hsent
  constructor
  · exact (List.nodup_append.1 hsent).1
  · intro msg hmsg m hm
    exact hin msg (List.mem_append_left _ hmsg) m (List.mem_append_left _ hm)

theorem recorded_run {es : List Event} (h : MessageIdsDistinct lower sha256Hex es) :
    Recorded (sentMessages lower sha256Hex es) (run lower sha256Hex es).inbox := by
  induction es using List.reverseRecOn with
  | nil => exact recorded_new
  | append_singleton es e ih =>
    have hrec := ih (messageIdsDistinct_earlier h)
    have hsent := h.sent
    have hin := h.inbound
    simp only [sentMessages, emitted_concat, run, runTrace_concat] at hsent hin hrec ⊢
    cases e with
    | inbound msg =>
      simp only [sentIn, List.append_nil, next] at hin ⊢
      apply recorded_process hrec
      exact hin msg (by simp)
    | call c =>
      simp only [sentIn, next] at hsent ⊢
      cases hc : sentBy lower sha256Hex
          (runTrace (next lower sha256Hex) Exchange.new es).worker c with
      | none => simpa [hc, register] using hrec
      | some m =>
        rw [hc] at hsent
        rw [Option.toList_some] at hsent ⊢
        apply recorded_register hrec (sentBy_some hc)
        intro n hn he
        rw [List.map_append, List.nodup_append] at hsent
        exact hsent.2.2 _ (List.mem_map_of_mem hn) _ (List.mem_singleton_self _) he

/-- A fresh reply reads the entries of the thread of the message it answers. -/
theorem process_reply {sent : List SentMessage} {ing : InboxIngestor} (h : Recorded sent ing)
    {m : SentMessage} (hm : m ∈ sent) {msg : InboundMessage}
    (hfresh : msg.messageId ∉ ing.seenIds) (hreply : msg.inReplyTo = m.2.providerMessageId) :
    (process sha256Hex ing msg).2.accountId = (ing.accountMap.get? m.2.threadId).getD "" ∧
    (process sha256Hex ing msg).2.campaignId = (ing.campaignMap.get? m.2.threadId).getD "" := by
  have hne : msg.inReplyTo ≠ "" := hreply ▸ (h.shape m hm).2
  have hthread : resolveThread sha256Hex ing msg = m.2.threadId :=
    resolveThread_reply hne (hreply ▸ h.threads m hm)
  have hprocess := @process_fresh sha256Hex ing msg hfresh
  rwa [hthread] at hprocess

theorem exists_fresh_reply (ing : InboxIngestor) (parent : String) :
    ∃ msg : InboundMessage, msg.messageId ∉ ing.seenIds ∧ msg.inReplyTo = parent := by
  obtain ⟨fresh, hfresh⟩ := Infinite.exists_notMem_finset ing.seenIds
  exact ⟨{ messageId := fresh, fromEmail := "", bodyRaw := "", inReplyTo := parent }, hfresh, rfl⟩

/-- Every reply finds its own task exactly when the first eight characters of the account ids
tell the sent tasks apart, by account and by campaign. -/
theorem replies_attributed_iff {es : List Event} (h : MessageIdsDistinct lower sha256Hex es) :
    RepliesAttributed lower sha256Hex es ∧ ThreadsSeparate lower sha256Hex es ↔
      StartsTellApart lower sha256Hex es := by
  have hrec : Recorded _ _ := recorded_run h
  constructor
  · rintro ⟨hreplies, -⟩ m hm n hn hstart
    have hthread : m.2.threadId = n.2.threadId := by
      rw [(hrec.shape m hm).1, (hrec.shape n hn).1, threadId_eq_iff]
      exact hstart
    obtain ⟨msg, hmsg, hto⟩ := exists_fresh_reply (run lower sha256Hex es).inbox
      m.2.providerMessageId
    obtain ⟨msg', hmsg', hto'⟩ := exists_fresh_reply (run lower sha256Hex es).inbox
      n.2.providerMessageId
    have hm' := hreplies m hm msg hmsg hto
    have hn' := hreplies n hn msg' hmsg' hto'
    rw [(process_reply hrec hm hmsg hto).1, (process_reply hrec hm hmsg hto).2] at hm'
    rw [(process_reply hrec hn hmsg' hto').1, (process_reply hrec hn hmsg' hto').2] at hn'
    rw [← hm'.1, ← hm'.2, ← hn'.1, ← hn'.2, hthread]
    exact ⟨rfl, rfl⟩
  · intro hstart
    have hsame : ∀ m ∈ sentMessages lower sha256Hex es, ∀ n ∈ sentMessages lower sha256Hex es,
        m.2.threadId = n.2.threadId →
        m.1.accountId = n.1.accountId ∧ m.1.campaignId = n.1.campaignId := by
      intro m hm n hn hthread
      apply hstart m hm n hn
      rwa [(hrec.shape m hm).1, (hrec.shape n hn).1, threadId_eq_iff] at hthread
    constructor
    · intro m hm msg hfresh hreply
      rw [(process_reply hrec hm hfresh hreply).1, (process_reply hrec hm hfresh hreply).2]
      constructor
      · exact holdsLatest_agreed hrec.accounts hm fun n hn ht => (hsame n hn m hm ht).1
      · exact holdsLatest_agreed hrec.campaigns hm fun n hn ht => (hsame n hn m hm ht).2
    · intro m hm n hn hne hthread
      exact hne (hsame m hm n hn hthread).1

def secondAttempt : Attempt := ⟨"fedcba9876543210", 2, some (.ok ())⟩

def replyToFirst : InboundMessage :=
  { messageId := "reply-1", fromEmail := "alice@acme.com", bodyRaw := "Thanks!",
    inReplyTo := "msg_0123456789ab" }

def oneCampaign : List Event :=
  [.call (.send sampleTask sampleAttempt), .inbound replyToFirst,
    .call (.send { sampleTask with id := "task-2" } secondAttempt)]

theorem oneCampaign_attributed :
    RepliesAttributed asciiLower sampleDigest oneCampaign ∧
      ThreadsSeparate asciiLower sampleDigest oneCampaign :=
  have hdistinct : MessageIdsDistinct asciiLower sampleDigest oneCampaign := by
    constructor
    · decide
    · intro msg hin
      simp only [oneCampaign, List.mem_cons, reduceCtorEq, Event.inbound.injEq, false_or,
        List.not_mem_nil, or_false] at hin
      subst hin
      decide
  (replies_attributed_iff hdistinct).2 (by unfold StartsTellApart; decide)

def twoAccounts : List Event :=
  [.call (.send { sampleTask with accountId := "acc-10001" } sampleAttempt),
    .call (.send { sampleTask with id := "task-2", accountId := "acc-10002" } secondAttempt)]

/-- The reply to the first account's message is attributed to the second account. -/
theorem reply_attributed_to_other_account :
    (sentMessages asciiLower sampleDigest twoAccounts).map
        (fun m => (m.2.providerMessageId, m.2.threadId, m.1.accountId)) =
      [("msg_0123456789ab", "thread_acc-1000", "acc-10001"),
        ("msg_fedcba987654", "thread_acc-1000", "acc-10002")] ∧
    (process sampleDigest (run asciiLower sampleDigest twoAccounts).inbox
      replyToFirst).2.accountId = "acc-10002" ∧
    ¬ RepliesAttributed asciiLower sampleDigest twoAccounts ∧
    ¬ ThreadsSeparate asciiLower sampleDigest twoAccounts := by
  refine ⟨by decide, by decide, ?_, by unfold ThreadsSeparate; decide⟩
  intro h
  have hreply := (h _ (List.mem_cons_self) replyToFirst (by decide) (by decide)).1
  revert hreply
  decide

end TrustCopilot.ReplyAttribution
