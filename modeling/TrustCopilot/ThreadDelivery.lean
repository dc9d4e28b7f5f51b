import TrustCopilot.InboxThreads

/-! The replies of one conversation, delivered in any order, any number of times and among
other mail. Every one of them names the outbound message that started the thread. -/
namespace TrustCopilot.ThreadDelivery

open TrustCopilot.OrderedDict
open TrustCopilot.Trace
open TrustCopilot.Latest
open TrustCopilot.Inbox
open TrustCopilot.InboxThreads

def ids (replies : List InboundMessage) : List String := replies.map InboundMessage.messageId

/-- The replies `M` to the outbound message `o`. An empty `In-Reply-To` names no message. -/
structure Conversation (o : Outbound) (M : List InboundMessage) : Prop where
  distinct : (ids M).Nodup
  inbound : o.messageId ∉ ids M
  repliesTo : ∀ m ∈ M, m.inReplyTo ≠ "" → m.inReplyTo = o.messageId ∨ m.inReplyTo ∈ ids M
  names : ∀ m ∈ M, o.messageId ∈ m.references ∨ m.inReplyTo ≠ "" ∧ m.inReplyTo = o.messageId

/-- Every known message that the references of `m` name is one of the conversation. -/
def KnownRefsInside (o : Outbound) (M : List InboundMessage) (ing : InboxIngestor)
    (m : InboundMessage) : Prop :=
  ∀ ref ∈ m.references, ing.threadMap.get? ref ≠ none → ref = o.messageId ∨ ref ∈ ids M

def OtherTraffic (o : Outbound) (M : List InboundMessage) (op : Operation) : Prop :=
  op.messageId ≠ o.messageId ∧ op.messageId ∉ ids M

/-- What may come after the registration: a reply, again and again, or other traffic. -/
def Admitted (o : Outbound) (M : List InboundMessage) (ing : InboxIngestor) (op : Operation) :
    Prop :=
  (∃ m ∈ M, op = .process m ∧ (m.messageId ∉ ing.seenIds → KnownRefsInside o M ing m)) ∨
    OtherTraffic o M op

instance (o : Outbound) (M : List InboundMessage) (ing : InboxIngestor) (m : InboundMessage) :
    Decidable (KnownRefsInside o M ing m) :=
  inferInstanceAs (Decidable (∀ ref ∈ m.references, _ → _))

instance (o : Outbound) (M : List InboundMessage) (op : Operation) :
    Decidable (OtherTraffic o M op) := inferInstanceAs (Decidable (_ ∧ _))

instance (o : Outbound) (M : List InboundMessage) (ing : InboxIngestor) (op : Operation) :
    Decidable (Admitted o M ing op) :=
  inferInstanceAs (Decidable ((∃ m ∈ M, _ ∧ _) ∨ _))

variable (sha256Hex : String → String)

def history (before : List Operation) (o : Outbound) (earlier : List Operation) :
    List Operation :=
  before ++ [.registerOutbound o] ++ earlier

structure FirstDelivery (o : Outbound) (ops : List Operation) (m : InboundMessage) : Prop where
  fresh : (process sha256Hex (run sha256Hex ops) m).2.isDuplicate = false
  thread : (process sha256Hex (run sha256Hex ops) m).2.threadId = o.threadId
  account : (process sha256Hex (run sha256Hex ops) m).2.accountId =
    registeredAccount ops o.threadId

/-- The first delivery of every reply goes to the thread of `o`; the others change nothing. -/
structure DeliveredToThread (before : List Operation) (o : Outbound) (M : List InboundMessage)
    (after : List Operation) : Prop where
  first : ∀ m ∈ M, ∀ earlier, earlier ++ [.process m] <+: after → .process m ∉ earlier →
    FirstDelivery sha256Hex o (history before o earlier) m
  again : ∀ m ∈ M, ∀ earlier, earlier ++ [.process m] <+: after → .process m ∈ earlier →
    (process sha256Hex (run sha256Hex (history before o earlier)) m).2.isDuplicate = true ∧
    (process sha256Hex (run sha256Hex (history before o earlier)) m).1 =
      run sha256Hex (history before o earlier)

variable {sha256Hex} {before earlier : List Operation} {o : Outbound} {M : List InboundMessage}
  {ing : InboxIngestor} {m : InboundMessage}

structure Threaded (o : Outbound) (M : List InboundMessage) (earlier : List Operation)
    (ing : InboxIngestor) : Prop where
  outbound : ing.threadMap.get? o.messageId = some o.threadId
  replies : ∀ id ∈ ids M, ∀ threadId, ing.threadMap.get? id = some threadId →
    threadId = o.threadId
  seen : ∀ m ∈ M, m.messageId ∈ ing.seenIds ↔ .process m ∈ earlier

theorem threaded_known (h : Threaded o M earlier ing) {id : String}
    (hid : id = o.messageId ∨ id ∈ ids M) {threadId : String}
    (hget : ing.threadMap.get? id = some threadId) : threadId = o.threadId := by
  rcases hid with rfl | hid
  · rw [h.outbound] at hget
    exact (Option.some.inj hget).symm
  · exact h.replies id hid threadId hget

theorem resolveThread_inside (hconv : Conversation o M) (h : Threaded o M earlier ing)
    (hm : m ∈ M) (hrefs : KnownRefsInside o M ing m) :
    resolveThread sha256Hex ing m = o.threadId := by
  rw [resolveThread_eq_iff]
  left
  -- some id of the headers is known: the outbound message's own
  have hknown : ∃ threadId, namedThread ing m = some threadId := by
    apply Option.ne_none_iff_exists'.1
    rw [namedThread, ne_eq, List.findSome?_eq_none_iff]
    intro hnone
    have hin : o.messageId ∈ (if m.inReplyTo = "" then [] else [m.inReplyTo]) ++ m.references := by
      rcases hconv.names m hm with href | ⟨hne, hreply⟩
      · exact List.mem_append_right _ href
      · rw [if_neg hne, hreply]
        exact List.mem_append_left _ (List.mem_singleton_self _)
    have := hnone o.messageId hin
    rw [h.outbound] at this
    cases this
  obtain ⟨threadId, hthread⟩ := hknown
  obtain ⟨id, hid, hget⟩ := List.exists_of_findSome?_eq_some hthread
  rw [hthread, threaded_known h ?_ hget]
  rcases List.mem_append.1 hid with hreply | href
  · split at hreply
    · cases hreply
    · next hne =>
      rw [List.mem_singleton.1 hreply]
      exact hconv.repliesTo m hm hne
  · apply hrefs id href
    rw [hget]
    exact Option.some_ne_none threadId

theorem run_unused {ops : List Operation} {id : String} (h : ∀ op ∈ ops, op.messageId ≠ id) :
    (run sha256Hex ops).threadMap.get? id = none ∧ id ∉ (run sha256Hex ops).seenIds := by
  induction ops using List.reverseRecOn with
  | nil => exact ⟨rfl, Finset.notMem_empty id⟩
  | append_singleton ops op ih =>
    obtain ⟨hthread, hseen⟩ := ih fun x hx => h x (List.mem_append_left _ hx)
    have hne : id ≠ op.messageId :=
      (h op (List.mem_append_right _ (List.mem_singleton_self _))).symm
    obtain ⟨hsame, hsame'⟩ := @next_other sha256Hex (run sha256Hex ops) op id hne
    rw [run_concat]
    exact ⟨hsame.trans hthread, fun hin => hseen (hsame'.1 hin)⟩

theorem threaded_start (hconv : Conversation o M)
    (hbefore : ∀ op ∈ before, op.messageId ∉ ids M) :
    Threaded o M [] (run sha256Hex (history before o [])) := by
  have hunused : ∀ id ∈ ids M,
      (run sha256Hex (history before o [])).threadMap.get? id = none ∧
        id ∉ (run sha256Hex (history before o [])).seenIds := by
    intro id hid
    apply run_unused
    intro op hop
    rw [history, List.append_nil] at hop
    rcases List.mem_append.1 hop with hold | hnew
    · rintro rfl
      exact hbefore op hold hid
    · cases List.mem_singleton.1 hnew
      rintro rfl
      exact hconv.inbound hid
  constructor
  · rw [history, List.append_nil, run_concat]
    exact Dict.get?_set_self _ _ _
  · intro id hid threadId hget
    rw [(hunused id hid).1] at hget
    cases hget
  · intro m hm
    constructor
    · intro hseen
      exact absurd hseen (hunused _ (List.mem_map_of_mem hm)).2
    · intro hin
      cases hin

theorem eq_of_messageId (hconv : Conversation o M) {m m' : InboundMessage} (hm : m ∈ M)
    (hm' : m' ∈ M) (h : m.messageId = m'.messageId) : m = m' :=
  List.inj_on_of_nodup_map hconv.distinct hm hm' h

theorem threaded_delivery (hconv : Conversation o M) (h : Threaded o M earlier ing) (hm : m ∈ M)
    (hrefs : m.messageId ∉ ing.seenIds → KnownRefsInside o M ing m) :
    Threaded o M (earlier ++ [.process m]) (next sha256Hex ing (.process m)) := by
  have hid : m.messageId ∈ ids M := List.mem_map_of_mem hm
  by_cases hseen : m.messageId ∈ ing.seenIds
  · rw [next, (process_duplicate hseen).1]
    refine ⟨h.outbound, h.replies, fun x hx => ?_⟩
    rw [h.seen x hx, List.mem_append, List.mem_singleton]
    constructor
    · exact Or.inl
    · rintro (hin | heq)
      · exact hin
      · cases heq
        exact (h.seen m hm).1 hseen
  · have hother : ∀ id, id ≠ m.messageId → (next sha256Hex ing (.process m)).threadMap.get? id =
        ing.threadMap.get? id := fun id hne => (@next_other sha256Hex ing (.process m) id hne).1
    constructor
    · rw [hother]
      · exact h.outbound
      · exact fun heq => hconv.inbound (heq ▸ hid)
    · intro id hin threadId hget
      by_cases heq : id = m.messageId
      · rw [heq, next, process_threadMap_self hseen,
          resolveThread_inside hconv h hm (hrefs hseen)] at hget
        exact (Option.some.inj hget).symm
      · rw [hother id heq] at hget
        exact h.replies id hin threadId hget
    · intro x hx
      rw [List.mem_append, List.mem_singleton, ← h.seen x hx, next, process, if_neg hseen,
        Finset.mem_insert]
      constructor
      · rintro (heq | hin)
        · right
          rw [eq_of_messageId hconv hx hm heq]
        · exact Or.inl hin
      · rintro (hin | heq)
        · exact Or.inr hin
        · cases heq
          exact Or.inl rfl

theorem threaded_other (h : Threaded o M earlier ing) {op : Operation}
    (hother : OtherTraffic o M op) :
    Threaded o M (earlier ++ [op]) (next sha256Hex ing op) := by
  obtain ⟨hout, hreplies⟩ := hother
  have hframe : ∀ id ∈ ids M, id ≠ op.messageId := fun id hid heq => hreplies (heq ▸ hid)
  constructor
  · rw [(next_other hout.symm).1]
    exact h.outbound
  · intro id hid threadId hget
    rw [(next_other (hframe id hid)).1] at hget
    exact h.replies id hid threadId hget
  · intro m hm
    rw [(next_other (hframe _ (List.mem_map_of_mem hm))).2, h.seen m hm, List.mem_append,
      List.mem_singleton]
    constructor
    · exact Or.inl
    · rintro (hin | rfl)
      · exact hin
      · exact absurd (List.mem_map_of_mem hm) hreplies

theorem run_history (before : List Operation) (o : Outbound) (earlier : List Operation) :
    run sha256Hex (history before o earlier) =
      runTrace (next sha256Hex) (run sha256Hex (history before o [])) earlier := by
  rw [history, history, List.append_nil]
  exact runTrace_append _ _ _

theorem run_history_concat (before : List Operation) (o : Outbound) (earlier : List Operation)
    (op : Operation) : run sha256Hex (history before o (earlier ++ [op])) =
      next sha256Hex (run sha256Hex (history before o earlier)) op := by
  rw [history, ← List.append_assoc]
  exact run_concat _ op

theorem threaded_run (hconv : Conversation o M)
    (hbefore : ∀ op ∈ before, op.messageId ∉ ids M)
    (h : ValidTrace (Admitted o M) (next sha256Hex) (run sha256Hex (history before o []))
      earlier) : Threaded o M earlier (run sha256Hex (history before o earlier)) := by
  induction earlier using List.reverseRecOn with
  | nil => exact threaded_start hconv hbefore
  | append_singleton earlier op ih =>
    obtain ⟨hearlier, hop⟩ := validTrace_concat.1 h
    rw [← run_history] at hop
    rw [run_history_concat]
    rcases hop with ⟨m, hm, rfl, hrefs⟩ | hother
    · exact threaded_delivery hconv (ih hearlier) hm hrefs
    · exact threaded_other (ih hearlier) hother

/-- In whatever order, how often and among whatever other mail the replies are delivered, the
first delivery of each is put into the thread of the outbound message, under the account that
is registered for it, and no later one changes anything. -/
theorem delivered_to_thread {after : List Operation} (hconv : Conversation o M)
    (hbefore : ∀ op ∈ before, op.messageId ∉ ids M)
    (h : ValidTrace (Admitted o M) (next sha256Hex) (run sha256Hex (history before o []))
      after) : DeliveredToThread sha256Hex before o M after := by
  constructor
  · intro m hm earlier hp hfirst
    obtain ⟨hearlier, hop⟩ := validTrace_concat.1 (validTrace_earlier hp h)
    have hthreaded := threaded_run hconv hbefore hearlier
    rw [← run_history] at hop
    have hfresh : m.messageId ∉ (run sha256Hex (history before o earlier)).seenIds :=
      fun hseen => hfirst ((hthreaded.seen m hm).1 hseen)
    have hrefs : KnownRefsInside o M (run sha256Hex (history before o earlier)) m := by
      rcases hop with ⟨m', hm', heq, hrefs⟩ | hother
      · cases heq
        exact hrefs hfresh
      · exact absurd (List.mem_map_of_mem hm) hother.2
    have hthread := @resolveThread_inside sha256Hex _ _ _ _ _ hconv hthreaded hm hrefs
    constructor
    · rw [process, if_neg hfresh]
    · rw [process_threadId hfresh, hthread]
    · rw [(process_fresh hfresh).1, hthread, registeredAccount, ← holdsLatest_accounts]
  · intro m hm earlier hp hagain
    obtain ⟨hearlier, -⟩ := validTrace_concat.1 (validTrace_earlier hp h)
    have hseen := ((threaded_run hconv hbefore hearlier).seen m hm).2 hagain
    obtain ⟨hsame, hduplicate⟩ := @process_duplicate sha256Hex _ _ hseen
    exact ⟨hduplicate, hsame⟩

def firstMail : Outbound :=
  { messageId := "out-1", threadId := "thread-abc", accountId := "acc-1" }

def answer : InboundMessage :=
  { messageId := "reply-1", fromEmail := "alice@acme.com", bodyRaw := "Thanks!",
    inReplyTo := "out-1" }

def addition : InboundMessage :=
  { messageId := "reply-2", fromEmail := "alice@acme.com", bodyRaw := "One more thing.",
    inReplyTo := "reply-1", references := ["out-1", "reply-1"] }

def unrelated : InboundMessage :=
  { messageId := "other-1", fromEmail := "alice@acme.com", bodyRaw := "Hello" }

theorem answers_delivered :
    DeliveredToThread mailboxDigest [] firstMail [answer, addition]
      [.process addition, .process unrelated, .process answer, .process addition] := by
  apply delivered_to_thread
  · exact ⟨by decide, by decide, by decide, by decide⟩
  · intro op hop
    cases hop
  · decide

end TrustCopilot.ThreadDelivery
