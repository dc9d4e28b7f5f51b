import TrustCopilot.Billing

/-! What a stream of payment webhooks does to the checkout sessions. Repeats are recognised
by event id, while the effects of an event are effects on its session. -/
namespace TrustCopilot.PaymentEvents

open TrustCopilot.OrderedDict
open TrustCopilot.Trace
open TrustCopilot.Billing

variable {svc svc' : BillingService} {c : Call} {p : List CheckoutSession} {cs : List Call}

def activationsOf (svc : BillingService) (checkoutId : String) : ℕ :=
  svc.activations.countP fun t => t.checkoutId = checkoutId

def subscriptionsOf (svc : BillingService) (customerId : String) : ℕ :=
  svc.subscriptions.values.countP fun r => r.stripeCustomerId = customerId

theorem activationsOf_complete (s : CheckoutSession) (e : WebhookEvent) (d : WebhookDraws)
    (id : String) :
    activationsOf (completeSession svc s e d) id =
      activationsOf svc id + if s.id = id then 1 else 0 := by
  simp [activationsOf, completeSession, activationFor, List.countP_append, List.countP_cons]

theorem subscriptionsOf_complete (svc : BillingService) {d : WebhookDraws}
    (hf : d.subscriptionRecordId ∉ svc.subscriptions.keys) (s : CheckoutSession)
    (e : WebhookEvent) (customer : String) :
    subscriptionsOf (completeSession svc s e d) customer ≤
      subscriptionsOf svc customer + if s.stripeCustomerId = customer then 1 else 0 := by
  simp only [subscriptionsOf, completeSession, addSubscription]
  split
  · omega
  · rw [Dict.values_set_new hf, List.countP_append, List.countP_singleton]
    by_cases hc : s.stripeCustomerId = customer
    · simp [newSubscription, hc]
    · simp [newSubscription, hc]

theorem mem_addSubscription {subs : Dict String SubscriptionRecord} {s : CheckoutSession}
    {e : WebhookEvent} {d : WebhookDraws} {q : SubscriptionRecord}
    (h : q ∈ (addSubscription subs s e d).values) :
    q ∈ subs.values ∨ q.stripeCustomerId = s.stripeCustomerId := by
  rw [addSubscription] at h
  split at h
  · exact Or.inl h
  · obtain ⟨k, hk⟩ := Dict.mem_values_iff.1 h
    rcases Dict.get?_set_cases hk with ⟨-, rfl⟩ | ⟨-, hold⟩
    · exact Or.inr rfl
    · exact Or.inl (Dict.mem_values_iff.2 ⟨k, hold⟩)

/-- The books agree with the sessions: what is booked belongs to a stored session, a session
is paid when it has an activation, and a subscription comes with an activation. -/
structure Booked (svc : BillingService) : Prop where
  stored : ∀ t ∈ svc.activations, t.checkoutId ∈ svc.sessions.keys
  customers : ∀ r ∈ svc.subscriptions.values, ∃ k s,
    svc.sessions.get? k = some s ∧ s.stripeCustomerId = r.stripeCustomerId
  paidAt : ∀ k s, svc.sessions.get? k = some s → (s.paidAt = none ↔ activationsOf svc k = 0)
  covered : ∀ k s, svc.sessions.get? k = some s →
    subscriptionsOf svc s.stripeCustomerId ≤ activationsOf svc k

theorem stored_effect (h : Effect svc c svc' p) (hw : WellFiled svc.sessions)
    (hf : FreshDraws svc c) (hb : Booked svc) :
    ∀ t ∈ svc'.activations, t.checkoutId ∈ svc'.sessions.keys := by
  have hold : ∀ t ∈ svc.activations, t.checkoutId ∈ svc'.sessions.keys :=
    fun t ht => key_kept h hw hf (hb.stored t ht)
  cases h with
  | completed e d s =>
    intro t ht
    rcases List.mem_append.1 ht with ht | ht
    · exact hold t ht
    · rw [List.mem_singleton.1 ht]
      exact Dict.mem_keys_set.2 (Or.inl rfl)
  | _ => exact hold

theorem customers_effect (h : Effect svc c svc' p) (hw : WellFiled svc.sessions)
    (hf : FreshDraws svc c) (hb : Booked svc) :
    ∀ r ∈ svc'.subscriptions.values, ∃ k s,
      svc'.sessions.get? k = some s ∧ s.stripeCustomerId = r.stripeCustomerId := by
  have hkept : ∀ k s x, svc.sessions.get? k = some s → s.stripeCustomerId = x →
      ∃ k s, svc'.sessions.get? k = some s ∧ s.stripeCustomerId = x := by
    intro k s x hs hx
    obtain ⟨s', hs', hsame⟩ := session_kept h hw hf hs
    exact ⟨k, s', hs', hsame.identifiers.2.2.trans hx⟩
  have hold : ∀ r ∈ svc.subscriptions.values, ∃ k s,
      svc'.sessions.get? k = some s ∧ s.stripeCustomerId = r.stripeCustomerId := by
    intro r hr
    obtain ⟨k, s, hs, hx⟩ := hb.customers r hr
    exact hkept k s _ hs hx
  cases h with
  | completed e d s _ hfind _ =>
    intro r hr
    rcases mem_addSubscription hr with hr | hr
    · exact hold r hr
    · exact hkept s.id s _ ((findSession_iff hw).1 hfind).1 hr.symm
  | _ => exact hold

/-- Nothing is booked for a session that is about to be opened. -/
theorem unbooked_draws {r : CheckoutRequest} {d : CheckoutDraws} (hb : Booked svc)
    (hf : FreshDraws svc (.checkout r d)) :
    activationsOf svc d.id = 0 ∧ subscriptionsOf svc ("cus_" ++ d.customerHex) = 0 := by
  constructor
  · refine List.countP_eq_zero.2 fun t ht => ?_
    simp only [decide_eq_true_eq]
    intro he
    exact hf.1 (he ▸ hb.stored t ht)
  · refine List.countP_eq_zero.2 fun q hq => ?_
    obtain ⟨k, s, hs, he⟩ := hb.customers q hq
    simp only [decide_eq_true_eq, ← he]
    exact (hf.2 s (Dict.mem_values_iff.2 ⟨k, hs⟩)).2

theorem paidAt_effect (h : Effect svc c svc' p) (hw : WellFiled svc.sessions)
    (hf : FreshDraws svc c) (hb : Booked svc) :
    ∀ k s, svc'.sessions.get? k = some s → (s.paidAt = none ↔ activationsOf svc' k = 0) := by
  cases h with
  | opened r d =>
    intro k s hs
    rcases Dict.get?_set_cases hs with ⟨rfl, rfl⟩ | ⟨-, hold⟩
    · exact iff_of_true rfl (unbooked_draws hb hf).1
    · exact hb.paidAt k s hold
  | completed e d t =>
    intro k s hs
    rw [activationsOf_complete]
    rcases Dict.get?_set_cases hs with ⟨rfl, rfl⟩ | ⟨hk, hold⟩
    · simp [CheckoutSession.pay]
    · rw [if_neg (Ne.symm hk)]
      exact hb.paidAt k s hold
  | expired e d t _ hfind _ =>
    intro k s hs
    rcases Dict.get?_set_cases hs with ⟨rfl, rfl⟩ | ⟨-, hold⟩
    · exact hb.paidAt t.id t ((findSession_iff hw).1 hfind).1
    · exact hb.paidAt k s hold
  | _ => exact hb.paidAt

theorem covered_effect (h : Effect svc c svc' p) (hw : WellFiled svc.sessions)
    (hf : FreshDraws svc c) (hb : Booked svc) :
    ∀ k s, svc'.sessions.get? k = some s →
      subscriptionsOf svc' s.stripeCustomerId ≤ activationsOf svc' k := by
  cases h with
  | opened r d =>
    intro k s hs
    rcases Dict.get?_set_cases hs with ⟨rfl, rfl⟩ | ⟨-, hold⟩
    · exact (unbooked_draws hb hf).2.le.trans (Nat.zero_le _)
    · exact hb.covered k s hold
  | completed e d t _ hfind _ =>
    have ht := ((findSession_iff hw).1 hfind).1
    intro k s hs
    have hsub := subscriptionsOf_complete (recordEvent svc e.eventId) hf t e s.stripeCustomerId
    rw [activationsOf_complete]
    rcases Dict.get?_set_cases hs with ⟨rfl, rfl⟩ | ⟨hk, hold⟩
    · have hcov := hb.covered t.id t ht
      simp only [CheckoutSession.pay, if_true] at hsub ⊢
      exact hsub.trans (Nat.add_le_add_right hcov 1)
    · have hne : t.stripeCustomerId ≠ s.stripeCustomerId :=
        fun he => hk (hw.customer k t.id s t hold ht he.symm)
      rw [if_neg hne] at hsub
      rw [if_neg (Ne.symm hk)]
      exact hsub.trans (hb.covered k s hold)
  | expired e d t _ hfind _ =>
    intro k s hs
    rcases Dict.get?_set_cases hs with ⟨rfl, rfl⟩ | ⟨-, hold⟩
    · exact hb.covered t.id t ((findSession_iff hw).1 hfind).1
    · exact hb.covered k s hold
  | _ => exact hb.covered

theorem booked_effect (h : Effect svc c svc' p) (hw : WellFiled svc.sessions)
    (hf : FreshDraws svc c) (hb : Booked svc) : Booked svc' where
  stored := stored_effect h hw hf hb
  customers := customers_effect h hw hf hb
  paidAt := paidAt_effect h hw hf hb
  covered := covered_effect h hw hf hb

theorem run_booked (h : ValidTrace FreshDraws next .new cs) : Booked (run cs) := by
  refine (history_invariant (I := fun _ svc => WellFiled svc.sessions ∧ Booked svc)
    ⟨wellFiled_empty, ?_⟩ ?_ h).2
  · constructor
    · intro t ht; cases ht
    · intro q hq; cases hq
    · intro k s hs; cases hs
    · intro k s hs; cases hs
  · rintro es c - ⟨hw, hb⟩ hf
    have heff := next_effect (runTrace next .new es) c
    exact ⟨wellFiled_effect heff hw hf, booked_effect heff hw hf hb⟩

/-- The activations are those of the payments processed, in the same order. -/
theorem activations_payments (cs : List Call) :
    (run cs).activations.map (fun t => (t.accountId, t.checkoutId)) =
      (payments cs).map fun s => (s.accountId, s.id) := by
  induction cs using List.reverseRecOn with
  | nil => rfl
  | append_singleton cs c ih =>
    rw [payments_concat, List.map_append, run_concat, ← ih]
    have heff := next_effect (run cs) c
    generalize next (run cs) c = svc', payment (run cs) c = p at heff ⊢
    cases heff with
    | completed => simp [completeSession, recordEvent, activationFor]
    | _ => simp [recordEvent, expireSession]

/-! ### Activations per session -/

structure EmittedOnce (cs : List Call) (s : CheckoutSession) : Prop where
  activation : activationsOf (run cs) s.id ≤ 1
  subscription : subscriptionsOf (run cs) s.stripeCustomerId ≤ 1
  accepted : s.id ∈ (payments cs).map CheckoutSession.id → activationsOf (run cs) s.id = 1

/-- A completed event that is not a repeat finds its session not paid yet. -/
def CompletesUnpaid (svc : BillingService) : Call → Prop
  | .checkout _ _ => True
  | .webhook e _ => e.eventId ∉ svc.processedEvents → e.eventType = completedType →
      ∀ s ∈ findSession svc e.sessionId, s.paidAt = none

instance (svc : BillingService) (c : Call) : Decidable (CompletesUnpaid svc c) :=
  match c with
  | .checkout _ _ => isTrue trivial
  | .webhook _ _ => inferInstanceAs (Decidable (_ → _ → _))

theorem paid_has_activation {id : String} (h : id ∈ (payments cs).map CheckoutSession.id) :
    0 < activationsOf (run cs) id := by
  have hids : (run cs).activations.map ActivationTask.checkoutId =
      (payments cs).map CheckoutSession.id := by
    have hsnd := congrArg (List.map Prod.snd) (activations_payments cs)
    rwa [List.map_map, List.map_map] at hsnd
  rw [← hids] at h
  obtain ⟨t, ht, rfl⟩ := List.mem_map.1 h
  exact List.countP_pos_iff.2 ⟨t, ht, by simp⟩

theorem activationsOf_effect (h : Effect svc c svc' p) (id : String) :
    activationsOf svc' id = activationsOf svc id + p.countP fun s => s.id = id := by
  cases h with
  | completed e d s =>
    rw [activationsOf_complete, List.countP_singleton]
    by_cases hs : s.id = id
    · simp [hs, activationsOf, recordEvent]
    · simp [hs, activationsOf, recordEvent]
  | _ => rfl

/-- A payment is processed for a stored session, by a completed event that is no repeat. -/
theorem payment_cases (svc : BillingService) (c : Call) :
    payment svc c = [] ∨ ∃ e d s, c = .webhook e d ∧ e.eventId ∉ svc.processedEvents ∧
      e.eventType = completedType ∧ findSession svc e.sessionId = some s ∧
      payment svc c = [s] := by
  have heff := next_effect svc c
  generalize next svc c = svc', payment svc c = p at heff ⊢
  cases heff with
  | completed e d s hnew hfind htype =>
    exact Or.inr ⟨e, d, s, rfl, hnew, htype, hfind, rfl⟩
  | _ => exact Or.inl rfl

theorem payment_completed {e : WebhookEvent} {d : WebhookDraws} {s : CheckoutSession}
    (hnew : e.eventId ∉ svc.processedEvents) (hfind : findSession svc e.sessionId = some s)
    (htype : e.eventType = completedType) : payment svc (.webhook e d) = [s] := by
  have hreply : (processWebhook svc e d).2 = (true, "payment_processed") := by
    rcases processWebhook_cases svc e d with ⟨hseen, -⟩ | ⟨-, ⟨hnone, -⟩ | ⟨t, -, ht⟩⟩
    · exact absurd hseen hnew
    · rw [hfind] at hnone; cases hnone
    · rcases ht with ⟨-, h⟩ | ⟨hx, -⟩ | ⟨⟨hc, -⟩, -⟩
      · rw [h]
      · rw [htype] at hx; exact absurd hx (by decide)
      · exact absurd htype hc
  simp [payment, hreply, hfind]

/-- Each event of the run completes an unpaid session: no session is activated twice. -/
theorem activated_once (hf : ValidTrace FreshDraws next .new cs)
    (h : ValidTrace CompletesUnpaid next .new cs) (id : String) :
    activationsOf (run cs) id ≤ 1 := by
  induction cs using List.reverseRecOn with
  | nil => exact Nat.zero_le 1
  | append_singleton cs c ih =>
    obtain ⟨hfs, -⟩ := validTrace_concat.1 hf
    obtain ⟨hs, hc⟩ := validTrace_concat.1 h
    have hid := ih hfs hs
    rw [run_concat, activationsOf_effect (next_effect _ c)]
    rcases payment_cases (run cs) c with hp | ⟨e, d, s, rfl, hnew, htype, hfind, hp⟩
    · rw [hp]; exact hid
    · have hstored := ((findSession_iff (run_wellFiled hfs)).1 hfind).1
      have hunpaid := hc hnew htype s hfind
      have hzero := ((run_booked hfs).paidAt s.id s hstored).1 hunpaid
      rw [hp, List.countP_singleton]
      by_cases he : s.id = id
      · rw [← he, hzero]; simp
      · simpa [he] using hid

/-- Every checkout session has its activation exactly once, in every state of the run, if and
only if no completed event under a new id reaches a session that has been paid before. -/
theorem emitted_once_iff_completes_unpaid (hf : ValidTrace FreshDraws next .new cs) :
    (∀ xs, xs <+: cs → ∀ s ∈ (run xs).sessions.values, EmittedOnce xs s) ↔
      ValidTrace CompletesUnpaid next .new cs := by
  constructor
  · intro h
    refine validTrace_of_after fun xs c hp _ => ?_
    have hfs := validTrace_earlier ((List.prefix_append xs [c]).trans hp) hf
    cases c with
    | checkout r d => trivial
    | webhook e d =>
      intro hnew htype s hfind
      obtain ⟨hstored, -⟩ := (findSession_iff (run_wellFiled hfs)).1 hfind
      refine ((run_booked hfs).paidAt s.id s hstored).2 ?_
      have hfc := (validTrace_concat.1 (validTrace_earlier hp hf)).2
      obtain ⟨s', hs', hsame⟩ := session_kept (next_effect (run xs) (.webhook e d))
        (run_wellFiled hfs) hfc hstored
      have hpay : payment (run xs) (.webhook e d) = [s] := payment_completed hnew hfind htype
      have hmem : s' ∈ (run (xs ++ [.webhook e d])).sessions.values := by
        rw [run_concat]
        exact Dict.mem_values_iff.2 ⟨s.id, hs'⟩
      have honce := (h _ hp s' hmem).activation
      rw [run_concat, activationsOf_effect (next_effect _ _), hpay,
        hsame.identifiers.1] at honce
      simpa using honce
  · intro h xs hp s hs
    have hfs := validTrace_earlier hp hf
    have hb := run_booked hfs
    have hone := activated_once hfs (validTrace_earlier hp h)
    obtain ⟨k, hk⟩ := Dict.mem_values_iff.1 hs
    have hid := (run_wellFiled hfs).keyed k s hk
    subst hid
    exact {
      activation := hone s.id
      subscription := (hb.covered s.id s hk).trans (hone s.id)
      accepted := fun ha => le_antisymm (hone s.id) (paid_has_activation ha) }

def proCheckout : Call :=
  .checkout { accountId := "acc-1", planId := "pro_monthly", amountCents := 49900 }
    ⟨"s-1", "a1", "b1", 0⟩

def completion (eventId : String) (now : ℤ) : Call :=
  .webhook { eventId := eventId, eventType := completedType, sessionId := "cs_a1" }
    ⟨"sub-" ++ eventId, now, now⟩

def redelivered : List Call := [proCheckout, completion "evt-1" 1, completion "evt-1" 2]

theorem redelivered_completion_emits_once :
    ValidTrace FreshDraws next .new redelivered ∧
    ∀ xs, xs <+: redelivered → ∀ s ∈ (run xs).sessions.values, EmittedOnce xs s :=
  have hfresh : ValidTrace FreshDraws next .new redelivered := by decide
  ⟨hfresh, (emitted_once_iff_completes_unpaid hfresh).2 (by decide)⟩

def completedTwice : List Call := [proCheckout, completion "evt-1" 1, completion "evt-2" 2]

/-- Two completed events of one session, under different ids, activate it twice. -/
theorem two_completions_activate_twice :
    ValidTrace FreshDraws next .new completedTwice ∧
    activationsOf (run completedTwice) "s-1" = 2 ∧
    ¬ ∀ s ∈ (run completedTwice).sessions.values, EmittedOnce completedTwice s := by
  refine ⟨by decide, by decide, fun h => ?_⟩
  have hone : ∀ s ∈ (run completedTwice).sessions.values,
      activationsOf (run completedTwice) s.id ≤ 1 := fun s hs => (h s hs).activation
  revert hone
  decide

/-! ### Events that are refused -/

/-- A delivery refused for another reason than being a repeat leaves no trace. -/
def RefusalKeepsState (svc : BillingService) : Call → Prop
  | .checkout _ _ => True
  | .webhook e d => (processWebhook svc e d).2.1 = false →
      (processWebhook svc e d).2.2 ≠ "duplicate_event" → (processWebhook svc e d).1 = svc

/-- The delivery is a repeat, or finds its session and has a type that is handled. -/
def DeliveredInTime (svc : BillingService) : Call → Prop
  | .checkout _ _ => True
  | .webhook e _ => e.eventId ∈ svc.processedEvents ∨
      (findSession svc e.sessionId).isSome ∧
        (e.eventType = completedType ∨ e.eventType = expiredType)

instance (svc : BillingService) (c : Call) : Decidable (DeliveredInTime svc c) :=
  match c with
  | .checkout _ _ => isTrue trivial
  | .webhook _ _ => instDecidableOr

theorem recordEvent_ne {id : String} (h : id ∉ svc.processedEvents) : recordEvent svc id ≠ svc := by
  intro he
  have hid : id ∈ (recordEvent svc id).processedEvents := Finset.mem_insert_self _ _
  rw [he] at hid
  exact h hid

theorem unhandled_not_duplicate (t : String) : "unhandled_event:" ++ t ≠ "duplicate_event" := by
  intro h
  have hc := congrArg String.toList h
  rw [String.toList_append] at hc
  cases (List.cons.inj hc).1

theorem refusal_keeps_state_iff (svc : BillingService) (c : Call) :
    RefusalKeepsState svc c ↔ DeliveredInTime svc c := by
  cases c with
  | checkout r d => exact Iff.rfl
  | webhook e d =>
    simp only [RefusalKeepsState, DeliveredInTime]
    rcases processWebhook_cases svc e d with ⟨hseen, h⟩ | ⟨hnew, ⟨hf, h⟩ | ⟨s, hf, h⟩⟩
    · simp [h, hseen]
    · simp [h, hnew, hf, recordEvent_ne hnew]
    · rcases h with ⟨ht, h⟩ | ⟨ht, h⟩ | ⟨ht, h⟩
      · simp [h, hf, ht]
      · simp [h, hf, ht]
      · simp [h, hnew, ht, recordEvent_ne hnew, unhandled_not_duplicate]

def IdsNameEvents (cs : List Call) : Prop :=
  ∀ e d e' d', .webhook e d ∈ cs → .webhook e' d' ∈ cs → e.eventId = e'.eventId → e = e'

theorem run_session_kept {xs ys : List Call} (hp : xs <+: ys)
    (hf : ValidTrace FreshDraws next .new ys) {k : String} {s : CheckoutSession}
    (hs : (run xs).sessions.get? k = some s) :
    ∃ s', (run ys).sessions.get? k = some s' ∧ SameCheckout s s' := by
  induction ys using List.reverseRecOn with
  | nil => rw [List.prefix_nil.1 hp] at hs; exact ⟨s, hs, rfl⟩
  | append_singleton ys c ih =>
    rcases prefix_concat_cases hp with hp | rfl
    · obtain ⟨hfs, hfc⟩ := validTrace_concat.1 hf
      obtain ⟨t, ht, hst⟩ := ih hp hfs
      obtain ⟨u, hu, htu⟩ := session_kept (next_effect _ c) (run_wellFiled hfs) hfc ht
      exact ⟨u, by rw [run_concat, hu], hst.trans htu⟩
    · exact ⟨s, hs, rfl⟩

theorem found_session_kept {xs ys : List Call} (hp : xs <+: ys)
    (hf : ValidTrace FreshDraws next .new ys) {sessionId : String} {s t : CheckoutSession}
    (hs : findSession (run xs) sessionId = some s) (ht : findSession (run ys) sessionId = some t) :
    s.id = t.id := by
  obtain ⟨hstored, hid⟩ := (findSession_iff (run_wellFiled (validTrace_earlier hp hf))).1 hs
  obtain ⟨u, hu, hsame⟩ := run_session_kept hp hf hstored
  have huid := hsame.identifiers
  have hfound : findSession (run ys) sessionId = some u :=
    (findSession_iff (run_wellFiled hf)).2 ⟨by rw [huid.1, hu], by rw [huid.2.1, hid]⟩
  rw [hfound] at ht
  cases ht
  exact huid.1.symm

theorem activationsOf_mono {xs ys : List Call} (hp : xs <+: ys) (id : String) :
    activationsOf (run xs) id ≤ activationsOf (run ys) id := by
  induction ys using List.reverseRecOn with
  | nil => rw [List.prefix_nil.1 hp]
  | append_singleton ys c ih =>
    rcases prefix_concat_cases hp with hp | rfl
    · rw [run_concat, activationsOf_effect (next_effect _ c)]
      exact (ih hp).trans (Nat.le_add_right _ _)
    · exact le_refl _

theorem processed_effect (h : Effect svc c svc' p) {id : String}
    (hid : id ∈ svc'.processedEvents) :
    id ∈ svc.processedEvents ∨
    ∃ e d, c = .webhook e d ∧ e.eventId = id ∧ e.eventId ∉ svc.processedEvents := by
  have hrecord : ∀ {e : WebhookEvent} {d : WebhookDraws}, c = .webhook e d →
      e.eventId ∉ svc.processedEvents → id ∈ (recordEvent svc e.eventId).processedEvents →
      id ∈ svc.processedEvents ∨
        ∃ e d, c = .webhook e d ∧ e.eventId = id ∧ e.eventId ∉ svc.processedEvents := by
    intro e d hc hnew hin
    rcases Finset.mem_insert.1 hin with rfl | hin
    · exact Or.inr ⟨e, d, hc, rfl, hnew⟩
    · exact Or.inl hin
  cases h with
  | reused | opened | duplicate => exact Or.inl hid
  | unmatched e d hnew => exact hrecord rfl hnew hid
  | completed e d s hnew => exact hrecord rfl hnew hid
  | expired e d s hnew => exact hrecord rfl hnew hid
  | unhandled e d s hnew => exact hrecord rfl hnew hid

theorem processed_first {id : String} (h : id ∈ (run cs).processedEvents) :
    ∃ xs e d, xs ++ [.webhook e d] <+: cs ∧ e.eventId = id ∧
      e.eventId ∉ (run xs).processedEvents := by
  induction cs using List.reverseRecOn with
  | nil => cases h
  | append_singleton cs c ih =>
    rw [run_concat] at h
    rcases processed_effect (next_effect _ c) h with h | ⟨e, d, rfl, he, hnew⟩
    · obtain ⟨xs, e, d, hp, he⟩ := ih h
      exact ⟨xs, e, d, hp.trans (List.prefix_append _ _), he⟩
    · exact ⟨cs, e, d, List.prefix_rfl, he, hnew⟩

structure EventsKept (cs : List Call) : Prop where
  refusals : ∀ xs c, xs ++ [c] <+: cs → RefusalKeepsState (run xs) c
  redelivered : ∀ xs e d s, xs ++ [.webhook e d] <+: cs → e.eventType = completedType →
    findSession (run xs) e.sessionId = some s → 0 < activationsOf (run cs) s.id

theorem first_delivery_activates {xs : List Call} {e : WebhookEvent} {d : WebhookDraws}
    {s : CheckoutSession} (hp : xs ++ [.webhook e d] <+: cs)
    (hnew : e.eventId ∉ (run xs).processedEvents)
    (hfind : findSession (run xs) e.sessionId = some s) (htype : e.eventType = completedType) :
    0 < activationsOf (run cs) s.id := by
  refine lt_of_lt_of_le ?_ (activationsOf_mono hp s.id)
  rw [run_concat, activationsOf_effect (next_effect _ _), payment_completed hnew hfind htype]
  simp

/-- In every run the refused events leave the state as it was, and a completed event delivered
to its session is not lost, if and only if no event comes before its session is known and
none has a type that is not handled. -/
theorem events_kept_iff_delivered_in_time (hf : ValidTrace FreshDraws next .new cs)
    (hids : IdsNameEvents cs) :
    EventsKept cs ↔ ValidTrace DeliveredInTime next .new cs := by
  constructor
  · intro h
    exact validTrace_of_after fun xs c hp _ =>
      (refusal_keeps_state_iff _ c).1 (h.refusals xs c hp)
  · intro h
    constructor
    · intro xs c hp
      exact (refusal_keeps_state_iff _ c).2 (validTrace_concat.1 (validTrace_earlier hp h)).2
    · intro xs e d s hp htype hfind
      by_cases hseen : e.eventId ∈ (run xs).processedEvents
      · obtain ⟨zs, e', d', hz, hid, hnew⟩ := processed_first hseen
        have hxs := (List.prefix_append xs [.webhook e d]).trans hp
        have he : e' = e := hids e' d' e d ((hz.trans hxs).subset (by simp))
          (hp.subset (by simp)) hid
        subst he
        have htime := (validTrace_concat.1 (validTrace_earlier (hz.trans hxs) h)).2
        obtain ⟨s₀, hs₀⟩ := Option.isSome_iff_exists.1 (htime.resolve_left hnew).1
        have hsame := found_session_kept ((List.prefix_append _ _).trans hz)
          (validTrace_earlier hxs hf) hs₀ hfind
        rw [← hsame]
        exact first_delivery_activates (hz.trans hxs) hnew hs₀ htype
      · exact first_delivery_activates hp hseen hfind htype

theorem timely_events_kept : EventsKept redelivered :=
  have hids : IdsNameEvents redelivered := by
    intro e d e' d' h h' _
    simp only [redelivered, proCheckout, completion, List.mem_cons, List.not_mem_nil, or_false,
      reduceCtorEq, false_or, Call.webhook.injEq] at h h'
    rcases h with ⟨rfl, -⟩ | ⟨rfl, -⟩ <;> rcases h' with ⟨rfl, -⟩ | ⟨rfl, -⟩ <;> rfl
  (events_kept_iff_delivered_in_time (by decide) hids).2 (by decide)

/-- The event comes once before its session and once after it: the payment is lost. -/
theorem early_completion_lost :
    (processWebhook .new ⟨"evt-1", completedType, "cs_a1", none⟩ ⟨"sub-1", 1, 1⟩).2 =
      (false, "session_not_found") ∧
    ¬ RefusalKeepsState .new (completion "evt-1" 1) ∧
    activationsOf (run [completion "evt-1" 1, proCheckout, completion "evt-1" 2]) "s-1" = 0 ∧
    ¬ EventsKept [completion "evt-1" 1, proCheckout, completion "evt-1" 2] := by
  have hrefused : ¬ RefusalKeepsState .new (completion "evt-1" 1) := by
    rw [refusal_keeps_state_iff]
    decide
  exact ⟨by decide, hrefused, by decide, fun h => hrefused (h.refusals [] _ ⟨_, rfl⟩)⟩

end TrustCopilot.PaymentEvents
