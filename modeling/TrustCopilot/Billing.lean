import TrustCopilot.Library.OrderedDict
import TrustCopilot.Library.Trace
import Mathlib.Data.Finset.Insert
import Mathlib.Data.Int.Notation

/-! Checkout sessions, and the webhooks that settle them. What `uuid4` and the clock return
during a call is an input of the call. -/
namespace TrustCopilot.Billing

open TrustCopilot.OrderedDict
open TrustCopilot.Trace

inductive CheckoutStatus where
  | pending
  | paid
  | failed
  | expired
  deriving DecidableEq, Repr

structure CheckoutSession where
  id : String
  accountId : String
  planId : String
  stripeSessionId : String
  stripeCustomerId : String
  amountCents : ℤ
  currency : String
  status : CheckoutStatus := .pending
  createdAt : ℤ
  paidAt : Option ℤ := none
  idempotencyKey : String
  deriving DecidableEq, Repr

structure SubscriptionRecord where
  id : String
  accountId : String
  stripeSubscriptionId : String
  stripeCustomerId : String
  planId : String
  status : String := "active"
  currentPeriodEnd : Option ℤ := none
  deriving DecidableEq, Repr

structure ActivationTask where
  accountId : String
  checkoutId : String
  planId : String
  triggeredAt : ℤ
  deriving DecidableEq, Repr

structure BillingService where
  sessions : Dict String CheckoutSession
  subscriptions : Dict String SubscriptionRecord
  activations : List ActivationTask
  processedEvents : Finset String

def BillingService.new : BillingService := ⟨Dict.empty, Dict.empty, [], ∅⟩

structure CheckoutRequest where
  accountId : String
  planId : String
  amountCents : ℤ
  currency : String := "usd"

/-- Drawn by a checkout, and used only if it opens a session. -/
structure CheckoutDraws where
  id : String
  stripeHex : String
  customerHex : String
  now : ℤ

structure WebhookEvent where
  eventId : String
  eventType : String
  sessionId : String
  subscriptionId : Option String := none

/-- Drawn by a webhook, and used only if it processes a payment. -/
structure WebhookDraws where
  subscriptionRecordId : String
  paidAt : ℤ
  triggeredAt : ℤ

def completedType : String := "checkout.session.completed"

def expiredType : String := "checkout.session.expired"

def checkoutKey (accountId planId : String) : String :=
  "checkout:" ++ accountId ++ ":" ++ planId

def openSession (r : CheckoutRequest) (d : CheckoutDraws) : CheckoutSession where
  id := d.id
  accountId := r.accountId
  planId := r.planId
  stripeSessionId := "cs_" ++ d.stripeHex
  stripeCustomerId := "cus_" ++ d.customerHex
  amountCents := r.amountCents
  currency := r.currency
  createdAt := d.now
  idempotencyKey := checkoutKey r.accountId r.planId

def createCheckout (svc : BillingService) (r : CheckoutRequest) (d : CheckoutDraws) :
    BillingService × CheckoutSession :=
  match svc.sessions.first? fun s =>
      s.idempotencyKey = checkoutKey r.accountId r.planId ∧ s.status = .pending with
  | some s => (svc, s)
  | none => ({ svc with sessions := svc.sessions.set d.id (openSession r d) }, openSession r d)

def findSession (svc : BillingService) (sessionId : String) : Option CheckoutSession :=
  svc.sessions.first? fun s => s.stripeSessionId = sessionId

def recordEvent (svc : BillingService) (eventId : String) : BillingService :=
  { svc with processedEvents := insert eventId svc.processedEvents }

def CheckoutSession.pay (s : CheckoutSession) (now : ℤ) : CheckoutSession :=
  { s with status := .paid, paidAt := some now }

def CheckoutSession.expire (s : CheckoutSession) : CheckoutSession :=
  { s with status := .expired }

def newSubscription (s : CheckoutSession) (subscriptionId : String) (d : WebhookDraws) :
    SubscriptionRecord where
  id := d.subscriptionRecordId
  accountId := s.accountId
  stripeSubscriptionId := subscriptionId
  stripeCustomerId := s.stripeCustomerId
  planId := s.planId

/-- An absent subscription id and an empty one are both falsy. -/
def addSubscription (subs : Dict String SubscriptionRecord) (s : CheckoutSession)
    (e : WebhookEvent) (d : WebhookDraws) : Dict String SubscriptionRecord :=
  if e.subscriptionId.getD "" = "" then subs
  else subs.set d.subscriptionRecordId (newSubscription s (e.subscriptionId.getD "") d)

def activationFor (s : CheckoutSession) (d : WebhookDraws) : ActivationTask where
  accountId := s.accountId
  checkoutId := s.id
  planId := s.planId
  triggeredAt := d.triggeredAt

def completeSession (svc : BillingService) (s : CheckoutSession) (e : WebhookEvent)
    (d : WebhookDraws) : BillingService :=
  { svc with
    sessions := svc.sessions.set s.id (s.pay d.paidAt)
    subscriptions := addSubscription svc.subscriptions s e d
    activations := svc.activations ++ [activationFor s d] }

def expireSession (svc : BillingService) (s : CheckoutSession) : BillingService :=
  { svc with sessions := svc.sessions.set s.id s.expire }

def processWebhook (svc : BillingService) (e : WebhookEvent) (d : WebhookDraws) :
    BillingService × Bool × String :=
  if e.eventId ∈ svc.processedEvents then (svc, false, "duplicate_event")
  else
    -- the id is recorded before anything is known about the event
    let svc := recordEvent svc e.eventId
    match findSession svc e.sessionId with
    | none => (svc, false, "session_not_found")
    | some s =>
      if e.eventType = completedType then (completeSession svc s e d, true, "payment_processed")
      else if e.eventType = expiredType then (expireSession svc s, true, "session_expired")
      else (svc, false, "unhandled_event:" ++ e.eventType)

def pendingActivations (svc : BillingService) : List ActivationTask := svc.activations

def getSession (svc : BillingService) (sessionId : String) : Option CheckoutSession :=
  svc.sessions.get? sessionId

inductive Call where
  | checkout (r : CheckoutRequest) (d : CheckoutDraws)
  | webhook (e : WebhookEvent) (d : WebhookDraws)

def next (svc : BillingService) : Call → BillingService
  | .checkout r d => (createCheckout svc r d).1
  | .webhook e d => (processWebhook svc e d).1

def run (cs : List Call) : BillingService := runTrace next .new cs

theorem run_concat (cs : List Call) (c : Call) : run (cs ++ [c]) = next (run cs) c :=
  runTrace_concat _ cs c

/-- `uuid4` does not return an identifier that is already in use. -/
def FreshDraws (svc : BillingService) : Call → Prop
  | .checkout _ d => d.id ∉ svc.sessions.keys ∧
      ∀ s ∈ svc.sessions.values, s.stripeSessionId ≠ "cs_" ++ d.stripeHex ∧
        s.stripeCustomerId ≠ "cus_" ++ d.customerHex
  | .webhook _ d => d.subscriptionRecordId ∉ svc.subscriptions.keys

instance (svc : BillingService) (c : Call) : Decidable (FreshDraws svc c) :=
  match c with
  | .checkout _ _ => instDecidableAnd
  | .webhook _ _ => instDecidableNot

/-- A pending session with the key of the request is handed back, or there is none and a new
one is opened. -/
theorem createCheckout_cases (svc : BillingService) (r : CheckoutRequest) (d : CheckoutDraws) :
    (∃ k s, svc.sessions.get? k = some s ∧
      (s.idempotencyKey = checkoutKey r.accountId r.planId ∧ s.status = .pending) ∧
      createCheckout svc r d = (svc, s)) ∨
    (∀ k s, svc.sessions.get? k = some s →
      ¬ (s.idempotencyKey = checkoutKey r.accountId r.planId ∧ s.status = .pending)) ∧
    createCheckout svc r d =
      ({ svc with sessions := svc.sessions.set d.id (openSession r d) }, openSession r d) := by
  rw [createCheckout]
  split
  · next s hfound =>
    obtain ⟨hp, k, hs⟩ := Dict.first?_some hfound
    exact Or.inl ⟨k, s, hs, of_decide_eq_true hp, rfl⟩
  · next hnone =>
    exact Or.inr ⟨fun k s hs => of_decide_eq_false (Dict.first?_none hnone hs), rfl⟩

/-- Everything a delivery can do: it is a repeat, it finds no session, or the type of the
event decides what happens to the session it finds. -/
theorem processWebhook_cases (svc : BillingService) (e : WebhookEvent) (d : WebhookDraws) :
    (e.eventId ∈ svc.processedEvents ∧ processWebhook svc e d = (svc, false, "duplicate_event"))
    ∨ e.eventId ∉ svc.processedEvents ∧
      (findSession svc e.sessionId = none ∧
        processWebhook svc e d = (recordEvent svc e.eventId, false, "session_not_found")
      ∨ ∃ s, findSession svc e.sessionId = some s ∧
        (e.eventType = completedType ∧
          processWebhook svc e d =
            (completeSession (recordEvent svc e.eventId) s e d, true, "payment_processed")
        ∨ e.eventType = expiredType ∧
          processWebhook svc e d =
            (expireSession (recordEvent svc e.eventId) s, true, "session_expired")
        ∨ (e.eventType ≠ completedType ∧ e.eventType ≠ expiredType) ∧
          processWebhook svc e d =
            (recordEvent svc e.eventId, false, "unhandled_event:" ++ e.eventType))) := by
  have hfind : findSession (recordEvent svc e.eventId) e.sessionId =
      findSession svc e.sessionId := rfl
  simp only [processWebhook]
  by_cases hseen : e.eventId ∈ svc.processedEvents
  · exact Or.inl ⟨hseen, if_pos hseen⟩
  · refine Or.inr ⟨hseen, ?_⟩
    rw [if_neg hseen, hfind]
    cases hs : findSession svc e.sessionId with
    | none => exact Or.inl ⟨rfl, rfl⟩
    | some s =>
      refine Or.inr ⟨s, rfl, ?_⟩
      by_cases hc : e.eventType = completedType
      · exact Or.inl ⟨hc, if_pos hc⟩
      · by_cases hx : e.eventType = expiredType
        · exact Or.inr (Or.inl ⟨hx, (if_neg hc).trans (if_pos hx)⟩)
        · exact Or.inr (Or.inr ⟨⟨hc, hx⟩, (if_neg hc).trans (if_neg hx)⟩)

def payment (svc : BillingService) : Call → List CheckoutSession
  | .checkout _ _ => []
  | .webhook e d =>
    if (processWebhook svc e d).2 = (true, "payment_processed") then
      (findSession svc e.sessionId).toList
    else []

def payments (cs : List Call) : List CheckoutSession := emitted payment next .new cs

theorem payments_concat (cs : List Call) (c : Call) :
    payments (cs ++ [c]) = payments cs ++ payment (run cs) c := emitted_concat payment _ cs c

inductive Effect (svc : BillingService) :
    Call → BillingService → List CheckoutSession → Prop
  | reused (r d) : Effect svc (.checkout r d) svc []
  | opened (r d) :
      Effect svc (.checkout r d)
        { svc with sessions := svc.sessions.set d.id (openSession r d) } []
  | duplicate (e d) (hseen : e.eventId ∈ svc.processedEvents) : Effect svc (.webhook e d) svc []
  | unmatched (e d) (hnew : e.eventId ∉ svc.processedEvents)
      (hfind : findSession svc e.sessionId = none) :
      Effect svc (.webhook e d) (recordEvent svc e.eventId) []
  | completed (e d s) (hnew : e.eventId ∉ svc.processedEvents)
      (hfind : findSession svc e.sessionId = some s) (htype : e.eventType = completedType) :
      Effect svc (.webhook e d) (completeSession (recordEvent svc e.eventId) s e d) [s]
  | expired (e d s) (hnew : e.eventId ∉ svc.processedEvents)
      (hfind : findSession svc e.sessionId = some s) (htype : e.eventType = expiredType) :
      Effect svc (.webhook e d) (expireSession (recordEvent svc e.eventId) s) []
  | unhandled (e d s) (hnew : e.eventId ∉ svc.processedEvents)
      (hfind : findSession svc e.sessionId = some s)
      (hother : e.eventType ≠ completedType ∧ e.eventType ≠ expiredType) :
      Effect svc (.webhook e d) (recordEvent svc e.eventId) []

theorem next_effect (svc : BillingService) (c : Call) :
    Effect svc c (next svc c) (payment svc c) := by
  cases c with
  | checkout r d =>
    rcases createCheckout_cases svc r d with ⟨-, s, -, -, h⟩ | ⟨-, h⟩ <;>
      simp only [next, payment, h]
    · exact .reused r d
    · exact .opened r d
  | webhook e d =>
    rcases processWebhook_cases svc e d with ⟨hseen, h⟩ | ⟨hnew, ⟨hf, h⟩ | ⟨s, hf, h⟩⟩
    · simp only [next, payment, h]
      exact .duplicate e d hseen
    · simp only [next, payment, h]
      exact .unmatched e d hnew hf
    · rcases h with ⟨ht, h⟩ | ⟨ht, h⟩ | ⟨ht, h⟩ <;> simp only [next, payment, h]
      · simpa [hf] using Effect.completed e d s hnew hf ht
      · exact .expired e d s hnew hf ht
      · exact .unhandled e d s hnew hf ht

/-- Two versions of one checkout: they may differ in what a webhook writes. -/
def SameCheckout (s t : CheckoutSession) : Prop :=
  t = { s with status := t.status, paidAt := t.paidAt }

theorem SameCheckout.trans {s t u : CheckoutSession} (h₁ : SameCheckout s t)
    (h₂ : SameCheckout t u) : SameCheckout s u := by
  unfold SameCheckout at *
  rw [h₂, h₁]

theorem SameCheckout.identifiers {s t : CheckoutSession} (h : SameCheckout s t) :
    t.id = s.id ∧ t.stripeSessionId = s.stripeSessionId ∧
    t.stripeCustomerId = s.stripeCustomerId := by
  rw [h]
  exact ⟨rfl, rfl, rfl⟩

structure WellFiled (sessions : Dict String CheckoutSession) : Prop where
  keyed : ∀ k s, sessions.get? k = some s → s.id = k
  stripe : sessions.DistinctBy CheckoutSession.stripeSessionId
  customer : sessions.DistinctBy CheckoutSession.stripeCustomerId

theorem wellFiled_empty : WellFiled Dict.empty where
  keyed _ _ h := by cases h
  stripe := Dict.distinctBy_empty _
  customer := Dict.distinctBy_empty _

theorem findSession_iff {svc : BillingService} (hw : WellFiled svc.sessions)
    {sessionId : String} {s : CheckoutSession} :
    findSession svc sessionId = some s ↔
      svc.sessions.get? s.id = some s ∧ s.stripeSessionId = sessionId := by
  rw [findSession, Dict.first?_eq_some_iff, decide_eq_true_iff, and_comm]
  · refine and_congr_left fun _ => ⟨?_, fun h => ⟨s.id, h⟩⟩
    rintro ⟨k, hk⟩
    rwa [hw.keyed k s hk]
  · intro j k v w hj hk hv hw'
    have hjk := hw.stripe j k v w hj hk
      ((of_decide_eq_true hv).trans (of_decide_eq_true hw').symm)
    subst hjk
    exact Option.some.inj (hj.symm.trans hk)

theorem wellFiled_open {svc : BillingService} {r : CheckoutRequest} {d : CheckoutDraws}
    (hw : WellFiled svc.sessions) (hf : FreshDraws svc (.checkout r d)) :
    WellFiled (svc.sessions.set d.id (openSession r d)) := by
  have hunused : ∀ k t, svc.sessions.get? k = some t →
      t.stripeSessionId ≠ "cs_" ++ d.stripeHex ∧ t.stripeCustomerId ≠ "cus_" ++ d.customerHex :=
    fun k t h => hf.2 t (Dict.mem_values_iff.2 ⟨k, h⟩)
  constructor
  · intro k s h
    rcases Dict.get?_set_cases h with ⟨rfl, rfl⟩ | ⟨-, hold⟩
    · rfl
    · exact hw.keyed k s hold
  · exact Dict.distinctBy_set hw.stripe fun j t ht _ => (hunused j t ht).1
  · exact Dict.distinctBy_set hw.customer fun j t ht _ => (hunused j t ht).2

theorem wellFiled_write {sessions : Dict String CheckoutSession} {s s' : CheckoutSession}
    (hw : WellFiled sessions) (hs : sessions.get? s.id = some s) (hsame : SameCheckout s s') :
    WellFiled (sessions.set s.id s') := by
  constructor
  · intro k u h
    rcases Dict.get?_set_cases h with ⟨rfl, rfl⟩ | ⟨-, hold⟩
    · exact hsame.identifiers.1
    · exact hw.keyed k u hold
  · refine Dict.distinctBy_set hw.stripe fun j t ht hj he => hj ?_
    exact hw.stripe j s.id t s ht hs (he.trans hsame.identifiers.2.1)
  · refine Dict.distinctBy_set hw.customer fun j t ht hj he => hj ?_
    exact hw.customer j s.id t s ht hs (he.trans hsame.identifiers.2.2)

variable {svc svc' : BillingService} {c : Call} {p : List CheckoutSession}

theorem wellFiled_effect (h : Effect svc c svc' p) (hw : WellFiled svc.sessions)
    (hf : FreshDraws svc c) : WellFiled svc'.sessions := by
  cases h with
  | opened r d => exact wellFiled_open hw hf
  | completed e d s _ hfind _ => exact wellFiled_write hw ((findSession_iff hw).1 hfind).1 rfl
  | expired e d s _ hfind _ => exact wellFiled_write hw ((findSession_iff hw).1 hfind).1 rfl
  | _ => exact hw

/-- A stored session stays stored, and only its status and payment time can change. -/
theorem session_kept (h : Effect svc c svc' p) (hw : WellFiled svc.sessions)
    (hf : FreshDraws svc c) {k : String} {s : CheckoutSession}
    (hs : svc.sessions.get? k = some s) :
    ∃ s', svc'.sessions.get? k = some s' ∧ SameCheckout s s' := by
  have hwrite : ∀ {t t'}, svc.sessions.get? t.id = some t → SameCheckout t t' →
      ∃ s', (svc.sessions.set t.id t').get? k = some s' ∧ SameCheckout s s' := by
    intro t t' ht hsame
    rw [Dict.get?_set]
    by_cases hk : k = t.id
    · rw [hk, ht] at hs
      cases hs
      exact ⟨t', if_pos hk, hsame⟩
    · exact ⟨s, by rw [if_neg hk, hs], rfl⟩
  cases h with
  | opened r d =>
    exact ⟨s, Dict.get?_set_fresh hf.1 hs _, rfl⟩
  | completed e d t _ hfind _ => exact hwrite ((findSession_iff hw).1 hfind).1 rfl
  | expired e d t _ hfind _ => exact hwrite ((findSession_iff hw).1 hfind).1 rfl
  | _ => exact ⟨s, hs, rfl⟩

theorem key_kept (h : Effect svc c svc' p) (hw : WellFiled svc.sessions)
    (hf : FreshDraws svc c) {k : String} (hk : k ∈ svc.sessions.keys) :
    k ∈ svc'.sessions.keys := by
  obtain ⟨s, hs⟩ := Option.isSome_iff_exists.1 (Dict.get?_isSome_iff.2 hk)
  obtain ⟨s', hs', -⟩ := session_kept h hw hf hs
  exact Dict.mem_keys_of_get? hs'

theorem run_wellFiled {cs : List Call} (h : ValidTrace FreshDraws next .new cs) :
    WellFiled (run cs).sessions :=
  history_invariant (I := fun _ svc => WellFiled svc.sessions) wellFiled_empty
    (fun _ c _ hw hf => wellFiled_effect (next_effect _ c) hw hf) h

end TrustCopilot.Billing
