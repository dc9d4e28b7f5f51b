import TrustCopilot.PaymentEvents
import Mathlib.Data.Finset.Lattice.Lemmas

/-! The status of a checkout session over a stream of webhooks in any order. Each event type
writes the status without looking at it. -/
namespace TrustCopilot.PaymentOrder

open TrustCopilot.OrderedDict
open TrustCopilot.Trace
open TrustCopilot.Billing
open TrustCopilot.PaymentEvents

variable {svc svc' : BillingService} {c : Call} {p : List CheckoutSession} {cs : List Call}

def reached (svc : BillingService) : Call → List (String × String)
  | .checkout _ _ => []
  | .webhook e _ => (findSession svc e.sessionId).toList.map fun s => (s.id, e.eventType)

def deliveries (cs : List Call) : List (String × String) := emitted reached next .new cs

def typesDelivered (cs : List Call) (id : String) : Finset String :=
  (((deliveries cs).filter fun d => d.1 = id).map Prod.snd).toFinset

/-- The status that the event types delivered to a session call for, whatever their order. -/
def settledStatus (types : Finset String) : CheckoutStatus :=
  if completedType ∈ types then .paid
  else if expiredType ∈ types then .expired
  else .pending

structure Settled (cs : List Call) : Prop where
  kept : ∀ xs k s, xs <+: cs → (run xs).sessions.get? k = some s → s.status = .paid →
    ∃ s', (run cs).sessions.get? k = some s' ∧ s'.status = .paid ∧ s'.paidAt = s.paidAt
  status : ∀ k s, (run cs).sessions.get? k = some s →
    s.status = settledStatus (typesDelivered cs k)

/-- A new event does not expire a paid session and completes one only at the time it was paid;
a repeat brings its session nothing that the session has not seen. -/
def InOrder (svc : BillingService) : Call → Prop
  | .checkout _ _ => True
  | .webhook e d => ∀ s ∈ findSession svc e.sessionId,
      (e.eventId ∉ svc.processedEvents →
        (e.eventType = expiredType → s.status ≠ .paid) ∧
        (e.eventType = completedType → s.status = .paid → s.paidAt = some d.paidAt)) ∧
      (e.eventId ∈ svc.processedEvents →
        (e.eventType = completedType → s.status = .paid) ∧
        (e.eventType = expiredType → s.status ≠ .pending))

instance (svc : BillingService) (c : Call) : Decidable (InOrder svc c) :=
  match c with
  | .checkout _ _ => isTrue trivial
  | .webhook _ _ => Option.decidableForallMem _

section Types

variable {types : Finset String}

theorem settledStatus_completed : settledStatus (insert completedType types) = .paid :=
  if_pos (Finset.mem_insert_self _ _)

theorem settledStatus_eq_paid_iff : settledStatus types = .paid ↔ completedType ∈ types := by
  rw [settledStatus]
  split
  · next h => simp [h]
  · next h => split <;> simp [h]

theorem settledStatus_expired (h : settledStatus types ≠ .paid) :
    settledStatus (insert expiredType types) = .expired := by
  rw [Ne, settledStatus_eq_paid_iff] at h
  have hne : completedType ≠ expiredType := by decide
  simp [settledStatus, h, hne]

theorem settledStatus_expired_ne : settledStatus (insert expiredType types) ≠ .pending := by
  rw [settledStatus]
  split
  · exact nofun
  · rw [if_pos (Finset.mem_insert_self _ _)]
    exact nofun

/-- A type that is not handled, or that has had its effect, changes nothing. -/
theorem settledStatus_insert {t : String}
    (hc : t = completedType → settledStatus types = .paid)
    (hx : t = expiredType → settledStatus types ≠ .pending) :
    settledStatus (insert t types) = settledStatus types := by
  by_cases ht : t ∈ types
  · rw [Finset.insert_eq_of_mem ht]
  · have hnc : completedType ≠ t := by
      rintro rfl
      exact ht (settledStatus_eq_paid_iff.1 (hc rfl))
    by_cases hp : completedType ∈ types
    · simp [settledStatus, hp]
    · have hnx : expiredType ≠ t := by
        rintro rfl
        exact hx rfl (by simp [settledStatus, hp, ht])
      simp [settledStatus, hp, hnc, hnx]

end Types

theorem typesDelivered_checkout (r : CheckoutRequest) (d : CheckoutDraws) (k : String) :
    typesDelivered (cs ++ [.checkout r d]) k = typesDelivered cs k := by
  simp [typesDelivered, deliveries, emitted_concat, reached]

theorem typesDelivered_found {e : WebhookEvent} {d : WebhookDraws} {s : CheckoutSession}
    (h : findSession (run cs) e.sessionId = some s) :
    typesDelivered (cs ++ [.webhook e d]) s.id = insert e.eventType (typesDelivered cs s.id) := by
  have hr : reached (runTrace next .new cs) (.webhook e d) = [(s.id, e.eventType)] := by
    rw [run] at h
    simp [reached, h]
  ext t
  simp [typesDelivered, deliveries, emitted_concat, hr]

theorem typesDelivered_other {e : WebhookEvent} {d : WebhookDraws} {k : String}
    (h : ∀ s ∈ findSession (run cs) e.sessionId, s.id ≠ k) :
    typesDelivered (cs ++ [.webhook e d]) k = typesDelivered cs k := by
  have hr : (reached (runTrace next .new cs) (.webhook e d)).filter (fun d => d.1 = k) = [] := by
    rw [run] at h
    simpa [reached] using h
  simp only [typesDelivered, deliveries, emitted_concat, List.filter_append, hr, List.append_nil]

theorem typesDelivered_unknown (hf : ValidTrace FreshDraws next .new cs) {k : String}
    (hk : k ∉ (run cs).sessions.keys) : typesDelivered cs k = ∅ := by
  induction cs using List.reverseRecOn with
  | nil => rfl
  | append_singleton cs c ih =>
    obtain ⟨hfs, hfc⟩ := validTrace_concat.1 hf
    have hbefore : k ∉ (run cs).sessions.keys := by
      rw [run_concat] at hk
      exact mt (key_kept (next_effect _ c) (run_wellFiled hfs) hfc) hk
    cases c with
    | checkout r d => rw [typesDelivered_checkout, ih hfs hbefore]
    | webhook e d =>
      rw [typesDelivered_other, ih hfs hbefore]
      intro s hs he
      have hstored := ((findSession_iff (run_wellFiled hfs)).1 hs).1
      rw [he] at hstored
      exact hbefore (Dict.mem_keys_of_get? hstored)

theorem paid_kept (h : Effect svc c svc' p) (hw : WellFiled svc.sessions)
    (hf : FreshDraws svc c) (ho : InOrder svc c) {k : String} {s : CheckoutSession}
    (hs : svc.sessions.get? k = some s) (hpaid : s.status = .paid) :
    ∃ s', svc'.sessions.get? k = some s' ∧ s'.status = .paid ∧ s'.paidAt = s.paidAt := by
  cases h with
  | opened r d =>
    exact ⟨s, Dict.get?_set_fresh hf.1 hs _, hpaid, rfl⟩
  | completed e d t hnew hfind htype =>
    by_cases hk : k = t.id
    · rw [hk, ((findSession_iff hw).1 hfind).1] at hs
      cases hs
      have hat := ((ho s hfind).1 hnew).2 htype hpaid
      exact ⟨s.pay d.paidAt, by rw [hk]; exact Dict.get?_set_self _ _ _, rfl, hat.symm⟩
    · exact ⟨s, (Dict.get?_set _ _ _ _).trans (by rw [if_neg hk]; exact hs), hpaid, rfl⟩
  | expired e d t hnew hfind htype =>
    by_cases hk : k = t.id
    · rw [hk, ((findSession_iff hw).1 hfind).1] at hs
      cases hs
      exact absurd hpaid (((ho s hfind).1 hnew).1 htype)
    · exact ⟨s, (Dict.get?_set _ _ _ _).trans (by rw [if_neg hk]; exact hs), hpaid, rfl⟩
  | _ => exact ⟨s, hs, hpaid, rfl⟩

def StatusSettled (cs : List Call) : Prop :=
  ∀ k s, (run cs).sessions.get? k = some s → s.status = settledStatus (typesDelivered cs k)

theorem status_settled_found (h : StatusSettled cs) {e : WebhookEvent} {d : WebhookDraws}
    {t t' : CheckoutSession} (hfind : findSession (run cs) e.sessionId = some t)
    (ht' : t'.status = settledStatus (insert e.eventType (typesDelivered cs t.id))) {k : String}
    {s : CheckoutSession} (hs : ((run cs).sessions.set t.id t').get? k = some s) :
    s.status = settledStatus (typesDelivered (cs ++ [.webhook e d]) k) := by
  rcases Dict.get?_set_cases hs with ⟨rfl, rfl⟩ | ⟨hk, hold⟩
  · rw [typesDelivered_found hfind, ht']
  · rw [typesDelivered_other, h k s hold]
    intro u hu
    rw [hfind] at hu
    cases hu
    exact Ne.symm hk

theorem status_settled_seen (h : StatusSettled cs) (hw : WellFiled (run cs).sessions)
    {e : WebhookEvent} {d : WebhookDraws}
    (hseen : ∀ t ∈ findSession (run cs) e.sessionId,
      (e.eventType = completedType → t.status = .paid) ∧
      (e.eventType = expiredType → t.status ≠ .pending)) {k : String}
    {s : CheckoutSession} (hs : (run cs).sessions.get? k = some s) :
    s.status = settledStatus (typesDelivered (cs ++ [.webhook e d]) k) := by
  by_cases hk : ∃ t, findSession (run cs) e.sessionId = some t ∧ t.id = k
  · obtain ⟨t, hfind, rfl⟩ := hk
    have hstored := ((findSession_iff hw).1 hfind).1
    rw [hs] at hstored
    cases hstored
    have ht := hseen s hfind
    rw [h s.id s hs] at ht
    rw [typesDelivered_found hfind, settledStatus_insert ht.1 ht.2, h s.id s hs]
  · rw [typesDelivered_other fun t ht he => hk ⟨t, ht, he⟩]
    exact h k s hs

theorem status_settled_concat (hf : ValidTrace FreshDraws next .new (cs ++ [c]))
    (ho : InOrder (run cs) c) (h : StatusSettled cs) : StatusSettled (cs ++ [c]) := by
  obtain ⟨hfs, hfc⟩ := validTrace_concat.1 hf
  have hw := run_wellFiled hfs
  intro k s hs
  rw [run_concat] at hs
  have heff := next_effect (run cs) c
  generalize next (run cs) c = svc', payment (run cs) c = p at heff hs
  cases heff with
  | reused r d => rw [typesDelivered_checkout]; exact h k s hs
  | opened r d =>
    rw [typesDelivered_checkout]
    rcases Dict.get?_set_cases hs with ⟨rfl, rfl⟩ | ⟨-, hold⟩
    · rw [typesDelivered_unknown hfs hfc.1]
      rfl
    · exact h k s hold
  | duplicate e d hseen => exact status_settled_seen h hw (fun t ht => (ho t ht).2 hseen) hs
  | unmatched e d hnew hfind =>
    rw [typesDelivered_other (by rw [hfind]; exact fun t ht => nomatch ht)]
    exact h k s hs
  | completed e d t hnew hfind htype =>
    refine status_settled_found h hfind ?_ hs
    rw [htype, settledStatus_completed]
    rfl
  | expired e d t hnew hfind htype =>
    refine status_settled_found h hfind ?_ hs
    have hstored := ((findSession_iff hw).1 hfind).1
    have hunpaid := ((ho t hfind).1 hnew).1 htype
    rw [h t.id t hstored] at hunpaid
    rw [htype, settledStatus_expired hunpaid]
    rfl
  | unhandled e d t hnew hfind hother =>
    exact status_settled_seen h hw
      (fun _ _ => ⟨fun hc => absurd hc hother.1, fun hx => absurd hx hother.2⟩) hs

theorem settled_of_in_order (hf : ValidTrace FreshDraws next .new cs)
    (h : ValidTrace InOrder next .new cs) : Settled cs := by
  induction cs using List.reverseRecOn with
  | nil =>
    constructor
    · intro xs k s hp hs
      rw [List.prefix_nil.1 hp] at hs
      cases hs
    · intro k s hs
      cases hs
  | append_singleton cs c ih =>
    obtain ⟨hfs, hfc⟩ := validTrace_concat.1 hf
    obtain ⟨hs, ho⟩ := validTrace_concat.1 h
    have hsettled := ih hfs hs
    constructor
    · intro xs k s hp hstored hpaid
      rcases prefix_concat_cases hp with hp | rfl
      · obtain ⟨t, ht, htpaid, htat⟩ := hsettled.kept xs k s hp hstored hpaid
        obtain ⟨u, hu, hupaid, huat⟩ :=
          paid_kept (next_effect _ c) (run_wellFiled hfs) hfc ho ht htpaid
        exact ⟨u, by rw [run_concat, hu], hupaid, huat.trans htat⟩
      · exact ⟨s, hstored, hpaid, rfl⟩
    · exact status_settled_concat hf ho hsettled.status

/-- What a settled run shows of its last step. -/
theorem in_order_of_settled (hw : WellFiled (run cs).sessions) (h : Settled (cs ++ [c])) :
    InOrder (run cs) c := by
  cases c with
  | checkout r d => trivial
  | webhook e d =>
    intro s hs
    have hfind : findSession (run cs) e.sessionId = some s := hs
    obtain ⟨hstored, -⟩ := (findSession_iff hw).1 hfind
    have hstatus := h.status s.id
    have hkept := h.kept cs s.id s (List.prefix_append _ _) hstored
    rw [run_concat] at hstatus hkept
    have heff := next_effect (run cs) (.webhook e d)
    generalize next (run cs) (.webhook e d) = svc', payment (run cs) (.webhook e d) = p
      at heff hstatus hkept
    cases heff with
    | duplicate _ _ hseen =>
      have hs := hstatus s hstored
      rw [typesDelivered_found hfind] at hs
      refine ⟨fun hnew => absurd hseen hnew, fun _ => ⟨fun hc => ?_, fun hx => ?_⟩⟩
      · rw [hs, hc, settledStatus_completed]
      · rw [hs, hx]
        exact settledStatus_expired_ne
    | unmatched _ _ _ hnone => rw [hfind] at hnone; cases hnone
    | completed _ _ t hnew ht htype =>
      rw [hfind] at ht
      cases ht
      refine ⟨fun _ => ⟨fun hx => ?_, fun _ hpaid => ?_⟩, fun hseen => absurd hseen hnew⟩
      · rw [htype] at hx
        exact absurd hx (by decide)
      · obtain ⟨s', hs', -, hat⟩ := hkept hpaid
        rw [completeSession, Dict.get?_set_self] at hs'
        cases hs'
        exact hat.symm
    | expired _ _ t hnew ht htype =>
      rw [hfind] at ht
      cases ht
      refine ⟨fun _ => ⟨fun _ hpaid => ?_, fun hc => ?_⟩, fun hseen => absurd hseen hnew⟩
      · obtain ⟨s', hs', hpaid', -⟩ := hkept hpaid
        rw [expireSession, Dict.get?_set_self] at hs'
        cases hs'
        cases hpaid'
      · rw [htype] at hc
        exact absurd hc (by decide)
    | unhandled _ _ _ hnew _ hother =>
      exact ⟨fun _ => ⟨fun hx => absurd hx hother.2, fun hc => absurd hc hother.1⟩,
        fun hseen => absurd hseen hnew⟩

/-- In every state of a run the paid sessions have kept their status and payment time, and
each status depends on the types delivered and not on their order, if and only if the
deliveries come in order. -/
theorem settled_iff_in_order (hf : ValidTrace FreshDraws next .new cs) :
    (∀ xs, xs <+: cs → Settled xs) ↔ ValidTrace InOrder next .new cs := by
  constructor
  · intro h
    refine validTrace_of_after fun xs c hp _ => ?_
    have hpre := (List.prefix_append xs [c]).trans hp
    exact in_order_of_settled (run_wellFiled (validTrace_earlier hpre hf)) (h _ hp)
  · intro h xs hp
    exact settled_of_in_order (validTrace_earlier hp hf) (validTrace_earlier hp h)

def expiry (eventId : String) : Call :=
  .webhook { eventId := eventId, eventType := expiredType, sessionId := "cs_a1" }
    ⟨"sub-" ++ eventId, 0, 0⟩

def expiredThenPaid : List Call := [proCheckout, expiry "evt-2", completion "evt-1" 1]

theorem expiry_before_completion_settles :
    ValidTrace FreshDraws next .new expiredThenPaid ∧
    ∀ xs, xs <+: expiredThenPaid → Settled xs :=
  have hfresh : ValidTrace FreshDraws next .new expiredThenPaid := by decide
  ⟨hfresh, (settled_iff_in_order hfresh).2 (by decide)⟩

def paidThenExpired : List Call := [proCheckout, completion "evt-1" 1, expiry "evt-2"]

def statusOf (svc : BillingService) (checkoutId : String) : Option CheckoutStatus :=
  (getSession svc checkoutId).map CheckoutSession.status

/-- The session was paid, and the expiry that comes after the payment takes the status away. -/
theorem expiry_after_completion_unsettles :
    ValidTrace FreshDraws next .new paidThenExpired ∧
    statusOf (run [proCheckout, completion "evt-1" 1]) "s-1" = some .paid ∧
    statusOf (run paidThenExpired) "s-1" = some .expired ∧
    statusOf (run expiredThenPaid) "s-1" = some .paid ∧ ¬ Settled paidThenExpired := by
  refine ⟨by decide, by decide, by decide, by decide, fun h => ?_⟩
  have hs := h.status "s-1"
  revert hs
  decide

end TrustCopilot.PaymentOrder
