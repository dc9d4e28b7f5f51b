import TrustCopilot.CheckoutFidelity

/-! How many sessions one account can have open or paid for one plan. Only pending sessions are
found again by a checkout, and a webhook pays whatever session it names. -/
namespace TrustCopilot.CheckoutUniqueness

open TrustCopilot.OrderedDict
open TrustCopilot.Trace
open TrustCopilot.Billing
open TrustCopilot.CheckoutFidelity

def Payable (s : CheckoutSession) : Prop := s.status = .pending ∨ s.status = .paid

def SamePurchase (s t : CheckoutSession) : Prop :=
  s.accountId = t.accountId ∧ s.planId = t.planId

instance (s : CheckoutSession) : Decidable (Payable s) := instDecidableOr

instance (s t : CheckoutSession) : Decidable (SamePurchase s t) := instDecidableAnd

def OnePerPurchase (sessions : Dict String CheckoutSession) : Prop :=
  ∀ j k s t, sessions.get? j = some s → sessions.get? k = some t →
    Payable s → Payable t → SamePurchase s t → j = k

def NeverTwice (cs : List Call) : Prop := ∀ xs, xs <+: cs → OnePerPurchase (run xs).sessions

/-- A checkout finds a pending session under its key, or its account and plan have no paid one;
an event does not pay a session that is over while another one for its account and plan is
pending or paid. -/
def FirstPurchase (svc : BillingService) : Call → Prop
  | .checkout r _ =>
    (∃ s ∈ svc.sessions.values,
      s.idempotencyKey = checkoutKey r.accountId r.planId ∧ s.status = .pending) ∨
    ∀ s ∈ svc.sessions.values, s.status = .paid →
      ¬ (s.accountId = r.accountId ∧ s.planId = r.planId)
  | .webhook e _ =>
    e.eventType = completedType → e.eventId ∉ svc.processedEvents →
    ∀ s ∈ findSession svc e.sessionId, ¬ Payable s →
      ∀ t ∈ svc.sessions.values, Payable t → ¬ SamePurchase s t

instance (svc : BillingService) (c : Call) : Decidable (FirstPurchase svc c) :=
  match c with
  | .checkout _ _ => instDecidableOr
  | .webhook e _ =>
    inferInstanceAs (Decidable (_ → _ → ∀ s ∈ findSession svc e.sessionId, _))

variable {svc : BillingService} {cs : List Call}

theorem SamePurchase.symm {s t : CheckoutSession} (h : SamePurchase s t) : SamePurchase t s :=
  ⟨h.1.symm, h.2.symm⟩

theorem onePerPurchase_empty : OnePerPurchase Dict.empty := fun _ _ _ _ h => by cases h

/-- Writing a session keeps the sessions apart exactly if the one written is not a second one
for its purchase. -/
theorem onePerPurchase_set {sessions : Dict String CheckoutSession} (h : OnePerPurchase sessions)
    (k : String) (s : CheckoutSession) :
    OnePerPurchase (sessions.set k s) ↔
      (Payable s → ∀ j t, sessions.get? j = some t → j ≠ k → Payable t → ¬ SamePurchase s t) := by
  constructor
  · intro hone hs j t ht hj hpt hsame
    have htj : (sessions.set k s).get? j = some t := by rw [Dict.get?_set_other _ hj, ht]
    exact hj (hone k j s t (Dict.get?_set_self _ _ _) htj hs hpt hsame).symm
  · intro hno i j t u ht hu hpt hpu hsame
    rcases Dict.get?_set_cases ht with ⟨rfl, rfl⟩ | ⟨hi, hti⟩
    · rcases Dict.get?_set_cases hu with ⟨rfl, -⟩ | ⟨hj, huj⟩
      · rfl
      · exact absurd hsame (hno hpt j u huj hj hpu)
    · rcases Dict.get?_set_cases hu with ⟨rfl, rfl⟩ | ⟨-, huj⟩
      · exact absurd hsame.symm (hno hpu i t hti hi hpt)
      · exact h i j t u hti huj hpt hpu hsame

/-- A new session has company only among the paid ones: a pending one would have been found. -/
theorem checkout_onePerPurchase_iff (hkeys : KeysGuard svc.sessions)
    (h : OnePerPurchase svc.sessions) {r : CheckoutRequest} {d : CheckoutDraws}
    (hfresh : FreshDraws svc (.checkout r d)) :
    OnePerPurchase (createCheckout svc r d).1.sessions ↔ FirstPurchase svc (.checkout r d) := by
  rcases createCheckout_cases svc r d with ⟨j, s, hs, hp, he⟩ | ⟨hfree, he⟩
  · rw [he]
    exact iff_of_true h (Or.inl ⟨s, Dict.mem_values_iff.2 ⟨j, hs⟩, hp⟩)
  · rw [he, onePerPurchase_set h]
    constructor
    · intro hno
      refine Or.inr fun t ht hpaid hsame => ?_
      obtain ⟨j, hj⟩ := Dict.mem_values_iff.1 ht
      have hne : j ≠ d.id := fun he => hfresh.1 (he ▸ Dict.mem_keys_of_get? hj)
      exact hno (Or.inl rfl) j t hj hne (Or.inr hpaid) ⟨hsame.1.symm, hsame.2.symm⟩
    · rintro (⟨s, hs, hkey⟩ | hunpaid) - j t ht - hpt hsame
      · obtain ⟨k, hk⟩ := Dict.mem_values_iff.1 hs
        exact hfree k s hk hkey
      · rcases hpt with hpending | hpaid
        · -- a session for this account and plan is filed under the key of the request
          refine hfree j t ht ⟨?_, hpending⟩
          rw [hkeys.key j t ht, ← hsame.1, ← hsame.2]
          rfl
        · exact hunpaid t (Dict.mem_values_iff.2 ⟨j, ht⟩) hpaid ⟨hsame.1.symm, hsame.2.symm⟩

/-- A payment makes a second session for a purchase only of a session that was over. -/
theorem pay_onePerPurchase_iff (h : OnePerPurchase svc.sessions) {s : CheckoutSession}
    (hs : svc.sessions.get? s.id = some s) (paidAt : ℤ) :
    OnePerPurchase (svc.sessions.set s.id (s.pay paidAt)) ↔
      (¬ Payable s → ∀ t ∈ svc.sessions.values, Payable t → ¬ SamePurchase s t) := by
  rw [onePerPurchase_set h]
  constructor
  · intro hno hover t ht hpt hsame
    obtain ⟨j, hj⟩ := Dict.mem_values_iff.1 ht
    refine hno (Or.inr rfl) j t hj ?_ hpt hsame
    intro hjs
    rw [hjs, hs] at hj
    cases hj
    exact hover hpt
  · intro hno _ j t hj hne hpt hsame
    by_cases hpayable : Payable s
    · exact hne (h j s.id t s hj hs hpt hpayable hsame.symm)
    · exact hno hpayable t (Dict.mem_values_iff.2 ⟨j, hj⟩) hpt hsame

theorem expire_onePerPurchase (h : OnePerPurchase svc.sessions) (s : CheckoutSession) :
    OnePerPurchase (svc.sessions.set s.id s.expire) := by
  refine (onePerPurchase_set h _ _).2 fun hp => ?_
  rcases hp with hp | hp
  · cases hp
  · cases hp

theorem next_onePerPurchase_iff (hw : WellFiled svc.sessions) (hkeys : KeysGuard svc.sessions)
    (h : OnePerPurchase svc.sessions) {c : Call} (hfresh : FreshDraws svc c) :
    OnePerPurchase (next svc c).sessions ↔ FirstPurchase svc c := by
  cases c with
  | checkout r d => exact checkout_onePerPurchase_iff hkeys h hfresh
  | webhook e d =>
    have heff := next_effect svc (.webhook e d)
    generalize next svc (.webhook e d) = svc', payment svc (.webhook e d) = p at heff
    cases heff with
    | duplicate _ _ hseen => exact iff_of_true h fun _ hnew => absurd hseen hnew
    | unmatched _ _ _ hfind =>
      exact iff_of_true h fun _ _ s hs => by rw [hfind] at hs; cases hs
    | completed _ _ s hnew hfind htype =>
      have hpay := pay_onePerPurchase_iff h ((findSession_iff hw).1 hfind).1 d.paidAt
      refine hpay.trans ⟨fun hno _ _ t ht => ?_, fun hno => hno htype hnew s hfind⟩
      rw [hfind] at ht
      cases ht
      exact hno
    | expired _ _ s _ hfind htype =>
      refine iff_of_true (expire_onePerPurchase h s) fun hc => ?_
      rw [htype] at hc
      exact absurd hc (by decide)
    | unhandled _ _ _ _ _ hother => exact iff_of_true h fun hc => absurd hc hother.1

theorem run_onePerPurchase (hfresh : ValidTrace FreshDraws next .new cs)
    (hfirst : ValidTrace FirstPurchase next .new cs) : OnePerPurchase (run cs).sessions := by
  have hall : WellFiled (run cs).sessions ∧ KeysGuard (run cs).sessions ∧
      OnePerPurchase (run cs).sessions :=
    history_invariant
      (I := fun _ svc => WellFiled svc.sessions ∧ KeysGuard svc.sessions ∧
        OnePerPurchase svc.sessions)
      ⟨wellFiled_empty, keysGuard_empty, onePerPurchase_empty⟩
      (fun _ c _ hI hc => ⟨wellFiled_effect (next_effect _ c) hI.1 hc.1,
        keysGuard_next hI.1 hI.2.1 c, (next_onePerPurchase_iff hI.1 hI.2.1 hI.2.2 hc.1).2 hc.2⟩)
      (validTrace_and.2 ⟨hfresh, hfirst⟩)
  exact hall.2.2

/-- A run never has two sessions for a purchase pending or paid exactly if none of its calls
opens or pays one beside another. -/
theorem neverTwice_iff (hfresh : ValidTrace FreshDraws next .new cs) :
    NeverTwice cs ↔ ValidTrace FirstPurchase next .new cs := by
  constructor
  · intro hnever
    refine validTrace_of_after fun xs c hp _ => ?_
    have hxs : xs <+: cs := (List.prefix_append xs [c]).trans hp
    have hvalid := validTrace_earlier hxs hfresh
    have hc := (validTrace_concat.1 (validTrace_earlier hp hfresh)).2
    have hafter := hnever _ hp
    rw [run_concat] at hafter
    exact (next_onePerPurchase_iff (run_wellFiled hvalid) (run_keysGuard hvalid)
      (hnever xs hxs) hc).1 hafter
  · intro hfirst xs hp
    exact run_onePerPurchase (validTrace_earlier hp hfresh) (validTrace_earlier hp hfirst)

def paidEvent : WebhookEvent := ⟨"evt-1", completedType, "cs_aa", none⟩

def webhookDraws : WebhookDraws := ⟨"sub-1", 10, 10⟩

theorem paid_once :
    NeverTwice [.checkout monthly firstDraws, .checkout monthly secondDraws,
      .webhook paidEvent webhookDraws, .webhook paidEvent webhookDraws] :=
  (neverTwice_iff (by decide +kernel)).2 (by decide +kernel)

theorem replay_opens_second :
    ValidTrace FreshDraws next .new [.checkout monthly firstDraws,
      .webhook paidEvent webhookDraws, .checkout monthly secondDraws] ∧
    ¬ NeverTwice [.checkout monthly firstDraws, .webhook paidEvent webhookDraws,
      .checkout monthly secondDraws] := by
  refine ⟨by decide +kernel, fun hnever => ?_⟩
  have hone := hnever _ List.prefix_rfl "s1" "s2" _ _ rfl rfl (by decide) (by decide)
    (by decide)
  exact absurd hone (by decide)

end TrustCopilot.CheckoutUniqueness
