import TrustCopilot.Billing

/-! What `create_checkout` hands back. A pending session is found again by its key, which is
made of the account and the plan and says nothing about the price. -/
namespace TrustCopilot.CheckoutFidelity

open TrustCopilot.OrderedDict
open TrustCopilot.Trace
open TrustCopilot.Billing

structure Faithful (r : CheckoutRequest) (s : CheckoutSession) : Prop where
  accountId : s.accountId = r.accountId
  planId : s.planId = r.planId
  amountCents : s.amountCents = r.amountCents
  currency : s.currency = r.currency

instance (r : CheckoutRequest) (s : CheckoutSession) : Decidable (Faithful r s) :=
  decidable_of_iff (s.accountId = r.accountId ∧ s.planId = r.planId ∧
      s.amountCents = r.amountCents ∧ s.currency = r.currency)
    ⟨fun h => ⟨h.1, h.2.1, h.2.2.1, h.2.2.2⟩, fun h => ⟨h.1, h.2, h.3, h.4⟩⟩

/-- Every session is filed under the key of its account and plan, and no two pending sessions
have the same key. -/
structure KeysGuard (sessions : Dict String CheckoutSession) : Prop where
  key : ∀ k s, sessions.get? k = some s → s.idempotencyKey = checkoutKey s.accountId s.planId
  once : ∀ j k s t, sessions.get? j = some s → sessions.get? k = some t →
    s.status = .pending → t.status = .pending → s.idempotencyKey = t.idempotencyKey → j = k

variable {svc svc' : BillingService} {c : Call} {p : List CheckoutSession} {cs : List Call}

theorem keysGuard_empty : KeysGuard Dict.empty where
  key _ _ h := by cases h
  once _ _ _ _ h := by cases h

theorem keysGuard_checkout (h : KeysGuard svc.sessions) (r : CheckoutRequest)
    (d : CheckoutDraws) : KeysGuard (createCheckout svc r d).1.sessions := by
  rcases createCheckout_cases svc r d with ⟨-, s, -, -, he⟩ | ⟨hfree, he⟩
  · rw [he]
    exact h
  · rw [he]
    constructor
    · intro k s hs
      rcases Dict.get?_set_cases hs with ⟨-, rfl⟩ | ⟨-, hold⟩
      · rfl
      · exact h.key k s hold
    · intro j k s t hs ht hps hpt hkey
      rcases Dict.get?_set_cases hs with ⟨rfl, rfl⟩ | ⟨-, hs⟩
      · rcases Dict.get?_set_cases ht with ⟨rfl, -⟩ | ⟨-, ht⟩
        · rfl
        · exact absurd ⟨hkey.symm, hpt⟩ (hfree k t ht)
      · rcases Dict.get?_set_cases ht with ⟨rfl, rfl⟩ | ⟨-, ht⟩
        · exact absurd ⟨hkey, hps⟩ (hfree j s hs)
        · exact h.once j k s t hs ht hps hpt hkey

theorem keysGuard_settle {sessions : Dict String CheckoutSession} (h : KeysGuard sessions)
    {s s' : CheckoutSession} (hs : sessions.get? s.id = some s) (hsame : SameCheckout s s')
    (hstatus : s'.status ≠ .pending) : KeysGuard (sessions.set s.id s') := by
  have hold : ∀ k t, (sessions.set s.id s').get? k = some t → t.status = .pending →
      sessions.get? k = some t := by
    intro k t ht hpending
    rcases Dict.get?_set_cases ht with ⟨-, rfl⟩ | ⟨-, ht⟩
    · exact absurd hpending hstatus
    · exact ht
  constructor
  · intro k t ht
    rcases Dict.get?_set_cases ht with ⟨-, rfl⟩ | ⟨-, ht⟩
    · have hkey := h.key s.id s hs
      rw [hsame]
      exact hkey
    · exact h.key k t ht
  · intro j k t u ht hu hpt hpu
    exact h.once j k t u (hold j t ht hpt) (hold k u hu hpu) hpt hpu

theorem keysGuard_next (hw : WellFiled svc.sessions) (h : KeysGuard svc.sessions) (c : Call) :
    KeysGuard (next svc c).sessions := by
  cases c with
  | checkout r d => exact keysGuard_checkout h r d
  | webhook e d =>
    have heff := next_effect svc (.webhook e d)
    generalize next svc (.webhook e d) = svc', payment svc (.webhook e d) = p at heff
    cases heff with
    | completed _ _ s _ hfind _ =>
      exact keysGuard_settle h ((findSession_iff hw).1 hfind).1 rfl nofun
    | expired _ _ s _ hfind _ =>
      exact keysGuard_settle h ((findSession_iff hw).1 hfind).1 rfl nofun
    | _ => exact h

theorem run_keysGuard (h : ValidTrace FreshDraws next .new cs) :
    KeysGuard (run cs).sessions := by
  have hboth : WellFiled (run cs).sessions ∧ KeysGuard (run cs).sessions :=
    history_invariant (I := fun _ svc => WellFiled svc.sessions ∧ KeysGuard svc.sessions)
      ⟨wellFiled_empty, keysGuard_empty⟩
      (fun _ c _ hI hf => ⟨wellFiled_effect (next_effect _ c) hI.1 hf,
        keysGuard_next hI.1 hI.2 c⟩) h
  exact hboth.2

/-- No pending session with the key of the request was opened for another account, plan or
price. -/
def NothingElsePending (svc : BillingService) (r : CheckoutRequest) : Prop :=
  ∀ s ∈ svc.sessions.values, s.status = .pending →
    checkoutKey s.accountId s.planId = checkoutKey r.accountId r.planId → Faithful r s

theorem createCheckout_faithful_iff (h : KeysGuard svc.sessions) (r : CheckoutRequest)
    (d : CheckoutDraws) :
    Faithful r (createCheckout svc r d).2 ↔ NothingElsePending svc r := by
  rcases createCheckout_cases svc r d with ⟨j, s, hs, hp, he⟩ | ⟨hfree, he⟩
  · rw [he]
    constructor
    · intro hfaithful t ht hpending hkey
      obtain ⟨k, hk⟩ := Dict.mem_values_iff.1 ht
      rw [← h.key k t hk] at hkey
      -- the pending session with this key is the one that was found
      have hjk := h.once j k s t hs hk hp.2 hpending (hp.1.trans hkey.symm)
      rw [hjk, hk] at hs
      cases hs
      exact hfaithful
    · intro hnothing
      refine hnothing s (Dict.mem_values_iff.2 ⟨j, hs⟩) hp.2 ?_
      rw [← h.key j s hs]
      exact hp.1
  · rw [he]
    refine iff_of_true ⟨rfl, rfl, rfl, rfl⟩ fun s hs hpending hkey => ?_
    obtain ⟨k, hk⟩ := Dict.mem_values_iff.1 hs
    rw [← h.key k s hk] at hkey
    exact absurd ⟨hkey, hpending⟩ (hfree k s hk)

/-- In every state that is reached, a checkout is what was asked for exactly if nothing else
is pending under its key. -/
theorem checkout_faithful_iff (h : ValidTrace FreshDraws next .new cs) (r : CheckoutRequest)
    (d : CheckoutDraws) :
    Faithful r (createCheckout (run cs) r d).2 ↔ NothingElsePending (run cs) r :=
  createCheckout_faithful_iff (run_keysGuard h) r d

def monthly : CheckoutRequest where
  accountId := "acc-1"
  planId := "pro_monthly"
  amountCents := 49900

def firstDraws : CheckoutDraws := ⟨"s1", "aa", "bb", 0⟩

def secondDraws : CheckoutDraws := ⟨"s2", "cc", "dd", 1⟩

theorem first_checkout_faithful :
    Faithful monthly (createCheckout (run [.checkout monthly firstDraws]) monthly secondDraws).2 :=
  (checkout_faithful_iff (by decide) monthly secondDraws).2 (by
    intro s hs _ _
    rw [List.mem_singleton.1 hs]
    exact ⟨rfl, rfl, rfl, rfl⟩)

/-- The price of the plan goes up while a session is pending, and a colon moves from the plan
to the account: both times the old session comes back. -/
theorem old_session_returned :
    ValidTrace FreshDraws next .new [.checkout monthly firstDraws] ∧
    ¬ Faithful { monthly with amountCents := 99900 }
      (createCheckout (run [.checkout monthly firstDraws])
        { monthly with amountCents := 99900 } secondDraws).2 ∧
    ValidTrace FreshDraws next .new [.checkout { monthly with planId := "pro:x" } firstDraws] ∧
    ¬ Faithful { monthly with accountId := "acc-1:pro", planId := "x" }
      (createCheckout (run [.checkout { monthly with planId := "pro:x" } firstDraws])
        { monthly with accountId := "acc-1:pro", planId := "x" } secondDraws).2 := by
  refine ⟨by decide, by decide, by decide, by decide⟩

end TrustCopilot.CheckoutFidelity
