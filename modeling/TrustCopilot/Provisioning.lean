import TrustCopilot.PaymentEvents

/-! Workspaces for the accounts that have paid. The list of activations is never emptied:
every drain replays all of it. -/
namespace TrustCopilot.Provisioning

open TrustCopilot.OrderedDict
open TrustCopilot.Trace
open TrustCopilot.Billing (BillingService ActivationTask pendingActivations)

structure WorkspaceSettings where
  timezone : String := "UTC"
  notificationsEnabled : Bool := true
  autoRenew : Bool := true
  deriving DecidableEq, Repr

structure Workspace where
  id : String
  accountId : String
  planId : String
  status : String := "active"
  createdAt : ℤ
  inviteToken : String
  primaryEmail : String
  linkedUploads : List String
  linkedProofIds : List String
  settings : WorkspaceSettings := {}
  deriving DecidableEq, Repr

structure OnboardingEmail where
  recipient : String
  subject : String
  body : String
  inviteUrl : String
  deriving DecidableEq, Repr

structure ProvisioningService where
  workspaces : Dict String Workspace
  provisionedAccounts : Finset String
  emailsSent : List OnboardingEmail

def ProvisioningService.new : ProvisioningService := ⟨Dict.empty, ∅, []⟩

structure ProvisionDraws where
  workspaceId : String
  inviteToken : String
  now : ℤ

structure ProvisionRequest where
  accountId : String
  planId : String
  primaryEmail : String
  uploadKeys : List String := []
  proofIds : List String := []

def inviteUrl (ws : Workspace) : String := "/activate/" ++ ws.id ++ "?token=" ++ ws.inviteToken

def composeOnboarding (ws : Workspace) : OnboardingEmail where
  recipient := ws.primaryEmail
  subject := "Your Trust Copilot workspace is ready"
  body := "\n".intercalate <|
    ["Welcome to Trust Copilot!",
      "\nYour workspace is ready. Click below to get started:",
      "\n" ++ inviteUrl ws] ++
    (if ws.linkedProofIds = [] then []
      else ["\nYour " ++ toString ws.linkedProofIds.length ++
        " proof pack(s) are already in your workspace."]) ++
    (if ws.linkedUploads = [] then []
      else ["\n" ++ toString ws.linkedUploads.length ++ " uploaded file(s) have been linked."]) ++
    ["\nBest,\nThe Trust Copilot Team"]
  inviteUrl := inviteUrl ws

def newWorkspace (r : ProvisionRequest) (d : ProvisionDraws) : Workspace where
  id := d.workspaceId
  accountId := r.accountId
  planId := r.planId
  createdAt := d.now
  inviteToken := d.inviteToken
  primaryEmail := r.primaryEmail
  linkedUploads := r.uploadKeys
  linkedProofIds := r.proofIds

def findWorkspace (svc : ProvisioningService) (accountId : String) : Option Workspace :=
  if accountId ∈ svc.provisionedAccounts then
    svc.workspaces.first? fun w => w.accountId = accountId
  else none

def addWorkspace (svc : ProvisioningService) (ws : Workspace) : ProvisioningService where
  workspaces := svc.workspaces.set ws.id ws
  provisionedAccounts := insert ws.accountId svc.provisionedAccounts
  emailsSent := svc.emailsSent ++ [composeOnboarding ws]

def provision (svc : ProvisioningService) (r : ProvisionRequest) (d : ProvisionDraws) :
    ProvisioningService × Workspace × Bool :=
  match findWorkspace svc r.accountId with
  | some existing => (svc, existing, false)
  | none => (addWorkspace svc (newWorkspace r d), newWorkspace r d, true)

structure DrainInput where
  email : String
  draws : ProvisionDraws

def taskRequest (x : ActivationTask × DrainInput) : ProvisionRequest where
  accountId := x.1.accountId
  planId := x.1.planId
  primaryEmail := x.2.email

def provisionTask (svc : ProvisioningService) (x : ActivationTask × DrainInput) :
    ProvisioningService :=
  (provision svc (taskRequest x) x.2.draws).1

def drainTasks (billing : BillingService) (inputs : ℕ → DrainInput) :
    List (ActivationTask × DrainInput) :=
  (pendingActivations billing).zipIdx.map fun t => (t.1, inputs t.2)

structure Fulfillment where
  billing : BillingService
  provisioning : ProvisioningService

def Fulfillment.new : Fulfillment := ⟨.new, .new⟩

inductive Step where
  | call (c : Billing.Call)
  | drain (inputs : ℕ → DrainInput)

def next (f : Fulfillment) : Step → Fulfillment
  | .call c => { f with billing := Billing.next f.billing c }
  | .drain inputs =>
    { f with provisioning := runTrace provisionTask f.provisioning (drainTasks f.billing inputs) }

def run (steps : List Step) : Fulfillment := runTrace next .new steps

theorem run_concat (steps : List Step) (s : Step) : run (steps ++ [s]) = next (run steps) s :=
  runTrace_concat _ steps s

/-- `uuid4` does not return the id of a workspace that exists. -/
def FreshWorkspace (svc : ProvisioningService) (x : ActivationTask × DrainInput) : Prop :=
  x.2.draws.workspaceId ∉ svc.workspaces.keys

instance (svc : ProvisioningService) (x : ActivationTask × DrainInput) :
    Decidable (FreshWorkspace svc x) := instDecidableNot

def FreshDrains (f : Fulfillment) : Step → Prop
  | .call _ => True
  | .drain inputs =>
    ValidTrace FreshWorkspace provisionTask f.provisioning (drainTasks f.billing inputs)

instance (f : Fulfillment) (s : Step) : Decidable (FreshDrains f s) :=
  match s with
  | .call _ => isTrue trivial
  | .drain _ => validTraceDecidable _ _

def accounts (svc : ProvisioningService) : List String :=
  svc.workspaces.values.map Workspace.accountId

/-- One workspace and one email for each provisioned account. -/
structure OneEach (svc : ProvisioningService) : Prop where
  provisioned : ∀ a, a ∈ svc.provisionedAccounts ↔ a ∈ accounts svc
  unique : (accounts svc).Nodup
  emails : svc.emailsSent = svc.workspaces.values.map composeOnboarding

variable {svc : ProvisioningService} {r : ProvisionRequest} {d : ProvisionDraws}

theorem findWorkspace_none_iff (h : OneEach svc) {a : String} :
    findWorkspace svc a = none ↔ a ∉ accounts svc := by
  rw [findWorkspace]
  split
  · next hp =>
    have ha := (h.provisioned a).1 hp
    refine iff_of_false (fun hn => ?_) (fun hn => hn ha)
    obtain ⟨w, hw, he⟩ := List.mem_map.1 ha
    have := List.find?_eq_none.1 hn w hw
    simp [he] at this
  · next hp =>
    exact iff_of_true rfl fun ha => hp ((h.provisioned a).2 ha)

theorem provision_cases (h : OneEach svc) (r : ProvisionRequest) (d : ProvisionDraws) :
    (r.accountId ∈ accounts svc ∧ (provision svc r d).1 = svc) ∨
    (r.accountId ∉ accounts svc ∧
      (provision svc r d).1 = addWorkspace svc (newWorkspace r d)) := by
  by_cases ha : r.accountId ∈ accounts svc
  · refine Or.inl ⟨ha, ?_⟩
    obtain ⟨w, hw⟩ := Option.ne_none_iff_exists'.1 (mt (findWorkspace_none_iff h).1 (not_not.2 ha))
    simp [provision, hw]
  · refine Or.inr ⟨ha, ?_⟩
    simp [provision, (findWorkspace_none_iff h).2 ha]

theorem accounts_add (hf : d.workspaceId ∉ svc.workspaces.keys) :
    accounts (addWorkspace svc (newWorkspace r d)) = accounts svc ++ [r.accountId] := by
  have hv : (addWorkspace svc (newWorkspace r d)).workspaces.values =
      svc.workspaces.values ++ [newWorkspace r d] := Dict.values_set_new hf _
  rw [accounts, hv, List.map_append]
  rfl

theorem oneEach_new : OneEach .new where
  provisioned _ := iff_of_false (Finset.notMem_empty _) List.not_mem_nil
  unique := List.nodup_nil
  emails := rfl

theorem oneEach_add (h : OneEach svc) (hf : d.workspaceId ∉ svc.workspaces.keys)
    (ha : r.accountId ∉ accounts svc) : OneEach (addWorkspace svc (newWorkspace r d)) where
  provisioned a := by
    rw [accounts_add hf, List.mem_append, ← h.provisioned a, List.mem_singleton, or_comm]
    exact Finset.mem_insert
  unique := by
    rw [accounts_add hf, List.nodup_append]
    refine ⟨h.unique, List.nodup_singleton _, fun a hin b hb => ?_⟩
    rintro rfl
    rw [List.mem_singleton.1 hb] at hin
    exact ha hin
  emails := by
    have hv : (addWorkspace svc (newWorkspace r d)).workspaces.values =
        svc.workspaces.values ++ [newWorkspace r d] := Dict.values_set_new hf _
    rw [hv, List.map_append, ← h.emails]
    rfl

theorem provisionTask_spec (h : OneEach svc) {x : ActivationTask × DrainInput}
    (hf : FreshWorkspace svc x) :
    OneEach (provisionTask svc x) ∧
    (∀ a, a ∈ accounts (provisionTask svc x) ↔ a ∈ accounts svc ∨ a = x.1.accountId) ∧
    ∀ k w, svc.workspaces.get? k = some w → (provisionTask svc x).workspaces.get? k = some w := by
  rcases provision_cases h (taskRequest x) x.2.draws with ⟨ha, he⟩ | ⟨ha, he⟩ <;>
    rw [provisionTask, he]
  · refine ⟨h, fun a => ⟨Or.inl, ?_⟩, fun _ _ hw => hw⟩
    rintro (hin | rfl)
    · exact hin
    · exact ha
  · refine ⟨oneEach_add h hf ha, fun a => ?_, fun k w hw => ?_⟩
    · rw [accounts_add hf, List.mem_append, List.mem_singleton]
      rfl
    · exact Dict.get?_set_fresh hf hw _

theorem provisionAll_spec (h : OneEach svc) {xs : List (ActivationTask × DrainInput)}
    (hf : ValidTrace FreshWorkspace provisionTask svc xs) :
    OneEach (runTrace provisionTask svc xs) ∧
    (∀ a, a ∈ accounts (runTrace provisionTask svc xs) ↔
      a ∈ accounts svc ∨ a ∈ xs.map fun x => x.1.accountId) ∧
    ∀ k w, svc.workspaces.get? k = some w →
      (runTrace provisionTask svc xs).workspaces.get? k = some w := by
  induction xs generalizing svc with
  | nil => exact ⟨h, fun a => by simp, fun _ _ hw => hw⟩
  | cons x xs ih =>
    obtain ⟨hone, hacc, hkept⟩ := provisionTask_spec h hf.1
    obtain ⟨hone', hacc', hkept'⟩ := ih hone hf.2
    refine ⟨hone', fun a => ?_, fun k w hw => hkept' k w (hkept k w hw)⟩
    rw [runTrace, hacc', hacc, List.map_cons, List.mem_cons, or_assoc]

theorem drainTasks_accounts (billing : BillingService) (inputs : ℕ → DrainInput) :
    (drainTasks billing inputs).map (fun x => x.1.accountId) =
      billing.activations.map ActivationTask.accountId := by
  rw [drainTasks, List.map_map, pendingActivations]
  calc (billing.activations.zipIdx.map fun t => t.1.accountId)
      = (billing.activations.zipIdx.map Prod.fst).map ActivationTask.accountId := by
        rw [List.map_map]; rfl
    _ = billing.activations.map ActivationTask.accountId := by rw [List.zipIdx_map_fst]

/-! ### Interleaved runs -/

def billingCalls (steps : List Step) : List Billing.Call :=
  steps.filterMap fun s => match s with
    | .call c => some c
    | .drain _ => none

theorem billingCalls_call (steps : List Step) (c : Billing.Call) :
    billingCalls (steps ++ [.call c]) = billingCalls steps ++ [c] := by
  simp [billingCalls]

theorem billingCalls_drain (steps : List Step) (inputs : ℕ → DrainInput) :
    billingCalls (steps ++ [.drain inputs]) = billingCalls steps := by
  simp [billingCalls]

theorem run_billing (steps : List Step) :
    (run steps).billing = Billing.run (billingCalls steps) := by
  induction steps using List.reverseRecOn with
  | nil => rfl
  | append_singleton steps s ih =>
    rw [run_concat]
    cases s with
    | call c => rw [billingCalls_call, Billing.run_concat, next, ih]
    | drain inputs => rw [billingCalls_drain, next, ih]

def paidAccounts (steps : List Step) : List String :=
  (Billing.payments (billingCalls steps)).map Billing.CheckoutSession.accountId

theorem activations_accounts (steps : List Step) :
    (run steps).billing.activations.map ActivationTask.accountId = paidAccounts steps := by
  have h := congrArg (List.map Prod.fst)
    (PaymentEvents.activations_payments (billingCalls steps))
  rw [List.map_map, List.map_map, ← run_billing] at h
  exact h

theorem run_oneEach {steps : List Step} (h : ValidTrace FreshDrains next .new steps) :
    OneEach (run steps).provisioning := by
  refine history_invariant (I := fun _ f => OneEach f.provisioning) oneEach_new ?_ h
  intro es s _ hone hf
  cases s with
  | call c => exact hone
  | drain inputs => exact (provisionAll_spec hone hf).1

theorem workspaces_kept {xs steps : List Step} (hp : xs <+: steps)
    (h : ValidTrace FreshDrains next .new steps) {k : String} {w : Workspace}
    (hw : (run xs).provisioning.workspaces.get? k = some w) :
    (run steps).provisioning.workspaces.get? k = some w := by
  induction steps using List.reverseRecOn with
  | nil => rwa [List.prefix_nil.1 hp] at hw
  | append_singleton steps s ih =>
    rcases prefix_concat_cases hp with hp | rfl
    · obtain ⟨hs, hf⟩ := validTrace_concat.1 h
      have hprev := ih hp hs
      rw [run_concat]
      cases s with
      | call c => exact hprev
      | drain inputs => exact (provisionAll_spec (run_oneEach hs) hf).2.2 k w hprev
    · exact hw

theorem mem_accounts_drain {steps : List Step} {inputs : ℕ → DrainInput}
    (h : ValidTrace FreshDrains next .new (steps ++ [.drain inputs])) {a : String} :
    a ∈ accounts (run (steps ++ [.drain inputs])).provisioning ↔
      a ∈ accounts (run steps).provisioning ∨ a ∈ paidAccounts steps := by
  obtain ⟨hs, hf⟩ := validTrace_concat.1 h
  rw [run_concat, ← activations_accounts, ← drainTasks_accounts _ inputs]
  exact (provisionAll_spec (run_oneEach hs) hf).2.1 a

theorem provisioned_paid {steps : List Step} (h : ValidTrace FreshDrains next .new steps)
    {a : String} (ha : a ∈ accounts (run steps).provisioning) : a ∈ paidAccounts steps := by
  induction steps using List.reverseRecOn with
  | nil => cases ha
  | append_singleton steps s ih =>
    have hs := (validTrace_concat.1 h).1
    cases s with
    | call c =>
      rw [run_concat] at ha
      rw [paidAccounts, billingCalls_call, Billing.payments_concat, List.map_append]
      exact List.mem_append_left _ (ih hs ha)
    | drain inputs =>
      rw [paidAccounts, billingCalls_drain]
      rcases (mem_accounts_drain h).1 ha with ha | ha
      · exact ih hs ha
      · exact ha

/-- What holds when a drain has replayed the activations. -/
structure Drained (steps : List Step) : Prop where
  paid : ∀ a, a ∈ accounts (run steps).provisioning ↔ a ∈ paidAccounts steps
  unique : (accounts (run steps).provisioning).Nodup
  emails : (run steps).provisioning.emailsSent =
    (run steps).provisioning.workspaces.values.map composeOnboarding
  kept : ∀ later k w, ValidTrace FreshDrains next .new (steps ++ later) →
    (run steps).provisioning.workspaces.get? k = some w →
    (run (steps ++ later)).provisioning.workspaces.get? k = some w

/-- After every drain of every run each paid account, and no other, has one workspace and one
email, and whatever comes later the workspaces stay as they are. -/
theorem drained_once {steps : List Step} {inputs : ℕ → DrainInput}
    (h : ValidTrace FreshDrains next .new (steps ++ [.drain inputs])) :
    Drained (steps ++ [.drain inputs]) := by
  have hone := run_oneEach h
  constructor
  · intro a
    constructor
    · exact provisioned_paid h
    · intro ha
      rw [paidAccounts, billingCalls_drain] at ha
      exact (mem_accounts_drain h).2 (Or.inr ha)
  · exact hone.unique
  · exact hone.emails
  · exact fun later k w hl hw => workspaces_kept (List.prefix_append _ later) hl hw

def replayedPayments : List Step :=
  [.call PaymentEvents.proCheckout, .call (PaymentEvents.completion "evt-1" 1),
    .drain fun _ => ⟨"alice@acme.com", ⟨"ws-1", "token-1", 2⟩⟩,
    .call (PaymentEvents.completion "evt-2" 3),
    .call (.checkout { accountId := "acc-2", planId := "pro_monthly", amountCents := 49900 }
      ⟨"s-2", "a2", "b2", 4⟩),
    .call (.webhook ⟨"evt-3", Billing.completedType, "cs_a2", none⟩ ⟨"sub-3", 5, 5⟩)]

def lastDrain : ℕ → DrainInput := fun _ => ⟨"bob@beta.com", ⟨"ws-2", "token-2", 6⟩⟩

theorem replayed_payments_drained : Drained (replayedPayments ++ [.drain lastDrain]) :=
  drained_once (by decide)

example : accounts (run (replayedPayments ++ [.drain lastDrain])).provisioning =
    ["acc-1", "acc-2"] := by decide

end TrustCopilot.Provisioning
