import Mathlib.Data.List.Chain

/-! The account state machine: the transition table, the guarded transition of one loaded
account row, and the audit event that records it. -/
namespace TrustCopilot.AccountStates

inductive AccountState where
  | rawSignal
  | candidateAccount
  | qualifiedAccount
  | contactable
  | contacted
  | replied
  | intakeOpen
  | uploaded
  | fulfilled
  | offerSent
  | paid
  | activated
  | snoozed
  | suppressed
  | blocked
  deriving DecidableEq, Repr

/-- The string stored in the state column and in the audit log. -/
def AccountState.value : AccountState → String
  | .rawSignal => "raw_signal"
  | .candidateAccount => "candidate_account"
  | .qualifiedAccount => "qualified_account"
  | .contactable => "contactable"
  | .contacted => "contacted"
  | .replied => "replied"
  | .intakeOpen => "intake_open"
  | .uploaded => "uploaded"
  | .fulfilled => "fulfilled"
  | .offerSent => "offer_sent"
  | .paid => "paid"
  | .activated => "activated"
  | .snoozed => "snoozed"
  | .suppressed => "suppressed"
  | .blocked => "blocked"

def validTransitions : AccountState → List AccountState
  | .rawSignal => [.candidateAccount, .blocked]
  | .candidateAccount => [.qualifiedAccount, .snoozed, .blocked]
  | .qualifiedAccount => [.contactable, .snoozed, .suppressed, .blocked]
  | .contactable => [.contacted, .snoozed, .suppressed, .blocked]
  | .contacted => [.replied, .snoozed, .suppressed, .blocked]
  | .replied => [.intakeOpen, .snoozed, .suppressed, .blocked]
  | .intakeOpen => [.uploaded, .snoozed, .blocked]
  | .uploaded => [.fulfilled, .blocked]
  | .fulfilled => [.offerSent, .blocked]
  | .offerSent => [.paid, .snoozed, .blocked]
  | .paid => [.activated, .blocked]
  | .activated => []
  | .snoozed => [.candidateAccount, .qualifiedAccount, .contactable, .blocked]
  | .suppressed => []
  | .blocked => []

def canTransition (current target : AccountState) : Bool :=
  decide (target ∈ validTransitions current)

def Terminal (s : AccountState) : Prop := validTransitions s = []

instance (s : AccountState) : Decidable (Terminal s) :=
  inferInstanceAs (Decidable (_ = _))

theorem terminal_no_transition {s t : AccountState} (h : Terminal s) :
    canTransition s t = false := by
  simp [canTransition, show validTransitions s = [] from h]

/-- A JSON object kept in a column and only ever copied. -/
abbrev JsonObject := List (String × String)

/-- The columns of an account row that a transition reads or writes. The state column holds
the value of an `AccountState`; times are microseconds. -/
structure Account where
  id : String
  state : AccountState
  stateChangedAt : ℤ
  version : ℤ
  deriving DecidableEq, Repr

structure AuditEvent where
  accountId : String
  actor : String
  action : String
  entityType : String
  entityId : String
  oldState : AccountState
  newState : AccountState
  detail : JsonObject
  idempotencyKey : Option String
  deriving DecidableEq, Repr

structure InvalidTransition where
  current : AccountState
  target : AccountState
  accountId : String
  deriving DecidableEq, Repr

def InvalidTransition.message (e : InvalidTransition) : String :=
  "Invalid transition " ++ e.current.value ++ " -> " ++ e.target.value ++
    " for account " ++ e.accountId

structure TransitionRequest where
  targetState : AccountState
  actor : String := "system"
  detail : Option JsonObject := none
  idempotencyKey : Option String := none
  now : ℤ
  deriving DecidableEq, Repr

def transition (account : Account) (req : TransitionRequest) :
    Except InvalidTransition (Account × AuditEvent) :=
  if canTransition account.state req.targetState then
    .ok ({ account with
            state := req.targetState
            stateChangedAt := req.now
            version := account.version + 1 },
         { accountId := account.id
           actor := req.actor
           action := "state_transition"
           entityType := "account"
           entityId := account.id
           oldState := account.state
           newState := req.targetState
           detail := req.detail.getD []
           idempotencyKey := req.idempotencyKey })
  else .error ⟨account.state, req.targetState, account.id⟩

/-- Everything an accepted transition does to the row and to the audit log. -/
theorem transition_ok {acc acc' : Account} {req : TransitionRequest} {audit : AuditEvent}
    (h : transition acc req = .ok (acc', audit)) :
    canTransition acc.state req.targetState = true ∧ acc'.id = acc.id ∧
    acc'.state = req.targetState ∧ acc'.version = acc.version + 1 ∧
    audit.oldState = acc.state ∧ audit.newState = acc'.state := by
  rw [transition] at h
  split at h
  · next hc => cases h; exact ⟨hc, rfl, rfl, rfl, rfl, rfl⟩
  · cases h

theorem transition_audit {acc acc' : Account} {req : TransitionRequest} {audit : AuditEvent}
    (h : transition acc req = .ok (acc', audit)) :
    audit.accountId = acc.id ∧ audit.idempotencyKey = req.idempotencyKey := by
  rw [transition] at h
  split at h
  · cases h; exact ⟨rfl, rfl⟩
  · cases h

theorem transition_error {acc : Account} {req : TransitionRequest} {e : InvalidTransition}
    (h : transition acc req = .error e) :
    canTransition acc.state req.targetState = false ∧
    e = ⟨acc.state, req.targetState, acc.id⟩ := by
  rw [transition] at h
  split at h
  · cases h
  · next hc => cases h; exact ⟨by simpa using hc, rfl⟩

/-- The `ValueError` of a missing row, or the `InvalidTransition` of the guard. -/
inductive TransitionError where
  | notFound (accountId : String)
  | invalid (e : InvalidTransition)
  deriving DecidableEq, Repr

def TransitionError.httpException : TransitionError → ℕ × String
  | .notFound _ => (404, "Account not found")
  | .invalid e => (409, e.message)

/-- `row` is what the session's database lookup returned. -/
def transitionById (row : Option Account) (accountId : String) (req : TransitionRequest) :
    Except TransitionError (Account × AuditEvent) :=
  match row with
  | none => .error (.notFound accountId)
  | some account =>
    match transition account req with
    | .ok r => .ok r
    | .error e => .error (.invalid e)

/-- A request that reaches a row is answered by the guard alone. -/
theorem transitionById_ok_iff {acc : Account} {id : String} {req : TransitionRequest}
    {r : Account × AuditEvent} :
    transitionById (some acc) id req = .ok r ↔ transition acc req = .ok r := by
  cases h : transition acc req <;> simp [transitionById, h]

/-- The unique constraint on the idempotency key of the audit log. -/
def keyUnique (log : List AuditEvent) (audit : AuditEvent) : Bool :=
  match audit.idempotencyKey with
  | none => true
  | some key => log.all fun a => a.idempotencyKey != some key

end TrustCopilot.AccountStates
