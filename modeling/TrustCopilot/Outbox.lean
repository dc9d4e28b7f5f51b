import TrustCopilot.AccountStates
import TrustCopilot.Library.OrderedDict
import TrustCopilot.Library.Trace

/-! The outbox: rows for side effects, written by publishers and worked off by any number of
pollers. The transaction of a claim selects and locks rows, its commit marks them, and the
poller holds them until it completes or fails each one. -/
namespace TrustCopilot.Outbox

open TrustCopilot.OrderedDict
open TrustCopilot.Trace
open TrustCopilot.AccountStates (JsonObject)

inductive OutboxStatus where
  | pending
  | claimed
  | completed
  | failed
  | dead
  deriving DecidableEq, Repr

/-- Times are microseconds. -/
structure OutboxEvent where
  id : String
  eventType : String
  payload : JsonObject
  status : OutboxStatus := .pending
  claimedBy : Option String := none
  claimedAt : Option ℤ := none
  completedAt : Option ℤ := none
  attempts : ℕ := 0
  maxAttempts : ℕ := 5
  lastError : Option String := none
  idempotencyKey : String
  createdAt : ℤ
  deriving DecidableEq, Repr

/-- What the database and `uuid4` bring to a new row. -/
structure PublishDraws where
  id : String
  key : String
  createdAt : ℤ
  deriving DecidableEq, Repr

/-- `idempotency_key or str(uuid.uuid4())`: an empty key counts as none. -/
def publish (eventType : String) (payload : JsonObject) (idempotencyKey : Option String)
    (d : PublishDraws) : OutboxEvent where
  id := d.id
  eventType := eventType
  payload := payload
  idempotencyKey :=
    match idempotencyKey with
    | some key => if key = "" then d.key else key
    | none => d.key
  createdAt := d.createdAt

/-! ### What a poller does to an event it has loaded, and the columns each flush writes -/

def claim (workerId : String) (now : ℤ) (event : OutboxEvent) : OutboxEvent :=
  { event with
    status := .claimed
    claimedBy := some workerId
    claimedAt := some now
    attempts := event.attempts + 1 }

def complete (now : ℤ) (event : OutboxEvent) : OutboxEvent :=
  { event with status := .completed, completedAt := some now }

def fail (error : String) (event : OutboxEvent) : OutboxEvent :=
  if event.maxAttempts ≤ event.attempts then
    { event with lastError := some error, status := .dead }
  else
    { event with
      lastError := some error
      status := .pending
      claimedBy := none
      claimedAt := none }

def flushClaim (row event : OutboxEvent) : OutboxEvent :=
  { row with
    status := event.status
    claimedBy := event.claimedBy
    claimedAt := event.claimedAt
    attempts := event.attempts }

def flushComplete (row event : OutboxEvent) : OutboxEvent :=
  { row with status := event.status, completedAt := event.completedAt }

def flushFail (row event : OutboxEvent) : OutboxEvent :=
  if event.status = .dead then { row with lastError := event.lastError, status := event.status }
  else
    { row with
      lastError := event.lastError
      status := event.status
      claimedBy := event.claimedBy
      claimedAt := event.claimedAt }

/-- The update statements of one flush: each row is written from the event with its key. -/
def flushAll (flush : OutboxEvent → OutboxEvent → OutboxEvent) (events : List OutboxEvent)
    (rows : Dict String OutboxEvent) : Dict String OutboxEvent :=
  rows.mapValues fun id row =>
    match events.find? fun e => e.id = id with
    | some event => flush row event
    | none => row

/-! ### The table and its pollers -/

/-- `locked` are the rows selected by a claim that is not committed yet, `held` the events of
committed claims that their poller has neither completed nor failed. -/
structure Store (κ : Type*) where
  rows : Dict String OutboxEvent
  locked : List (κ × OutboxEvent)
  held : List (κ × OutboxEvent)
  deriving DecidableEq, Repr

def ids {κ : Type*} (events : List (κ × OutboxEvent)) : List String :=
  events.map fun e => e.2.id

inductive PollerStep (κ : Type*) where
  | publish (event : OutboxEvent)
  | select (k : κ) (batchSize : ℕ) (ordered : List OutboxEvent)
  | commitClaim (k : κ) (now : ℤ)
  | rollback (k : κ)
  | complete (k : κ) (event : OutboxEvent) (now : ℤ)
  | fail (k : κ) (event : OutboxEvent) (error : String)
  | crash (k : κ)
  deriving DecidableEq, Repr

variable {κ : Type*} [DecidableEq κ]

/-- The primary key and the unique idempotency key. -/
def admits (rows : Dict String OutboxEvent) (event : OutboxEvent) : Bool :=
  event.id ∉ rows.keys ∧ ∀ row ∈ rows.values, row.idempotencyKey ≠ event.idempotencyKey

/-- The rows that `WHERE status = 'pending' ... FOR UPDATE SKIP LOCKED` can return. -/
def claimable (s : Store κ) : List OutboxEvent :=
  s.rows.values.filter fun row => row.status = .pending ∧ row.id ∉ ids s.locked

def selection (s : Store κ) (k : κ) : List OutboxEvent :=
  (s.locked.filter fun l => l.1 = k).map Prod.snd

def without (events : List (κ × OutboxEvent)) (k : κ) : List (κ × OutboxEvent) :=
  events.filter fun e => e.1 ≠ k

def letGo (events : List (κ × OutboxEvent)) (k : κ) (event : OutboxEvent) :
    List (κ × OutboxEvent) :=
  events.filter fun e => e ≠ (k, event)

/-- `workerId` is the name a poller writes into the rows it claims. Names need not differ. -/
def next (workerId : κ → String) (s : Store κ) : PollerStep κ → Store κ
  | .publish event =>
    if admits s.rows event then { s with rows := s.rows.set event.id event } else s
  | .select k batchSize ordered =>
    { s with locked := s.locked ++ (ordered.take batchSize).map fun e => (k, e) }
  | .commitClaim k now =>
    let events := (selection s k).map (claim (workerId k) now)
    { rows := flushAll flushClaim events s.rows
      locked := without s.locked k
      held := s.held ++ events.map fun e => (k, e) }
  | .rollback k => { s with locked := without s.locked k }
  | .complete k event now =>
    { s with
      rows := flushAll flushComplete ([event].map (complete now)) s.rows
      held := letGo s.held k event }
  | .fail k event error =>
    { s with
      rows := flushAll flushFail ([event].map (fail error)) s.rows
      held := letGo s.held k event }
  | .crash k => { s with locked := without s.locked k, held := without s.held k }

def NewRow (event : OutboxEvent) : Prop :=
  event.status = .pending ∧ event.claimedBy = none ∧ event.attempts = 0 ∧ 1 ≤ event.maxAttempts

instance (event : OutboxEvent) : Decidable (NewRow event) :=
  inferInstanceAs (Decidable (_ ∧ _))

example (eventType : String) (payload : JsonObject) (key : Option String) (d : PublishDraws) :
    NewRow (publish eventType payload key d) :=
  ⟨rfl, rfl, rfl, Nat.succ_le_succ (Nat.zero_le 4)⟩

/-- What the database and the pollers abide by: `ordered` is an answer to the query of a
claim, a poller opens one claim at a time, and it finishes only events that it holds. -/
def Enabled (s : Store κ) : PollerStep κ → Prop
  | .publish event => NewRow event
  | .select k _ ordered =>
    selection s k = [] ∧ ordered.Perm (claimable s) ∧
      ordered.Pairwise fun a b => a.createdAt ≤ b.createdAt
  | .complete k event _ => (k, event) ∈ s.held
  | .fail k event _ => (k, event) ∈ s.held
  | _ => True

instance (s : Store κ) (e : PollerStep κ) : Decidable (Enabled s e) := by
  cases e <;> unfold Enabled <;> infer_instance

end TrustCopilot.Outbox
