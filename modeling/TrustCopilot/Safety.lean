import TrustCopilot.Library.KeyHistory
import TrustCopilot.Library.PyText
import TrustCopilot.Library.Trace
import Mathlib.Data.Rat.Defs
import Mathlib.Algebra.Order.Field.Rat

/-! The safety monitor: scoped pauses in one dictionary, lifted by a resume, by their own
resume time, or replaced by a later pause. Every reading of the clock is an input; `quotient`
stands for the interpreter's division of floats. -/
namespace TrustCopilot.Safety

open TrustCopilot.OrderedDict
open TrustCopilot.KeyHistory
open TrustCopilot.PyText
open TrustCopilot.Trace

inductive PauseScope where
  | system
  | lane
  | campaign
  | mailbox
  | domain
  deriving DecidableEq, Repr

def PauseScope.value : PauseScope → String
  | .system => "system"
  | .lane => "lane"
  | .campaign => "campaign"
  | .mailbox => "mailbox"
  | .domain => "domain"

inductive PauseReason where
  | bounceSpike
  | complaintSpike
  | mailboxUnhealthy
  | policyDenySurge
  | manual
  | autoResumeExpired
  deriving DecidableEq, Repr

structure PauseEntry where
  scope : PauseScope
  key : String
  reason : PauseReason
  pausedAt : ℤ
  autoResumeAt : Option ℤ := none
  pausedBy : String := "system"
  deriving DecidableEq, Repr

def PauseEntry.isActive (e : PauseEntry) (now : ℤ) : Bool :=
  match e.autoResumeAt with
  | some t => !decide (now ≥ t)
  | none => true

structure HealthMetrics where
  totalSent : ℤ := 0
  totalBounced : ℤ := 0
  totalComplaints : ℤ := 0
  totalPolicyDenies : ℤ := 0
  deriving DecidableEq, Repr

section Rates

variable (quotient : ℤ → ℤ → ℚ)

def bounceRate (h : HealthMetrics) : ℚ := quotient h.totalBounced (max h.totalSent 1)

def complaintRate (h : HealthMetrics) : ℚ := quotient h.totalComplaints (max h.totalSent 1)

def denyRate (h : HealthMetrics) : ℚ :=
  quotient h.totalPolicyDenies (max (h.totalSent + h.totalPolicyDenies) 1)

end Rates

/-- The default thresholds, each replaced by what the caller passes for it. -/
structure Thresholds where
  maxBounceRate : ℚ := 5 / 100
  maxComplaintRate : ℚ := 3 / 1000
  maxDenyRate : ℚ := 20 / 100
  minSendsForThreshold : ℤ := 10
  deriving DecidableEq, Repr

inductive AuditRecord where
  | pause (scope : PauseScope) (key : String) (reason : PauseReason) (loggedAt : ℤ)
  | resume (scope : PauseScope) (key resumedBy : String) (loggedAt : ℤ)
  deriving DecidableEq, Repr

structure SafetyMonitor where
  thresholds : Thresholds
  pauses : Dict String PauseEntry
  auditLog : List AuditRecord
  deriving DecidableEq, Repr

def SafetyMonitor.new (thresholds : Thresholds) : SafetyMonitor := ⟨thresholds, Dict.empty, []⟩

abbrev PauseTarget := PauseScope × String

def pauseKey (k : PauseTarget) : String := k.1.value ++ ":" ++ k.2

theorem pauseKey_injective : Function.Injective pauseKey := by
  refine tagged_injective (fun s t h => ?_) fun s => ?_
  · cases s <;> cases t <;> simp_all [PauseScope.value]
  · cases s <;> decide

def isPaused (m : SafetyMonitor) (scope : PauseScope) (key : String) (first second : ℤ) :
    SafetyMonitor × Bool × Option PauseEntry :=
  match m.pauses.get? (pauseKey (scope, key)) with
  | none => (m, false, none)
  | some entry =>
    if entry.isActive first then (m, true, some entry)
    else if ¬ entry.isActive second then
      ({ m with pauses := m.pauses.erase (pauseKey (scope, key)) }, false, none)
    else (m, false, none)

/-- A target to look up, with the two clock readings of its lookup. -/
structure Lookup where
  scope : PauseScope
  key : String
  first : ℤ
  second : ℤ
  deriving DecidableEq, Repr

def anyPauseActive (m : SafetyMonitor) : List Lookup → SafetyMonitor × Bool × Option PauseEntry
  | [] => (m, false, none)
  | q :: scopes =>
    match isPaused m q.scope q.key q.first q.second with
    | (m', true, entry) => (m', true, entry)
    | (m', false, _) => anyPauseActive m' scopes

structure PauseTimes where
  pausedAt : ℤ
  loggedAt : ℤ
  deriving DecidableEq, Repr

def pause (m : SafetyMonitor) (scope : PauseScope) (key : String) (reason : PauseReason)
    (autoResumeAt : Option ℤ) (pausedBy : String) (times : PauseTimes) :
    SafetyMonitor × PauseEntry :=
  let entry : PauseEntry :=
    { scope := scope
      key := key
      reason := reason
      pausedAt := times.pausedAt
      autoResumeAt := autoResumeAt
      pausedBy := pausedBy }
  ({ m with
     pauses := m.pauses.set (pauseKey (scope, key)) entry
     auditLog := m.auditLog ++ [.pause scope key reason times.loggedAt] }, entry)

def resume (m : SafetyMonitor) (scope : PauseScope) (key resumedBy : String) (now : ℤ) :
    SafetyMonitor × Bool :=
  if (m.pauses.get? (pauseKey (scope, key))).isSome then
    ({ m with
       pauses := m.pauses.erase (pauseKey (scope, key))
       auditLog := m.auditLog ++ [.resume scope key resumedBy now] }, true)
  else (m, false)

def activePauses (m : SafetyMonitor) (now : PauseEntry → ℤ) : List PauseEntry :=
  m.pauses.values.filter fun e => e.isActive (now e)

/-- One threshold test of the health check, on the monitor and the pauses entered so far. -/
def pauseIf (breached : Bool) (scope : PauseScope) (key : String) (reason : PauseReason)
    (times : PauseTimes) (st : SafetyMonitor × List PauseEntry) :
    SafetyMonitor × List PauseEntry :=
  if breached then
    let r := pause st.1 scope key reason none "system" times
    (r.1, st.2 ++ [r.2])
  else st

section Operations

variable (quotient : ℤ → ℤ → ℚ)

def bounceBreached (t : Thresholds) (metrics : HealthMetrics) : Bool :=
  bounceRate quotient metrics > t.maxBounceRate

def complaintBreached (t : Thresholds) (metrics : HealthMetrics) : Bool :=
  complaintRate quotient metrics > t.maxComplaintRate

def denyBreached (t : Thresholds) (metrics : HealthMetrics) : Bool :=
  denyRate quotient metrics > t.maxDenyRate

def checkHealth (m : SafetyMonitor) (metrics : HealthMetrics) (scope : PauseScope) (key : String)
    (bounceTimes complaintTimes denyTimes : PauseTimes) : SafetyMonitor × List PauseEntry :=
  if metrics.totalSent < m.thresholds.minSendsForThreshold then (m, [])
  else
    pauseIf (denyBreached quotient m.thresholds metrics) scope key .policyDenySurge denyTimes <|
    pauseIf (complaintBreached quotient m.thresholds metrics) scope key .complaintSpike
      complaintTimes <|
    pauseIf (bounceBreached quotient m.thresholds metrics) scope key .bounceSpike bounceTimes
      (m, [])

inductive Operation where
  | pause (scope : PauseScope) (key : String) (reason : PauseReason) (autoResumeAt : Option ℤ)
      (pausedBy : String) (times : PauseTimes)
  | resume (scope : PauseScope) (key resumedBy : String) (now : ℤ)
  | isPaused (query : Lookup)
  | anyPauseActive (scopes : List Lookup)
  | checkHealth (metrics : HealthMetrics) (scope : PauseScope) (key : String)
      (bounceTimes complaintTimes denyTimes : PauseTimes)

def next (m : SafetyMonitor) : Operation → SafetyMonitor
  | .pause scope key reason autoResumeAt pausedBy times =>
    (pause m scope key reason autoResumeAt pausedBy times).1
  | .resume scope key resumedBy now => (resume m scope key resumedBy now).1
  | .isPaused q => (isPaused m q.scope q.key q.first q.second).1
  | .anyPauseActive scopes => (anyPauseActive m scopes).1
  | .checkHealth metrics scope key bounceTimes complaintTimes denyTimes =>
    (checkHealth quotient m metrics scope key bounceTimes complaintTimes denyTimes).1

def Operation.readings : Operation → List ℤ
  | .pause _ _ _ _ _ times => [times.pausedAt, times.loggedAt]
  | .resume _ _ _ now => [now]
  | .isPaused q => [q.first, q.second]
  | .anyPauseActive scopes => scopes.flatMap fun q => [q.first, q.second]
  | .checkHealth _ _ _ b c d =>
    [b.pausedAt, b.loggedAt, c.pausedAt, c.loggedAt, d.pausedAt, d.loggedAt]

end Operations

end TrustCopilot.Safety
