import TrustCopilot.Library.OrderedDict
import TrustCopilot.Library.Trace
import Mathlib.Data.Int.Notation

/-! The retention agent: nudges to workspaces, with a cooldown, suppressions and a stop. Times
are microseconds, and every reading of the clock is an input. -/
namespace TrustCopilot.Retention

open TrustCopilot.OrderedDict
open TrustCopilot.Trace

inductive NudgeType where
  | missingEvidence
  | expiringDocument
  | newQuestionnaire
  | reusableAnswers
  | proofGaps
  | usageReminder
  deriving DecidableEq, Repr

structure NudgeEvent where
  workspaceId : String
  nudgeType : NudgeType
  message : String
  channel : String := "email"
  scheduledAt : ℤ
  suppressed : Bool := false
  suppressReason : String := ""
  deriving DecidableEq, Repr

structure RetentionState where
  workspaceId : String
  lastNudgeAt : Option ℤ := none
  nudgeCount : ℕ := 0
  suppressedUntil : Option ℤ := none
  maxNudgesPerMonth : ℕ := 4
  active : Bool := true
  deriving DecidableEq, Repr

def days (n : ℤ) : ℤ := n * 86400000000

def cooldown : ℤ := days 7

/-- `can_nudge`. The clock is read once for the suppression and once for the cooldown. -/
def canNudge (st : RetentionState) (suppressionChecked cooldownChecked : ℤ) : Bool :=
  if !st.active then false
  else if st.suppressedUntil.any fun u => suppressionChecked < u then false
  else if st.lastNudgeAt.any fun l => cooldownChecked - l < cooldown then false
  else true

structure NudgeContext where
  count : Option ℤ := none
  days : Option ℤ := none
  deriving DecidableEq, Repr

def nudgeMessage (nudgeType : NudgeType) (context : NudgeContext) : String :=
  let count := toString (context.count.getD 0)
  let days := toString (context.days.getD 0)
  match nudgeType with
  | .missingEvidence => "You have " ++ count ++
      " items still missing evidence. Upload now to complete your proof pack."
  | .expiringDocument => count ++
      " document(s) expire within 30 days. Update them to stay audit-ready."
  | .newQuestionnaire =>
      "Got a new security questionnaire? Upload it and get answers in minutes."
  | .reusableAnswers => "You have " ++ count ++
      " reusable answers from past questionnaires. New uploads will auto-fill faster."
  | .proofGaps => "Your proof pack has " ++ count ++
      " gaps. Upload additional evidence to reach 100%."
  | .usageReminder => "You haven't uploaded a questionnaire in " ++ days ++
      " days. Need help getting started?"

structure RetentionAgent where
  states : Table RetentionState.workspaceId
  nudges : List NudgeEvent

def RetentionAgent.new : RetentionAgent := ⟨Table.empty, []⟩

def getOrCreateState (a : RetentionAgent) (workspaceId : String) :
    RetentionState × RetentionAgent :=
  match a.states.get? workspaceId with
  | some st => (st, a)
  | none =>
    let st : RetentionState := { workspaceId := workspaceId }
    (st, { a with states := a.states.save st })

/-- The clock readings of `schedule_nudge`, in order. -/
structure NudgeTimes where
  scheduledAt : ℤ
  suppressionChecked : ℤ
  cooldownChecked : ℤ
  nudgedAt : ℤ
  deriving DecidableEq, Repr

def nudgeFor (st : RetentionState) (nudgeType : NudgeType) (context : NudgeContext)
    (times : NudgeTimes) : NudgeEvent × RetentionState :=
  let nudge : NudgeEvent :=
    { workspaceId := st.workspaceId
      nudgeType := nudgeType
      message := nudgeMessage nudgeType context
      scheduledAt := times.scheduledAt }
  if canNudge st times.suppressionChecked times.cooldownChecked then
    (nudge, { st with lastNudgeAt := some times.nudgedAt, nudgeCount := st.nudgeCount + 1 })
  else ({ nudge with suppressed := true, suppressReason := "cooldown_or_suppressed" }, st)

def scheduleNudge (a : RetentionAgent) (workspaceId : String) (nudgeType : NudgeType)
    (context : NudgeContext) (times : NudgeTimes) : NudgeEvent × RetentionAgent :=
  let r := getOrCreateState a workspaceId
  let n := nudgeFor r.1 nudgeType context times
  (n.1, { states := r.2.states.save n.2, nudges := r.2.nudges ++ [n.1] })

/-- The first and the last moment that a `datetime` can hold. -/
def minTime : ℤ := -62135596800000000

def maxTime : ℤ := 253402300799999999

/-- `now + timedelta(days=...)`, which raises where the sum is no `datetime`. -/
def suppressionEnd (now n : ℤ) : Option ℤ :=
  if minTime ≤ now + days n ∧ now + days n ≤ maxTime then some (now + days n) else none

/-- The state is there also after a call that raises. -/
def suppress (a : RetentionAgent) (workspaceId : String) (n now : ℤ) : RetentionAgent :=
  let r := getOrCreateState a workspaceId
  match suppressionEnd now n with
  | some u => { r.2 with states := r.2.states.save { r.1 with suppressedUntil := some u } }
  | none => r.2

def deactivate (a : RetentionAgent) (workspaceId : String) : RetentionAgent :=
  let r := getOrCreateState a workspaceId
  { r.2 with states := r.2.states.save { r.1 with active := false } }

/-- Without a workspace the nudges of all of them. -/
def sentNudges (a : RetentionAgent) (workspaceId : String) : List NudgeEvent :=
  if workspaceId ≠ "" then
    a.nudges.filter fun n => n.workspaceId = workspaceId ∧ n.suppressed = false
  else a.nudges.filter fun n => n.suppressed = false

inductive Operation where
  | scheduleNudge (workspaceId : String) (nudgeType : NudgeType) (context : NudgeContext)
      (times : NudgeTimes)
  | suppress (workspaceId : String) (n now : ℤ)
  | deactivate (workspaceId : String)
  deriving DecidableEq, Repr

def next (a : RetentionAgent) : Operation → RetentionAgent
  | .scheduleNudge workspaceId nudgeType context times =>
    (scheduleNudge a workspaceId nudgeType context times).2
  | .suppress workspaceId n now => suppress a workspaceId n now
  | .deactivate workspaceId => deactivate a workspaceId

def Operation.workspaceId : Operation → String
  | .scheduleNudge workspaceId _ _ _ => workspaceId
  | .suppress workspaceId _ _ => workspaceId
  | .deactivate workspaceId => workspaceId

def Operation.readings : Operation → List ℤ
  | .scheduleNudge _ _ _ t =>
    [t.scheduledAt, t.suppressionChecked, t.cooldownChecked, t.nudgedAt]
  | .suppress _ _ now => [now]
  | .deactivate _ => []

def Forward (ops : List Operation) : Prop :=
  (ops.flatMap Operation.readings).Pairwise (· ≤ ·)

instance (ops : List Operation) : Decidable (Forward ops) :=
  inferInstanceAs (Decidable (List.Pairwise _ _))

/-! ### An operation is a change to the state of its workspace, and what it posts -/

def stateOf (a : RetentionAgent) (workspaceId : String) : RetentionState :=
  (a.states.get? workspaceId).getD { workspaceId := workspaceId }

def effect : Operation → RetentionState → RetentionState
  | .scheduleNudge _ nudgeType context times, st => (nudgeFor st nudgeType context times).2
  | .suppress _ n now, st =>
    match suppressionEnd now n with
    | some u => { st with suppressedUntil := some u }
    | none => st
  | .deactivate _, st => { st with active := false }

def posted : Operation → RetentionState → List NudgeEvent
  | .scheduleNudge _ nudgeType context times, st => [(nudgeFor st nudgeType context times).1]
  | .suppress _ _ _, _ => []
  | .deactivate _, _ => []

structure Send where
  nudge : NudgeEvent
  sentAt : ℤ
  deriving DecidableEq, Repr

def sends (a : RetentionAgent) : Operation → List Send
  | .scheduleNudge workspaceId nudgeType context times =>
    if canNudge (stateOf a workspaceId) times.suppressionChecked times.cooldownChecked then
      [⟨(scheduleNudge a workspaceId nudgeType context times).1, times.nudgedAt⟩]
    else []
  | .suppress _ _ _ => []
  | .deactivate _ => []

variable {a : RetentionAgent} {k : String}

@[simp] theorem stateOf_workspaceId (a : RetentionAgent) (k : String) :
    (stateOf a k).workspaceId = k := by
  rw [stateOf]
  cases h : a.states.get? k with
  | none => rfl
  | some st => exact Table.key_of_get? h

theorem getOrCreateState_fst (a : RetentionAgent) (k : String) :
    (getOrCreateState a k).1 = stateOf a k := by
  rw [getOrCreateState, stateOf]
  cases a.states.get? k <;> rfl

theorem getOrCreateState_nudges (a : RetentionAgent) (k : String) :
    (getOrCreateState a k).2.nudges = a.nudges := by
  rw [getOrCreateState]
  cases a.states.get? k <;> rfl

theorem stateOf_getOrCreateState (a : RetentionAgent) (j k : String) :
    stateOf (getOrCreateState a j).2 k = stateOf a k := by
  rw [getOrCreateState]
  cases h : a.states.get? j with
  | some st => rfl
  | none =>
    simp only [stateOf, Table.get?_save]
    by_cases hk : k = j
    · rw [if_pos hk, hk, h]
      rfl
    · rw [if_neg hk]

theorem stateOf_save (a : RetentionAgent) (st : RetentionState) (ns : List NudgeEvent)
    (k : String) :
    stateOf ⟨a.states.save st, ns⟩ k = if k = st.workspaceId then st else stateOf a k := by
  rw [stateOf, Table.get?_save]
  by_cases h : k = st.workspaceId
  · rw [if_pos h, if_pos h]
    rfl
  · rw [if_neg h, if_neg h]
    rfl

@[simp] theorem nudgeFor_workspaceId (st : RetentionState) (nudgeType : NudgeType)
    (context : NudgeContext) (times : NudgeTimes) :
    (nudgeFor st nudgeType context times).2.workspaceId = st.workspaceId ∧
    (nudgeFor st nudgeType context times).1.workspaceId = st.workspaceId := by
  rw [nudgeFor]
  split <;> exact ⟨rfl, rfl⟩

theorem nudgeFor_suppressed (st : RetentionState) (nudgeType : NudgeType)
    (context : NudgeContext) (times : NudgeTimes) :
    (nudgeFor st nudgeType context times).1.suppressed =
      !canNudge st times.suppressionChecked times.cooldownChecked := by
  rw [nudgeFor]
  cases canNudge st times.suppressionChecked times.cooldownChecked <;> rfl

theorem stateOf_next (a : RetentionAgent) (op : Operation) (k : String) :
    stateOf (next a op) k =
      if k = op.workspaceId then effect op (stateOf a k) else stateOf a k := by
  cases op with
  | scheduleNudge j nudgeType context times =>
    rw [next, scheduleNudge, getOrCreateState_fst, stateOf_save, stateOf_getOrCreateState,
      (nudgeFor_workspaceId _ _ _ _).1, stateOf_workspaceId, Operation.workspaceId]
    by_cases h : k = j
    · rw [if_pos h, if_pos h, h]
      rfl
    · rw [if_neg h, if_neg h]
  | suppress j n now =>
    rw [next, suppress, Operation.workspaceId, effect]
    cases suppressionEnd now n with
    | none =>
      simp only [stateOf_getOrCreateState, ite_self]
    | some u =>
      simp only [getOrCreateState_fst, stateOf_save, stateOf_getOrCreateState,
        stateOf_workspaceId]
      by_cases h : k = j
      · rw [if_pos h, if_pos h, h]
      · rw [if_neg h, if_neg h]
  | deactivate j =>
    rw [next, deactivate, getOrCreateState_fst, stateOf_save, stateOf_getOrCreateState,
      stateOf_workspaceId, Operation.workspaceId]
    by_cases h : k = j
    · rw [if_pos h, if_pos h, h]
      rfl
    · rw [if_neg h, if_neg h]

theorem nudges_next (a : RetentionAgent) (op : Operation) :
    (next a op).nudges = a.nudges ++ posted op (stateOf a op.workspaceId) := by
  cases op with
  | scheduleNudge j nudgeType context times =>
    rw [next, scheduleNudge, getOrCreateState_fst, getOrCreateState_nudges]
    rfl
  | suppress j n now =>
    rw [next, suppress, posted, List.append_nil]
    cases suppressionEnd now n <;> exact getOrCreateState_nudges a j
  | deactivate j =>
    rw [posted, List.append_nil]
    exact getOrCreateState_nudges a j

theorem posted_workspaceId {op : Operation} {st : RetentionState} {n : NudgeEvent}
    (h : n ∈ posted op st) : n.workspaceId = st.workspaceId := by
  cases op with
  | scheduleNudge j nudgeType context times =>
    rw [List.mem_singleton.1 h]
    exact (nudgeFor_workspaceId _ _ _ _).2
  | suppress j n now => cases h
  | deactivate j => cases h

theorem sends_nudges (a : RetentionAgent) (op : Operation) :
    (sends a op).map Send.nudge =
      (posted op (stateOf a op.workspaceId)).filter fun n => n.suppressed = false := by
  cases op with
  | scheduleNudge j nudgeType context times =>
    have hs := nudgeFor_suppressed (stateOf a j) nudgeType context times
    rw [sends, posted, Operation.workspaceId]
    cases hc : canNudge (stateOf a j) times.suppressionChecked times.cooldownChecked with
    | true =>
      rw [hc] at hs
      rw [if_pos rfl, List.map_singleton, scheduleNudge, getOrCreateState_fst,
        List.filter_singleton, hs]
      rfl
    | false =>
      rw [hc] at hs
      rw [if_neg Bool.false_ne_true, List.filter_singleton, hs]
      rfl
  | suppress j n now => rfl
  | deactivate j => rfl

theorem sends_workspaceId {op : Operation} {s : Send} (h : s ∈ sends a op) :
    s.nudge.workspaceId = op.workspaceId := by
  have hin : s.nudge ∈ (sends a op).map Send.nudge := List.mem_map_of_mem h
  rw [sends_nudges] at hin
  rw [posted_workspaceId (List.mem_filter.1 hin).1, stateOf_workspaceId]

/-- Whoever is sent a nudge is active, and its suppression and its cooldown are over. -/
theorem canNudge_iff {st : RetentionState} {first second : ℤ} :
    canNudge st first second = true ↔ st.active = true ∧
      (∀ u, st.suppressedUntil = some u → u ≤ first) ∧
      ∀ l, st.lastNudgeAt = some l → l + cooldown ≤ second := by
  rw [canNudge]
  cases st.active with
  | false => simp
  | true =>
    cases st.suppressedUntil with
    | none =>
      cases st.lastNudgeAt with
      | none => simp
      | some l =>
        simp
        omega
    | some u =>
      cases st.lastNudgeAt with
      | none => simp
      | some l =>
        simp
        omega

theorem mem_sends {op : Operation} {s : Send} (h : s ∈ sends a op) :
    ∃ nudgeType context times, op = .scheduleNudge op.workspaceId nudgeType context times ∧
      canNudge (stateOf a op.workspaceId) times.suppressionChecked times.cooldownChecked =
        true ∧ s.sentAt = times.nudgedAt := by
  cases op with
  | scheduleNudge j nudgeType context times =>
    rw [sends] at h
    split at h
    · next hc =>
      rw [List.mem_singleton.1 h]
      exact ⟨nudgeType, context, times, rfl, hc, rfl⟩
    · cases h
  | suppress j n now => cases h
  | deactivate j => cases h

end TrustCopilot.Retention
