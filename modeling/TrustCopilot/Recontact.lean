import TrustCopilot.Library.Trace
import Mathlib.Data.Int.Notation
import Mathlib.Order.Basic

/-! What is remembered about an account between contacts. Times are microseconds; every
reading of the clock that a call makes is an input of the call. -/
namespace TrustCopilot.Recontact

open TrustCopilot.Trace

def days (n : ℤ) : ℤ := n * 86400000000

structure AccountMemory where
  accountId : String
  lastContacted : Option ℤ := none
  lastOutcome : Option String := none
  contactCount : ℤ := 0
  snoozeUntil : Option ℤ := none
  objectionTags : List String := []
  reactivationTriggers : List String := []
  lastTriggerAt : Option ℤ := none
  deriving DecidableEq, Repr

def hardTags : List String :=
  ["not_interested", "competitor_locked", "do_not_contact", "unsubscribed"]

def snoozeDurations : List (String × ℤ) :=
  [("no_reply", 30), ("soft_no", 60), ("timing_bad", 90), ("budget_issue", 90),
    ("evaluating_others", 45)]

def reactivationSignals : List String :=
  ["soc2_announced", "funding_round", "upmarket_expansion", "compliance_hiring",
    "security_hiring", "trust_center_launched", "certification_milestone"]

def isSnoozed (m : AccountMemory) (now : ℤ) : Bool :=
  match m.snoozeUntil with
  | none => false
  | some wakeAt => now < wakeAt

def hardObjection (m : AccountMemory) : Bool := m.objectionTags.any fun t => t ∈ hardTags

def hasNewTrigger (m : AccountMemory) : Bool :=
  match m.lastTriggerAt, m.lastContacted with
  | some trigger, some contact => contact < trigger
  | _, _ => m.reactivationTriggers ≠ []

def addTag (tags : List String) (tag : String) : List String :=
  if tag ∈ tags then tags else tags ++ [tag]

structure Outcome where
  outcome : String
  objections : List String := []
  snoozeReason : Option String := none
  /-- The reading stored as the time of the contact. -/
  contactedAt : ℤ
  /-- The reading that a snooze starts from. -/
  snoozedAt : ℤ
  deriving DecidableEq, Repr

def recordOutcome (m : AccountMemory) (o : Outcome) : AccountMemory :=
  { m with
    lastContacted := some o.contactedAt
    lastOutcome := some o.outcome
    contactCount := m.contactCount + 1
    objectionTags := o.objections.foldl addTag m.objectionTags
    snoozeUntil :=
      match o.snoozeReason.bind fun r => snoozeDurations.lookup r with
      | some n => some (o.snoozedAt + days n)
      | none => m.snoozeUntil }

structure SignalCheck where
  newSignalTypes : List String
  /-- The reading compared with the cooldown. -/
  comparedAt : ℤ
  /-- The reading stored as the time of the trigger. -/
  triggeredAt : ℤ
  deriving DecidableEq, Repr

def matching (signals : List String) : List String :=
  signals.filter fun s => s ∈ reactivationSignals

def coolingDown (m : AccountMemory) (now : ℤ) : Bool :=
  match m.lastContacted with
  | some contact => now - contact < days 90
  | none => false

def checkReactivation (m : AccountMemory) (c : SignalCheck) :
    AccountMemory × Bool × List String :=
  if matching c.newSignalTypes = [] then (m, false, [])
  else if hardObjection m = false then (m, true, matching c.newSignalTypes)
  else if coolingDown m c.comparedAt then (m, false, matching c.newSignalTypes)
  else
    ({ m with
      reactivationTriggers := matching c.newSignalTypes
      lastTriggerAt := some c.triggeredAt }, true, matching c.newSignalTypes)

inductive RecontactReason where
  | snoozedUntil (time : Option ℤ)
  | hardObjection (tags : List String)
  | maxAttemptsNoReply
  | reactivatedBy (triggers : List String)
  | firstContact
  | eligible
  deriving DecidableEq, Repr

/-- The reason as the source spells it; `showTime` formats a time. -/
def RecontactReason.text (showTime : Option ℤ → String) : RecontactReason → String
  | .snoozedUntil time => "snoozed_until:" ++ showTime time
  | .hardObjection tags => "hard_objection:" ++ ",".intercalate tags
  | .maxAttemptsNoReply => "max_attempts_no_reply"
  | .reactivatedBy triggers => "reactivated_by:" ++ ",".intercalate triggers
  | .firstContact => "first_contact"
  | .eligible => "eligible"

def shouldRecontact (m : AccountMemory) (now : ℤ) : Bool × RecontactReason :=
  if isSnoozed m now then (false, .snoozedUntil m.snoozeUntil)
  else if hardObjection m ∧ hasNewTrigger m = false then (false, .hardObjection m.objectionTags)
  else if 3 ≤ m.contactCount ∧ m.lastOutcome = some "no_reply" ∧ hasNewTrigger m = false then
    (false, .maxAttemptsNoReply)
  else if hasNewTrigger m then (true, .reactivatedBy m.reactivationTriggers)
  else if m.contactCount = 0 then (true, .firstContact)
  else (true, .eligible)

theorem shouldRecontact_iff {m : AccountMemory} {now : ℤ} :
    (shouldRecontact m now).1 = true ↔
      isSnoozed m now = false ∧ (hasNewTrigger m = true ∨ hardObjection m = false ∧
        ¬ (3 ≤ m.contactCount ∧ m.lastOutcome = some "no_reply" ∧ hasNewTrigger m = false)) := by
  rw [shouldRecontact]
  cases isSnoozed m now with
  | true => simp
  | false =>
    cases hasNewTrigger m with
    | true => simp
    | false =>
      cases hardObjection m with
      | true => simp
      | false =>
        by_cases hcount : 3 ≤ m.contactCount ∧ m.lastOutcome = some "no_reply"
        · simp [hcount]
        · by_cases hnew : m.contactCount = 0
          · simp [hnew]
          · rw [if_neg Bool.false_ne_true, if_neg (fun h => Bool.false_ne_true h.1),
              if_neg fun h => hcount ⟨h.1, h.2.1⟩]
            simpa [hnew] using not_and.1 hcount

theorem shouldRecontact_objection {m : AccountMemory} {now : ℤ}
    (h : (shouldRecontact m now).1 = true) (hard : hardObjection m = true) :
    hasNewTrigger m = true := by
  obtain ⟨-, hnew | ⟨hno, -⟩⟩ := shouldRecontact_iff.1 h
  · exact hnew
  · exact absurd hard (Bool.eq_false_iff.1 hno)

/-! ### Histories -/

inductive MemoryEvent where
  | outcome (o : Outcome)
  | signals (c : SignalCheck)
  deriving DecidableEq, Repr

def MemoryEvent.readings : MemoryEvent → List ℤ
  | .outcome o => [o.contactedAt, o.snoozedAt]
  | .signals c => [c.comparedAt, c.triggeredAt]

def next (m : AccountMemory) : MemoryEvent → AccountMemory
  | .outcome o => recordOutcome m o
  | .signals c => (checkReactivation m c).1

def newMemory (accountId : String) : AccountMemory := { accountId := accountId }

def run (accountId : String) (events : List MemoryEvent) : AccountMemory :=
  runTrace next (newMemory accountId) events

def ClockForward (events : List MemoryEvent) : Prop :=
  (events.flatMap MemoryEvent.readings).Pairwise (· ≤ ·)

instance (events : List MemoryEvent) : Decidable (ClockForward events) :=
  inferInstanceAs (Decidable (List.Pairwise _ _))

def TagRecorded (tag : String) (events : List MemoryEvent) : Prop :=
  ∃ o, .outcome o ∈ events ∧ tag ∈ o.objections

/-- A check that brings a reactivation signal when the cooldown of the contact is over. -/
def Reopens (contactedAt : ℤ) : MemoryEvent → Prop
  | .outcome _ => False
  | .signals c => matching c.newSignalTypes ≠ [] ∧ contactedAt + days 90 ≤ c.comparedAt

def Reopened (events : List MemoryEvent) : Prop :=
  ∃ before o after, events = before ++ .outcome o :: after ∧
    (∀ o', .outcome o' ∉ after) ∧ ∃ e ∈ after, Reopens o.contactedAt e

theorem mem_foldl_addTag {tags objections : List String} {tag : String} :
    tag ∈ objections.foldl addTag tags ↔ tag ∈ tags ∨ tag ∈ objections := by
  induction objections generalizing tags with
  | nil => simp
  | cons o objections ih =>
    have ho : tag ∈ addTag tags o ↔ tag ∈ tags ∨ tag = o := by
      rw [addTag]
      split
      · next h =>
        refine ⟨Or.inl, ?_⟩
        rintro (ht | rfl)
        · exact ht
        · exact h
      · simp
    rw [List.foldl_cons, ih, ho, List.mem_cons, or_assoc]

/-- A check leaves the memory as it is, or stores a trigger after the cooldown. -/
theorem checkReactivation_cases (m : AccountMemory) (c : SignalCheck) :
    (checkReactivation m c).1 = m ∨
    matching c.newSignalTypes ≠ [] ∧ coolingDown m c.comparedAt = false ∧
      (checkReactivation m c).1 = { m with
        reactivationTriggers := matching c.newSignalTypes
        lastTriggerAt := some c.triggeredAt } := by
  rw [checkReactivation]
  by_cases hm : matching c.newSignalTypes = []
  · simp [hm]
  · by_cases hh : hardObjection m = false
    · simp [hm, hh]
    · by_cases hc : coolingDown m c.comparedAt = true
      · simp [hm, hh, hc]
      · simp [hm, hh, hc]

/-- What the memory knows of its history. -/
structure Remembers (events : List MemoryEvent) (m : AccountMemory) : Prop where
  tags : ∀ tag, TagRecorded tag events → tag ∈ m.objectionTags
  uncontacted : m.lastContacted = none → ∀ o, .outcome o ∉ events
  contacted : ∀ contact, m.lastContacted = some contact → ∃ before o after,
    events = before ++ .outcome o :: after ∧ (∀ o', .outcome o' ∉ after) ∧
    o.contactedAt = contact ∧
    ∀ t, m.lastTriggerAt = some t → contact < t → ∃ e ∈ after, Reopens contact e
  triggered : m.lastTriggerAt = none → m.reactivationTriggers = []
  trigger_past : ∀ t, m.lastTriggerAt = some t → t ∈ events.flatMap MemoryEvent.readings

theorem remembers_new (accountId : String) : Remembers [] (newMemory accountId) where
  tags := by rintro tag ⟨o, ho, -⟩; cases ho
  uncontacted _ o := List.not_mem_nil
  contacted := by intro contact h; cases h
  triggered _ := rfl
  trigger_past := by intro t h; cases h

theorem remembers_outcome {events : List MemoryEvent} {m : AccountMemory} {o : Outcome}
    (h : Remembers events m) (hc : ClockForward (events ++ [.outcome o])) :
    Remembers (events ++ [.outcome o]) (recordOutcome m o) where
  tags := by
    rintro tag ⟨o', ho', htag⟩
    refine mem_foldl_addTag.2 ?_
    rcases List.mem_append.1 ho' with ho' | ho'
    · exact Or.inl (h.tags tag ⟨o', ho', htag⟩)
    · cases List.mem_singleton.1 ho'
      exact Or.inr htag
  uncontacted := by intro hn; cases hn
  contacted := by
    intro contact hat
    cases hat
    refine ⟨events, o, [], rfl, fun _ => List.not_mem_nil, rfl, fun t ht hlt => ?_⟩
    rw [ClockForward, List.flatMap_append] at hc
    have hle := (List.pairwise_append.1 hc).2.2 t (h.trigger_past t ht) o.contactedAt
      (by simp [MemoryEvent.readings])
    omega
  triggered := h.triggered
  trigger_past := by
    intro t ht
    rw [List.flatMap_append]
    exact List.mem_append_left _ (h.trigger_past t ht)

theorem outcome_mem_signals {events : List MemoryEvent} {o : Outcome} {c : SignalCheck} :
    .outcome o ∈ events ++ [.signals c] ↔ .outcome o ∈ events := by
  simp

theorem remembers_signals {events : List MemoryEvent} {m : AccountMemory} {c : SignalCheck}
    (h : Remembers events m) :
    Remembers (events ++ [.signals c]) (checkReactivation m c).1 := by
  have htags : ∀ tag, TagRecorded tag (events ++ [.signals c]) → tag ∈ m.objectionTags := by
    rintro tag ⟨o, ho, htag⟩
    exact h.tags tag ⟨o, outcome_mem_signals.1 ho, htag⟩
  have hnone : m.lastContacted = none → ∀ o, .outcome o ∉ events ++ [.signals c] := by
    intro hn o ho
    exact h.uncontacted hn o (outcome_mem_signals.1 ho)
  rcases checkReactivation_cases m c with hm | ⟨hmatch, hcool, hm⟩
  · rw [hm]
    refine ⟨htags, hnone, fun contact hat => ?_, h.triggered, fun t ht => ?_⟩
    · obtain ⟨before, o, after, rfl, hafter, ho, htrig⟩ := h.contacted contact hat
      refine ⟨before, o, after ++ [.signals c], by simp, fun o' ho' => ?_, ho, fun t ht hlt => ?_⟩
      · exact hafter o' (outcome_mem_signals.1 ho')
      · obtain ⟨e, he, hr⟩ := htrig t ht hlt
        exact ⟨e, List.mem_append_left _ he, hr⟩
    · rw [List.flatMap_append]
      exact List.mem_append_left _ (h.trigger_past t ht)
  · rw [hm]
    refine ⟨htags, hnone, fun contact hat => ?_, nofun, fun t ht => ?_⟩
    · obtain ⟨before, o, after, rfl, hafter, ho, -⟩ := h.contacted contact hat
      refine ⟨before, o, after ++ [.signals c], by simp, fun o' ho' => ?_, ho, fun _ _ _ => ?_⟩
      · exact hafter o' (outcome_mem_signals.1 ho')
      · have hat' : m.lastContacted = some contact := hat
        simp only [coolingDown, hat', decide_eq_false_iff_not] at hcool
        exact ⟨.signals c, by simp, hmatch, by omega⟩
    · cases ht
      simp [MemoryEvent.readings]

theorem run_remembers {accountId : String} {events : List MemoryEvent}
    (h : ClockForward events) : Remembers events (run accountId events) := by
  induction events using List.reverseRecOn with
  | nil => exact remembers_new accountId
  | append_singleton events e ih =>
    have hprev : ClockForward events := by
      rw [ClockForward, List.flatMap_append] at h
      exact (List.pairwise_append.1 h).1
    rw [run, runTrace_concat]
    cases e with
    | outcome o => exact remembers_outcome (ih hprev) h
    | signals c => exact remembers_signals (ih hprev)

theorem recorded_hardObjection {accountId tag : String} {events : List MemoryEvent}
    (hclock : ClockForward events) (hrec : TagRecorded tag events) (hard : tag ∈ hardTags) :
    hardObjection (run accountId events) = true :=
  List.any_eq_true.2 ⟨tag, (run_remembers hclock).tags tag hrec, decide_eq_true hard⟩

theorem new_trigger_reopened {accountId : String} {events : List MemoryEvent} {o : Outcome}
    (h : ClockForward events) (ho : .outcome o ∈ events)
    (ht : hasNewTrigger (run accountId events) = true) : Reopened events := by
  have hr : Remembers events (run accountId events) := run_remembers h
  cases hcontact : (run accountId events).lastContacted with
  | none => exact absurd ho (hr.uncontacted hcontact o)
  | some contact =>
    obtain ⟨before, o', after, hevents, hafter, hat, htrig⟩ := hr.contacted contact hcontact
    cases htrigger : (run accountId events).lastTriggerAt with
    | none => simp [hasNewTrigger, htrigger, hr.triggered htrigger] at ht
    | some t =>
      have hlt : contact < t := by simpa [hasNewTrigger, hcontact, htrigger] using ht
      exact ⟨before, o', after, hevents, hafter, hat ▸ htrig t htrigger hlt⟩

end TrustCopilot.Recontact
