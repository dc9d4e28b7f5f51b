import TrustCopilot.ContactGates

/-! From a reported reactivation to the next contact, and from a hard objection to the end of its
cooldown. -/
namespace TrustCopilot.Reactivation

open TrustCopilot.Trace
open TrustCopilot.Recontact
open TrustCopilot.ContactGates (AttemptsExhausted)

def afterChecks (m : AccountMemory) (checks : List SignalCheck) : AccountMemory :=
  runTrace next m (checks.map .signals)

/-- If the check reports a reactivation, the account is one to contact from then on, whatever
is checked before the next outcome. -/
def LeadsToContact (m : AccountMemory) (c : SignalCheck) : Prop :=
  (checkReactivation m c).2.1 = true →
  ∀ later now, ClockForward ((c :: later).map .signals) →
    (∀ t ∈ ((c :: later).map MemoryEvent.signals).flatMap MemoryEvent.readings, t ≤ now) →
    (shouldRecontact (afterChecks m (c :: later)) now).1 = true

theorem isSnoozed_later {m m' : AccountMemory} {t now : ℤ} (h : isSnoozed m t = false)
    (hsame : m'.snoozeUntil = m.snoozeUntil) (hle : t ≤ now) : isSnoozed m' now = false := by
  rw [isSnoozed] at h ⊢
  rw [hsame]
  cases hwake : m.snoozeUntil with
  | none => rfl
  | some wakeAt =>
    simp only [hwake, decide_eq_false_iff_not] at h ⊢
    omega

/-- A trigger stored after the cooldown is newer than the contact. -/
theorem stored_newTrigger {m : AccountMemory} {c : SignalCheck}
    (hmatch : matching c.newSignalTypes ≠ []) (hcool : coolingDown m c.comparedAt = false)
    (hclock : c.comparedAt ≤ c.triggeredAt) :
    hasNewTrigger { m with
      reactivationTriggers := matching c.newSignalTypes
      lastTriggerAt := some c.triggeredAt } = true := by
  cases hcontact : m.lastContacted with
  | none => simp [hasNewTrigger, hmatch]
  | some contact =>
    rw [coolingDown, hcontact] at hcool
    have hover : ¬ c.comparedAt - contact < days 90 := of_decide_eq_false hcool
    have hnew : contact < c.triggeredAt := by
      rw [days] at hover
      omega
    exact decide_eq_true hnew

theorem check_newTrigger {m : AccountMemory} {c : SignalCheck} (h : hasNewTrigger m = true)
    (hclock : c.comparedAt ≤ c.triggeredAt) : hasNewTrigger (next m (.signals c)) = true := by
  rw [next]
  rcases checkReactivation_cases m c with hm | ⟨hmatch, hcool, hm⟩
  · rw [hm]
    exact h
  · rw [hm]
    exact stored_newTrigger hmatch hcool hclock

theorem check_snooze (m : AccountMemory) (c : SignalCheck) :
    (next m (.signals c)).snoozeUntil = m.snoozeUntil := by
  rw [next]
  rcases checkReactivation_cases m c with hm | ⟨-, -, hm⟩ <;> rw [hm]

theorem check_unobjected {m : AccountMemory} (h : hardObjection m = false) (c : SignalCheck) :
    next m (.signals c) = m := by
  rw [next, checkReactivation]
  by_cases hm : matching c.newSignalTypes = []
  · rw [if_pos hm]
  · rw [if_neg hm, if_pos h]

theorem afterChecks_newTrigger {m : AccountMemory} {checks : List SignalCheck}
    (h : hasNewTrigger m = true) (hclock : ∀ c ∈ checks, c.comparedAt ≤ c.triggeredAt) :
    hasNewTrigger (afterChecks m checks) = true := by
  induction checks generalizing m with
  | nil => exact h
  | cons c checks ih =>
    have hc := check_newTrigger h (hclock c List.mem_cons_self)
    exact ih hc fun d hd => hclock d (List.mem_cons_of_mem c hd)

theorem afterChecks_snooze (m : AccountMemory) (checks : List SignalCheck) :
    (afterChecks m checks).snoozeUntil = m.snoozeUntil := by
  induction checks generalizing m with
  | nil => rfl
  | cons c checks ih => exact (ih (next m (.signals c))).trans (check_snooze m c)

theorem afterChecks_unobjected {m : AccountMemory} (h : hardObjection m = false)
    (checks : List SignalCheck) : afterChecks m checks = m := by
  induction checks with
  | nil => rfl
  | cons c checks ih =>
    rw [afterChecks, List.map_cons, runTrace, check_unobjected h]
    exact ih

theorem clockForward_check {events : List MemoryEvent} {c : SignalCheck}
    (h : ClockForward events) (hc : .signals c ∈ events) : c.comparedAt ≤ c.triggeredAt := by
  have hreadings := (List.pairwise_flatMap.1 h).1 (.signals c) hc
  simpa [MemoryEvent.readings] using hreadings

/-- The check reports a reactivation and leaves the memory alone, or it has stored a trigger. -/
theorem reported_cases {m : AccountMemory} {c : SignalCheck}
    (h : (checkReactivation m c).2.1 = true) (hclock : c.comparedAt ≤ c.triggeredAt) :
    matching c.newSignalTypes ≠ [] ∧
      (hardObjection m = false ∨ hasNewTrigger (next m (.signals c)) = true) := by
  rw [next]
  rw [checkReactivation] at h ⊢
  by_cases hm : matching c.newSignalTypes = []
  · simp [hm] at h
  · refine ⟨hm, ?_⟩
    by_cases hh : hardObjection m = false
    · exact Or.inl hh
    · by_cases hc : coolingDown m c.comparedAt = true
      · simp [hm, hh, hc] at h
      · have hcool := Bool.eq_false_iff.2 hc
        rw [if_neg hm, if_neg hh, if_neg hc]
        exact Or.inr (stored_newTrigger hm hcool hclock)

theorem contact_after_stored {m : AccountMemory} {c : SignalCheck} {later : List SignalCheck}
    {now : ℤ} (hs : isSnoozed m c.comparedAt = false) (hle : c.comparedAt ≤ now)
    (hstored : hasNewTrigger (next m (.signals c)) = true)
    (hclock : ∀ d ∈ later, d.comparedAt ≤ d.triggeredAt) :
    (shouldRecontact (afterChecks m (c :: later)) now).1 = true := by
  have hawake := isSnoozed_later hs (afterChecks_snooze m (c :: later)) hle
  have hnew : hasNewTrigger (afterChecks m (c :: later)) = true :=
    afterChecks_newTrigger (m := next m (.signals c)) hstored hclock
  exact shouldRecontact_iff.2 ⟨hawake, Or.inl hnew⟩

/-- A reported reactivation leads to a contact unless it is for an account that ran out of
attempts without a hard objection: there the trigger is not stored. -/
theorem leadsToContact_iff {m : AccountMemory} {c : SignalCheck}
    (hs : isSnoozed m c.comparedAt = false) (hclock : c.comparedAt ≤ c.triggeredAt) :
    LeadsToContact m c ↔
      matching c.newSignalTypes = [] ∨ hardObjection m = true ∨ ¬ AttemptsExhausted m := by
  constructor
  · intro hleads
    by_cases hm : matching c.newSignalTypes = []
    · exact Or.inl hm
    · cases hh : hardObjection m with
      | true => exact Or.inr (Or.inl rfl)
      | false =>
        have hreported : (checkReactivation m c).2.1 = true := by
          rw [checkReactivation, if_neg hm, if_pos hh]
        have hforward : ClockForward ([c].map .signals) := by
          simpa [ClockForward, MemoryEvent.readings] using hclock
        have hcontact := hleads hreported [] c.triggeredAt hforward
          (by simpa [MemoryEvent.readings] using hclock)
        rw [afterChecks_unobjected hh] at hcontact
        obtain ⟨-, hnew | ⟨-, hattempts⟩⟩ := shouldRecontact_iff.1 hcontact
        · exact Or.inr (Or.inr fun he => absurd hnew (Bool.eq_false_iff.1 he.2.2))
        · exact Or.inr (Or.inr hattempts)
  · intro hcond hreported later now hforward hpast
    obtain ⟨hm, hkind⟩ := reported_cases hreported hclock
    have hle : c.comparedAt ≤ now := hpast c.comparedAt (by simp [MemoryEvent.readings])
    have hlater : ∀ d ∈ later, d.comparedAt ≤ d.triggeredAt := fun d hd =>
      clockForward_check hforward
        (List.mem_map_of_mem (List.mem_cons_of_mem c hd))
    rcases hkind with hh | hstored
    · rw [afterChecks_unobjected hh]
      refine shouldRecontact_iff.2 ⟨isSnoozed_later hs rfl hle, ?_⟩
      rcases hcond with hnone | hhard | hattempts
      · exact absurd hnone hm
      · exact absurd hhard (Bool.eq_false_iff.1 hh)
      · exact Or.inr ⟨hh, hattempts⟩
    · exact contact_after_stored hs hle hstored hlater

def unanswered (attempts : ℤ) : AccountMemory where
  accountId := "acc-1"
  lastContacted := some 0
  lastOutcome := some "no_reply"
  contactCount := attempts

def fundingRound : SignalCheck := ⟨["funding_round"], days 60, days 60⟩

theorem second_attempt_leads : LeadsToContact (unanswered 1) fundingRound :=
  (leadsToContact_iff (by decide) (by decide)).2 (by decide)

/-- After the third attempt the reactivation is reported and nothing comes of it. -/
theorem third_attempt_leads_nowhere :
    isSnoozed (unanswered 3) fundingRound.comparedAt = false ∧
    ¬ LeadsToContact (unanswered 3) fundingRound := by
  refine ⟨by decide, fun hleads => ?_⟩
  have hcontact := hleads (by decide) [] (days 60) (by decide) (by decide)
  exact absurd hcontact (by decide)

/-! ### Hard objections -/

/-- No outcome comes after the one that the last reopening counts from. -/
theorem reopened_late {events : List MemoryEvent} {o : Outcome} (h : ClockForward events)
    (ho : .outcome o ∈ events) (hr : Reopened events) :
    ∃ t ∈ events.flatMap MemoryEvent.readings, o.contactedAt + days 90 ≤ t := by
  obtain ⟨before, latest, after, rfl, hlast, e, he, hopens⟩ := hr
  have hle : o.contactedAt ≤ latest.contactedAt := by
    rcases List.mem_append.1 ho with hbefore | hrest
    · rw [ClockForward, List.flatMap_append] at h
      refine (List.pairwise_append.1 h).2.2 o.contactedAt ?_ latest.contactedAt ?_
      · exact List.mem_flatMap.2 ⟨_, hbefore, by simp [MemoryEvent.readings]⟩
      · simp [MemoryEvent.readings]
    · rcases List.mem_cons.1 hrest with heq | hafter
      · cases heq
        exact Int.le_refl _
      · exact absurd hafter (hlast o)
  cases e with
  | outcome o' => exact absurd hopens id
  | signals c =>
    refine ⟨c.comparedAt, ?_, ?_⟩
    · refine List.mem_flatMap.2 ⟨.signals c, ?_, by simp [MemoryEvent.readings]⟩
      exact List.mem_append_right _ (List.mem_cons_of_mem _ he)
    · have hcool := hopens.2
      omega

/-- For ninety days after a hard objection the account is not contacted, whatever is recorded
and checked in that time. -/
theorem objection_rests {accountId : String} {events : List MemoryEvent} {o : Outcome}
    {tag : String} {now : ℤ} (h : ClockForward events) (ho : .outcome o ∈ events)
    (htag : tag ∈ o.objections) (hhard : tag ∈ hardTags)
    (hpast : ∀ t ∈ events.flatMap MemoryEvent.readings, t ≤ now)
    (hnow : now < o.contactedAt + days 90) :
    (shouldRecontact (run accountId events) now).1 = false := by
  by_contra hcontact
  rw [Bool.not_eq_false] at hcontact
  have hobjection := @recorded_hardObjection accountId tag events h ⟨o, ho, htag⟩ hhard
  have hreopened := new_trigger_reopened h ho (shouldRecontact_objection hcontact hobjection)
  obtain ⟨t, ht, hlate⟩ := reopened_late h ho hreopened
  have hle := hpast t ht
  omega

def objected : Outcome where
  outcome := "negative_reply"
  objections := ["not_interested"]
  contactedAt := days 100
  snoozedAt := days 100

/-- An earlier contact is long past and a signal is checked before the objection and after it. -/
theorem objection_rests_between_signals :
    (shouldRecontact (run "acc-1" [.outcome { objected with contactedAt := 0, snoozedAt := 0 },
      .signals fundingRound, .signals ⟨["funding_round"], days 95, days 95⟩, .outcome objected,
      .signals ⟨["soc2_announced"], days 189, days 189⟩]) (days 189)).1 = false :=
  objection_rests (o := objected) (by decide) (by decide)
    (by decide : "not_interested" ∈ objected.objections) (by decide) (by decide) (by decide)

end TrustCopilot.Reactivation
