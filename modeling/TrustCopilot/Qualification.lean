import TrustCopilot.TransitionLog

/-! Qualification before contact, over the audit histories that transition requests leave. The
snooze forgets which state it was entered from. -/
namespace TrustCopilot.Qualification

open TrustCopilot.OrderedDict
open TrustCopilot.Walks
open TrustCopilot.AccountStates
open TrustCopilot.TransitionLog

def contactStates : List AccountState :=
  [.contactable, .contacted, .replied, .intakeOpen, .uploaded, .fulfilled, .offerSent, .paid,
    .activated]

/-- The states that an account can be in without a qualification. -/
def unqualifiedStates : List AccountState :=
  [.rawSignal, .candidateAccount, .snoozed, .suppressed, .blocked]

/-- Every entry into a contact state comes after a qualification. -/
def QualifiedFirst (events : List AuditEvent) : Prop :=
  ∀ before e after, events = before ++ e :: after → e.newState ∈ contactStates →
    ∃ q ∈ before, q.newState = .qualifiedAccount

def WokenIntoContact (events : List AuditEvent) : Prop :=
  ∃ earlier snooze wake later, events = earlier ++ snooze :: wake :: later ∧
    snooze.oldState = .candidateAccount ∧ snooze.newState = .snoozed ∧
    wake.oldState = .snoozed ∧ wake.newState = .contactable ∧
    ∀ a ∈ earlier, a.newState ≠ .qualifiedAccount

/-- Every entry into a contact state comes after a qualification or, at the latest with that
entry, after such a wake. -/
def QualifiedOrWoken (events : List AuditEvent) : Prop :=
  ∀ before e after, events = before ++ e :: after → e.newState ∈ contactStates →
    (∃ q ∈ before, q.newState = .qualifiedAccount) ∨ WokenIntoContact (before ++ [e])

theorem exit_cases {s t : AccountState} (hs : s ∈ unqualifiedStates)
    (ht : t ∉ unqualifiedStates) (hc : canTransition s t = true) :
    t = .qualifiedAccount ∨ (s = .snoozed ∧ t = .contactable) := by
  revert hs ht hc
  cases s <;> cases t <;> decide

theorem snoozed_from {s : AccountState} (hs : s ∈ unqualifiedStates)
    (hc : canTransition s .snoozed = true) : s = .candidateAccount := by
  revert hs hc
  cases s <;> decide

theorem contact_not_unqualified {s : AccountState} (h : s ∈ contactStates) :
    s ∉ unqualifiedStates ∧ s ≠ .qualifiedAccount := by
  revert h
  cases s <;> decide

/-- A walk of the table from RAW_SIGNAL into a contact state went through a qualification, or
through a wake from the snooze of a candidate. -/
theorem contact_walk {events : List AuditEvent} {s : AccountState}
    (hwalk : Walk AuditEvent.oldState AuditEvent.newState .rawSignal events s)
    (hlinks : ∀ a ∈ events, canTransition a.oldState a.newState = true)
    (hs : s ∈ contactStates) :
    (∃ q ∈ events, q.newState = .qualifiedAccount) ∨ WokenIntoContact events := by
  obtain ⟨before, e, after, rfl, hin, hout, hbefore⟩ :=
    first_exit (S := fun s => s ∈ unqualifiedStates) hwalk (by decide)
      (contact_not_unqualified hs).1
  rcases exit_cases hin hout (hlinks e (by simp)) with hq | ⟨hold, hnew⟩
  · exact Or.inl ⟨e, by simp, hq⟩
  · -- the link out is a wake, and the link before it is the snooze
    have hto : Walk AuditEvent.oldState AuditEvent.newState .rawSignal before .snoozed :=
      hold ▸ (walk_middle.1 hwalk).1
    obtain ⟨earlier, snooze, rfl, hsnooze⟩ := walk_last hto (by decide)
    have hfrom : snooze.oldState = .candidateAccount := by
      apply snoozed_from (hbefore snooze (by simp)).1
      rw [← hsnooze]
      exact hlinks snooze (by simp)
    refine Or.inr ⟨earlier, snooze, e, after, by simp, hfrom, hsnooze, hold, hnew, ?_⟩
    intro a ha hqual
    have hstay := (hbefore a (List.mem_append_left _ ha)).2
    rw [hqual] at hstay
    revert hstay
    decide

/-- No run takes a new account round qualification except through a candidate's snooze. -/
theorem contact_after_qualification_or_wake {accounts : AccountTable} {accountId : String}
    {row : Account} (hrow : accounts.get? accountId = some row) (hnew : row.state = .rawSignal)
    (requests : List Request) :
    QualifiedOrWoken ((run accounts requests).eventsOf accountId) := by
  intro before e after hevents hcontact
  have hlog := logFaithful_run accounts requests
  obtain ⟨acc, -, hstory⟩ := hlog.accounted accountId row hrow
  have hwalk := hstory.chain
  rw [hevents, hnew, walk_middle] at hwalk
  have hlinks : ∀ a ∈ before ++ [e], canTransition a.oldState a.newState = true := by
    intro a ha
    have hin : a ∈ (run accounts requests).eventsOf accountId := by
      rw [hevents]
      simp only [List.mem_append, List.mem_cons] at ha ⊢
      tauto
    exact hlog.links a (List.mem_filter.1 hin).1
  rcases contact_walk (walk_concat.2 ⟨hwalk.1, rfl⟩) hlinks hcontact with ⟨q, hq, hqual⟩ | hwoken
  · rcases List.mem_append.1 hq with hq | hq
    · exact Or.inl ⟨q, hq, hqual⟩
    · cases List.mem_singleton.1 hq
      exact absurd hqual (contact_not_unqualified hcontact).2
  · exact Or.inr hwoken

def newAccounts : AccountTable := Table.empty.save ⟨"acc-1", .rawSignal, 0, 1⟩

def requestsTo (targets : List AccountState) : List Request :=
  targets.map fun t => ("acc-1", { targetState := t, now := 1 })

theorem happy_path_qualified_or_woken :
    QualifiedOrWoken ((run newAccounts (requestsTo
      [.candidateAccount, .qualifiedAccount, .contactable, .contacted])).eventsOf "acc-1") :=
  have hrow : newAccounts.get? "acc-1" = some ⟨"acc-1", .rawSignal, 0, 1⟩ := by decide
  contact_after_qualification_or_wake hrow rfl _

/-- A candidate that is snoozed and woken comes to CONTACTABLE without a qualification. -/
theorem snooze_skips_qualification :
    ((run newAccounts (requestsTo [.candidateAccount, .snoozed, .contactable])).eventsOf
      "acc-1").map AuditEvent.newState = [.candidateAccount, .snoozed, .contactable] ∧
    ¬ QualifiedFirst ((run newAccounts (requestsTo
      [.candidateAccount, .snoozed, .contactable])).eventsOf "acc-1") := by
  refine ⟨by decide, fun h => ?_⟩
  obtain ⟨q, hq, hqual⟩ := h [_, _] _ [] rfl (by decide)
  revert q
  decide

end TrustCopilot.Qualification
