import TrustCopilot.Mailboxes

/-! Pausing and resuming. A pause overwrites the status of a mailbox, and a resume makes it
active whatever it was before, so only the callers keep a mailbox that was never active out
of the allocations. -/
namespace TrustCopilot.MailboxResumes

open TrustCopilot.FirstFit
open TrustCopilot.Mailboxes
open TrustCopilot.OrderedDict
open TrustCopilot.Trace

inductive PoolCall where
  | allocate (recipients : List String) (dryRun : Bool)
  | pauseMailbox (mailboxId : String)
  | resumeMailbox (mailboxId : String)
  deriving DecidableEq, Repr

def next (o : MailboxOrchestrator) : PoolCall → MailboxOrchestrator
  | .allocate recipients dryRun => (allocate o recipients dryRun).1
  | .pauseMailbox mailboxId => (pauseMailbox o mailboxId).1
  | .resumeMailbox mailboxId => (resumeMailbox o mailboxId).1

def allocated (o : MailboxOrchestrator) : PoolCall → List SendAllocation
  | .allocate recipients dryRun => (allocate o recipients dryRun).2.allocated
  | _ => []

def run (mailboxes : List Mailbox) (calls : List PoolCall) : MailboxOrchestrator :=
  runTrace next (MailboxOrchestrator.new mailboxes) calls

def statusOf (o : MailboxOrchestrator) (id : String) : Option MailboxStatus :=
  (o.get? id).map Mailbox.status

def UnfitNeverUsed (mailboxes : List Mailbox) (calls : List PoolCall) : Prop :=
  ∀ id, statusOf (MailboxOrchestrator.new mailboxes) id = some .warming ∨
      statusOf (MailboxOrchestrator.new mailboxes) id = some .unhealthy →
    ∀ a ∈ emitted allocated next (MailboxOrchestrator.new mailboxes) calls, a.mailboxId ≠ id

def HadStatus (mailboxes : List Mailbox) (calls : List PoolCall) (id : String)
    (status : MailboxStatus) : Prop :=
  ∃ xs, xs <+: calls ∧ statusOf (run mailboxes xs) id = some status

/-- After a pause and a resume the mailbox has a status that it had before the pause. -/
def ResumesRestore (mailboxes : List Mailbox) (calls : List PoolCall) : Prop :=
  ∀ before during id, before ++ .pauseMailbox id :: during ++ [.resumeMailbox id] <+: calls →
    ∀ status, statusOf (run mailboxes
        (before ++ .pauseMailbox id :: during ++ [.resumeMailbox id])) id = some status →
      HadStatus mailboxes before id status

/-- A mailbox that has been active before, or one built paused that nobody paused since. -/
def Resumable (mailboxes : List Mailbox) (calls : List PoolCall) (id : String) : Prop :=
  statusOf (run mailboxes calls) id = none ∨ HadStatus mailboxes calls id .active ∨
    statusOf (MailboxOrchestrator.new mailboxes) id = some .paused ∧
      .pauseMailbox id ∉ calls

def ResumesResumable (mailboxes : List Mailbox) (calls : List PoolCall) : Prop :=
  ∀ before id, before ++ [.resumeMailbox id] <+: calls → Resumable mailboxes before id

instance (mailboxes : List Mailbox) (calls : List PoolCall) (id : String)
    (status : MailboxStatus) : Decidable (HadStatus mailboxes calls id status) :=
  decidable_of_iff
    (∃ xs ∈ calls.inits, statusOf (run mailboxes xs) id = some status)
    (by simp only [HadStatus, List.mem_inits])

instance (mailboxes : List Mailbox) (calls : List PoolCall) (id : String) :
    Decidable (Resumable mailboxes calls id) := inferInstanceAs (Decidable (_ ∨ _ ∨ _))

/-! ### What one call does to a status -/

variable {o : MailboxOrchestrator} {id : String}

theorem statusOf_save {m old : Mailbox} (hold : o.get? m.id = some old)
    (hs : m.status = old.status) : statusOf (o.save m) id = statusOf o id := by
  rw [statusOf, statusOf, Table.get?_save]
  by_cases hid : id = m.id
  · rw [if_pos hid, hid, hold, Option.map_some, Option.map_some, hs]
  · rw [if_neg hid]

theorem statusOf_count (dryRun : Bool) (o : MailboxOrchestrator) (mailbox : Mailbox)
    (recipient : String) : statusOf (count dryRun o mailbox recipient) id = statusOf o id := by
  cases dryRun with
  | true => rfl
  | false =>
    cases hm : o.get? mailbox.id with
    | none => simp only [count, hm]
    | some m =>
      have hid : m.id = mailbox.id := Table.key_of_get? hm
      have hget : o.get? (counted 1 m).id = some m := by rw [counted_id, hid, hm]
      simp only [count, hm]
      exact statusOf_save hget rfl

theorem allocate_spec (o : MailboxOrchestrator) (recipients : List String) (dryRun : Bool) :
    (∀ id, statusOf (allocate o recipients dryRun).1 id = statusOf o id) ∧
    ∀ a ∈ (allocate o recipients dryRun).2.allocated,
      ∃ m ∈ getAvailable o, m.id = a.mailboxId := by
  have hplaced := @firstFit_invariant _ _ _ takes (count dryRun) (getAvailable o) o
    (fun placed st => (∀ id, statusOf st id = statusOf o id) ∧
      ∀ a ∈ placed, a.1 ∈ getAvailable o)
    ⟨fun _ => rfl, fun _ ha => absurd ha List.not_mem_nil⟩
    (by
      rintro placed st m recipient ⟨hstatus, hin⟩ hm -
      refine ⟨fun id => (statusOf_count dryRun st m recipient).trans (hstatus id), ?_⟩
      intro a ha
      rcases List.mem_append.1 ha with ha | ha
      · exact hin a ha
      · rw [List.mem_singleton.1 ha]
        exact hm) recipients
  cases havailable : getAvailable o with
  | nil =>
    rw [allocate, havailable]
    exact ⟨fun _ => rfl, fun _ ha => absurd ha List.not_mem_nil⟩
  | cons first rest =>
    rw [havailable] at hplaced
    obtain ⟨hstatus, hin⟩ := hplaced
    rw [allocate, havailable]
    refine ⟨hstatus, fun a ha => ?_⟩
    obtain ⟨b, hb, rfl⟩ := List.mem_map.1 ha
    exact ⟨b.1, hin b hb, rfl⟩

theorem statusOf_setStatus (o : MailboxOrchestrator) (mailboxId : String)
    (status : MailboxStatus) : statusOf (setStatus o mailboxId status).1 id =
      if id = mailboxId then (statusOf o id).map fun _ => status else statusOf o id := by
  rw [setStatus]
  split
  · next m hm =>
    have hkey : m.id = mailboxId := Table.key_of_get? hm
    rw [statusOf, statusOf, Table.get?_save, ← hkey]
    by_cases hid : id = m.id
    · rw [hid, hkey, hm]
      simp
    · rw [if_neg hid, if_neg hid]
  · next hm =>
    by_cases hid : id = mailboxId
    · rw [if_pos hid, statusOf, hid, hm]
      rfl
    · rw [if_neg hid]

theorem statusOf_next_other {c : PoolCall} (hp : c ≠ .pauseMailbox id)
    (hr : c ≠ .resumeMailbox id) : statusOf (next o c) id = statusOf o id := by
  cases c with
  | allocate recipients dryRun => exact (allocate_spec o recipients dryRun).1 id
  | pauseMailbox mailboxId =>
    have hne : id ≠ mailboxId := by rintro rfl; exact hp rfl
    exact (statusOf_setStatus o mailboxId .paused).trans (if_neg hne)
  | resumeMailbox mailboxId =>
    have hne : id ≠ mailboxId := by rintro rfl; exact hr rfl
    exact (statusOf_setStatus o mailboxId .active).trans (if_neg hne)

theorem statusOf_pause : statusOf (next o (.pauseMailbox id)) id =
    (statusOf o id).map fun _ => .paused :=
  (statusOf_setStatus o id .paused).trans (if_pos rfl)

theorem statusOf_resume : statusOf (next o (.resumeMailbox id)) id =
    (statusOf o id).map fun _ => .active :=
  (statusOf_setStatus o id .active).trans (if_pos rfl)

/-- Only a resume makes a mailbox active that was not active before. -/
theorem active_next {c : PoolCall} (h : statusOf (next o c) id = some .active) :
    statusOf o id = some .active ∨ c = .resumeMailbox id ∧ statusOf o id ≠ none := by
  by_cases hr : c = .resumeMailbox id
  · subst hr
    rw [statusOf_resume] at h
    refine Or.inr ⟨rfl, fun hnone => ?_⟩
    rw [hnone] at h
    cases h
  · by_cases hp : c = .pauseMailbox id
    · subst hp
      rw [statusOf_pause] at h
      obtain ⟨status, -, hs⟩ := Option.map_eq_some_iff.1 h
      cases hs
    · rw [statusOf_next_other hp hr] at h
      exact Or.inl h

/-! ### Whole runs -/

variable {mailboxes : List Mailbox} {calls : List PoolCall}

theorem resumesResumable_earlier {xs : List PoolCall} (h : ResumesResumable mailboxes calls)
    (hp : xs <+: calls) : ResumesResumable mailboxes xs :=
  fun before id hb => h before id (hb.trans hp)

theorem resumesResumable_concat {c : PoolCall} (h : ResumesResumable mailboxes calls)
    (hc : ∀ id, c = .resumeMailbox id → Resumable mailboxes calls id) :
    ResumesResumable mailboxes (calls ++ [c]) := by
  intro before id hp
  rcases prefix_concat_cases hp with hp | hp
  · exact h before id hp
  · obtain ⟨rfl, he⟩ := List.append_inj' hp rfl
    exact hc id (List.singleton_inj.1 he).symm

theorem hadStatus_concat {c : PoolCall} {status : MailboxStatus}
    (h : HadStatus mailboxes (calls ++ [c]) id status) :
    HadStatus mailboxes calls id status ∨
      statusOf (next (run mailboxes calls) c) id = some status := by
  obtain ⟨xs, hp, hs⟩ := h
  rcases prefix_concat_cases hp with hp | rfl
  · exact Or.inl ⟨xs, hp, hs⟩
  · rw [run, runTrace_concat] at hs
    exact Or.inr hs

theorem hadStatus_now {status : MailboxStatus}
    (h : statusOf (run mailboxes calls) id = some status) :
    HadStatus mailboxes calls id status := ⟨calls, List.prefix_rfl, h⟩

theorem never_active (h : ResumesResumable mailboxes calls)
    (hid : statusOf (MailboxOrchestrator.new mailboxes) id = some .warming ∨
      statusOf (MailboxOrchestrator.new mailboxes) id = some .unhealthy) :
    ¬ HadStatus mailboxes calls id .active := by
  induction calls using List.reverseRecOn with
  | nil =>
    rintro ⟨xs, hp, hs⟩
    rw [List.prefix_nil.1 hp] at hs
    rcases hid with hid | hid
    · cases hid.symm.trans hs
    · cases hid.symm.trans hs
  | append_singleton calls c ih =>
    have hnever := ih (resumesResumable_earlier h (List.prefix_append calls [c]))
    intro hactive
    rcases hadStatus_concat hactive with hactive | hactive
    · exact hnever hactive
    · rcases active_next hactive with hnow | ⟨rfl, hknown⟩
      · exact hnever (hadStatus_now hnow)
      · rcases h calls id List.prefix_rfl with hr | hr | ⟨hr, -⟩
        · exact hknown hr
        · exact hnever hr
        · rcases hid with hid | hid
          · cases hid.symm.trans hr
          · cases hid.symm.trans hr

/-- A mailbox that is active at some moment after a pause was active before it. -/
theorem active_before_pause {before during : List PoolCall}
    (h : ResumesResumable mailboxes (before ++ .pauseMailbox id :: during))
    (hactive : HadStatus mailboxes (before ++ .pauseMailbox id :: during) id .active) :
    HadStatus mailboxes before id .active := by
  induction during using List.reverseRecOn with
  | nil =>
    rcases hadStatus_concat hactive with hactive | hactive
    · exact hactive
    · rw [statusOf_pause] at hactive
      obtain ⟨status, -, hs⟩ := Option.map_eq_some_iff.1 hactive
      cases hs
  | append_singleton during c ih =>
    rw [← List.cons_append, ← List.append_assoc] at h hactive
    have hstart := ih (resumesResumable_earlier h (List.prefix_append _ [c]))
    rcases hadStatus_concat hactive with hactive | hactive
    · exact hstart hactive
    · rcases active_next hactive with hnow | ⟨rfl, hknown⟩
      · exact hstart (hadStatus_now hnow)
      · rcases h _ id List.prefix_rfl with hr | hr | ⟨-, hr⟩
        · exact absurd hr hknown
        · exact hstart hr
        · exact absurd (List.mem_append_right before List.mem_cons_self) hr

theorem unfit_never_used (h : ResumesResumable mailboxes calls) :
    UnfitNeverUsed mailboxes calls := by
  rintro id hid a ha rfl
  obtain ⟨xs, c, hp, hin⟩ := mem_emitted ha
  cases c with
  | allocate recipients dryRun =>
    obtain ⟨m, hm, hsender⟩ := (allocate_spec (run mailboxes xs) recipients dryRun).2 a hin
    obtain ⟨hget, hsend⟩ := mem_getAvailable.1 hm
    simp only [canSend, Bool.and_eq_true, decide_eq_true_eq] at hsend
    have hactive : statusOf (run mailboxes xs) a.mailboxId = some .active := by
      rw [statusOf, ← hsender, hget, Option.map_some, hsend.1.1.1.1]
    have hxs := (List.prefix_append xs [.allocate recipients dryRun]).trans hp
    exact never_active (resumesResumable_earlier h hxs) hid (hadStatus_now hactive)
  | pauseMailbox mailboxId => cases hin
  | resumeMailbox mailboxId => cases hin

theorem resumes_restore (h : ResumesResumable mailboxes calls) :
    ResumesRestore mailboxes calls := by
  intro before during id hp status hs
  have hresumed := h _ id hp
  have hearlier := (List.prefix_append (before ++ .pauseMailbox id :: during)
    [.resumeMailbox id]).trans hp
  rw [run, runTrace_concat, statusOf_resume] at hs
  obtain ⟨old, hold, rfl⟩ := Option.map_eq_some_iff.1 hs
  have hold : statusOf (run mailboxes (before ++ .pauseMailbox id :: during)) id = some old := hold
  apply active_before_pause (resumesResumable_earlier h hearlier)
  rcases hresumed with hr | hr | ⟨-, hr⟩
  · rw [hold] at hr
    cases hr
  · exact hr
  · exact absurd (List.mem_append_right before List.mem_cons_self) hr

/-- While only resumable mailboxes are resumed, the unfit ones stay out of every allocation
and no pause ends in a promotion. -/
theorem resumes_never_promote (h : ResumesResumable mailboxes calls) :
    UnfitNeverUsed mailboxes calls ∧ ResumesRestore mailboxes calls :=
  ⟨unfit_never_used h, resumes_restore h⟩

def warmingPool : List Mailbox :=
  [{ id := "mb-1", email := "send@myco.com", status := .warming },
    { id := "mb-2", email := "send@myco.com" }]

theorem active_pool_never_promoted :
    UnfitNeverUsed warmingPool [.pauseMailbox "mb-2", .resumeMailbox "mb-2"] ∧
    ResumesRestore warmingPool [.pauseMailbox "mb-2", .resumeMailbox "mb-2"] := by
  have hpaused : ResumesResumable warmingPool [.pauseMailbox "mb-2"] :=
    @resumesResumable_concat _ [] _
      (fun _ _ hp => absurd (List.prefix_nil.1 hp) (by simp)) nofun
  refine resumes_never_promote (resumesResumable_concat hpaused fun id hid => ?_)
  cases hid
  exact Or.inr (Or.inl ⟨[], List.nil_prefix, by decide +kernel⟩)

def promoted : List PoolCall :=
  [.pauseMailbox "mb-1", .resumeMailbox "mb-1", .allocate ["alice@acme.com"] false]

theorem warming_promoted :
    (emitted allocated next (MailboxOrchestrator.new warmingPool) promoted).map
      SendAllocation.mailboxId = ["mb-1"] ∧
    ¬ UnfitNeverUsed warmingPool promoted ∧ ¬ ResumesRestore warmingPool promoted := by
  have hgiven : (emitted allocated next (MailboxOrchestrator.new warmingPool) promoted).map
      SendAllocation.mailboxId = ["mb-1"] := by decide +kernel
  refine ⟨hgiven, fun h => ?_, fun h => ?_⟩
  · have hin : "mb-1" ∈ (emitted allocated next (MailboxOrchestrator.new warmingPool)
        promoted).map SendAllocation.mailboxId := by rw [hgiven]; exact List.mem_singleton_self _
    obtain ⟨a, ha, hid⟩ := List.mem_map.1 hin
    exact h "mb-1" (Or.inl (by decide +kernel)) a ha hid
  · have hactive := h [] [] "mb-1" ⟨[.allocate ["alice@acme.com"] false], rfl⟩ .active
      (by decide +kernel)
    exact absurd hactive (by decide +kernel)

end TrustCopilot.MailboxResumes
