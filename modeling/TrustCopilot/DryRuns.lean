import TrustCopilot.Mailboxes

/-! Planning an allocation without counting it. A dry run reads the counters of the pool but
never moves them, so every recipient is weighed against the pool as it stood at the start. -/
namespace TrustCopilot.DryRuns

open TrustCopilot.Mailboxes
open TrustCopilot.OrderedDict
open TrustCopilot.FirstFit

def pairs (r : AllocationResult) : List (String × String) :=
  r.allocated.map fun a => (a.mailboxId, a.recipientEmail)

structure PlanAgrees (o : MailboxOrchestrator) (recipients : List String) : Prop where
  pairs : pairs (allocate o recipients true).2 = pairs (allocate o recipients false).2
  unallocated : (allocate o recipients true).2.unallocated =
    (allocate o recipients false).2.unallocated
  unchanged : (allocate o recipients true).1 = o

/-- The first available mailbox outside the recipient's domain, as the pool stands now. -/
def firstChoice (o : MailboxOrchestrator) (recipient : String) : Option Mailbox :=
  (getAvailable o).find? fun m => !decide (addressDomain recipient = addressDomain m.email)

def wanted (o : MailboxOrchestrator) (m : Mailbox) (recipients : List String) : ℕ :=
  recipients.countP fun recipient => firstChoice o recipient = some m

/-- Every available mailbox can take all the recipients that want it first. -/
def FirstChoicesFit (o : MailboxOrchestrator) (recipients : List String) : Prop :=
  ∀ m ∈ getAvailable o, m.sentToday + wanted o m recipients ≤ m.dailyCap ∧
    m.sentThisHour + wanted o m recipients ≤ m.hourlyCap

def dryPlacements (o : MailboxOrchestrator) (recipients : List String) :
    Placement MailboxOrchestrator Mailbox String :=
  firstFit takes (count true) (getAvailable o) o recipients

variable {o : MailboxOrchestrator} {recipients : List String}

theorem pairs_allocated {r : AllocationResult} {placed : List (Mailbox × String)} {dryRun : Bool}
    (h : r.allocated = placed.map fun a => { sendAllocation a with dryRun := dryRun }) :
    pairs r = placed.map fun a => (a.1.id, a.2) := by
  rw [pairs, h, List.map_map]
  rfl

theorem allocate_dry (o : MailboxOrchestrator) (recipients : List String) :
    (allocate o recipients true).1 = (dryPlacements o recipients).state ∧
    pairs (allocate o recipients true).2 =
      (dryPlacements o recipients).placed.map (fun a => (a.1.id, a.2)) ∧
    (allocate o recipients true).2.unallocated = (dryPlacements o recipients).left := by
  obtain ⟨hstate, hallocated, hleft⟩ := allocate_firstFit o recipients true
  exact ⟨hstate, pairs_allocated hallocated, hleft⟩

theorem pairs_real (o : MailboxOrchestrator) (recipients : List String) :
    pairs (allocate o recipients false).2 =
      (placements o recipients).placed.map fun a => (a.1.id, a.2) :=
  pairs_allocated (allocate_firstFit o recipients false).2.1

theorem count_dry (st : MailboxOrchestrator) (m : Mailbox) (recipient : String) :
    count true st m recipient = st := rfl

theorem dryPlacements_state (o : MailboxOrchestrator) (recipients : List String) :
    (dryPlacements o recipients).state = o :=
  firstFit_invariant (R := fun _ st => st = o) rfl
    (fun _ _ m r h _ _ => (count_dry _ m r).trans h) recipients

theorem firstChoice_spec {recipient : String} {m : Mailbox}
    (h : firstChoice o recipient = some m) :
    m ∈ getAvailable o ∧ addressDomain recipient ≠ addressDomain m.email := by
  have hdomain := List.find?_some h
  refine ⟨List.mem_of_find?_eq_some h, ?_⟩
  simpa using hdomain

theorem find?_takes_counted {st : MailboxOrchestrator} {placed : List (Mailbox × String)}
    {recipient : String} (hacc : Accounted o placed st)
    (hroom : ∀ m, firstChoice o recipient = some m →
      m.sentToday + timesPlaced m.id placed < m.dailyCap ∧
        m.sentThisHour + timesPlaced m.id placed < m.hourlyCap) :
    ((getAvailable o).find? fun m => takes st m recipient) = firstChoice o recipient := by
  have htakes : ∀ m ∈ getAvailable o, takes st m recipient = true →
      addressDomain recipient ≠ addressDomain m.email := by
    intro m hm h
    obtain ⟨m', hget, -, -, hdomain⟩ := takes_iff.1 h
    rw [hacc.pool, (mem_getAvailable.1 hm).1] at hget
    cases hget
    exact hdomain
  cases hchoice : firstChoice o recipient with
  | none =>
    rw [List.find?_eq_none]
    intro m hm h
    have hnone := List.find?_eq_none.1 hchoice m hm
    simp [htakes m hm h] at hnone
  | some m =>
    obtain ⟨hm, hdomain⟩ := firstChoice_spec hchoice
    obtain ⟨-, before, after, hlist, hbefore⟩ := List.find?_eq_some_iff_append.1 hchoice
    refine List.find?_eq_some_iff_append.2 ⟨?_, before, after, hlist, ?_⟩
    · obtain ⟨hday, hhour⟩ := hroom m hchoice
      refine takes_iff.2 ⟨counted (timesPlaced m.id placed) m, ?_, hday, hhour, hdomain⟩
      rw [hacc.pool, (mem_getAvailable.1 hm).1]
      rfl
    · intro m' hm'
      have hin : m' ∈ getAvailable o := by
        rw [hlist]
        exact List.mem_append_left _ hm'
      cases h : takes st m' recipient with
      | false => rfl
      | true =>
        have := hbefore m' hm'
        simp [htakes m' hin h] at this

theorem find?_takes_start (o : MailboxOrchestrator) (recipient : String) :
    ((getAvailable o).find? fun m => takes o m recipient) = firstChoice o recipient := by
  apply find?_takes_counted (accounted_start o)
  intro m hchoice
  obtain ⟨-, hsend⟩ := mem_getAvailable.1 (firstChoice_spec hchoice).1
  simp only [canSend, Bool.and_eq_true, decide_eq_true_eq] at hsend
  simp only [timesPlaced, List.countP_nil]
  omega

theorem wanted_concat (o : MailboxOrchestrator) (m : Mailbox) (recipients : List String)
    (recipient : String) : wanted o m (recipients ++ [recipient]) =
      wanted o m recipients + if firstChoice o recipient = some m then 1 else 0 := by
  rw [wanted, List.countP_append, List.countP_singleton]
  simp [wanted]

theorem wanted_mono {m : Mailbox} {xs : List String} (h : xs <+: recipients) :
    wanted o m xs ≤ wanted o m recipients := h.sublist.countP_le

theorem timesPlaced_dry {m : Mailbox} (hm : m ∈ getAvailable o) (recipients : List String) :
    timesPlaced m.id (dryPlacements o recipients).placed = wanted o m recipients := by
  induction recipients using List.reverseRecOn with
  | nil => rfl
  | append_singleton recipients recipient ih =>
    have hstate := dryPlacements_state o recipients
    rw [dryPlacements, firstFit_concat, ← dryPlacements, place, hstate, find?_takes_start,
      wanted_concat]
    cases hchoice : firstChoice o recipient with
    | none => simpa using ih
    | some m' =>
      have hm' := (firstChoice_spec hchoice).1
      have hsame : m.id = m'.id ↔ m' = m := by
        constructor
        · intro hid
          have hget := (mem_getAvailable.1 hm).1
          rw [hid, (mem_getAvailable.1 hm').1] at hget
          exact Option.some.inj hget
        · intro h
          rw [h]
      simp only [timesPlaced_concat, ih, hsame, Option.some.injEq]

theorem placements_agree (hfit : FirstChoicesFit o recipients) :
    (placements o recipients).placed = (dryPlacements o recipients).placed ∧
      (placements o recipients).left = (dryPlacements o recipients).left := by
  apply firstFit_agrees
  intro xs recipient hprefix hplaced
  have hdry : (firstFit takes (count true) (getAvailable o) o xs).state = o :=
    dryPlacements_state o xs
  rw [hdry, find?_takes_start]
  refine find?_takes_counted (placements_accounted o xs) ?_
  intro m hchoice
  have hm := (firstChoice_spec hchoice).1
  have htimes : timesPlaced m.id (placements o xs).placed = wanted o m xs :=
    (congrArg (timesPlaced m.id) hplaced).trans (timesPlaced_dry hm xs)
  have hnext : wanted o m xs + 1 ≤ wanted o m recipients := by
    have := wanted_mono (o := o) (m := m) hprefix
    rwa [wanted_concat, if_pos hchoice] at this
  have hcaps := hfit m hm
  rw [htimes]
  constructor <;> omega

theorem firstChoicesFit_of_pairs
    (h : pairs (allocate o recipients true).2 = pairs (allocate o recipients false).2) :
    FirstChoicesFit o recipients := by
  intro m hm
  obtain ⟨hget, hsend⟩ := mem_getAvailable.1 hm
  rw [(allocate_dry o recipients).2.1, pairs_real] at h
  have htimes : timesPlaced m.id (placements o recipients).placed = wanted o m recipients := by
    have hcount := congrArg (List.countP fun a => decide (a.1 = m.id)) h
    rw [List.countP_map, List.countP_map] at hcount
    exact hcount.symm.trans (timesPlaced_dry hm recipients)
  have hcaps := (placements_accounted o recipients).caps m.id m hget
  simp only [canSend, Bool.and_eq_true, decide_eq_true_eq] at hsend
  rw [htimes] at hcaps
  omega

/-- A dry run shows the real allocation exactly when no mailbox is the first choice of more
recipients than its caps leave room for. -/
theorem plan_agrees_iff (o : MailboxOrchestrator) (recipients : List String) :
    PlanAgrees o recipients ↔ FirstChoicesFit o recipients := by
  constructor
  · intro h
    exact firstChoicesFit_of_pairs h.pairs
  · intro hfit
    obtain ⟨hstate, hpairs, hleft⟩ := allocate_dry o recipients
    obtain ⟨hplaced, hsame⟩ := placements_agree hfit
    constructor
    · rw [hpairs, pairs_real, hplaced]
    · rw [hleft, (allocate_eq o recipients).2.2, hsame]
    · rw [hstate, dryPlacements_state]

def smallPool : MailboxOrchestrator :=
  MailboxOrchestrator.new [{ id := "mb-1", email := "send@myco.com", dailyCap := 1 }]

/-- The dry run promises the second recipient a mailbox that is full by then. -/
theorem small_pool_overplanned :
    pairs (allocate smallPool ["alice@acme.com", "bob@co.com"] true).2 =
      [("mb-1", "alice@acme.com"), ("mb-1", "bob@co.com")] ∧
    pairs (allocate smallPool ["alice@acme.com", "bob@co.com"] false).2 =
      [("mb-1", "alice@acme.com")] ∧
    ¬ PlanAgrees smallPool ["alice@acme.com", "bob@co.com"] := by
  have hdry : pairs (allocate smallPool ["alice@acme.com", "bob@co.com"] true).2 =
      [("mb-1", "alice@acme.com"), ("mb-1", "bob@co.com")] := by decide +kernel
  have hreal : pairs (allocate smallPool ["alice@acme.com", "bob@co.com"] false).2 =
      [("mb-1", "alice@acme.com")] := by decide +kernel
  refine ⟨hdry, hreal, fun h => ?_⟩
  have := h.pairs
  rw [hdry, hreal] at this
  cases this

end TrustCopilot.DryRuns
