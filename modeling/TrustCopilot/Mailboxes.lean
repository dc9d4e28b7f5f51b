import TrustCopilot.Library.FirstFit
import TrustCopilot.Library.OrderedDict
import TrustCopilot.Library.PyText
import TrustCopilot.Library.Trace
import Mathlib.Data.List.Sort
import Mathlib.Data.Rat.Defs
import Mathlib.Algebra.Order.Field.Rat

/-! The mailbox orchestrator: a pool of mailboxes with daily and hourly caps, and the greedy
allocation of recipients to them. Health scores are exact rationals. -/
namespace TrustCopilot.Mailboxes

open TrustCopilot.OrderedDict
open TrustCopilot.PyText
open TrustCopilot.Trace
open TrustCopilot.FirstFit

inductive MailboxStatus where
  | active
  | paused
  | warming
  | unhealthy
  deriving DecidableEq, Repr

structure Mailbox where
  id : String
  email : String
  status : MailboxStatus := .active
  healthScore : ℚ := 1
  dailyCap : ℤ := 50
  hourlyCap : ℤ := 10
  sentToday : ℤ := 0
  sentThisHour : ℤ := 0
  spfOk : Bool := true
  dkimOk : Bool := true
  dmarcOk : Bool := true
  tlsOk : Bool := true
  deriving DecidableEq, Repr

def dnsReady (m : Mailbox) : Bool := m.spfOk && m.dkimOk && m.dmarcOk && m.tlsOk

def canSend (m : Mailbox) : Bool :=
  m.status = .active && decide (m.healthScore ≥ 1 / 2) && decide (m.sentToday < m.dailyCap) &&
    decide (m.sentThisHour < m.hourlyCap) && dnsReady m

structure SendAllocation where
  mailboxId : String
  mailboxEmail : String
  recipientEmail : String
  dryRun : Bool := false
  deriving DecidableEq, Repr

structure AllocationResult where
  allocated : List SendAllocation := []
  unallocated : List String := []
  reason : String := ""
  deriving DecidableEq, Repr

/-- The pool. The mailboxes are shared objects, looked up by their ids. -/
abbrev MailboxOrchestrator := Table Mailbox.id

def MailboxOrchestrator.new (mailboxes : List Mailbox) : MailboxOrchestrator :=
  mailboxes.foldl Table.save Table.empty

def Before (a b : Mailbox) : Prop :=
  -a.healthScore < -b.healthScore ∨
    (-a.healthScore = -b.healthScore ∧ a.sentToday ≤ b.sentToday)

instance : DecidableRel Before := fun _ _ => inferInstanceAs (Decidable (_ ∨ _))

def getAvailable (o : MailboxOrchestrator) : List Mailbox :=
  (o.values.filter canSend).insertionSort Before

/-- `address.split("@")[1] if "@" in address else ""` -/
def addressDomain (address : String) : String :=
  if '@' ∈ address.toList then (split address '@')[1]?.getD "" else ""

/-- The test of the inner loop, on the mailbox as it is now. -/
def takes (o : MailboxOrchestrator) (mailbox : Mailbox) (recipient : String) : Bool :=
  (o.get? mailbox.id).any fun m =>
    !decide (m.sentToday ≥ m.dailyCap) && !decide (m.sentThisHour ≥ m.hourlyCap) &&
      !decide (addressDomain recipient = addressDomain m.email)

def counted (n : ℕ) (m : Mailbox) : Mailbox :=
  { m with sentToday := m.sentToday + n, sentThisHour := m.sentThisHour + n }

def count (dryRun : Bool) (o : MailboxOrchestrator) (mailbox : Mailbox) (_recipient : String) :
    MailboxOrchestrator :=
  match dryRun, o.get? mailbox.id with
  | false, some m => o.save (counted 1 m)
  | _, _ => o

def allocate (o : MailboxOrchestrator) (recipients : List String) (dryRun : Bool) :
    MailboxOrchestrator × AllocationResult :=
  match getAvailable o with
  | [] => (o, { unallocated := recipients, reason := "no_mailboxes_available" })
  | available@(_ :: _) =>
    let p := firstFit takes (count dryRun) available o recipients
    (p.state,
      { allocated := p.placed.map fun a =>
          { mailboxId := a.1.id
            mailboxEmail := a.1.email
            recipientEmail := a.2
            dryRun := dryRun }
        unallocated := p.left
        reason := if p.left = [] then "" else "some_recipients_unallocated" })

def setStatus (o : MailboxOrchestrator) (mailboxId : String) (status : MailboxStatus) :
    MailboxOrchestrator × Bool :=
  match o.get? mailboxId with
  | some m => (o.save { m with status := status }, true)
  | none => (o, false)

def pauseMailbox (o : MailboxOrchestrator) (mailboxId : String) : MailboxOrchestrator × Bool :=
  setStatus o mailboxId .paused

def resumeMailbox (o : MailboxOrchestrator) (mailboxId : String) : MailboxOrchestrator × Bool :=
  setStatus o mailboxId .active

inductive Operation where
  | allocate (recipients : List String)
  | pauseMailbox (mailboxId : String)
  | resumeMailbox (mailboxId : String)
  deriving DecidableEq, Repr

def next (o : MailboxOrchestrator) : Operation → MailboxOrchestrator
  | .allocate recipients => (allocate o recipients false).1
  | .pauseMailbox mailboxId => (pauseMailbox o mailboxId).1
  | .resumeMailbox mailboxId => (resumeMailbox o mailboxId).1

def run (mailboxes : List Mailbox) (ops : List Operation) : MailboxOrchestrator :=
  runTrace next (MailboxOrchestrator.new mailboxes) ops

def allocated (o : MailboxOrchestrator) : Operation → List SendAllocation
  | .allocate recipients => (allocate o recipients false).2.allocated
  | _ => []

def handedOut (mailboxes : List Mailbox) (ops : List Operation) : List SendAllocation :=
  emitted allocated next (MailboxOrchestrator.new mailboxes) ops

def givenTo (id : String) (allocations : List SendAllocation) : ℕ :=
  allocations.countP fun a => a.mailboxId = id

def HasRoom (m : Mailbox) (recipient : String) : Prop :=
  m.sentToday < m.dailyCap ∧ m.sentThisHour < m.hourlyCap ∧
    addressDomain recipient ≠ addressDomain m.email

theorem takes_iff {o : MailboxOrchestrator} {mailbox : Mailbox} {recipient : String} :
    takes o mailbox recipient = true ↔
      ∃ m, o.get? mailbox.id = some m ∧ HasRoom m recipient := by
  simp only [takes, Option.any_eq_true, HasRoom, Bool.and_eq_true, Bool.not_eq_true',
    decide_eq_false_iff_not, ge_iff_le, not_le, ne_eq, and_assoc]

theorem mem_getAvailable {o : MailboxOrchestrator} {m : Mailbox} :
    m ∈ getAvailable o ↔ o.get? m.id = some m ∧ canSend m = true := by
  rw [getAvailable, List.mem_insertionSort, List.mem_filter, Table.mem_values_iff]

@[simp] theorem counted_id (n : ℕ) (m : Mailbox) : (counted n m).id = m.id := rfl

@[simp] theorem counted_zero (m : Mailbox) : counted 0 m = m := by simp [counted]

theorem counted_counted (a b : ℕ) (m : Mailbox) :
    counted a (counted b m) = counted (b + a) m := by
  simp [counted, add_assoc]

theorem get?_count {o : MailboxOrchestrator} {mailbox m : Mailbox} (recipient id : String)
    (h : o.get? mailbox.id = some m) :
    (count false o mailbox recipient).get? id =
      if id = mailbox.id then some (counted 1 m) else o.get? id := by
  have hid : m.id = mailbox.id := Table.key_of_get? h
  simp only [count, h, Table.get?_save, counted_id, hid]

theorem hasRoom_counted {n : ℕ} {m : Mailbox} {recipient : String}
    (h : HasRoom (counted n m) recipient) : HasRoom m recipient := by
  obtain ⟨hday, hhour, hdomain⟩ := h
  simp only [counted] at hday hhour hdomain
  exact ⟨by omega, by omega, hdomain⟩

theorem takes_count {o : MailboxOrchestrator} {mailbox other : Mailbox} {r r' : String}
    (h : takes (count false o mailbox r) other r' = true) : takes o other r' = true := by
  cases hm : o.get? mailbox.id with
  | none =>
    simp only [count, hm] at h
    exact h
  | some m =>
    obtain ⟨m', hm', hroom⟩ := takes_iff.1 h
    rw [get?_count r _ hm] at hm'
    split at hm'
    · next hid =>
      cases hm'
      exact takes_iff.2 ⟨m, by rw [hid]; exact hm, hasRoom_counted hroom⟩
    · exact takes_iff.2 ⟨m', hm', hroom⟩

def timesPlaced (id : String) (placed : List (Mailbox × String)) : ℕ :=
  placed.countP fun a => a.1.id = id

structure Accounted (o : MailboxOrchestrator) (placed : List (Mailbox × String))
    (st : MailboxOrchestrator) : Prop where
  pool : ∀ id, st.get? id = (o.get? id).map (counted (timesPlaced id placed))
  caps : ∀ id m, o.get? id = some m → timesPlaced id placed = 0 ∨
    m.sentToday + timesPlaced id placed ≤ m.dailyCap ∧
      m.sentThisHour + timesPlaced id placed ≤ m.hourlyCap
  target : ∀ a ∈ placed, a.1 ∈ getAvailable o ∧ addressDomain a.2 ≠ addressDomain a.1.email

theorem timesPlaced_concat (id : String) (placed : List (Mailbox × String)) (mailbox : Mailbox)
    (recipient : String) :
    timesPlaced id (placed ++ [(mailbox, recipient)]) =
      timesPlaced id placed + if id = mailbox.id then 1 else 0 := by
  rw [timesPlaced, List.countP_append, List.countP_singleton]
  simp [timesPlaced, eq_comm]

theorem accounted_start (o : MailboxOrchestrator) : Accounted o [] o where
  pool id := by cases h : o.get? id <;> simp [timesPlaced]
  caps _ _ _ := Or.inl rfl
  target _ ha := absurd ha List.not_mem_nil

theorem accounted_count {o st : MailboxOrchestrator} {placed : List (Mailbox × String)}
    {mailbox : Mailbox} {recipient : String} (h : Accounted o placed st)
    (hin : mailbox ∈ getAvailable o) (hfit : takes st mailbox recipient = true) :
    Accounted o (placed ++ [(mailbox, recipient)]) (count false st mailbox recipient) := by
  obtain ⟨m, hm, hroom⟩ := takes_iff.1 hfit
  have ho : o.get? mailbox.id = some mailbox := (mem_getAvailable.1 hin).1
  have hnow : m = counted (timesPlaced mailbox.id placed) mailbox := by
    rw [h.pool, ho] at hm
    cases hm
    rfl
  constructor
  · intro id
    rw [get?_count recipient id hm, timesPlaced_concat]
    by_cases hid : id = mailbox.id
    · rw [hid, if_pos rfl, if_pos rfl, ho, hnow, counted_counted]
      rfl
    · rw [if_neg hid, if_neg hid]
      exact h.pool id
  · intro id m₀ hm₀
    rw [timesPlaced_concat]
    by_cases hid : id = mailbox.id
    · rw [hid, ho] at hm₀
      cases hm₀
      rw [hnow] at hroom
      obtain ⟨hday, hhour, -⟩ := hroom
      simp only [counted] at hday hhour
      right
      rw [if_pos hid, hid]
      push_cast
      constructor <;> omega
    · rw [if_neg hid]
      exact h.caps id m₀ hm₀
  · intro a ha
    rcases List.mem_append.1 ha with ha | ha
    · exact h.target a ha
    · cases List.mem_singleton.1 ha
      rw [hnow] at hroom
      exact ⟨hin, hroom.2.2⟩

structure Splits (recipients : List String) (r : AllocationResult) : Prop where
  allocated : (r.allocated.map SendAllocation.recipientEmail).Sublist recipients
  unallocated : r.unallocated.Sublist recipients
  all : (r.allocated.map SendAllocation.recipientEmail ++ r.unallocated).Perm recipients

structure CallSound (o : MailboxOrchestrator) (recipients : List String)
    (after : MailboxOrchestrator) (r : AllocationResult) : Prop where
  splits : Splits recipients r
  sender : ∀ a ∈ r.allocated, ∃ m, o.get? a.mailboxId = some m ∧ canSend m = true ∧
    a.mailboxEmail = m.email ∧ addressDomain a.recipientEmail ≠ addressDomain m.email
  counters : ∀ id, after.get? id = (o.get? id).map (counted (givenTo id r.allocated))
  caps : ∀ id m, o.get? id = some m → givenTo id r.allocated = 0 ∨
    m.sentToday + givenTo id r.allocated ≤ m.dailyCap ∧
      m.sentThisHour + givenTo id r.allocated ≤ m.hourlyCap
  refused : ∀ recipient ∈ r.unallocated, ∀ id m, o.get? id = some m → canSend m = true →
    ∃ m', after.get? id = some m' ∧ ¬ HasRoom m' recipient

def placements (o : MailboxOrchestrator) (recipients : List String) :
    Placement MailboxOrchestrator Mailbox String :=
  firstFit takes (count false) (getAvailable o) o recipients

def sendAllocation (a : Mailbox × String) : SendAllocation where
  mailboxId := a.1.id
  mailboxEmail := a.1.email
  recipientEmail := a.2

theorem allocate_firstFit (o : MailboxOrchestrator) (recipients : List String) (dryRun : Bool) :
    (allocate o recipients dryRun).1 =
      (firstFit takes (count dryRun) (getAvailable o) o recipients).state ∧
    (allocate o recipients dryRun).2.allocated =
      (firstFit takes (count dryRun) (getAvailable o) o recipients).placed.map
        (fun a => { sendAllocation a with dryRun := dryRun }) ∧
    (allocate o recipients dryRun).2.unallocated =
      (firstFit takes (count dryRun) (getAvailable o) o recipients).left := by
  rw [allocate]
  split
  · next h =>
    rw [h, firstFit_no_slots]
    exact ⟨rfl, rfl, rfl⟩
  · next h =>
    rw [h]
    exact ⟨rfl, rfl, rfl⟩

theorem allocate_eq (o : MailboxOrchestrator) (recipients : List String) :
    (allocate o recipients false).1 = (placements o recipients).state ∧
    (allocate o recipients false).2.allocated =
      (placements o recipients).placed.map sendAllocation ∧
    (allocate o recipients false).2.unallocated = (placements o recipients).left :=
  allocate_firstFit o recipients false

theorem placements_accounted (o : MailboxOrchestrator) (recipients : List String) :
    Accounted o (placements o recipients).placed (placements o recipients).state :=
  firstFit_invariant (R := Accounted o) (accounted_start o)
    (fun _ _ _ _ h hin hfit => accounted_count h hin hfit) recipients

theorem givenTo_sendAllocation (id : String) (placed : List (Mailbox × String)) :
    givenTo id (placed.map sendAllocation) = timesPlaced id placed := by
  rw [givenTo, timesPlaced, List.countP_map]
  rfl

theorem allocate_splits (o : MailboxOrchestrator) (recipients : List String) :
    Splits recipients (allocate o recipients false).2 := by
  obtain ⟨-, hallocated, hleft⟩ := allocate_eq o recipients
  have hsplit : ((placements o recipients).placed.map Prod.snd).Sublist recipients ∧
      (placements o recipients).left.Sublist recipients ∧
      ((placements o recipients).placed.map Prod.snd ++
        (placements o recipients).left).Perm recipients := firstFit_splits recipients
  have hrecipients : (allocate o recipients false).2.allocated.map SendAllocation.recipientEmail =
      (placements o recipients).placed.map Prod.snd := by
    rw [hallocated, List.map_map]
    rfl
  constructor
  · rw [hrecipients]
    exact hsplit.1
  · rw [hleft]
    exact hsplit.2.1
  · rw [hrecipients, hleft]
    exact hsplit.2.2

/-- No mailbox that could send has room in the end for a recipient that is left over. -/
theorem left_without_room {o : MailboxOrchestrator} {recipients : List String}
    {recipient id : String} {m : Mailbox} (hr : recipient ∈ (placements o recipients).left)
    (hm : o.get? id = some m) (hsend : canSend m = true) :
    ∃ m', (placements o recipients).state.get? id = some m' ∧ ¬ HasRoom m' recipient := by
  have hid : m.id = id := Table.key_of_get? hm
  have hin : m ∈ getAvailable o := mem_getAvailable.2 ⟨hid.symm ▸ hm, hsend⟩
  have hnow : (placements o recipients).state.get? id =
      some (counted (timesPlaced id (placements o recipients).placed) m) := by
    rw [(placements_accounted o recipients).pool, hm]
    rfl
  refine ⟨_, hnow, fun hroom => ?_⟩
  have hnone := left_fits_nowhere (fun st s i s' i' h => takes_count h) hr m hin
  have htakes : takes (placements o recipients).state m recipient = true :=
    takes_iff.2 ⟨_, by rw [hid]; exact hnow, hroom⟩
  rw [placements] at htakes
  rw [hnone] at htakes
  cases htakes

theorem allocate_sound (o : MailboxOrchestrator) (recipients : List String) :
    CallSound o recipients (allocate o recipients false).1 (allocate o recipients false).2 := by
  obtain ⟨hstate, hallocated, hleft⟩ := allocate_eq o recipients
  have hacc := placements_accounted o recipients
  constructor
  · exact allocate_splits o recipients
  · intro a ha
    rw [hallocated] at ha
    obtain ⟨b, hb, rfl⟩ := List.mem_map.1 ha
    obtain ⟨hin, hdomain⟩ := hacc.target b hb
    obtain ⟨hslot, hsend⟩ := mem_getAvailable.1 hin
    exact ⟨b.1, hslot, hsend, rfl, hdomain⟩
  · intro id
    rw [hstate, hallocated, givenTo_sendAllocation]
    exact hacc.pool id
  · intro id m hm
    rw [hallocated, givenTo_sendAllocation]
    exact hacc.caps id m hm
  · intro recipient hr id m hm hsend
    rw [hleft] at hr
    rw [hstate]
    exact left_without_room hr hm hsend

/-! ### Runs -/

structure Grown (m : Mailbox) (n : ℕ) (m' : Mailbox) : Prop where
  same : m'.email = m.email ∧ m'.dailyCap = m.dailyCap ∧ m'.hourlyCap = m.hourlyCap
  sentToday : m'.sentToday = m.sentToday + n
  sentThisHour : m'.sentThisHour = m.sentThisHour + n
  caps : n = 0 ∨ m'.sentToday ≤ m'.dailyCap ∧ m'.sentThisHour ≤ m'.hourlyCap

theorem setStatus_get? {o : MailboxOrchestrator} {id : String} {m : Mailbox}
    (h : o.get? id = some m) (mailboxId : String) (status : MailboxStatus) :
    ∃ status', (setStatus o mailboxId status).1.get? id = some { m with status := status' } := by
  rw [setStatus]
  split
  · next m₁ h₁ =>
    rw [Table.get?_save]
    split
    · next hid =>
      have hkey : m₁.id = mailboxId := Table.key_of_get? h₁
      have hsame : o.get? id = some m₁ := by rw [hid, ← h₁, ← hkey]
      rw [h] at hsame
      cases hsame
      exact ⟨status, rfl⟩
    · exact ⟨m.status, h⟩
  · exact ⟨m.status, h⟩

theorem grown_next {o : MailboxOrchestrator} {id : String} {m m' : Mailbox} {n : ℕ}
    (h : Grown m n m') (hm' : o.get? id = some m') (op : Operation) :
    ∃ m'', (next o op).get? id = some m'' ∧ Grown m (n + givenTo id (allocated o op)) m'' := by
  cases op with
  | allocate recipients =>
    have hcall := allocate_sound o recipients
    refine ⟨counted (givenTo id (allocated o (.allocate recipients))) m', ?_, ?_⟩
    · rw [next, hcall.counters, hm']
      rfl
    · obtain ⟨hsame, htoday, hhour, hcaps⟩ := h
      refine ⟨hsame, ?_, ?_, ?_⟩
      · simp only [counted, htoday]
        push_cast
        omega
      · simp only [counted, hhour]
        push_cast
        omega
      · have hnew := hcall.caps id m' hm'
        simp only [counted, allocated] at hnew ⊢
        omega
  | pauseMailbox mailboxId =>
    obtain ⟨status, hget⟩ := setStatus_get? hm' mailboxId .paused
    exact ⟨_, hget, h.same, h.sentToday, h.sentThisHour, h.caps⟩
  | resumeMailbox mailboxId =>
    obtain ⟨status, hget⟩ := setStatus_get? hm' mailboxId .active
    exact ⟨_, hget, h.same, h.sentToday, h.sentThisHour, h.caps⟩

theorem grown_run {mailboxes : List Mailbox} {id : String} {m : Mailbox}
    (h : (MailboxOrchestrator.new mailboxes).get? id = some m) (ops : List Operation) :
    ∃ m', (run mailboxes ops).get? id = some m' ∧
      Grown m (givenTo id (handedOut mailboxes ops)) m' := by
  induction ops using List.reverseRecOn with
  | nil =>
    refine ⟨m, h, ⟨rfl, rfl, rfl⟩, ?_, ?_, Or.inl rfl⟩
    · simp [handedOut, emitted, givenTo]
    · simp [handedOut, emitted, givenTo]
  | append_singleton ops op ih =>
    obtain ⟨m', hm', hgrown⟩ := ih
    obtain ⟨m'', hm'', hgrown'⟩ := grown_next hgrown hm' op
    refine ⟨m'', ?_, ?_⟩
    · rw [run, runTrace_concat]
      exact hm''
    · rw [handedOut, emitted_concat, givenTo, List.countP_append]
      exact hgrown'

/-- Every call after the run splits its recipients soundly, and over the whole run every
mailbox has sent what it was given, within its caps. -/
structure RunSound (mailboxes : List Mailbox) (ops : List Operation) : Prop where
  calls : ∀ recipients, CallSound (run mailboxes ops) recipients
    (allocate (run mailboxes ops) recipients false).1
    (allocate (run mailboxes ops) recipients false).2
  counters : ∀ m ∈ mailboxes, ∃ m', (run mailboxes ops).get? m.id = some m' ∧
    Grown m (givenTo m.id (handedOut mailboxes ops)) m'

theorem runs_sound {mailboxes : List Mailbox} (hids : (mailboxes.map Mailbox.id).Nodup)
    (ops : List Operation) : RunSound mailboxes ops where
  calls := allocate_sound (run mailboxes ops)
  counters _ hm := grown_run (Table.get?_saveAll hids hm) ops

def sampleMailboxes : List Mailbox :=
  [{ id := "mb-1", email := "send@myco.com", dailyCap := 1 },
    { id := "mb-2", email := "send@acme.com" }]

theorem sample_runs_sound :
    RunSound sampleMailboxes
      [.allocate ["alice@acme.com", "bob@acme.com", "carol@co.com"], .pauseMailbox "mb-1"] :=
  runs_sound (by decide) _

end TrustCopilot.Mailboxes
