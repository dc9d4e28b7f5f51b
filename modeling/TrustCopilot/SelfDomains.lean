import TrustCopilot.Mailboxes
import TrustCopilot.SuppressionQueries

/-! Own domains in other letters. The allocation compares the domain of a mailbox and that of a
recipient as they are spelled; the suppression list lowers a domain before it looks it up. -/
namespace TrustCopilot.SelfDomains

open TrustCopilot.FirstFit
open TrustCopilot.Mailboxes
open TrustCopilot.OrderedDict
open TrustCopilot.PyText
open TrustCopilot.SuppressionQueries

/-- `str.lower` on addresses: it does not look across an at sign, it neither makes nor takes
one, and it has nothing to do a second time. -/
structure AddressLower extends StrLower where
  at_sign : ∀ s t, lower (s ++ "@" ++ t) = lower s ++ "@" ++ lower t
  count_at : ∀ s, (lower s).toList.count '@' = s.toList.count '@'
  again : ∀ s, lower (lower s) = lower s

def OneAt (s : String) : Prop := s.toList.count '@' = 1

instance (s : String) : Decidable (OneAt s) := inferInstanceAs (Decidable (_ = _))

structure Addressed (o : MailboxOrchestrator) (recipients : List String) : Prop where
  pool : ∀ m ∈ o.values, OneAt m.email
  recipients : ∀ r ∈ recipients, OneAt r

/-- The mailbox and the recipient are in one domain, ignoring the case of the letters. -/
def OwnDomain (py : AddressLower) (mailboxEmail recipient : String) : Prop :=
  py.lower (addressDomain recipient) = py.lower (addressDomain mailboxEmail)

instance (py : AddressLower) (mailboxEmail recipient : String) :
    Decidable (OwnDomain py mailboxEmail recipient) := inferInstanceAs (Decidable (_ = _))

def OwnDomainFree (py : AddressLower) (o : MailboxOrchestrator) (recipients : List String)
    (dryRun : Bool) : Prop :=
  ∀ a ∈ (allocate o recipients dryRun).2.allocated,
    ¬ OwnDomain py a.mailboxEmail a.recipientEmail

instance (py : AddressLower) (o : MailboxOrchestrator) (recipients : List String)
    (dryRun : Bool) : Decidable (OwnDomainFree py o recipients dryRun) :=
  inferInstanceAs (Decidable (∀ a ∈ _, ¬ OwnDomain _ _ _))

/-- The pool with other spellings of the addresses, by the ids of the mailboxes. -/
def respell (spelling : String → String) (m : Mailbox) : Mailbox :=
  { m with email := spelling m.id }

def respellPool (spelling : String → String) (o : MailboxOrchestrator) : MailboxOrchestrator :=
  o.mapValues (respell spelling) fun _ => rfl

/-- The same pool and the same recipients, with the letters of the addresses in other cases. -/
structure Recased (py : AddressLower) (o : MailboxOrchestrator) (recipients : List String)
    (o' : MailboxOrchestrator) (recipients' : List String) : Prop where
  pool : ∃ spelling, o' = respellPool spelling o ∧
    ∀ m ∈ o.values, py.lower (spelling m.id) = py.lower m.email
  recipients : List.Forall₂ (fun r r' => py.lower r' = py.lower r) recipients recipients'

def pairs (py : AddressLower) (r : AllocationResult) : List (String × String) :=
  r.allocated.map fun a => (a.mailboxId, py.lower a.recipientEmail)

def CaseBlind (py : AddressLower) (o : MailboxOrchestrator) (recipients : List String)
    (dryRun : Bool) : Prop :=
  ∀ o' recipients', Recased py o recipients o' recipients' →
    pairs py (allocate o' recipients' dryRun).2 = pairs py (allocate o recipients dryRun).2

/-- A pair that may be allocated when the case of the letters is ignored. -/
def apart (py : AddressLower) (mailbox : Mailbox) (recipient : String) : Bool :=
  !decide (OwnDomain py mailbox.email recipient)

/-- The allocation with the domains compared ignoring case. -/
def caselessPlacements (py : AddressLower) (o : MailboxOrchestrator) (dryRun : Bool)
    (recipients : List String) : Placement MailboxOrchestrator Mailbox String :=
  firstFit (strictly takes (apart py)) (count dryRun) (getAvailable o) o recipients

/-- On every recipient's turn, with those before it placed ignoring case, each available mailbox
that would take it and is in its domain stands behind one that would and is not. -/
def OwnDomainsShielded (py : AddressLower) (o : MailboxOrchestrator) (recipients : List String)
    (dryRun : Bool) : Prop :=
  ∀ before recipient, before ++ [recipient] <+: recipients →
    Shielded takes (getAvailable o) (apart py) (caselessPlacements py o dryRun before).state
      recipient

variable {py : AddressLower} {o : MailboxOrchestrator} {recipients : List String}

theorem apart_iff {m : Mailbox} {r : String} :
    apart py m r = true ↔ ¬ OwnDomain py m.email r := by
  simp [apart]

/-! ### Addresses -/

theorem OneAt.address {s : String} (h : OneAt s) : ∃ a : Address, a.text = s := by
  have hin : '@' ∈ s.toList := List.count_pos_iff.1 (by rw [h]; exact Nat.one_pos)
  obtain ⟨t, d, hsplit⟩ := List.append_of_mem hin
  have hcount : t.count '@' + (d.count '@' + 1) = 1 := by
    rw [← List.count_cons_self, ← List.count_append, ← hsplit]
    exact h
  refine ⟨⟨String.ofList t, String.ofList d, ?_, ?_⟩, ?_⟩
  · rw [String.toList_ofList, ← List.count_eq_zero]
    omega
  · rw [String.toList_ofList, ← List.count_eq_zero]
    omega
  · rw [← String.toList_inj, Address.text_toList, hsplit]
    exact congrArg₂ (fun t d => t ++ '@' :: d) String.toList_ofList String.toList_ofList

theorem addressDomain_text (a : Address) : addressDomain a.text = a.domainPart := by
  rw [addressDomain, if_pos a.at_mem, a.split_text]
  rfl

theorem at_free_lower {s : String} (h : '@' ∉ s.toList) : '@' ∉ (py.lower s).toList := by
  rw [← List.count_eq_zero] at h ⊢
  rw [py.count_at, h]

theorem lower_addressDomain {s : String} (h : OneAt s) :
    py.lower (addressDomain s) = addressDomain (py.lower s) := by
  obtain ⟨a, rfl⟩ := h.address
  have hlower : py.lower a.text = Address.text ⟨py.lower a.localPart, py.lower a.domainPart,
      at_free_lower a.localFree, at_free_lower a.domainFree⟩ :=
    py.at_sign a.localPart a.domainPart
  rw [hlower, addressDomain_text, addressDomain_text]

theorem oneAt_of_lower {s t : String} (h : OneAt s) (he : py.lower t = py.lower s) : OneAt t := by
  rw [OneAt, ← py.count_at, he, py.count_at]
  exact h

theorem lower_addressDomain_eq {s t : String} (h : OneAt s) (he : py.lower t = py.lower s) :
    py.lower (addressDomain t) = py.lower (addressDomain s) := by
  rw [lower_addressDomain h, lower_addressDomain (oneAt_of_lower h he), he]

theorem ownDomain_recased {email email' r r' : String} (hemail : OneAt email) (hr : OneAt r)
    (hemails : py.lower email' = py.lower email) (hrs : py.lower r' = py.lower r) :
    OwnDomain py email' r' ↔ OwnDomain py email r := by
  rw [OwnDomain, OwnDomain, lower_addressDomain_eq hemail hemails, lower_addressDomain_eq hr hrs]

/-! ### Turn by turn -/

/-- The counters of the pool have moved, and nothing else in it. -/
def Counting (o st : MailboxOrchestrator) : Prop :=
  ∀ id, ∃ n, st.get? id = (o.get? id).map (counted n)

theorem counting_start (o : MailboxOrchestrator) : Counting o o := by
  intro id
  refine ⟨0, ?_⟩
  cases o.get? id with
  | none => rfl
  | some m => rw [Option.map_some, counted_zero]

theorem Counting.get? {st : MailboxOrchestrator} {id : String} {m : Mailbox}
    (h : Counting o st) (hm : o.get? id = some m) : ∃ n, st.get? id = some (counted n m) := by
  obtain ⟨n, hn⟩ := h id
  exact ⟨n, by rw [hn, hm]; rfl⟩

theorem counting_count {st : MailboxOrchestrator} {m : Mailbox} (h : Counting o st)
    (hm : o.get? m.id = some m) (dryRun : Bool) (r : String) :
    Counting o (count dryRun st m r) := by
  cases dryRun with
  | true => exact h
  | false =>
    intro id
    obtain ⟨n, hn⟩ := h.get? hm
    rw [get?_count r id hn]
    split
    · next hid =>
      refine ⟨n + 1, ?_⟩
      rw [hid, hm, counted_counted]
      rfl
    · exact h id

theorem counting_caseless (py : AddressLower) (o : MailboxOrchestrator) (dryRun : Bool)
    (recipients : List String) :
    Counting o (caselessPlacements py o dryRun recipients).state :=
  firstFit_invariant (R := fun _ st => Counting o st) (counting_start o)
    (fun _ _ _ r h hm _ => counting_count h (mem_getAvailable.1 hm).1 dryRun r) recipients

theorem takes_counted {st : MailboxOrchestrator} {m : Mailbox} {n : ℕ} {r : String}
    (h : st.get? m.id = some (counted n m)) :
    takes st m r = true ↔ HasRoom (counted n m) r := by
  rw [takes_iff, h]
  simp

/-- With the case ignored, how the domains are spelled makes no difference. -/
theorem strictly_takes {st : MailboxOrchestrator} {m : Mailbox} {n : ℕ} {r : String}
    (h : st.get? m.id = some (counted n m)) :
    strictly takes (apart py) st m r = true ↔
      (m.sentToday + n < m.dailyCap ∧ m.sentThisHour + n < m.hourlyCap) ∧
        ¬ OwnDomain py m.email r := by
  rw [strictly, Bool.and_eq_true, takes_counted h, apart_iff]
  constructor
  · rintro ⟨⟨hday, hhour, -⟩, hapart⟩
    exact ⟨⟨hday, hhour⟩, hapart⟩
  · rintro ⟨⟨hday, hhour⟩, hapart⟩
    exact ⟨⟨hday, hhour, fun hsame => hapart (congrArg py.lower hsame)⟩, hapart⟩

theorem apart_placed (dryRun : Bool) :
    OwnDomainFree py o recipients dryRun ↔
      ∀ a ∈ (firstFit takes (count dryRun) (getAvailable o) o recipients).placed,
        apart py a.1 a.2 = true := by
  rw [OwnDomainFree, (allocate_firstFit o recipients dryRun).2.1, List.forall_mem_map]
  simp only [apart_iff]
  rfl

theorem ownDomainFree_iff (dryRun : Bool) :
    OwnDomainFree py o recipients dryRun ↔ OwnDomainsShielded py o recipients dryRun := by
  rw [apart_placed]
  exact placed_allowed_iff

/-- Where the addresses of one domain spell it alike, the comparison misses none. -/
theorem ownDomainsShielded_of_alike
    (h : ∀ m ∈ getAvailable o, ∀ r ∈ recipients, OwnDomain py m.email r →
      addressDomain r = addressDomain m.email) (dryRun : Bool) :
    OwnDomainsShielded py o recipients dryRun := by
  intro xs r hp before m after hsplit htakes hown
  have hm : m ∈ getAvailable o := by
    rw [hsplit]
    exact List.mem_append_right _ List.mem_cons_self
  have hr : r ∈ recipients := hp.subset (List.mem_append_right _ (List.mem_singleton_self r))
  obtain ⟨n, hn⟩ := (counting_caseless py o dryRun xs).get? (mem_getAvailable.1 hm).1
  obtain ⟨-, -, hspelled⟩ := (takes_counted hn).1 htakes
  have hsame : OwnDomain py m.email r := by simpa [apart] using hown
  exact absurd (h m hm r hr hsame) hspelled

/-! ### The same allocation in other letters -/

section Recasing

variable {o' : MailboxOrchestrator} {recipients' : List String} {spelling : String → String}

theorem values_respellPool (spelling : String → String) (o : MailboxOrchestrator) :
    (respellPool spelling o).values = o.values.map (respell spelling) :=
  Table.values_mapValues o (respell spelling) _

theorem getAvailable_respell (spelling : String → String) (o : MailboxOrchestrator) :
    getAvailable (respellPool spelling o) = (getAvailable o).map (respell spelling) := by
  have hsend : canSend ∘ respell spelling = canSend := rfl
  rw [getAvailable, getAvailable, values_respellPool, List.filter_map, hsend]
  exact (List.map_insertionSort Before Before (respell spelling) _ fun _ _ _ _ => Iff.rfl).symm

theorem get?_respellPool (spelling : String → String) (o : MailboxOrchestrator) (id : String) :
    (respellPool spelling o).get? id = (o.get? id).map (respell spelling) :=
  Table.get?_mapValues o (respell spelling) _ id

structure InStep (spelling : String → String) (o st st' : MailboxOrchestrator) : Prop where
  counting : Counting o st
  respelled : ∀ id, st'.get? id = (st.get? id).map (respell spelling)

def Recast (spelling : String → String) (o : MailboxOrchestrator) (m m' : Mailbox) : Prop :=
  m ∈ getAvailable o ∧ m' = respell spelling m

theorem InStep.get? {st st' : MailboxOrchestrator} {m m' : Mailbox}
    (h : InStep spelling o st st') (hm : Recast spelling o m m') :
    ∃ n, st.get? m.id = some (counted n m) ∧ st'.get? m'.id = some (counted n m') := by
  obtain ⟨hin, rfl⟩ := hm
  obtain ⟨n, hn⟩ := h.counting.get? (mem_getAvailable.1 hin).1
  exact ⟨n, hn, (h.respelled m.id).trans (by rw [hn]; rfl)⟩

theorem inStep_count {st st' : MailboxOrchestrator} {m m' : Mailbox}
    (h : InStep spelling o st st') (hm : Recast spelling o m m') (dryRun : Bool)
    (r r' : String) :
    InStep spelling o (count dryRun st m r) (count dryRun st' m' r') := by
  refine ⟨counting_count h.counting (mem_getAvailable.1 hm.1).1 dryRun r, ?_⟩
  cases dryRun with
  | true => exact h.respelled
  | false =>
    intro id
    obtain ⟨n, hn, hn'⟩ := h.get? hm
    obtain ⟨-, rfl⟩ := hm
    rw [get?_count r id hn, get?_count r' id hn']
    change (if id = m.id then _ else _) = Option.map _ (if id = m.id then _ else _)
    split
    · rfl
    · exact h.respelled id

/-- Two allocations that ignore case go the same way in other letters. -/
theorem caseless_alike (h : Addressed o recipients)
    (hspelling : ∀ m ∈ o.values, py.lower (spelling m.id) = py.lower m.email)
    (hrecipients : List.Forall₂ (fun r r' => py.lower r' = py.lower r) recipients recipients')
    (dryRun : Bool) :
    Alike (InStep spelling o) (Recast spelling o)
      (fun r r' => OneAt r ∧ py.lower r' = py.lower r)
      (caselessPlacements py o dryRun recipients)
      (caselessPlacements py (respellPool spelling o) dryRun recipients') := by
  have hslots : List.Forall₂ (Recast spelling o) (getAvailable o)
      (getAvailable (respellPool spelling o)) := by
    rw [getAvailable_respell, List.forall₂_map_right_iff, List.forall₂_same]
    exact fun m hm => ⟨hm, rfl⟩
  have hitems : List.Forall₂ (fun r r' => OneAt r ∧ py.lower r' = py.lower r)
      recipients recipients' :=
    (List.forall₂_and_left recipients recipients').2 ⟨h.recipients, hrecipients⟩
  refine firstFit_alike hslots ⟨counting_start o, get?_respellPool spelling o⟩ ?_ ?_ hitems
  · intro st st' m m' r r' hst hm hr
    obtain ⟨n, hn, hn'⟩ := hst.get? hm
    have hmo : m ∈ o.values := Table.mem_values_iff.2 (mem_getAvailable.1 hm.1).1
    have hdomain : OwnDomain py m'.email r' ↔ OwnDomain py m.email r := by
      rw [hm.2]
      exact ownDomain_recased (h.pool m hmo) hr.1 (hspelling m hmo) hr.2
    rw [Bool.eq_iff_iff, strictly_takes hn, strictly_takes hn', hdomain, hm.2]
    rfl
  · exact fun st st' m m' r r' hst hm _ => inStep_count hst hm dryRun r r'

theorem pairs_allocate (py : AddressLower) (o : MailboxOrchestrator) (recipients : List String)
    (dryRun : Bool) :
    pairs py (allocate o recipients dryRun).2 =
      (firstFit takes (count dryRun) (getAvailable o) o recipients).placed.map
        fun a => (a.1.id, py.lower a.2) := by
  rw [pairs, (allocate_firstFit o recipients dryRun).2.1, List.map_map]
  rfl

/-- Where the case makes no pair of one domain, the pairs are those of any case. -/
theorem pairs_of_ownDomainFree {dryRun : Bool} (h : OwnDomainFree py o recipients dryRun) :
    pairs py (allocate o recipients dryRun).2 =
      (caselessPlacements py o dryRun recipients).placed.map
        fun a => (a.1.id, py.lower a.2) := by
  rw [pairs_allocate, caselessPlacements, firstFit_strictly ((apart_placed dryRun).1 h)]

theorem pairs_recased {dryRun : Bool} (h : Addressed o recipients)
    (hrecased : Recased py o recipients o' recipients')
    (hfree : OwnDomainFree py o recipients dryRun)
    (hfree' : OwnDomainFree py o' recipients' dryRun) :
    pairs py (allocate o' recipients' dryRun).2 =
      pairs py (allocate o recipients dryRun).2 := by
  obtain ⟨⟨spelling, rfl, hspelling⟩, hrecipients⟩ := hrecased
  have halike := (caseless_alike h hspelling hrecipients dryRun).placed
  rw [pairs_of_ownDomainFree hfree, pairs_of_ownDomainFree hfree', eq_comm,
    ← List.forall₂_eq_eq_eq, List.forall₂_map_left_iff, List.forall₂_map_right_iff]
  refine halike.imp fun a a' ha => ?_
  rw [ha.1.2, ha.2.2]
  rfl

/-! ### The addresses in lower case -/

theorem allocated_spec {dryRun : Bool} {a : SendAllocation}
    (ha : a ∈ (allocate o recipients dryRun).2.allocated) :
    (∃ m, o.get? a.mailboxId = some m ∧ a.mailboxEmail = m.email) ∧
      a.recipientEmail ∈ recipients := by
  rw [(allocate_firstFit o recipients dryRun).2.1] at ha
  obtain ⟨b, hb, rfl⟩ := List.mem_map.1 ha
  have havailable : ∀ b ∈ (firstFit takes (count dryRun) (getAvailable o) o recipients).placed,
      b.1 ∈ getAvailable o :=
    firstFit_invariant (R := fun placed _ => ∀ b ∈ placed, b.1 ∈ getAvailable o)
      (fun _ hb => absurd hb List.not_mem_nil)
      (fun placed _ m r h hm _ => by
        intro c hc
        rcases List.mem_append.1 hc with hc | hc
        · exact h c hc
        · cases List.mem_singleton.1 hc
          exact hm)
      recipients
  have hplaced : ((firstFit takes (count dryRun) (getAvailable o) o recipients).placed.map
      Prod.snd).Sublist recipients := (firstFit_splits recipients).1
  exact ⟨⟨b.1, (mem_getAvailable.1 (havailable b hb)).1, rfl⟩,
    hplaced.subset (List.mem_map_of_mem hb)⟩

/-- An allocation to a mailbox of the other spelling, told by the pool as it was. -/
theorem recased_spec {dryRun : Bool} {a : SendAllocation} (h : Addressed o recipients)
    (hrecased : Recased py o recipients o' recipients')
    (ha : a ∈ (allocate o' recipients' dryRun).2.allocated) :
    OneAt a.recipientEmail ∧ ∃ m, o.get? a.mailboxId = some m ∧ OneAt m.email ∧
      py.lower a.mailboxEmail = py.lower m.email := by
  obtain ⟨⟨spelling, rfl, hspelling⟩, hrecipients⟩ := hrecased
  obtain ⟨⟨m', hm', hemail⟩, hin⟩ := allocated_spec ha
  constructor
  · have hitems : List.Forall₂ (fun r' r => OneAt r ∧ py.lower r' = py.lower r)
        recipients' recipients :=
      ((List.forall₂_and_left recipients recipients').2 ⟨h.recipients, hrecipients⟩).flip
    have hone : ∀ r' ∈ recipients', OneAt r' :=
      ((List.forall₂_and_left recipients' recipients).1
        (hitems.imp fun r' r hr => ⟨oneAt_of_lower hr.1 hr.2, hr⟩)).1
    exact hone _ hin
  · rw [get?_respellPool] at hm'
    obtain ⟨m, hm, rfl⟩ := Option.map_eq_some_iff.1 hm'
    have hid : m.id = a.mailboxId := Table.key_of_get? hm
    have hmo : m ∈ o.values := Table.mem_values_iff.2 (by rw [hid]; exact hm)
    exact ⟨m, hm, h.pool m hmo, by rw [hemail]; exact hspelling m hmo⟩

theorem ownDomainFree_of_pairs {o'' : MailboxOrchestrator} {recipients'' : List String}
    {dryRun : Bool} (h : Addressed o recipients)
    (hrecased : Recased py o recipients o' recipients')
    (hrecased' : Recased py o recipients o'' recipients'')
    (hpairs : pairs py (allocate o'' recipients'' dryRun).2 =
      pairs py (allocate o' recipients' dryRun).2)
    (hfree : OwnDomainFree py o' recipients' dryRun) :
    OwnDomainFree py o'' recipients'' dryRun := by
  intro a ha hown
  obtain ⟨hr, m, hm, hone, hemail⟩ := recased_spec h hrecased' ha
  have hpair : (a.mailboxId, py.lower a.recipientEmail) ∈
      pairs py (allocate o' recipients' dryRun).2 := by
    rw [← hpairs]
    exact List.mem_map_of_mem (f := fun a : SendAllocation =>
      (a.mailboxId, py.lower a.recipientEmail)) ha
  obtain ⟨b, hb, he⟩ := List.mem_map.1 hpair
  obtain ⟨hid, hrecipient⟩ := Prod.mk.inj he
  obtain ⟨-, m', hm', -, hemail'⟩ := recased_spec h hrecased hb
  rw [hid, hm] at hm'
  cases hm'
  refine hfree b hb ((ownDomain_recased hone hr hemail' hrecipient).2 ?_)
  exact (ownDomain_recased hone hr hemail rfl).1 hown

def loweredPool (py : AddressLower) (o : MailboxOrchestrator) : MailboxOrchestrator :=
  respellPool (fun id => (o.get? id).elim "" fun m => py.lower m.email) o

theorem spelling_lowered {m : Mailbox} (hm : m ∈ o.values) :
    ((o.get? m.id).elim "" fun m => py.lower m.email) = py.lower m.email := by
  rw [Table.mem_values_iff.1 hm]
  rfl

theorem recased_lowered (py : AddressLower) (o : MailboxOrchestrator) (recipients : List String) :
    Recased py o recipients (loweredPool py o) (recipients.map py.lower) where
  pool := ⟨_, rfl, fun m hm => by rw [spelling_lowered hm, py.again]⟩
  recipients := by
    rw [List.forall₂_map_right_iff, List.forall₂_same]
    exact fun r _ => py.again r

theorem recased_self (py : AddressLower) (o : MailboxOrchestrator) (recipients : List String) :
    Recased py o recipients o recipients where
  pool := by
    have hemail : ∀ m ∈ o.values, (o.get? m.id).elim "" Mailbox.email = m.email := by
      intro m hm
      rw [Table.mem_values_iff.1 hm]
      rfl
    refine ⟨fun id => (o.get? id).elim "" Mailbox.email, ?_, fun m hm => ?_⟩
    · refine (Table.mapValues_self _ fun m hm => ?_).symm
      rw [respell, hemail m hm]
    · exact congrArg py.lower (hemail m hm)
  recipients := List.forall₂_same.2 fun _ _ => rfl

/-- In lower case, what is one domain ignoring case is spelled alike. -/
theorem lowered_ownDomainFree (h : Addressed o recipients) (dryRun : Bool) :
    OwnDomainFree py (loweredPool py o) (recipients.map py.lower) dryRun := by
  rw [ownDomainFree_iff]
  refine ownDomainsShielded_of_alike ?_ dryRun
  intro m' hm' r' hr' hown
  rw [loweredPool, getAvailable_respell] at hm'
  obtain ⟨m, hm, rfl⟩ := List.mem_map.1 hm'
  obtain ⟨r, hr, rfl⟩ := List.mem_map.1 hr'
  have hmo : m ∈ o.values := Table.mem_values_iff.2 (mem_getAvailable.1 hm).1
  simp only [respell, spelling_lowered hmo] at hown ⊢
  have hsame : OwnDomain py m.email r :=
    (ownDomain_recased (h.pool m hmo) (h.recipients r hr) (py.again _) (py.again _)).1 hown
  rw [← lower_addressDomain (h.pool m hmo), ← lower_addressDomain (h.recipients r hr)]
  exact hsame

end Recasing

/-- No mailbox gets a recipient of its own domain exactly where every own-domain mailbox that
would take the recipient is shielded, and the case of the letters never matters exactly where
that is so in every case. -/
theorem own_domains_refused_iff (py : AddressLower) {o : MailboxOrchestrator}
    {recipients : List String} (h : Addressed o recipients) (dryRun : Bool) :
    (OwnDomainFree py o recipients dryRun ↔ OwnDomainsShielded py o recipients dryRun) ∧
    (CaseBlind py o recipients dryRun ↔
      ∀ o' recipients', Recased py o recipients o' recipients' →
        OwnDomainsShielded py o' recipients' dryRun) := by
  refine ⟨ownDomainFree_iff dryRun, ?_⟩
  constructor
  · intro hblind o' recipients' hrecased
    have hlowered := recased_lowered py o recipients
    rw [← ownDomainFree_iff]
    refine ownDomainFree_of_pairs h hlowered hrecased ?_ (lowered_ownDomainFree h dryRun)
    rw [hblind _ _ hrecased, hblind _ _ hlowered]
  · intro hshielded o' recipients' hrecased
    have hself := recased_self py o recipients
    exact pairs_recased h hrecased ((ownDomainFree_iff dryRun).2 (hshielded _ _ hself))
      ((ownDomainFree_iff dryRun).2 (hshielded _ _ hrecased))

/-! ### On ASCII addresses -/

theorem toLower_eq_at {c : Char} : c.toLower = '@' ↔ c = '@' := by
  rcases toLower_cases c with h | ⟨hupper, h⟩
  · rw [h]
  · constructor
    · intro he
      have hnat : c.toLower.toNat = 64 := congrArg Char.toNat he
      omega
    · rintro rfl
      rfl

theorem toLower_twice (c : Char) : c.toLower.toLower = c.toLower := by
  rcases toLower_cases c with h | ⟨hupper, h⟩
  · rw [h, h]
  · rcases toLower_cases c.toLower with h' | ⟨hupper', -⟩
    · exact h'
    · omega

def asciiAddressLower : AddressLower where
  toStrLower := asciiStrLower
  at_sign s t := by
    rw [← String.toList_inj]
    simp [asciiStrLower, asciiLower]
  count_at s := by
    simp only [asciiStrLower, asciiLower, String.toList_ofList, List.count, List.countP_map]
    refine List.countP_congr fun c _ => ?_
    simp [toLower_eq_at]
  again s := by
    simp only [asciiStrLower, asciiLower, String.toList_ofList, List.map_map,
      Function.comp_def, toLower_twice]

def acmePool : MailboxOrchestrator :=
  MailboxOrchestrator.new [{ id := "mb-1", email := "send@acme.com" }]

theorem acme_addressed : Addressed acmePool ["bob@acme.com", "ann@co.com"] :=
  ⟨by decide, by decide⟩

/-- In lower case the mailbox refuses its own domain. -/
theorem lower_case_refused :
    OwnDomainFree asciiAddressLower acmePool ["bob@acme.com", "ann@co.com"] false :=
  (own_domains_refused_iff asciiAddressLower acme_addressed false).1.2
    (ownDomainsShielded_of_alike (by decide +kernel) false)

/-- The same recipient in other letters is given to the mailbox of its own domain. -/
theorem upper_case_allocated :
    Addressed acmePool ["bob@ACME.com"] ∧
    ¬ OwnDomainFree asciiAddressLower acmePool ["bob@ACME.com"] false ∧
    ¬ CaseBlind asciiAddressLower acmePool ["bob@ACME.com"] false := by
  refine ⟨⟨by decide, by decide⟩, by decide +kernel, fun hblind => ?_⟩
  have hpairs := hblind (loweredPool asciiAddressLower acmePool) ["bob@acme.com"]
    (recased_lowered asciiAddressLower acmePool ["bob@ACME.com"])
  exact absurd hpairs (by decide +kernel)

end TrustCopilot.SelfDomains
