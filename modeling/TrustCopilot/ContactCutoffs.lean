import TrustCopilot.ContactPlans

/-! Where a contact plan cuts its candidates off. They are ranked by one weighted sum and cut
off by another, the first of them is never cut off, and the reason that is given does not tell
the threshold from the depth. -/
namespace TrustCopilot.ContactCutoffs

open TrustCopilot.ContactDecision
open TrustCopilot.ContactPlans
open TrustCopilot.BuyerResolver

def Reaches (bp : BuyerPriority) (c : BuyerCandidate) : Prop :=
  minConfidenceThreshold ≤ combinedConfidence bp c

instance (bp : BuyerPriority) (c : BuyerCandidate) : Decidable (Reaches bp c) :=
  inferInstanceAs (Decidable (_ ≤ _))

def HasSlot (plan : ContactPlan) (bp : BuyerPriority) (i : ℕ) (c : BuyerCandidate) : Prop :=
  plan.slots[i]? = some (slotOf bp i c)

structure CutByThreshold (bp : BuyerPriority) (candidates : List BuyerCandidate)
    (plan : ContactPlan) : Prop where
  confident : ∀ s ∈ plan.slots, minConfidenceThreshold ≤ s.confidence
  kept : ∀ i c, (ranked bp candidates)[i]? = some c → i < maxFallbackDepth → Reaches bp c →
    HasSlot plan bp i c
  all_below : plan.stopReason = "all_candidates_below_threshold" ↔
    candidates ≠ [] ∧ ∀ c ∈ candidates, ¬ Reaches bp c
  remaining : plan.stopReason = "remaining_below_threshold" →
    ∀ i c, (ranked bp candidates)[i]? = some c → ¬ HasSlot plan bp i c → ¬ Reaches bp c

/-- No candidates, or the first few in the ranking, at most four, are those that reach the
threshold. -/
def FewReachFirst (bp : BuyerPriority) (candidates : List BuyerCandidate) : Prop :=
  candidates = [] ∨ ∃ n, 0 < n ∧ n ≤ maxFallbackDepth ∧
    ∀ i c, (ranked bp candidates)[i]? = some c → (Reaches bp c ↔ i < n)

/-! ### The loop -/

structure Filled (bp : BuyerPriority) (i : ℕ) (cs : List BuyerCandidate)
    (slots : List ContactSlot) : Prop where
  le : slots.length ≤ cs.length
  slot : ∀ k c, cs[k]? = some c → k < slots.length → slots[k]? = some (slotOf bp (i + k) c)
  reaches : ∀ k c, cs[k]? = some c → 0 < i + k → k < slots.length → Reaches bp c
  stopped : slots.length < cs.length →
    0 < i + slots.length ∧ ∃ c, cs[slots.length]? = some c ∧ ¬ Reaches bp c

variable {bp : BuyerPriority} {candidates : List BuyerCandidate} {plan : ContactPlan}

theorem filled_nil {i : ℕ} {cs : List BuyerCandidate}
    (h : 0 < cs.length → 0 < i ∧ ∃ c, cs[0]? = some c ∧ ¬ Reaches bp c) :
    Filled bp i cs [] where
  le := Nat.zero_le _
  slot _ _ _ hk := absurd hk (Nat.not_lt_zero _)
  reaches _ _ _ _ hk := absurd hk (Nat.not_lt_zero _)
  stopped := h

theorem filled_cons {i : ℕ} {c : BuyerCandidate} {rest : List BuyerCandidate}
    {slots : List ContactSlot} (h : Filled bp (i + 1) rest slots)
    (hc : 0 < i → Reaches bp c) : Filled bp i (c :: rest) (slotOf bp i c :: slots) := by
  constructor
  · exact Nat.succ_le_succ h.le
  · intro k d hd hk
    cases k with
    | zero =>
      cases hd
      rfl
    | succ k =>
      have hslot := h.slot k d hd (Nat.lt_of_succ_lt_succ hk)
      rw [Nat.add_right_comm] at hslot
      exact hslot
  · intro k d hd hpos hk
    cases k with
    | zero =>
      cases hd
      exact hc hpos
    | succ k => exact h.reaches k d hd (by omega) (Nat.lt_of_succ_lt_succ hk)
  · intro hlt
    obtain ⟨-, d, hd, hbelow⟩ := h.stopped (Nat.lt_of_succ_lt_succ hlt)
    refine ⟨?_, d, hd, hbelow⟩
    rw [List.length_cons]
    omega

theorem fillSlots_filled (bp : BuyerPriority) (i : ℕ) (cs : List BuyerCandidate) :
    Filled bp i cs (fillSlots bp i cs) := by
  induction cs generalizing i with
  | nil => exact filled_nil fun h => absurd h (Nat.lt_irrefl _)
  | cons c rest ih =>
    rw [fillSlots]
    by_cases hbreak : combinedConfidence bp c < minConfidenceThreshold ∧ 0 < i
    · rw [if_pos hbreak]
      exact filled_nil fun _ => ⟨hbreak.2, c, rfl, not_le.2 hbreak.1⟩
    · rw [if_neg hbreak]
      refine filled_cons (ih (i + 1)) fun hi => ?_
      exact not_lt.1 fun hlow => hbreak ⟨hlow, hi⟩

/-! ### The plan -/

structure Cutoff (bp : BuyerPriority) (ranking : List BuyerCandidate)
    (slots : List ContactSlot) : Prop where
  pos : 0 < slots.length
  le : slots.length ≤ ranking.length
  depth : slots.length ≤ maxFallbackDepth
  slot : ∀ k c, ranking[k]? = some c → k < slots.length → slots[k]? = some (slotOf bp k c)
  reaches : ∀ k c, ranking[k]? = some c → 0 < k → k < slots.length → Reaches bp c
  stopped : slots.length < ranking.length → slots.length < maxFallbackDepth →
    ∃ c, ranking[slots.length]? = some c ∧ ¬ Reaches bp c

theorem fillSlots_cutoff {ranking : List BuyerCandidate} (hne : ranking ≠ []) :
    Cutoff bp ranking (fillSlots bp 0 (ranking.take maxFallbackDepth)) := by
  have hf := fillSlots_filled bp 0 (ranking.take maxFallbackDepth)
  generalize fillSlots bp 0 (ranking.take maxFallbackDepth) = slots at hf
  have hlength : (ranking.take maxFallbackDepth).length = min maxFallbackDepth ranking.length :=
    List.length_take
  have hpos : 0 < ranking.length := List.length_pos_iff.2 hne
  have hdepth : 0 < maxFallbackDepth := by decide
  have hle := hf.le
  have htake : ∀ k, k < maxFallbackDepth →
      (ranking.take maxFallbackDepth)[k]? = ranking[k]? := fun k hk =>
    List.getElem?_take_of_lt hk
  constructor
  · by_contra hnone
    have hstop := (hf.stopped (by omega)).1
    omega
  · omega
  · omega
  · intro k c hc hk
    have hslot := hf.slot k c (by rw [htake k (by omega), hc]) hk
    rw [Nat.zero_add] at hslot
    exact hslot
  · intro k c hc hpos hk
    exact hf.reaches k c (by rw [htake k (by omega), hc]) (by omega) hk
  · intro hmore hlt
    obtain ⟨-, c, hc, hbelow⟩ := hf.stopped (by omega)
    rw [htake _ hlt] at hc
    exact ⟨c, hc, hbelow⟩

theorem Cutoff.hasSlot_iff {ranking : List BuyerCandidate} (h : Cutoff bp ranking plan.slots)
    {i : ℕ} {c : BuyerCandidate} (hc : ranking[i]? = some c) :
    HasSlot plan bp i c ↔ i < plan.slots.length := by
  constructor
  · intro hslot
    obtain ⟨hi, -⟩ := List.getElem?_eq_some_iff.1 hslot
    exact hi
  · exact h.slot i c hc

theorem Cutoff.confident_iff {ranking : List BuyerCandidate} {slots : List ContactSlot}
    (h : Cutoff bp ranking slots) :
    (∀ s ∈ slots, minConfidenceThreshold ≤ s.confidence) ↔
      ∀ k c, ranking[k]? = some c → k < slots.length → Reaches bp c := by
  constructor
  · intro hall k c hc hk
    exact hall _ (List.mem_of_getElem? (h.slot k c hc hk))
  · intro hall s hs
    obtain ⟨k, hk⟩ := List.mem_iff_getElem?.1 hs
    have hlt := (List.getElem?_eq_some_iff.1 hk).1
    obtain ⟨c, hc⟩ : ∃ c, ranking[k]? = some c :=
      ⟨_, List.getElem?_eq_getElem (lt_of_lt_of_le hlt h.le)⟩
    rw [h.slot k c hc hlt] at hk
    cases hk
    exact hall k c hc hlt

/-- The slots are those of the candidates that reach the threshold exactly if these are as many
as the slots and come first. -/
theorem Cutoff.exact_iff {ranking : List BuyerCandidate} {slots : List ContactSlot}
    (h : Cutoff bp ranking slots) :
    (∀ i c, ranking[i]? = some c → (Reaches bp c ↔ i < slots.length)) ↔
      ∃ n, 0 < n ∧ n ≤ maxFallbackDepth ∧
        ∀ i c, ranking[i]? = some c → (Reaches bp c ↔ i < n) := by
  constructor
  · intro hall
    exact ⟨slots.length, h.pos, h.depth, hall⟩
  · rintro ⟨n, hpos, hdepth, hall⟩ i c hc
    have hi := (List.getElem?_eq_some_iff.1 hc).1
    rw [hall i c hc]
    constructor
    · intro hin
      by_contra hout
      -- the loop stopped before this candidate, at one that is further in front
      obtain ⟨d, hd, hbelow⟩ := h.stopped (by omega) (by omega)
      exact hbelow ((hall _ d hd).2 (by omega))
    · intro hin
      by_contra hout
      have hc' := h.reaches i c hc (by omega) hin
      exact hout ((hall i c hc).1 hc')

theorem ranked_ne_nil (hne : candidates ≠ []) : ranked bp candidates ≠ [] := by
  have hperm : (ranked bp candidates).Perm candidates := ranked_perm
  intro h
  rw [h] at hperm
  exact hne hperm.nil_eq.symm

theorem buildContactPlan_cutoff (accountId : String) (bp : BuyerPriority)
    (hne : candidates ≠ []) (maxAttempts : ℤ) :
    Cutoff bp (ranked bp candidates)
      (buildContactPlan accountId candidates bp maxAttempts).slots := by
  rw [buildContactPlan, if_neg hne]
  exact fillSlots_cutoff (ranked_ne_nil hne)

/-- The first candidate has a slot, so the reason for a plan without slots is never given. -/
theorem buildContactPlan_reason (accountId : String) (bp : BuyerPriority)
    (hne : candidates ≠ []) (maxAttempts : ℤ) :
    (buildContactPlan accountId candidates bp maxAttempts).stopReason =
      if (buildContactPlan accountId candidates bp maxAttempts).slots.length <
          (ranked bp candidates).length then "remaining_below_threshold"
      else "" := by
  have hcut := buildContactPlan_cutoff accountId bp hne maxAttempts
  rw [buildContactPlan, if_neg hne] at hcut ⊢
  exact if_neg (List.length_pos_iff.1 hcut.pos)

theorem empty_cutByThreshold (accountId : String) (bp : BuyerPriority) (maxAttempts : ℤ) :
    CutByThreshold bp [] (buildContactPlan accountId [] bp maxAttempts) := by
  constructor
  · exact fun s hs => absurd hs List.not_mem_nil
  · exact fun i c hc => by cases hc
  · have hreason : "no_candidates_found" ≠ "all_candidates_below_threshold" := by decide
    exact iff_of_false hreason fun h => h.1 rfl
  · exact fun _ i c hc => by cases hc

/-- A plan goes by the threshold exactly if there are no candidates, or those that reach it are
the first few of the ranking and fit into the slots. -/
theorem cutByThreshold_iff (accountId : String) (candidates : List BuyerCandidate)
    (bp : BuyerPriority) (maxAttempts : ℤ) :
    CutByThreshold bp candidates (buildContactPlan accountId candidates bp maxAttempts) ↔
      FewReachFirst bp candidates := by
  by_cases hne : candidates = []
  · subst hne
    exact iff_of_true (empty_cutByThreshold accountId bp maxAttempts) (Or.inl rfl)
  · have hcut := buildContactPlan_cutoff accountId bp hne maxAttempts
    have hreason := buildContactPlan_reason accountId bp hne maxAttempts
    generalize buildContactPlan accountId candidates bp maxAttempts = plan at hcut hreason
    rw [FewReachFirst, or_iff_right hne, ← hcut.exact_iff]
    constructor
    · intro hsound i c hc
      have hi := (List.getElem?_eq_some_iff.1 hc).1
      constructor
      · intro hreach
        by_contra hout
        rw [if_pos (by omega)] at hreason
        exact hsound.remaining hreason i c hc (mt (hcut.hasSlot_iff hc).1 hout) hreach
      · exact hcut.confident_iff.1 hsound.confident i c hc
    · intro hall
      constructor
      · exact hcut.confident_iff.2 fun i c hc hi => (hall i c hc).2 hi
      · exact fun i c hc _ hreach => (hcut.hasSlot_iff hc).2 ((hall i c hc).1 hreach)
      · refine iff_of_false ?_ ?_
        · rw [hreason]
          split <;> decide
        · rintro ⟨-, hbelow⟩
          have hpos : 0 < (ranked bp candidates).length := lt_of_lt_of_le hcut.pos hcut.le
          have hfirst : (ranked bp candidates)[0]? = some (ranked bp candidates)[0] :=
            List.getElem?_eq_getElem hpos
          have hmem := ranked_perm.mem_iff.1 (List.mem_of_getElem? hfirst)
          exact hbelow _ hmem ((hall 0 _ hfirst).2 hcut.pos)
      · intro _ i c hc hnone hreach
        exact hnone ((hcut.hasSlot_iff hc).2 ((hall i c hc).1 hreach))

def technicalFirst : BuyerPriority := ⟨"cto", ["vp_eng"], "test"⟩

def buyer (name normalizedRole : String) (confidence : ℚ) : BuyerCandidate where
  name := name
  role := normalizedRole
  normalizedRole := normalizedRole
  confidence := confidence
  source := "team_page"

def fiveOfficers : List BuyerCandidate :=
  ["A", "B", "C", "D", "E"].map fun name => buyer name "cto" (75 / 100)

/-- A lone candidate below the threshold gets a slot and no reason, and a fifth strong one is
said to be below it. -/
theorem threshold_not_told :
    ¬ CutByThreshold technicalFirst [buyer "A" "sales" (30 / 100)]
      (buildContactPlan "acc-1" [buyer "A" "sales" (30 / 100)] technicalFirst 3) ∧
    ¬ CutByThreshold technicalFirst fiveOfficers
      (buildContactPlan "acc-1" fiveOfficers technicalFirst 3) := by
  constructor
  · intro hsound
    have hcut := buildContactPlan_cutoff "acc-1" technicalFirst
      (List.cons_ne_nil (buyer "A" "sales" (30 / 100)) []) 3
    have hfirst := hcut.confident_iff.1 hsound.confident 0 (buyer "A" "sales" (30 / 100))
      (by decide +kernel) hcut.pos
    exact absurd hfirst (by decide +kernel)
  · intro hsound
    have hne : fiveOfficers ≠ [] := List.cons_ne_nil _ _
    have hcut := buildContactPlan_cutoff "acc-1" technicalFirst hne 3
    have hc : (ranked technicalFirst fiveOfficers)[4]? = some (buyer "E" "cto" (75 / 100)) := by
      decide +kernel
    have hnone := mt (hcut.hasSlot_iff hc).1 (not_lt.2 hcut.depth)
    have hfifth := hsound.remaining (by decide +kernel) 4 _ hc hnone
    exact hfifth (by decide +kernel)

end TrustCopilot.ContactCutoffs
