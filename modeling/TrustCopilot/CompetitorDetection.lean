import TrustCopilot.CompetitorEvidence
import TrustCopilot.Library.FirstByKey
import TrustCopilot.Library.PyRegex
import TrustCopilot.Library.Ranking
import TrustCopilot.Library.RegexMatches
import TrustCopilot.Library.Rounding
import Mathlib.Data.Rat.Floor

/-! Competitors named in a text. A mention is weighed by what stands around its first occurrence,
and it takes words of use there for a direct competitor to stop the contact. `alnum` says which
characters outside ASCII are letters or digits. -/
namespace TrustCopilot.CompetitorDetection

open TrustCopilot.CompetitorEvidence
open TrustCopilot.ContactDecision
open TrustCopilot.PyRegex
open TrustCopilot.PyText
open TrustCopilot.Ranking
open TrustCopilot.RegexSearch
open TrustCopilot.Rounding

structure Competitor where
  name : String
  pattern : Regex Char
  effect : CompetitorEffect
  reason : String

variable (alnum : Char → Bool)

def competitors : List Competitor := [
  ⟨"vanta",
    bounded alnum (alts [phrase ["vanta"], phrase ["powered", "by", "vanta"],
      phrase ["vanta", "trust", "center"]]),
    .block, "Vanta is a direct competitor"⟩,
  ⟨"drata", bounded alnum (alts [phrase ["drata"], phrase ["powered", "by", "drata"]]),
    .block, "Drata is a direct competitor"⟩,
  ⟨"secureframe", bounded alnum (phrase ["secureframe"]),
    .block, "Secureframe is a direct competitor"⟩,
  ⟨"laika", bounded alnum (alts [phrase ["laika", "compliance"], phrase ["laika", "grc"]]),
    .soften, "Laika is a smaller competitor — reposition on value"⟩,
  ⟨"sprinto", bounded alnum (phrase ["sprinto"]),
    .soften, "Sprinto is a competitor — reposition on depth"⟩,
  ⟨"tugboat", bounded alnum (phrase ["tugboat", "logic"]),
    .soften, "Tugboat Logic is a legacy competitor"⟩,
  ⟨"thoropass", bounded alnum (phrase ["thoropass"]),
    .soften, "Thoropass is a competitor with different positioning"⟩,
  ⟨"anecdotes", bounded alnum (phrase ["anecdotes"]),
    .reposition, "Anecdotes targets enterprise GRC — different segment"⟩,
  ⟨"oneleet", bounded alnum (phrase ["oneleet"]),
    .reposition, "Oneleet focuses on pentesting — complementary"⟩,
  ⟨"very_good_security", bounded alnum (phrase ["very", "good", "security"]),
    .reposition, "VGS focuses on data security — different problem"⟩]

def inUse : Regex Char :=
  bounded alnum (alts [
    seqs [ilit "already", spaces, alts [ilit "use", ilit "using", ilit "deploy"]],
    phrase ["powered", "by"],
    seqs [ilit "partner", opt (ilit "ed"), spaces, ilit "with"],
    phrase ["built", "on"]])

def connected : Regex Char :=
  bounded alnum (alts [
    seqs [ilit "integrate", opt (ilit "d"), spaces, ilit "with"],
    seqs [ilit "connecte", opt (ilit "d"), spaces, ilit "to"],
    seqs [ilit "run", opt (ilit "s"), spaces, ilit "on"]])

def comparing : Regex Char :=
  bounded alnum (alts [
    seqs [ilit "compet", alts [ilit "e", ilit "itor", ilit "ition"]],
    seqs [ilit "vs", opt (lit ".")],
    ilit "versus",
    seqs [ilit "compare", opt (ilit "d"), spaces, ilit "to"],
    ilit "alternative"])

def usagePatterns : List (ℚ × Regex Char) :=
  [(15 / 100, inUse alnum), (10 / 100, connected alnum), (-10 / 100, comparing alnum)]

def window (text : List Char) (margin n : ℕ) (m : List Char) : List Char :=
  (text.take (min text.length (n + m.length + margin))).drop (n - margin)

def mentionConfidence (context : List Char) : ℚ :=
  max (3 / 10) (min (95 / 100) ((usagePatterns alnum).foldl
    (fun conf u => if found u.2 context then conf + u.1 else conf) (65 / 100)))

def hitOf (text : List Char) (url : String) (c : Competitor) (n : ℕ) (m : List Char) :
    CompetitorHit where
  competitor := c.name
  evidenceSnippet := String.ofList ((stripChars (window text 60 n m)).take 150)
  evidenceUrl := url
  confidence := roundTo 2 (mentionConfidence alnum (window text 120 n m))
  effect := c.effect
  reason := c.reason

structure Detected where
  hits : List CompetitorHit
  seen : List String

def detectStep (text : List Char) (url : String) (s : Detected) (c : Competitor) : Detected :=
  match firstMatch c.pattern none text with
  | none => s
  | some (n, m) =>
    if c.name ∈ s.seen then s
    else ⟨s.hits ++ [hitOf alnum text url c n m], c.name :: s.seen⟩

def detectCompetitors (text : String) (url : String := "") : List CompetitorHit :=
  ranked CompetitorHit.confidence
    ((competitors alnum).foldl (detectStep alnum text.toList url) ⟨[], []⟩).hits

/-! ### One hit for a competitor -/

def mention (text : List Char) (url : String) (c : Competitor) : Option CompetitorHit :=
  (firstMatch c.pattern none text).map fun f => hitOf alnum text url c f.1 f.2

theorem competitors_distinct : ((competitors alnum).map Competitor.name).Nodup := by
  have hnames : (competitors alnum).map Competitor.name =
      ["vanta", "drata", "secureframe", "laika", "sprinto", "tugboat", "thoropass", "anecdotes",
        "oneleet", "very_good_security"] := rfl
  rw [hnames]
  decide

variable {alnum}

theorem mention_name {text : List Char} {url : String} {c : Competitor} {h : CompetitorHit}
    (hm : mention alnum text url c = some h) : h.competitor = c.name ∧ h.effect = c.effect := by
  obtain ⟨f, -, rfl⟩ := Option.map_eq_some_iff.1 hm
  exact ⟨rfl, rfl⟩

/-- No competitor is in the table twice, so none is passed over. -/
theorem detect_loop (text : List Char) (url : String) {cs : List Competitor}
    (hcs : (cs.map Competitor.name).Nodup) :
    let s := cs.foldl (detectStep alnum text url) ⟨[], []⟩
    s.hits = cs.filterMap (mention alnum text url) ∧ s.seen ⊆ cs.map Competitor.name := by
  induction cs using List.reverseRecOn with
  | nil => exact ⟨rfl, List.Subset.refl _⟩
  | append_singleton cs c ih =>
    rw [List.map_append, List.nodup_append] at hcs
    obtain ⟨hhits, hseen⟩ := ih hcs.1
    have hnew : c.name ∉ (cs.foldl (detectStep alnum text url) ⟨[], []⟩).seen := by
      intro hold
      exact hcs.2.2 _ (hseen hold) _ (by simp) rfl
    simp only [List.foldl_append, List.foldl_cons, List.foldl_nil, List.filterMap_append,
      List.map_append]
    rw [detectStep]
    cases hf : firstMatch c.pattern none text with
    | none =>
      have hmention : [c].filterMap (mention alnum text url) = [] := by simp [mention, hf]
      rw [hmention, List.append_nil]
      exact ⟨hhits, List.Subset.trans hseen (List.subset_append_left _ _)⟩
    | some f =>
      have hmention : [c].filterMap (mention alnum text url) =
          [hitOf alnum text url c f.1 f.2] := by simp [mention, hf]
      rw [hmention]
      dsimp only
      rw [if_neg hnew, hhits]
      exact ⟨rfl, List.cons_subset.2
        ⟨by simp, List.Subset.trans hseen (List.subset_append_left _ _)⟩⟩

theorem mem_detectCompetitors {text url : String} {h : CompetitorHit} :
    h ∈ detectCompetitors alnum text url ↔
      ∃ c ∈ competitors alnum, mention alnum text.toList url c = some h := by
  rw [detectCompetitors, mem_ranked, (detect_loop _ _ (competitors_distinct alnum)).1,
    List.mem_filterMap]

theorem detectCompetitors_distinct (text url : String) :
    ((detectCompetitors alnum text url).map CompetitorHit.competitor).Nodup := by
  have hperm := (ranked_perm CompetitorHit.confidence
    ((competitors alnum).foldl (detectStep alnum text.toList url) ⟨[], []⟩).hits).map
      CompetitorHit.competitor
  rw [detectCompetitors, hperm.nodup_iff, (detect_loop _ _ (competitors_distinct alnum)).1]
  have hnames : ∀ cs : List Competitor,
      ((cs.filterMap (mention alnum text.toList url)).map CompetitorHit.competitor).Sublist
        (cs.map Competitor.name) := by
    intro cs
    induction cs with
    | nil => exact List.Sublist.refl _
    | cons c cs ih =>
      cases hm : mention alnum text.toList url c with
      | none =>
        rw [List.filterMap_cons_none hm, List.map_cons]
        exact ih.cons _
      | some h =>
        rw [List.filterMap_cons_some hm, List.map_cons, List.map_cons, (mention_name hm).1]
        exact ih.cons_cons _
  exact (competitors_distinct alnum).sublist (hnames _)

/-! ### What blocks -/

/-- Around the mention stand words of use, or words of a connection and none of a comparison. -/
def SaysInUse (alnum : Char → Bool) (context : List Char) : Prop :=
  found (inUse alnum) context = true ∨
    (found (connected alnum) context = true ∧ found (comparing alnum) context = false)

theorem mentionConfidence_eq (context : List Char) : mentionConfidence alnum context =
    65 / 100 + (if found (inUse alnum) context then 15 / 100 else 0) +
      (if found (connected alnum) context then 10 / 100 else 0) -
      (if found (comparing alnum) context then 10 / 100 else 0) := by
  simp only [mentionConfidence, usagePatterns, List.foldl_cons, List.foldl_nil]
  split_ifs <;> norm_num

theorem roundTo_hundredths {x : ℚ} {k : ℤ} (h : x = k / 10 ^ 2) : roundTo 2 x = x := by
  rw [h]
  exact roundTo_exact 2 k

theorem roundTo_mentionConfidence (context : List Char) :
    roundTo 2 (mentionConfidence alnum context) = mentionConfidence alnum context := by
  rw [mentionConfidence_eq]
  split_ifs
  · exact roundTo_hundredths (k := 80) (by norm_num)
  · exact roundTo_hundredths (k := 90) (by norm_num)
  · exact roundTo_hundredths (k := 70) (by norm_num)
  · exact roundTo_hundredths (k := 80) (by norm_num)
  · exact roundTo_hundredths (k := 65) (by norm_num)
  · exact roundTo_hundredths (k := 75) (by norm_num)
  · exact roundTo_hundredths (k := 55) (by norm_num)
  · exact roundTo_hundredths (k := 65) (by norm_num)

theorem blockThreshold_le_iff (context : List Char) :
    blockThreshold ≤ mentionConfidence alnum context ↔ SaysInUse alnum context := by
  rw [mentionConfidence_eq, SaysInUse, blockThreshold]
  cases found (inUse alnum) context <;> cases found (connected alnum) context <;>
    cases found (comparing alnum) context <;> norm_num

/-- A direct competitor whose first mention in the text has words of use around it. -/
def NamesBlocker (alnum : Char → Bool) (text : List Char) : Prop :=
  ∃ c ∈ competitors alnum, c.effect = .block ∧
    ∃ n m, firstMatch c.pattern none text = some (n, m) ∧ SaysInUse alnum (window text 120 n m)

theorem blocking_iff (text url : String) :
    hasBlockingCompetitor (detectCompetitors alnum text url) blockThreshold = true ↔
      NamesBlocker alnum text.toList := by
  rw [hasBlockingCompetitor, List.any_eq_true]
  constructor
  · rintro ⟨h, hh, hblock⟩
    obtain ⟨c, hc, hm⟩ := mem_detectCompetitors.1 hh
    obtain ⟨⟨n, m⟩, hfirst, rfl⟩ := Option.map_eq_some_iff.1 hm
    obtain ⟨heffect, hconf⟩ := of_decide_eq_true hblock
    refine ⟨c, hc, heffect, n, m, hfirst, (blockThreshold_le_iff _).1 ?_⟩
    rw [← roundTo_mentionConfidence]
    exact hconf
  · rintro ⟨c, hc, heffect, n, m, hfirst, huse⟩
    refine ⟨hitOf alnum text.toList url c n m,
      mem_detectCompetitors.2 ⟨c, hc, Option.map_eq_some_iff.2 ⟨_, hfirst, rfl⟩⟩,
      decide_eq_true ⟨heffect, ?_⟩⟩
    have hconf : blockThreshold ≤ mentionConfidence alnum _ := (blockThreshold_le_iff _).2 huse
    rw [← roundTo_mentionConfidence] at hconf
    exact hconf

variable {fmt : TextFormat} {icp : ICPScore} {urgency : UrgencyScore}
  {dealValue : DealValueEstimate} {plan : ContactPlan} {hits : List CompetitorHit}
  {hasHardNegatives : Bool} {memory : Option Recontact.AccountMemory} {now : ℤ}

theorem memoryChecks_reasons {result : ContactDecisionResult}
    (h : memoryChecks fmt memory now = .error result) :
    "blocking_competitor" ∉ result.reasonCodes := by
  cases memory with
  | none => cases h
  | some m =>
    rw [memoryChecks] at h
    split_ifs at h <;> cases h <;> simp [stop]

theorem memoryChecks_passed {reasons : List String}
    (h : memoryChecks fmt memory now = .ok reasons) : "blocking_competitor" ∉ reasons := by
  cases memory with
  | none =>
    cases h
    exact List.not_mem_nil
  | some m =>
    rw [memoryChecks] at h
    split_ifs at h <;> cases h <;> simp

theorem priorityTier_reason (score : ℚ) :
    "blocking_competitor" ≠ (priorityTier score).reason := by
  rw [priorityTier]
  split_ifs <;> simp

theorem approve_reasons {target : ContactSlot} {reasons : List String}
    (h : "blocking_competitor" ∉ reasons) :
    "blocking_competitor" ∉
      (approve fmt icp urgency dealValue target hits reasons).reasonCodes := by
  simp only [approve, List.mem_append, List.mem_singleton, not_or]
  refine ⟨⟨⟨h, ?_⟩, ?_⟩, priorityTier_reason _⟩
  · split_ifs <;> simp
  · split_ifs <;> simp

/-- The decision gives a competitor as its reason exactly when one blocks and nothing stopped the
contact before. -/
theorem blocking_reason_iff :
    "blocking_competitor" ∈ (makeContactDecision fmt icp urgency dealValue plan hits
        hasHardNegatives memory now).reasonCodes ↔
      hasHardNegatives = false ∧ hasBlockingCompetitor hits blockThreshold = true := by
  rw [makeContactDecision, hardBlocks]
  cases hasHardNegatives with
  | true => simp [stop]
  | false =>
    cases hasBlockingCompetitor hits blockThreshold with
    | true => simp [stop]
    | false =>
      refine iff_of_false ?_ (by simp)
      by_cases hbucket : icp.bucket = .outOfBounds
      · simp [hbucket, stop]
      · cases plan.slots with
        | nil => simp [hbucket, stop]
        | cons target slots =>
          simp only [hbucket, Bool.false_eq_true, if_false]
          cases hm : memoryChecks fmt memory now with
          | error result => exact memoryChecks_reasons hm
          | ok reasons => exact approve_reasons (memoryChecks_passed hm)

theorem strategyEffect_block_iff :
    competitorStrategyEffect hits = .block ↔ hasBlockingCompetitor hits blockThreshold = true := by
  rw [competitorStrategyEffect]
  constructor
  · intro h
    split_ifs at h with _ hblock
    · exact hblock
  · intro h
    have hne : hits ≠ [] := by
      rintro rfl
      simp [hasBlockingCompetitor] at h
    rw [if_neg hne, if_pos h]

/-- A text stops the contact for a competitor, and turns the strategy to a block, exactly when it
names a direct competitor with words of use around the first mention: the bare name never does,
however often it stands there. Each competitor is reported once. -/
theorem competitor_text_stops (text url : String) :
    let hits := detectCompetitors alnum text url
    let r := makeContactDecision fmt icp urgency dealValue plan hits hasHardNegatives memory now
    ("blocking_competitor" ∈ r.reasonCodes ↔
      hasHardNegatives = false ∧ NamesBlocker alnum text.toList) ∧
    (NamesBlocker alnum text.toList → r.decision = .noContact) ∧
    (competitorStrategyEffect hits = .block ↔ NamesBlocker alnum text.toList) ∧
    (hits.map CompetitorHit.competitor).Nodup := by
  refine ⟨?_, fun hnames => ?_, ?_, detectCompetitors_distinct text url⟩
  · rw [blocking_reason_iff, blocking_iff]
  · have hblock := (blocking_iff text url).2 hnames
    rw [makeContactDecision, hardBlocks]
    cases hasHardNegatives with
    | true => rfl
    | false =>
      rw [hblock]
      rfl
  · rw [strategyEffect_block_iff, blocking_iff]

end TrustCopilot.CompetitorDetection
