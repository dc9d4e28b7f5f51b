import TrustCopilot.ContactDecision
import TrustCopilot.Library.FirstByKey
import TrustCopilot.Library.PyRegex
import TrustCopilot.Library.RegexMatches
import Mathlib.Algebra.Order.Ring.Rat

/-! The detector of what speaks against an account. Of each kind of signal the first rule that
matches is reported; one rule blocks the contact. -/
namespace TrustCopilot.NegativeSignals

open TrustCopilot.ContactDecision
open TrustCopilot.FirstByKey
open TrustCopilot.PyRegex
open TrustCopilot.PyText
open TrustCopilot.RegexSearch

inductive Severity where
  | soft
  | hard
  deriving DecidableEq, Repr

structure NegativeSignal where
  signalType : String
  reasonCode : String
  evidenceText : String
  confidence : ℚ
  severity : Severity
  deriving DecidableEq, Repr

structure NegativeRule where
  signalType : String
  reasonCode : String
  pattern : Regex Char
  confidence : ℚ
  severity : Severity

def upTo (r : Regex Char) : ℕ → Regex Char
  | 0 => .empty
  | n + 1 => opt (.seq r (upTo r n))

def digitIn (a b : Char) : Regex Char := .one fun x => a ≤ x && x ≤ b

variable (alnum : Char → Bool)

def competitorInUse : Regex Char :=
  seqs [alts [
      seqs [ilit "already", spaces, alts [ilit "use", ilit "using", ilit "have", ilit "deploy"]],
      seqs [ilit "powered", spaces, ilit "by"],
      seqs [ilit "partner", opt (ilit "ed"), spaces, ilit "with"]],
    spaces,
    alts [ilit "vanta", ilit "drata", ilit "secureframe", ilit "laika", ilit "sprinto",
      ilit "tugboat", ilit "anecdotes", ilit "thoropass"]]

def competitorMentioned : Regex Char :=
  seqs [bounded alnum (alts [ilit "vanta", ilit "drata", ilit "secureframe", ilit "laika",
      ilit "sprinto", ilit "tugboat", ilit "thoropass"]),
    .star dot,
    bounded alnum (alts [ilit "trust", ilit "compliance", ilit "soc"])]

def tooSmall : Regex Char :=
  alts [
    seqs [wordBoundary alnum, digitIn '1' '5', spaces, ilit "employee"],
    bounded alnum (seqs [ilit "solo", spaces, ilit "founder"]),
    bounded alnum (seqs [ilit "pre", opt dot, ilit "revenue"]),
    bounded alnum (seqs [ilit "bootstrapped", spaces, ilit "solo"])]

def tooLarge : Regex Char :=
  alts [
    seqs [wordBoundary alnum, alts [lit "50", lit "100"], spaces, opt (lit ","), spaces,
      lit "000", opt (lit "+"), spaces, ilit "employee"],
    bounded alnum (seqs [ilit "fortune", spaces, alts [lit "50", lit "100"]]),
    bounded alnum (seqs [ilit "global", spaces, ilit "enterprise"])]

def staleAnnouncement : Regex Char :=
  seqs [
    bounded alnum (alts [.seq (lit "201") (digitIn '0' '8'), lit "2019", lit "2020", lit "2021"]),
    upTo dot 30,
    bounded alnum (alts [ilit "announced", ilit "achieved", ilit "certified", ilit "launched",
      ilit "completed"])]

def oldPosting : Regex Char :=
  seqs [alts [ilit "posted", ilit "published", ilit "listed"], spaces,
    opt (alts [ilit "on", lit ":"]), spaces,
    alts [.seq (lit "201") (digitIn '0' '9'), .seq (lit "202") (digitIn '0' '2')]]

def negativeRules : List NegativeRule := [
  ⟨"negative_competitor", "competitor_in_use", competitorInUse, 85 / 100, .hard⟩,
  ⟨"negative_competitor", "competitor_mentioned", competitorMentioned alnum, 60 / 100, .soft⟩,
  ⟨"negative_too_small", "company_too_small", tooSmall alnum, 70 / 100, .soft⟩,
  ⟨"negative_too_large", "company_too_large", tooLarge alnum, 55 / 100, .soft⟩,
  ⟨"negative_stale", "stale_announcement", staleAnnouncement alnum, 50 / 100, .soft⟩,
  ⟨"negative_stale", "old_job_posting", oldPosting, 45 / 100, .soft⟩]

def context (text : List Char) (n : ℕ) (m : List Char) : String :=
  String.ofList (stripChars ((text.take (min text.length (n + m.length + 60))).drop (n - 60)))

structure Detected where
  results : List NegativeSignal
  seenTypes : List String

def detectStep (text : List Char) (s : Detected) (rule : NegativeRule) : Detected :=
  match firstMatch rule.pattern none text with
  | none => s
  | some (n, m) =>
    if rule.signalType ∈ s.seenTypes then s
    else
      ⟨s.results ++ [⟨rule.signalType, rule.reasonCode, context text n m, rule.confidence,
          rule.severity⟩], rule.signalType :: s.seenTypes⟩

def detectNegatives (text : String) : List NegativeSignal :=
  ((negativeRules alnum).foldl (detectStep text.toList) ⟨[], []⟩).results

def hasHardBlock (negatives : List NegativeSignal) : Bool :=
  negatives.any fun n => n.severity = .hard

variable {alnum}

/-! ### The loop -/

def signalOf (text : List Char) (rule : NegativeRule) : Option NegativeSignal :=
  (firstMatch rule.pattern none text).map fun f =>
    ⟨rule.signalType, rule.reasonCode, context text f.1 f.2, rule.confidence, rule.severity⟩

theorem signalOf_type {text : List Char} {rule : NegativeRule} {s : NegativeSignal}
    (h : signalOf text rule = some s) :
    s.signalType = rule.signalType ∧ s.severity = rule.severity := by
  obtain ⟨f, -, rfl⟩ := Option.map_eq_some_iff.1 h
  exact ⟨rfl, rfl⟩

theorem loop_results (text : List Char) (rules : List NegativeRule) :
    (rules.foldl (detectStep text) ⟨[], []⟩).results =
      firstByKey NegativeSignal.signalType (rules.filterMap (signalOf text)) := by
  refine (foldl_firstByKey_filterMap (fun s t => t ∈ s.seenTypes) rfl
    (fun t => List.not_mem_nil) ?_ ?_ ?_ ?_ rules).1
  · intro s rule h
    rw [detectStep, Option.map_eq_none_iff.1 h]
  · intro s rule n h hseen
    obtain ⟨f, hf, rfl⟩ := Option.map_eq_some_iff.1 h
    rw [detectStep, hf]
    exact if_pos hseen
  · intro s rule n h hnew
    obtain ⟨f, hf, rfl⟩ := Option.map_eq_some_iff.1 h
    rw [detectStep, hf]
    dsimp only
    rw [if_neg hnew]
  · intro s rule n t h hnew
    obtain ⟨f, hf, rfl⟩ := Option.map_eq_some_iff.1 h
    rw [detectStep, hf]
    dsimp only
    rw [if_neg hnew, List.mem_cons]
    exact or_comm

/-! ### The hard block -/

theorem firstMatch_isSome_iff {r : Regex Char} {text : List Char} :
    (firstMatch r none text).isSome = true ↔ found r text = true := by
  rw [found_iff]
  constructor
  · intro h
    obtain ⟨⟨n, m⟩, hf⟩ := Option.isSome_iff_exists.1 h
    obtain ⟨s, -, d, htext, hmatch⟩ := firstMatch_occurs hf
    exact ⟨s, _, _, htext, hmatch⟩
  · rintro ⟨s, t, d, htext, hmatch⟩
    have hafter : Matches r ⟨after none s, t⟩ d := by
      rw [after_eq_getLast?, Option.or_none]
      exact hmatch
    obtain ⟨k, u, hf, -⟩ := firstMatch_le htext hafter
    rw [hf]
    rfl

theorem plain_competitorInUse : Plain competitorInUse := by
  have hlits : ∀ words : List String, ∀ r ∈ words.map ilit, Plain r := by
    intro words r hr
    obtain ⟨w, -, rfl⟩ := List.mem_map.1 hr
    exact plain_ilit w
  have huse := plain_alts (hlits ["use", "using", "have", "deploy"])
  have hnames := plain_alts (hlits ["vanta", "drata", "secureframe", "laika", "sprinto", "tugboat",
    "anecdotes", "thoropass"])
  have hopt : Plain (opt (ilit "ed")) := ⟨plain_ilit _, trivial⟩
  refine plain_seqs ?_
  simp only [List.forall_mem_cons, List.not_mem_nil, false_implies, implies_true, and_true]
  refine ⟨plain_alts ?_, trivial, hnames⟩
  simp only [List.forall_mem_cons, List.not_mem_nil, false_implies, implies_true, and_true]
  exact ⟨⟨plain_ilit _, trivial, huse, trivial⟩, ⟨plain_ilit _, trivial, plain_ilit _, trivial⟩,
    ⟨plain_ilit _, hopt, trivial, plain_ilit _, trivial⟩⟩

/-- Only the first rule blocks, and nothing stands before it. -/
theorem hasHardBlock_iff (text : String) :
    hasHardBlock (detectNegatives alnum text) = true ↔
      found competitorInUse text.toList = true := by
  rw [hasHardBlock, List.any_eq_true, detectNegatives, loop_results, ← firstMatch_isSome_iff]
  constructor
  · rintro ⟨n, hn, hhard⟩
    obtain ⟨rule, hrule, hsignal⟩ := List.mem_filterMap.1 (mem_of_firstByKey hn)
    have hsev : rule.severity = .hard :=
      (signalOf_type hsignal).2.symm.trans (of_decide_eq_true hhard)
    have hfirst : rule.pattern = competitorInUse := by
      simp only [negativeRules, List.mem_cons, List.not_mem_nil, or_false] at hrule
      rcases hrule with rfl | rfl | rfl | rfl | rfl | rfl
      · rfl
      all_goals cases hsev
    obtain ⟨f, hf, -⟩ := Option.map_eq_some_iff.1 hsignal
    rw [← hfirst, hf]
    rfl
  · intro h
    obtain ⟨f, hf⟩ := Option.isSome_iff_exists.1 h
    refine ⟨⟨"negative_competitor", "competitor_in_use", context text.toList f.1 f.2, 85 / 100,
      .hard⟩, ?_, rfl⟩
    rw [negativeRules, List.filterMap_cons_some (by rw [signalOf, hf]; rfl)]
    exact mem_firstByKey_cons.2 (Or.inl rfl)

theorem detectNegatives_distinct (text : String) :
    ((detectNegatives alnum text).map NegativeSignal.signalType).Nodup := by
  rw [detectNegatives, loop_results]
  exact nodup_firstByKey _ _

/-- A text that blocks the contact blocks it inside every longer text, whatever the score and the
memory say; and of each kind one signal is reported. -/
theorem hard_block_spreads (fmt : TextFormat) (icp : ICPScore) (urgency : UrgencyScore)
    (dealValue : DealValueEstimate) (plan : ContactPlan) (hits : List CompetitorHit)
    (memory : Option Recontact.AccountMemory) (now : ℤ) (before text behind : String)
    (h : hasHardBlock (detectNegatives alnum text) = true) :
    let negatives := detectNegatives alnum (before ++ text ++ behind)
    let r := makeContactDecision fmt icp urgency dealValue plan hits (hasHardBlock negatives) memory
      now
    hasHardBlock negatives = true ∧ r.decision = .noContact ∧
      r.reasonCodes = ["hard_negative_signal"] ∧
      (negatives.map NegativeSignal.signalType).Nodup := by
  have hlonger : hasHardBlock (detectNegatives alnum (before ++ text ++ behind)) = true := by
    rw [hasHardBlock_iff, found_plain_iff plain_competitorInUse] at h ⊢
    obtain ⟨m, hm, hacc⟩ := h
    refine ⟨m, hm.trans ?_, hacc⟩
    exact ⟨before.toList, behind.toList, by rw [String.toList_append, String.toList_append]⟩
  intro negatives r
  have hr : r = stop .noContact ["hard_negative_signal"]
      "Blocked: hard negative signal detected" := by
    simp only [r, negatives, hlonger]
    rfl
  rw [hr]
  exact ⟨hlonger, rfl, rfl, detectNegatives_distinct _⟩

theorem hard_block_spreads_vanta :
    let negatives := detectNegatives (fun _ => false) ("Acme is " ++ "powered by Vanta" ++ " now.")
    let r := makeContactDecision ⟨fun _ => "", fun _ => ""⟩ ⟨0, .outOfBounds, [], [], ""⟩
      ⟨0, 0, "", ""⟩ ⟨0, "low", 0, "starter", ""⟩ { accountId := "acc-1" } []
      (hasHardBlock negatives) none 0
    hasHardBlock negatives = true ∧ r.decision = .noContact ∧
      r.reasonCodes = ["hard_negative_signal"] ∧
      (negatives.map NegativeSignal.signalType).Nodup :=
  hard_block_spreads _ _ _ _ _ _ _ _ _ _ _ (by rw [hasHardBlock_iff]; decide +kernel)

end TrustCopilot.NegativeSignals
