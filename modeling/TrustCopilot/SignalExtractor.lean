import TrustCopilot.Library.FirstByKey
import TrustCopilot.Library.PyText
import TrustCopilot.Library.Ranking
import Mathlib.Algebra.Order.Ring.Rat
import Mathlib.Data.Prod.Lex

/-! The extraction of signals from a text. Of each type one signal is kept for every 200
characters, by the first rule of the type that matches there: the table has the firmest first. -/
namespace TrustCopilot.SignalExtractor

open TrustCopilot.FirstByKey
open TrustCopilot.PyText
open TrustCopilot.Ranking

structure ExtractedSignal where
  signalType : String
  evidenceText : String
  confidence : ℚ
  matchedRule : String
  startOffset : ℕ := 0
  endOffset : ℕ := 0
  deriving DecidableEq, Repr

structure Extractor where
  signalType : String
  pattern : String
  baseConf : ℚ
  ruleId : String
  deriving DecidableEq, Repr

def extractors : List Extractor :=
  [⟨"soc2_announced",
      "soc\\s*2\\s*(type\\s*(i\x7b1,2\x7d|1|2))?\\s*(certified|compliant|report|attestation|audit)",
      92 / 100, "soc2_cert"⟩,
    ⟨"soc2_announced", "(achieved|completed|passed|received)\\s+soc\\s*2", 88 / 100,
      "soc2_achieved"⟩,
    ⟨"iso27001_mentioned", "iso\\s*27001\\s*(certified|compliant|certification|audit)", 90 / 100,
      "iso27001_cert"⟩,
    ⟨"iso27001_mentioned", "(achieved|maintain|renewed)\\s+iso\\s*27001", 85 / 100,
      "iso27001_achieved"⟩,
    ⟨"trust_center_launched",
      "(trust\\s*(center|portal|page)|security\\s*portal)\\s*" ++
        "(launch|live|now\\s*available|is\\s*now\\s*available|available)",
      85 / 100, "trust_launch"⟩,
    ⟨"trust_page_added",
      "(visit|check\\s*out|see)\\s*(our\\s+)?(trust|security)\\s*(center|page|portal)",
      70 / 100, "trust_page_ref"⟩,
    ⟨"security_hiring",
      "(security\\s*engineer|information\\s*security|infosec\\s*(analyst|engineer|manager))",
      80 / 100, "sec_hire_title"⟩,
    ⟨"compliance_hiring",
      "(compliance\\s*(manager|analyst|officer|lead)|grc\\s*(analyst|manager|lead))",
      80 / 100, "compliance_hire_title"⟩,
    ⟨"enterprise_customer_mention",
      "(enterprise|fortune\\s*500|large\\s*organization)s?\\s*(customer|client|deploy|trust)",
      70 / 100, "enterprise_cust"⟩,
    ⟨"vendor_security_mention",
      "(vendor\\s*security|third.?party\\s*(risk|security|audit)|security\\s*questionnaire)",
      75 / 100, "vendor_sec"⟩,
    ⟨"funding_round",
      "(raised|secured|closed)\\s+\\$?\\d+\\s*(m|million|mm)\\s*(in\\s+)?" ++
        "(series|seed|funding|round)",
      85 / 100, "funding"⟩,
    ⟨"upmarket_expansion",
      "(mov(e|ing)\\s*up.?market|enterprise\\s*(expansion|tier|ready|grade))",
      75 / 100, "upmarket"⟩,
    ⟨"procurement_review",
      "(procurement|security\\s*review|vendor\\s*assessment|due\\s*diligence)\\s*" ++
        "(process|requirement|checklist)",
      72 / 100, "procurement"⟩,
    ⟨"certification_milestone",
      "(hipaa|gdpr|fedramp|pci\\s*dss|ccpa)\\s*(certified|compliant|compliance|ready)",
      82 / 100, "cert_milestone"⟩,
    ⟨"negative_competitor",
      "(already\\s*(use|using|have)|powered\\s*by|partner\\s*with)\\s*" ++
        "(vanta|drata|secureframe|laika|sprinto|tugboat)",
      80 / 100, "neg_competitor"⟩,
    ⟨"negative_too_small", "\\b(1|2|3|4|5)\\s*employee|solo\\s*founder|bootstrapped\\s*solo",
      65 / 100, "neg_tiny"⟩,
    ⟨"negative_too_large",
      "\\b(10|20|50|100)\\s*,?\\s*000\\+?\\s*employee|\\bfortune\\s*(100|50)\\b",
      60 / 100, "neg_huge"⟩,
    ⟨"negative_stale", "(201[0-8]|2019|2020|2021)\\s*(annual|report|audit|certification)",
      55 / 100, "neg_stale_year"⟩]

/-- What `match.start()` and `match.end()` are of a match. -/
structure Span where
  start : ℕ
  stop : ℕ
  deriving DecidableEq, Repr

/-- `text[i:j]` for offsets that are not negative. -/
def slice (text : List Char) (i j : ℕ) : List Char := (text.take j).drop i

/-- A match lies within the text, and is not empty and has no white space at its ends. -/
structure IsMatch (text : List Char) (span : Span) : Prop where
  within : span.stop ≤ text.length
  first : ∃ c, (slice text span.start span.stop).head? = some c ∧ isSpace c = false
  last : ∃ c, (slice text span.start span.stop).getLast? = some c ∧ isSpace c = false

/-- The regular expressions of the table: the matches that `finditer` yields, in their order. -/
structure Regexes where
  finditer : String → String → List Span
  isMatch : ∀ rule ∈ extractors, ∀ text : String, ∀ span ∈ finditer rule.pattern text,
    IsMatch text.toList span

/-- The list and the set of the loops of `extract_signals`. -/
structure Extraction where
  results : List ExtractedSignal := []
  seen : List (String × ℕ) := []

def signalOf (text : String) (rule : Extractor) (span : Span) : ExtractedSignal :=
  -- `start - 80` is cut off at 0 as `max(0, start - 80)`
  let contextStart := span.start - 80
  let contextEnd := min text.toList.length (span.stop + 80)
  { signalType := rule.signalType
    evidenceText := String.ofList (stripChars (slice text.toList contextStart contextEnd))
    confidence := rule.baseConf
    matchedRule := rule.ruleId
    startOffset := span.start
    endOffset := span.stop }

def Extraction.add (text : String) (rule : Extractor) (e : Extraction) (span : Span) :
    Extraction :=
  let key := (rule.signalType, span.start / 200)
  if key ∈ e.seen then e
  else
    { results := e.results ++ [signalOf text rule span]
      seen := key :: e.seen }

/-- `(-confidence, start_offset)`, as a rank of the greatest. -/
def rank (s : ExtractedSignal) : ℚ ×ₗ ℤ := toLex (s.confidence, -(s.startOffset : ℤ))

def extractSignals (re : Regexes) (text : String) : List ExtractedSignal :=
  ranked rank (extractors.foldl (fun e rule =>
    (re.finditer rule.pattern text).foldl (Extraction.add text rule) e) {}).results

def blockOf (s : ExtractedSignal) : String × ℕ := (s.signalType, s.startOffset / 200)

/-- All matches of the rules as signals, in the order of the loops. -/
def candidates (re : Regexes) (text : String) : List ExtractedSignal :=
  extractors.flatMap fun rule => (re.finditer rule.pattern text).map (signalOf text rule)

section Statements

variable (re : Regexes) (text : String)

def MatchesIn (rule : Extractor) (block : ℕ) : Prop :=
  ∃ span ∈ re.finditer rule.pattern text, span.start / 200 = block

/-- The signal is that of a match in the block, by a rule of the type as firm as any that matches
there. -/
structure Best (signalType : String) (block : ℕ) (s : ExtractedSignal) : Prop where
  matched : ∃ rule ∈ extractors, rule.signalType = signalType ∧
    ∃ span ∈ re.finditer rule.pattern text, span.start / 200 = block ∧ s = signalOf text rule span
  highest : ∀ rule ∈ extractors, rule.signalType = signalType → MatchesIn re text rule block →
    rule.baseConf ≤ s.confidence

structure KeepsBest : Prop where
  one : ∀ signalType block,
    (∃ rule ∈ extractors, rule.signalType = signalType ∧ MatchesIn re text rule block) →
    ∃ s, (extractSignals re text).filter (fun s => blockOf s = (signalType, block)) = [s] ∧
      Best re text signalType block s
  noOther : ∀ s ∈ extractSignals re text, ∃ rule ∈ extractors,
    rule.signalType = s.signalType ∧ MatchesIn re text rule (s.startOffset / 200)
  evidence : ∀ s ∈ extractSignals re text,
    slice text.toList s.startOffset s.endOffset <:+: s.evidenceText.toList
  ordered : (extractSignals re text).Pairwise fun a b => b.confidence < a.confidence ∨
    b.confidence = a.confidence ∧ a.startOffset ≤ b.startOffset

end Statements

variable {re : Regexes} {text : String} {s c : ExtractedSignal}

/-! ### The loops -/

def keep (e : Extraction) (c : ExtractedSignal) : Extraction :=
  if blockOf c ∈ e.seen then e
  else { results := e.results ++ [c], seen := blockOf c :: e.seen }

theorem loops_eq (re : Regexes) (text : String) :
    (extractors.foldl (fun e rule =>
      (re.finditer rule.pattern text).foldl (Extraction.add text rule) e) {}).results =
      firstByKey blockOf (candidates re text) := by
  have hkeep : extractors.foldl (fun e rule =>
      (re.finditer rule.pattern text).foldl (Extraction.add text rule) e) {} =
      (candidates re text).foldl keep {} := by
    rw [candidates, List.foldl_flatMap]
    congr
    funext e rule
    rw [List.foldl_map]
    rfl
  rw [hkeep]
  let seen (e : Extraction) (k : String × ℕ) : Prop := k ∈ e.seen
  have hseen : ∀ k, ¬ seen {} k := fun _ => List.not_mem_nil
  have hloops : ((candidates re text).foldl keep {}).results =
      firstByKey blockOf (candidates re text) ∧ ∀ k, seen ((candidates re text).foldl keep {}) k ↔
        k ∈ (candidates re text).map blockOf := by
    refine foldl_firstByKey rfl hseen ?_ ?_ ?_ (candidates re text)
    · intro e c hc
      exact if_pos hc
    · intro e c hc
      exact congrArg Extraction.results (if_neg hc)
    · intro e c k hc
      have hstep : keep e c = ⟨e.results ++ [c], blockOf c :: e.seen⟩ := if_neg hc
      rw [hstep]
      exact List.mem_cons.trans or_comm
  exact hloops.1

theorem extractSignals_perm (re : Regexes) (text : String) :
    (extractSignals re text).Perm (firstByKey blockOf (candidates re text)) := by
  rw [extractSignals, loops_eq]
  exact ranked_perm rank _

theorem mem_candidates : c ∈ candidates re text ↔ ∃ rule ∈ extractors,
    ∃ span ∈ re.finditer rule.pattern text, signalOf text rule span = c := by
  simp only [candidates, List.mem_flatMap, List.mem_map]

theorem candidate_of_mem (h : s ∈ extractSignals re text) : s ∈ candidates re text :=
  mem_of_firstByKey ((extractSignals_perm re text).mem_iff.1 h)

/-! ### The firmest rule -/

/-- Of the rules of one type the firmest stands first. -/
theorem table_order : extractors.Pairwise fun a b =>
    a.signalType = b.signalType → b.baseConf ≤ a.baseConf := by
  decide +kernel

theorem candidates_order (re : Regexes) (text : String) : (candidates re text).Pairwise
    fun c d => blockOf c = blockOf d → d.confidence ≤ c.confidence := by
  rw [candidates, List.pairwise_flatMap]
  constructor
  · intro rule _
    rw [List.pairwise_map]
    exact List.pairwise_of_forall fun _ _ _ => le_refl _
  · refine table_order.imp fun {a b} hab c hc d hd hkey => ?_
    obtain ⟨span, -, rfl⟩ := List.mem_map.1 hc
    obtain ⟨span', -, rfl⟩ := List.mem_map.1 hd
    exact hab (congrArg Prod.fst hkey)

theorem highest_of_kept (hc : c ∈ firstByKey blockOf (candidates re text)) {d : ExtractedSignal}
    (hd : d ∈ candidates re text) (hkey : blockOf c = blockOf d) : d.confidence ≤ c.confidence := by
  rcases firstByKey_before (candidates_order re text) hc hd hkey with rfl | hle
  · exact le_refl _
  · exact hle

theorem best_of_mem {signalType : String} {block : ℕ} (h : s ∈ extractSignals re text)
    (hkey : blockOf s = (signalType, block)) : Best re text signalType block s := by
  have hkept := (extractSignals_perm re text).mem_iff.1 h
  constructor
  · obtain ⟨rule, hrule, span, hspan, rfl⟩ := mem_candidates.1 (candidate_of_mem h)
    exact ⟨rule, hrule, congrArg Prod.fst hkey, span, hspan, congrArg Prod.snd hkey, rfl⟩
  · rintro rule hrule rfl ⟨span, hspan, rfl⟩
    exact highest_of_kept hkept (mem_candidates.2 ⟨rule, hrule, span, hspan, rfl⟩) hkey

theorem one_of_match {rule : Extractor} {block : ℕ} (hrule : rule ∈ extractors)
    (h : MatchesIn re text rule block) : ∃ s,
    (extractSignals re text).filter (fun s => blockOf s = (rule.signalType, block)) = [s] := by
  obtain ⟨span, hspan, rfl⟩ := h
  have hin : signalOf text rule span ∈ candidates re text :=
    mem_candidates.2 ⟨rule, hrule, span, hspan, rfl⟩
  obtain ⟨s, hs⟩ := @firstByKey_unique _ _ _ blockOf _ _ hin
  have hperm := (extractSignals_perm re text).filter fun s =>
    blockOf s = (rule.signalType, span.start / 200)
  refine ⟨s, List.perm_singleton.1 (hperm.trans ?_)⟩
  rw [← hs]
  rfl

/-! ### The evidence -/

theorem slice_append {t : List Char} {i j k : ℕ} (hij : i ≤ j) (hjk : j ≤ k)
    (hj : j ≤ t.length) : slice t i j ++ slice t j k = slice t i k := by
  have hcut : t.take k = t.take j ++ (t.take k).drop j := by
    have hparts := List.take_append_drop j (t.take k)
    rw [List.take_take, min_eq_left hjk] at hparts
    exact hparts.symm
  have hlen : i ≤ (t.take j).length := by
    rw [List.length_take]
    omega
  rw [slice, slice, slice, hcut, List.drop_append_of_le_length hlen, ← hcut]

theorem evidence_of_match {rule : Extractor} {span : Span} (h : IsMatch text.toList span) :
    slice text.toList span.start span.stop <:+: (signalOf text rule span).evidenceText.toList := by
  obtain ⟨x, hx, hxs⟩ := h.first
  obtain ⟨y, hy, hys⟩ := h.last
  have hstart : span.start ≤ span.stop := by
    by_contra hlt
    have hempty : slice text.toList span.start span.stop = [] := by
      rw [slice, List.drop_eq_nil_iff, List.length_take]
      omega
    rw [hempty] at hx
    cases hx
  have hwithin := h.within
  have hcut : slice text.toList (span.start - 80) (min text.toList.length (span.stop + 80)) =
      slice text.toList (span.start - 80) span.start ++
        (slice text.toList span.start span.stop ++
          slice text.toList span.stop (min text.toList.length (span.stop + 80))) := by
    rw [slice_append hstart (by omega) hwithin, slice_append (by omega) (by omega) (by omega)]
  rw [signalOf, String.toList_ofList, hcut, stripChars_around _ _ hx hxs hy hys]
  exact ⟨_, _, by rw [List.append_assoc]⟩

/-! ### The result -/

theorem rank_le_iff {a b : ExtractedSignal} : rank b ≤ rank a ↔ b.confidence < a.confidence ∨
    b.confidence = a.confidence ∧ a.startOffset ≤ b.startOffset := by
  rw [rank, rank, Prod.Lex.toLex_le_toLex]
  simp only [neg_le_neg_iff, Int.ofNat_le]

/-- Of every type and block of 200 characters with a match the extraction keeps one signal, by a
rule as firm as any that matches there; its evidence has the match in it. -/
theorem keepsBest (re : Regexes) (text : String) : KeepsBest re text := by
  constructor
  · rintro signalType block ⟨rule, hrule, rfl, hmatch⟩
    obtain ⟨s, hs⟩ := one_of_match hrule hmatch
    have hin : s ∈ (extractSignals re text).filter
        fun s => blockOf s = (rule.signalType, block) := by
      rw [hs]
      exact List.mem_cons_self
    obtain ⟨hmem, hkey⟩ := List.mem_filter.1 hin
    exact ⟨s, hs, best_of_mem hmem (of_decide_eq_true hkey)⟩
  · intro s hs
    obtain ⟨rule, hrule, span, hspan, rfl⟩ := mem_candidates.1 (candidate_of_mem hs)
    exact ⟨rule, hrule, rfl, span, hspan, rfl⟩
  · intro s hs
    obtain ⟨rule, hrule, span, hspan, rfl⟩ := mem_candidates.1 (candidate_of_mem hs)
    exact evidence_of_match (re.isMatch rule hrule text span hspan)
  · apply (ranked_pairwise rank _).imp
    intro a b hab
    exact rank_le_iff.1 hab

/-! ### Two phrases -/

theorem isMatch_place {w text : List Char} {p : ℕ} (hplace : w <+: text.drop p)
    (hfirst : ∃ c, w.head? = some c ∧ isSpace c = false)
    (hlast : ∃ c, w.getLast? = some c ∧ isSpace c = false) : IsMatch text ⟨p, p + w.length⟩ := by
  have hslice : slice text p (p + w.length) = w := by
    rw [slice, List.drop_take, Nat.add_sub_cancel_left, ← List.prefix_iff_eq_take.1 hplace]
  have hlen := hplace.length_le
  rw [List.length_drop] at hlen
  have hpos : 0 < w.length := by
    obtain ⟨c, hc, -⟩ := hfirst
    exact List.length_pos_of_mem (List.mem_of_head? hc)
  refine ⟨?_, ?_, ?_⟩
  · change p + w.length ≤ text.length
    omega
  · rw [hslice]
    exact hfirst
  · rw [hslice]
    exact hlast

def placesOf (w text : List Char) : List Span :=
  ((List.range text.length).filter fun p => w.isPrefixOf (text.drop p)).map fun p =>
    ⟨p, p + w.length⟩

/-- One phrase for each of the two patterns for SOC 2. -/
def soc2Phrases (pattern : String) : List String :=
  (extractors.filter fun rule => rule.pattern = pattern).filterMap fun rule =>
    if rule.ruleId = "soc2_cert" then some "soc 2 report"
    else if rule.ruleId = "soc2_achieved" then some "passed soc 2"
    else none

theorem soc2Phrases_visible : ∀ rule ∈ extractors, ∀ w ∈ soc2Phrases rule.pattern,
    (∃ c, w.toList.head? = some c ∧ isSpace c = false) ∧
      ∃ c, w.toList.getLast? = some c ∧ isSpace c = false := by
  intro rule _ w hw
  obtain ⟨other, -, hphrase⟩ := List.mem_filterMap.1 hw
  split at hphrase
  · obtain rfl := Option.some.inj hphrase
    exact ⟨⟨'s', by decide⟩, 't', by decide⟩
  · split at hphrase
    · obtain rfl := Option.some.inj hphrase
      exact ⟨⟨'p', by decide⟩, '2', by decide⟩
    · cases hphrase

/-- What the patterns match in texts where nothing but the two phrases matches them. -/
def soc2Regexes : Regexes where
  finditer pattern text :=
    (soc2Phrases pattern).flatMap fun w => placesOf w.toList text.toList
  isMatch rule hrule text span hspan := by
    obtain ⟨w, hw, hplace⟩ := List.mem_flatMap.1 hspan
    obtain ⟨p, hp, rfl⟩ := List.mem_map.1 hplace
    obtain ⟨hfirst, hlast⟩ := soc2Phrases_visible rule hrule w hw
    exact isMatch_place (List.isPrefixOf_iff_prefix.1 (List.mem_filter.1 hp).2) hfirst hlast

/-- Both rules match in the first block, and the report, the firmer of the two, is kept. -/
theorem keepsBest_soc2_report : KeepsBest soc2Regexes "We passed soc 2 report season." ∧
    extractSignals soc2Regexes "We passed soc 2 report season." =
      [⟨"soc2_announced", "We passed soc 2 report season.", 92 / 100, "soc2_cert", 10, 22⟩] :=
  ⟨keepsBest soc2Regexes _, by decide +kernel⟩

end TrustCopilot.SignalExtractor
