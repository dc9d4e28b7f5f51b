import TrustCopilot.IcpScoring
import TrustCopilot.Library.FirstByKey
import TrustCopilot.Library.Ranking

/-! What troubles an account: the table of rules that read its signals and its size, and the pains
inferred from them. -/
namespace TrustCopilot.PainRules

open TrustCopilot.FirstByKey
open TrustCopilot.IcpScoring (PainType)
open TrustCopilot.Ranking
open TrustCopilot.Rounding

structure PainInference extends IcpScoring.PainInference where
  evidenceSignals : List String
  reasoning : String
  deriving DecidableEq, Repr

structure PainRule where
  painType : PainType
  required : List String
  sizeBands : List String
  baseConfidence : ℚ
  reasoning : String
  deriving DecidableEq, Repr

def painRules : List PainRule := [
  ⟨.firstEnterpriseReview, ["soc2_announced", "upmarket_expansion"], ["small", "mid"], 85 / 100,
    "First-time enterprise review: upmarket push with new SOC 2 effort"⟩,
  ⟨.firstEnterpriseReview, ["security_hiring", "upmarket_expansion"], ["small", "mid"], 75 / 100,
    "First security hire alongside enterprise push suggests first-time review"⟩,
  ⟨.questionnaireOverload, ["vendor_security_mention", "enterprise_customer_mention"], [],
    80 / 100, "Vendor security questionnaires piling up from enterprise customers"⟩,
  ⟨.questionnaireOverload, ["procurement_review"], ["mid", "growth"], 75 / 100,
    "Procurement review process mentions suggest questionnaire friction"⟩,
  ⟨.evidenceChaos, ["soc2_announced"], ["small", "mid"], 65 / 100,
    "Recently certified but likely lacks evidence automation"⟩,
  ⟨.trustCenterPressure, ["trust_center_launched"], [], 80 / 100,
    "Trust center launch signals buyer pressure for transparent security posture"⟩,
  ⟨.trustCenterPressure, ["trust_page_added"], [], 60 / 100,
    "Trust page exists but may lack automation"⟩,
  ⟨.complianceScaling, ["compliance_hiring"], ["growth", "enterprise"], 80 / 100,
    "Hiring compliance roles at scale signals growing compliance burden"⟩,
  ⟨.complianceScaling, ["iso27001_mentioned", "certification_milestone"], ["mid", "growth"],
    75 / 100, "Multiple certifications require scaling compliance operations"⟩,
  ⟨.certificationPrep, ["soc2_announced"], ["micro", "small"], 70 / 100,
    "Small company pursuing SOC 2 — likely in prep phase"⟩,
  ⟨.certificationPrep, ["compliance_hiring"], ["micro", "small"], 65 / 100,
    "Small company hiring compliance — preparing for certification"⟩,
  ⟨.vendorRiskFriction, ["vendor_security_mention"], [], 70 / 100,
    "Vendor security friction from customer requirements"⟩]

/-- A rule that names sizes takes an account of one of them, or of a size that is not known. -/
def fitsSize (sizeBand : String) (r : PainRule) : Bool :=
  r.sizeBands.isEmpty || r.sizeBands.contains sizeBand || sizeBand == "unknown"

def applies (signalTypes : List String) (sizeBand : String) (r : PainRule) : Bool :=
  r.required.all signalTypes.contains && fitsSize sizeBand r

def sizeMatch (sizeBand : String) (r : PainRule) : Bool :=
  r.sizeBands.isEmpty || r.sizeBands.contains sizeBand

def confidence (sizeBand : String) (r : PainRule) : ℚ :=
  r.baseConfidence * if sizeMatch sizeBand r then 1 else 8 / 10

def inference (signalTypes : List String) (sizeBand : String) (r : PainRule) : PainInference where
  painType := r.painType
  confidence := roundTo 2 (confidence sizeBand r)
  evidenceSignals := r.required.filter signalTypes.contains
  reasoning := r.reasoning

structure Inferred where
  results : List PainInference
  seenTypes : List PainType

def inferStep (signalTypes : List String) (sizeBand : String) (s : Inferred) (r : PainRule) :
    Inferred :=
  if r.painType ∈ s.seenTypes then s
  else if applies signalTypes sizeBand r then
    ⟨s.results ++ [inference signalTypes sizeBand r], r.painType :: s.seenTypes⟩
  else s

def unknownPain : PainInference where
  painType := .unknown
  confidence := 0
  evidenceSignals := []
  reasoning := "No pain type could be inferred from available signals"

def inferPain (signalTypes : List String) (sizeBand : String := "unknown") : List PainInference :=
  let results := ranked (fun p : PainInference => p.confidence)
    (painRules.foldl (inferStep signalTypes sizeBand) ⟨[], []⟩).results
  if results = [] then [unknownPain] else results

variable {signals signals' : List String} {band : String}

/-! ### The loop -/

def given (signals : List String) (band : String) (r : PainRule) : Option PainInference :=
  if applies signals band r then some (inference signals band r) else none

theorem loop_results (signals : List String) (band : String) (rules : List PainRule) :
    (rules.foldl (inferStep signals band) ⟨[], []⟩).results =
      firstByKey (fun p => p.painType) (rules.filterMap (given signals band)) := by
  have hgiven : ∀ {r : PainRule} {p : PainInference}, given signals band r = some p →
      applies signals band r = true ∧ inference signals band r = p := by
    intro r p h
    rw [given] at h
    split at h
    · next hfit => exact ⟨hfit, Option.some.inj h⟩
    · cases h
  refine (foldl_firstByKey_filterMap (fun s t => t ∈ s.seenTypes) rfl
    (fun t => List.not_mem_nil) ?_ ?_ ?_ ?_ rules).1
  · intro s r h
    have hfit : ¬ applies signals band r = true := by
      intro hfit
      simp [given, hfit] at h
    rw [inferStep, if_neg hfit, ite_self]
  · rintro s r p h hseen
    obtain ⟨-, rfl⟩ := hgiven h
    exact if_pos hseen
  · rintro s r p h hnew
    obtain ⟨hfit, rfl⟩ := hgiven h
    have hnew' : r.painType ∉ s.seenTypes := hnew
    rw [inferStep, if_neg hnew', if_pos hfit]
  · rintro s r p t h hnew
    obtain ⟨hfit, rfl⟩ := hgiven h
    have hnew' : r.painType ∉ s.seenTypes := hnew
    rw [inferStep, if_neg hnew', if_pos hfit, List.mem_cons]
    exact or_comm

theorem filterMap_given (signals : List String) (band : String) (rules : List PainRule) :
    rules.filterMap (given signals band) =
      (rules.filter (applies signals band)).map (inference signals band) := by
  induction rules with
  | nil => rfl
  | cons r rules ih =>
    by_cases hfit : applies signals band r = true
    · rw [List.filterMap_cons_some (by rw [given, if_pos hfit]), List.filter_cons_of_pos hfit, ih]
      rfl
    · rw [List.filterMap_cons_none (by rw [given, if_neg hfit]), List.filter_cons_of_neg hfit, ih]

def firing (signals : List String) (band : String) : List PainRule :=
  firstByKey PainRule.painType (painRules.filter (applies signals band))

def firedPains (signals : List String) (band : String) : List PainInference :=
  ranked (fun p : PainInference => p.confidence)
    ((firing signals band).map (inference signals band))

theorem inferPain_eq (signals : List String) (band : String) :
    inferPain signals band =
      if firedPains signals band = [] then [unknownPain] else firedPains signals band := by
  have hmap := firstByKey_map (fun p : PainInference => p.painType) (inference signals band)
    (fun _ => rfl) (painRules.filter (applies signals band))
  rw [inferPain, loop_results, filterMap_given, hmap]
  rfl

/-! ### The table -/

theorem painRules_known : ∀ r ∈ painRules, r.painType ≠ .unknown := by decide

theorem painRules_bands_known : ∀ r ∈ painRules, "unknown" ∉ r.sizeBands := by decide

theorem painRules_baseConfidence : ∀ r ∈ painRules, 0 < r.baseConfidence := by decide +kernel

/-- Of one type, the stronger rules stand first, and no rule with sizes before one without. -/
theorem painRules_ordered : painRules.Pairwise fun a b => a.painType = b.painType →
    b.baseConfidence ≤ a.baseConfidence ∧ (a.sizeBands = [] ∨ b.sizeBands ≠ []) := by
  decide +kernel

theorem confidence_falls {a b : PainRule} (hb : b ∈ painRules)
    (hbase : b.baseConfidence ≤ a.baseConfidence) (hbands : a.sizeBands = [] ∨ b.sizeBands ≠ [])
    (ha : fitsSize band a = true) : confidence band b ≤ confidence band a := by
  have hpos := painRules_baseConfidence b hb
  have hle : confidence band b ≤ b.baseConfidence := by
    rw [confidence]
    split <;> linarith
  by_cases hmatch : sizeMatch band a = true
  · rw [confidence.eq_def band a, if_pos hmatch, mul_one]
    exact hle.trans hbase
  · -- the size is not known, and both rules name sizes
    have hunknown : band = "unknown" := by
      simp only [fitsSize, sizeMatch, Bool.or_eq_true, beq_iff_eq] at ha hmatch
      tauto
    have hane : a.sizeBands ≠ [] := by
      intro h
      simp [sizeMatch, h] at hmatch
    have hbmatch : ¬ sizeMatch band b = true := by
      have hnot := painRules_bands_known b hb
      simp [sizeMatch, hunknown, hnot, hbands.resolve_left hane]
    rw [confidence, confidence, if_neg hmatch, if_neg hbmatch]
    linarith

theorem painRules_falls (signals : List String) (band : String) :
    painRules.Pairwise fun a b => a.painType = b.painType → applies signals band a = true →
      applies signals band b = true → confidence band b ≤ confidence band a := by
  refine (painRules_ordered.imp_of_mem ?_)
  intro a b _ hb hab hsame ha _
  obtain ⟨hbase, hbands⟩ := hab hsame
  rw [applies, Bool.and_eq_true] at ha
  exact confidence_falls hb hbase hbands ha.2

/-! ### What is inferred -/

theorem mem_firedPains {p : PainInference} :
    p ∈ firedPains signals band ↔ ∃ r ∈ firing signals band, inference signals band r = p := by
  rw [firedPains, mem_ranked, List.mem_map]

theorem firing_applies {r : PainRule} (h : r ∈ firing signals band) :
    r ∈ painRules ∧ applies signals band r = true :=
  List.mem_filter.1 (mem_of_firstByKey h)

theorem mem_inferPain_known {p : PainInference} (hp : p.painType ≠ .unknown) :
    p ∈ inferPain signals band ↔ p ∈ firedPains signals band := by
  rw [inferPain_eq]
  split
  · next hnone =>
    rw [hnone]
    refine iff_of_false (fun h => hp ?_) List.not_mem_nil
    rw [List.mem_singleton.1 h]
    rfl
  · exact Iff.rfl

theorem firedPains_known {p : PainInference} (h : p ∈ firedPains signals band) :
    p.painType ≠ .unknown := by
  obtain ⟨r, hr, rfl⟩ := mem_firedPains.1 h
  exact painRules_known r (firing_applies hr).1

theorem mem_inferPain_unknown {p : PainInference} (hp : p ∈ inferPain signals band)
    (hunknown : p.painType = .unknown) : inferPain signals band = [unknownPain] := by
  rw [inferPain_eq] at hp ⊢
  split at hp
  · next hnone => rw [if_pos hnone]
  · exact absurd hunknown (firedPains_known hp)

theorem inferPain_distinct (signals : List String) (band : String) :
    ((inferPain signals band).map fun p => p.painType).Nodup := by
  rw [inferPain_eq]
  split
  · exact List.nodup_singleton _
  · have hperm : ((firedPains signals band).map fun p => p.painType).Perm
        ((firing signals band).map PainRule.painType) := by
      refine ((ranked_perm _ _).map _).trans ?_
      rw [List.map_map]
      exact List.Perm.refl _
    exact hperm.nodup_iff.2 (nodup_firstByKey PainRule.painType _)

theorem inferPain_falls (signals : List String) (band : String) :
    (inferPain signals band).Pairwise (NotBelow fun p : PainInference => p.confidence) := by
  rw [inferPain_eq]
  split
  · exact List.pairwise_singleton _ _
  · exact ranked_pairwise _ _

/-- A pain is inferred exactly when a rule for it applies, once, with the rule that gives it the
most confidence; the pains fall in confidence, and the unknown one stands alone or not at all. -/
theorem inferPain_best (signals : List String) (band : String) :
    (∀ t, t ≠ .unknown → ((∃ p ∈ inferPain signals band, p.painType = t) ↔
      ∃ r ∈ painRules, applies signals band r = true ∧ r.painType = t)) ∧
    (∀ p ∈ inferPain signals band, p.painType ≠ .unknown →
      (∃ r ∈ painRules, applies signals band r = true ∧ inference signals band r = p) ∧
      ∀ r ∈ painRules, applies signals band r = true → r.painType = p.painType →
        roundTo 2 (confidence band r) ≤ p.confidence) ∧
    (∀ p ∈ inferPain signals band, p.painType = .unknown → inferPain signals band = [unknownPain]) ∧
    ((inferPain signals band).map fun p => p.painType).Nodup ∧
    (inferPain signals band).Pairwise (NotBelow fun p : PainInference => p.confidence) := by
  refine ⟨fun t ht => ⟨?_, ?_⟩, fun p hp hknown => ⟨?_, fun r hr hfit hsame => ?_⟩,
    fun p hp => mem_inferPain_unknown hp, inferPain_distinct signals band,
    inferPain_falls signals band⟩
  · rintro ⟨p, hp, rfl⟩
    obtain ⟨r, hr, rfl⟩ := mem_firedPains.1 ((mem_inferPain_known ht).1 hp)
    exact ⟨r, (firing_applies hr).1, (firing_applies hr).2, rfl⟩
  · rintro ⟨r, hr, hfit, rfl⟩
    obtain ⟨r', hr', hsame⟩ : ∃ r' ∈ firing signals band, r'.painType = r.painType :=
      firstByKey_covers (List.mem_filter.2 ⟨hr, hfit⟩)
    refine ⟨inference signals band r', ?_, hsame⟩
    refine (mem_inferPain_known ?_).2 (mem_firedPains.2 ⟨r', hr', rfl⟩)
    exact fun h => ht (hsame.symm.trans h)
  · obtain ⟨r, hr, rfl⟩ := mem_firedPains.1 ((mem_inferPain_known hknown).1 hp)
    exact ⟨r, (firing_applies hr).1, (firing_applies hr).2, rfl⟩
  · obtain ⟨r', hr', rfl⟩ := mem_firedPains.1 ((mem_inferPain_known hknown).1 hp)
    have hfalls : (painRules.filter (applies signals band)).Pairwise fun a b =>
        a.painType = b.painType → confidence band b ≤ confidence band a := by
      rw [List.pairwise_filter]
      exact (painRules_falls signals band).imp fun hab ha hb he => hab he ha hb
    have hr'' : r ∈ painRules.filter (applies signals band) := List.mem_filter.2 ⟨hr, hfit⟩
    rcases firstByKey_before hfalls hr' hr'' hsame.symm with rfl | hle
    · exact le_refl _
    · exact roundTo_mono 2 hle

/-! ### More signals -/

theorem applies_mono (h : signals ⊆ signals') (r : PainRule) (hr : applies signals band r = true) :
    applies signals' band r = true := by
  rw [applies, Bool.and_eq_true, List.all_eq_true] at hr ⊢
  refine ⟨fun s hs => ?_, hr.2⟩
  rw [List.contains_iff_mem]
  exact h (List.contains_iff_mem.1 (hr.1 s hs))

/-- With more signals no pain is lost, and none is held with less confidence. -/
theorem inferPain_rises (h : signals ⊆ signals') {p : PainInference}
    (hp : p ∈ inferPain signals band) (hknown : p.painType ≠ .unknown) :
    ∃ p' ∈ inferPain signals' band, p'.painType = p.painType ∧ p.confidence ≤ p'.confidence := by
  obtain ⟨r, hr, rfl⟩ := mem_firedPains.1 ((mem_inferPain_known hknown).1 hp)
  obtain ⟨r', hr', hsame, hle⟩ :=
    firstByKey_filter_rises (applies_mono h) (painRules_falls signals' band) hr
  have hpain : inference signals' band r' ∈ inferPain signals' band :=
    (mem_inferPain_known (painRules_known r' (firing_applies hr').1)).2
      (mem_firedPains.2 ⟨r', hr', rfl⟩)
  refine ⟨inference signals' band r', hpain, hsame, ?_⟩
  rcases hle with rfl | hle
  · exact le_refl _
  · exact roundTo_mono 2 hle

def pains (signals : List String) (band : String) : List IcpScoring.PainInference :=
  (inferPain signals band).map PainInference.toPainInference

def topConfidence (ps : List IcpScoring.PainInference) : ℚ :=
  ((IcpScoring.topPain ps).map IcpScoring.PainInference.confidence).getD 0

theorem confidence_nonneg {r : PainRule} (hr : r ∈ painRules) : 0 ≤ confidence band r := by
  have hpos := painRules_baseConfidence r hr
  rw [confidence]
  split <;> linarith

theorem inferPain_nonneg {p : PainInference} (hp : p ∈ inferPain signals band) :
    0 ≤ p.confidence := by
  by_cases hknown : p.painType = .unknown
  · rw [mem_inferPain_unknown hp hknown, List.mem_singleton] at hp
    rw [hp]
    exact le_refl 0
  · obtain ⟨r, hr, rfl⟩ := mem_firedPains.1 ((mem_inferPain_known hknown).1 hp)
    rw [← roundTo_zero (R := ℚ) 2]
    exact roundTo_mono 2 (confidence_nonneg (firing_applies hr).1)

theorem topConfidence_pains (signals : List String) (band : String) :
    (∀ p ∈ inferPain signals band, p.confidence ≤ topConfidence (pains signals band)) ∧
      ∃ p ∈ inferPain signals band, p.confidence = topConfidence (pains signals band) := by
  have hfalls := inferPain_falls signals band
  rw [topConfidence, pains]
  cases hl : inferPain signals band with
  | nil =>
    rw [inferPain_eq] at hl
    split at hl
    · cases hl
    · next hsome => exact absurd hl hsome
  | cons q qs =>
    rw [hl, List.pairwise_cons] at hfalls
    have htop : ((IcpScoring.topPain ((q :: qs).map PainInference.toPainInference)).map
        IcpScoring.PainInference.confidence).getD 0 = q.confidence := by
      rw [List.map_cons, IcpScoring.topPain]
      split
      · next hunknown =>
        have hq : q ∈ inferPain signals band := by rw [hl]; exact List.mem_cons_self
        have hone := mem_inferPain_unknown hq hunknown
        rw [hone, List.mem_singleton] at hq
        rw [hq]
        rfl
      · rfl
    rw [htop]
    refine ⟨List.forall_mem_cons.2 ⟨le_refl _, hfalls.1⟩, q, List.mem_cons_self, rfl⟩

theorem topConfidence_nonneg (signals : List String) (band : String) :
    0 ≤ topConfidence (pains signals band) := by
  obtain ⟨p, hp, heq⟩ := (topConfidence_pains signals band).2
  rw [← heq]
  exact inferPain_nonneg hp

theorem topConfidence_rises (h : signals ⊆ signals') :
    topConfidence (pains signals band) ≤ topConfidence (pains signals' band) := by
  obtain ⟨p, hp, heq⟩ := (topConfidence_pains signals band).2
  by_cases hknown : p.painType = .unknown
  · rw [mem_inferPain_unknown hp hknown, List.mem_singleton] at hp
    rw [← heq, hp]
    exact topConfidence_nonneg signals' band
  · obtain ⟨p', hp', -, hle⟩ := inferPain_rises h hp hknown
    rw [← heq]
    exact hle.trans ((topConfidence_pains signals' band).1 p' hp')

end TrustCopilot.PainRules
