import TrustCopilot.Library.DictPatch
import TrustCopilot.Library.Rounding
import TrustCopilot.Library.TopCut
import Mathlib.Data.Rat.Floor

/-! The offline evaluation of a ranking: the holdout records are scored and sorted, and precision,
lift and the share of unsafe labels decide whether the gate is passed. Scores are exact
rationals. -/
namespace TrustCopilot.OfflineEvaluation

open TrustCopilot.OrderedDict
open TrustCopilot.DictPatch
open TrustCopilot.Ranking
open TrustCopilot.Rounding
open TrustCopilot.TopCut

structure FeatureVector where
  accountId : String
  icpScore : ℚ := 0
  urgency : ℚ := 0
  monetizationProb : ℚ := 0
  whyNowScore : ℚ := 0
  buyerConfidence : ℚ := 0
  painConfidence : ℚ := 0
  signalCount : ℕ := 0
  negativeCount : ℕ := 0
  sizeBandEncoded : ℕ := 0
  enterpriseMotion : ℚ := 0
  isB2b : ℚ := 0
  deriving DecidableEq, Repr

def deterministicScore (fv : FeatureVector) : ℚ :=
  let raw := fv.icpScore * (20 / 100) + fv.urgency * (25 / 100) +
    fv.monetizationProb * (20 / 100) + fv.whyNowScore * (15 / 100) +
    fv.buyerConfidence * (10 / 100) + fv.painConfidence * (10 / 100)
  let penalty := min (15 / 100) ((fv.negativeCount : ℚ) * (5 / 100))
  max 0 (min 1 (raw - penalty))

/-- `unsafeOutcome` is the label `unsafe`. -/
inductive DecisionLabel where
  | good
  | neutral
  | bad
  | unsafeOutcome
  | uncertain
  deriving DecidableEq, Repr

structure EvalRecord where
  accountId : String
  features : FeatureVector
  label : DecisionLabel
  predictedScore : ℚ := 0
  deriving DecidableEq, Repr

structure EvalReport where
  modelVersion : String
  totalSamples : ℕ := 0
  precisionAt10 : ℚ := 0
  precisionAt50 : ℚ := 0
  replyLift : ℚ := 0
  uploadLift : ℚ := 0
  unsafeRate : ℚ := 0
  metrics : List (String × ℚ) := []
  passedThresholds : Bool := true
  thresholdFailures : List String := []
  deriving DecidableEq, Repr

/-- How a failure prints a number: `:.2f`, and a threshold as it was given. -/
structure EvalFormat where
  twoDecimals : ℚ → String
  plain : ℚ → String

def defaultThresholds : Dict String ℚ :=
  ⟨[("min_precision_at_10", 60 / 100), ("max_unsafe_rate", 2 / 100)], by decide⟩

/-- The thresholds that are given, over the defaults. -/
def mergedThresholds (thresholds : Option (Dict String ℚ)) : Dict String ℚ :=
  assignAll defaultThresholds (thresholds.getD Dict.empty).entries

/-- The defaults have both thresholds, so neither is ever missing. -/
def threshold (thresholds : Option (Dict String ℚ)) (name : String) : ℚ :=
  ((mergedThresholds thresholds).get? name).getD 0

def isGood (r : EvalRecord) : Bool := r.label = .good

def isAcceptable (r : EvalRecord) : Bool := r.label = .good ∨ r.label = .neutral

def precisionAtK (records : List EvalRecord) (k : ℕ) : ℚ :=
  let topK := top EvalRecord.predictedScore k records
  if topK = [] then 0 else topK.countP isAcceptable / topK.length

def unsafeRate (records : List EvalRecord) : ℚ :=
  if records = [] then 0
  else (records.countP fun r => r.label = .unsafeOutcome) / records.length

def halfOf (records : List EvalRecord) : ℕ := max (records.length / 2) 1

def replyLift (records : List EvalRecord) : ℚ :=
  let baselineRate : ℚ := records.countP isGood / (max records.length 1 : ℕ)
  let topHalf := top EvalRecord.predictedScore (halfOf records) records
  let topRate : ℚ := topHalf.countP isGood / (max topHalf.length 1 : ℕ)
  topRate / max baselineRate (1 / 100)

def scored (scorer : FeatureVector → ℚ) (records : List EvalRecord) : List EvalRecord :=
  records.map fun r => { r with predictedScore := scorer r.features }

def failures (fmt : EvalFormat) (thresholds : Option (Dict String ℚ)) (p10 ur : ℚ) :
    List String :=
  let minPrecision := threshold thresholds "min_precision_at_10"
  let maxUnsafe := threshold thresholds "max_unsafe_rate"
  (if p10 < minPrecision then
    ["precision@10=" ++ fmt.twoDecimals p10 ++ " < " ++ fmt.plain minPrecision] else []) ++
  (if maxUnsafe < ur then
    ["unsafe_rate=" ++ fmt.twoDecimals ur ++ " > " ++ fmt.plain maxUnsafe] else [])

def runEvaluation (fmt : EvalFormat) (records : List EvalRecord) (scorer : FeatureVector → ℚ)
    (modelVersion : String := "deterministic") (thresholds : Option (Dict String ℚ) := none) :
    EvalReport :=
  let records := scored scorer records
  let p10 := precisionAtK records 10
  let p50 := precisionAtK records 50
  let ur := unsafeRate records
  let lift := replyLift records
  { modelVersion := modelVersion
    totalSamples := records.length
    precisionAt10 := roundTo 4 p10
    precisionAt50 := roundTo 4 p50
    replyLift := roundTo 2 lift
    unsafeRate := roundTo 4 ur
    metrics := [("precision@10", p10), ("precision@50", p50), ("unsafe_rate", ur),
      ("reply_lift", lift)]
    passedThresholds := (failures fmt thresholds p10 ur).length = 0
    thresholdFailures := failures fmt thresholds p10 ur }

theorem passedThresholds_iff (fmt : EvalFormat) (records : List EvalRecord)
    (scorer : FeatureVector → ℚ) (modelVersion : String) (thresholds : Option (Dict String ℚ)) :
    (runEvaluation fmt records scorer modelVersion thresholds).passedThresholds = true ↔
      threshold thresholds "min_precision_at_10" ≤ precisionAtK (scored scorer records) 10 ∧
        unsafeRate (scored scorer records) ≤ threshold thresholds "max_unsafe_rate" := by
  simp only [runEvaluation, failures, decide_eq_true_iff, List.length_eq_zero_iff,
    List.append_eq_nil_iff]
  refine and_congr ?_ ?_
  · split
    · next h => exact iff_of_false (by simp) (not_le.2 h)
    · next h => exact iff_of_true rfl (not_lt.1 h)
  · split
    · next h => exact iff_of_false (by simp) (not_le.2 h)
    · next h => exact iff_of_true rfl (not_lt.1 h)

/-! ### What the order of the records changes -/

section Order

variable {scorer : FeatureVector → ℚ} {records records' : List EvalRecord}

def scoreOf (scorer : FeatureVector → ℚ) (r : EvalRecord) : ℚ := scorer r.features

theorem countP_scored (q : DecisionLabel → Bool) :
    (scored scorer records).countP (fun r => q r.label) = records.countP fun r => q r.label := by
  rw [scored, List.countP_map]
  rfl

theorem countP_top_scored (q : DecisionLabel → Bool) (k : ℕ) :
    (top EvalRecord.predictedScore k (scored scorer records)).countP (fun r => q r.label) =
      topCount (scoreOf scorer) (fun r => q r.label) k records := by
  rw [scored, top_map, List.countP_map]
  rfl

theorem scored_length : (scored scorer records).length = records.length := List.length_map _

theorem precisionAtK_scored (k : ℕ) :
    precisionAtK (scored scorer records) k =
      topCount (scoreOf scorer) isAcceptable k records / (min k records.length : ℕ) := by
  have hlen : (top EvalRecord.predictedScore k (scored scorer records)).length =
      min k records.length := by rw [top_length, scored_length]
  have hcount : (top EvalRecord.predictedScore k (scored scorer records)).countP isAcceptable =
      topCount (scoreOf scorer) isAcceptable k records :=
    countP_top_scored (fun l => l = .good ∨ l = .neutral) k
  rw [precisionAtK]
  split
  · next hnil =>
    rw [← hlen, hnil]
    simp
  · rw [hlen, hcount]

theorem replyLift_scored :
    replyLift (scored scorer records) =
      (topCount (scoreOf scorer) isGood (halfOf records) records /
        (max (min (halfOf records) records.length) 1 : ℕ)) /
      max ((records.countP isGood : ℚ) / (max records.length 1 : ℕ)) (1 / 100) := by
  have hall : (scored scorer records).countP isGood = records.countP isGood :=
    countP_scored fun l => l = .good
  have htop : (top EvalRecord.predictedScore (halfOf records) (scored scorer records)).countP
      isGood = topCount (scoreOf scorer) isGood (halfOf records) records :=
    countP_top_scored (fun l => l = .good) (halfOf records)
  have hhalf : halfOf (scored scorer records) = halfOf records := by
    rw [halfOf, scored_length, halfOf]
  rw [replyLift, hhalf, top_length, scored_length, hall, htop]

theorem unsafeRate_perm (h : records'.Perm records) :
    unsafeRate (scored scorer records') = unsafeRate (scored scorer records) := by
  have hperm : (scored scorer records').Perm (scored scorer records) := h.map _
  have hnil : scored scorer records' = [] ↔ scored scorer records = [] := by
    rw [← List.length_eq_zero_iff, ← List.length_eq_zero_iff, hperm.length_eq]
  simp only [unsafeRate, hperm.countP_eq, hperm.length_eq, hnil]

/-- At each of the three cut-offs, records with one score on both sides are alike in what is
counted. -/
structure TiesAlike (scorer : FeatureVector → ℚ) (records : List EvalRecord) : Prop where
  at10 : Alike (scoreOf scorer) isAcceptable 10 records
  at50 : Alike (scoreOf scorer) isAcceptable 50 records
  atHalf : Alike (scoreOf scorer) isGood (halfOf records) records

theorem halfOf_perm (h : records'.Perm records) : halfOf records' = halfOf records := by
  rw [halfOf, h.length_eq, halfOf]

theorem precisionAtK_perm_iff {k : ℕ} (hk : 0 < k) (h : records'.Perm records) :
    precisionAtK (scored scorer records') k = precisionAtK (scored scorer records) k ↔
      topCount (scoreOf scorer) isAcceptable k records' =
        topCount (scoreOf scorer) isAcceptable k records := by
  rw [precisionAtK_scored, precisionAtK_scored, h.length_eq]
  rcases Nat.eq_zero_or_pos records.length with hzero | hpos
  · have hnil := List.length_eq_zero_iff.1 hzero
    subst hnil
    rw [h.eq_nil]
    exact iff_of_true rfl rfl
  · have hden : ((min k records.length : ℕ) : ℚ) ≠ 0 := by
      have : min k records.length ≠ 0 := by omega
      exact_mod_cast this
    rw [div_left_inj' hden, Nat.cast_inj]

theorem replyLift_perm_iff (h : records'.Perm records) :
    replyLift (scored scorer records') = replyLift (scored scorer records) ↔
      topCount (scoreOf scorer) isGood (halfOf records) records' =
        topCount (scoreOf scorer) isGood (halfOf records) records := by
  rw [replyLift_scored, replyLift_scored, halfOf_perm h, h.length_eq, h.countP_eq]
  have hbase : max ((records.countP isGood : ℚ) / (max records.length 1 : ℕ)) (1 / 100) ≠ 0 := by
    have hpos : (0 : ℚ) < 1 / 100 := by norm_num
    exact (lt_max_of_lt_right hpos).ne'
  have hden : ((max (min (halfOf records) records.length) 1 : ℕ) : ℚ) ≠ 0 := by
    have : max (min (halfOf records) records.length) 1 ≠ 0 := by omega
    exact_mod_cast this
  rw [div_left_inj' hbase, div_left_inj' hden, Nat.cast_inj]

/-- The share of unsafe labels never depends on the order of the records; the report as a whole
does not exactly where ties at the cut-offs are between alike records. -/
theorem evaluation_order_free_iff (fmt : EvalFormat) (records : List EvalRecord)
    (scorer : FeatureVector → ℚ) (modelVersion : String) (thresholds : Option (Dict String ℚ)) :
    (∀ records' : List EvalRecord, records'.Perm records →
      (runEvaluation fmt records' scorer modelVersion thresholds).unsafeRate =
        (runEvaluation fmt records scorer modelVersion thresholds).unsafeRate) ∧
    ((∀ records' : List EvalRecord, records'.Perm records →
      runEvaluation fmt records' scorer modelVersion thresholds =
        runEvaluation fmt records scorer modelVersion thresholds) ↔
      TiesAlike scorer records) := by
  constructor
  · intro records' hperm
    simp only [runEvaluation, unsafeRate_perm hperm]
  · constructor
    · intro h
      have hmetrics : ∀ records' : List EvalRecord, records'.Perm records →
          precisionAtK (scored scorer records') 10 = precisionAtK (scored scorer records) 10 ∧
          precisionAtK (scored scorer records') 50 = precisionAtK (scored scorer records) 50 ∧
          replyLift (scored scorer records') = replyLift (scored scorer records) := by
        intro records' hperm
        have he := congrArg EvalReport.metrics (h records' hperm)
        simp only [runEvaluation, List.cons.injEq, Prod.mk.injEq, true_and, and_true] at he
        exact ⟨he.1, he.2.1, he.2.2.2⟩
      refine ⟨?_, ?_, ?_⟩
      · exact alike_of_topCount fun ys hys =>
          (precisionAtK_perm_iff (by decide) hys).1 (hmetrics ys hys).1
      · exact alike_of_topCount fun ys hys =>
          (precisionAtK_perm_iff (by decide) hys).1 (hmetrics ys hys).2.1
      · exact alike_of_topCount fun ys hys => (replyLift_perm_iff hys).1 (hmetrics ys hys).2.2
    · intro h records' hperm
      have h10 : precisionAtK (scored scorer records') 10 =
          precisionAtK (scored scorer records) 10 :=
        (precisionAtK_perm_iff (by decide) hperm).2 (topCount_perm h.at10 hperm)
      have h50 : precisionAtK (scored scorer records') 50 =
          precisionAtK (scored scorer records) 50 :=
        (precisionAtK_perm_iff (by decide) hperm).2 (topCount_perm h.at50 hperm)
      have hlift : replyLift (scored scorer records') = replyLift (scored scorer records) :=
        (replyLift_perm_iff hperm).2 (topCount_perm h.atHalf hperm)
      have hlen : (scored scorer records').length = (scored scorer records).length := by
        rw [scored_length, scored_length, hperm.length_eq]
      simp only [runEvaluation, h10, h50, hlift, hlen, unsafeRate_perm hperm]

end Order

def evenVector (accountId : String) : FeatureVector where
  accountId := accountId
  icpScore := 5 / 10
  urgency := 5 / 10

def evenFile : List EvalRecord :=
  (["a1", "a2", "a3", "a4", "a5", "a6"].map fun id => ⟨id, evenVector id, .good, 0⟩) ++
    ["b1", "b2", "b3", "b4", "b5", "b6"].map fun id => ⟨id, evenVector id, .bad, 0⟩

def decimalFormat : EvalFormat := ⟨fun x => toString (roundTo 2 x), toString⟩

/-- The file passes the gate as it stands, and fails it read backwards. -/
theorem gate_reads_file_order :
    evenFile.reverse.Perm evenFile ∧
      (runEvaluation decimalFormat evenFile deterministicScore).passedThresholds = true ∧
      (runEvaluation decimalFormat evenFile.reverse deterministicScore).passedThresholds = false ∧
      (runEvaluation decimalFormat evenFile deterministicScore).precisionAt10 = 6 / 10 ∧
      (runEvaluation decimalFormat evenFile.reverse deterministicScore).precisionAt10 = 4 / 10 :=
  ⟨List.reverse_perm _, by decide +kernel, by decide +kernel, by decide +kernel,
    by decide +kernel⟩

end TrustCopilot.OfflineEvaluation
