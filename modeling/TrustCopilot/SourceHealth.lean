import TrustCopilot.Library.OrderedDict
import TrustCopilot.Library.Trace
import Mathlib.Algebra.Order.Field.Basic
import Mathlib.Algebra.Field.Rat
import Mathlib.Algebra.Order.Ring.Rat

/-! The health of the sources: counters that every fetch moves, the rates read off them and the
status. Rates are exact rationals; the clock is an input. -/
namespace TrustCopilot.SourceHealth

open TrustCopilot.OrderedDict
open TrustCopilot.Trace

inductive HealthStatus where
  | healthy
  | stale
  | noisy
  | blocked
  | failing
  deriving DecidableEq, Repr

structure FetchCounters where
  totalFetches : ℕ := 0
  successfulFetches : ℕ := 0
  parseSuccesses : ℕ := 0
  duplicatesFound : ℕ := 0
  freshSignals : ℕ := 0
  deriving DecidableEq, Repr

structure SourceHealthMetrics extends FetchCounters where
  sourceId : String
  sourceUrl : String := ""
  lastGoodCrawl : Option ℤ := none
  status : HealthStatus := .healthy
  deriving DecidableEq, Repr

/-- `part / max(whole, 1)` -/
def rate (part whole : ℕ) : ℚ := part / (max whole 1 : ℕ)

namespace FetchCounters

variable (c : FetchCounters)

def fetchSuccessRate : ℚ := rate c.successfulFetches c.totalFetches

def parseSuccessRate : ℚ := rate c.parseSuccesses c.successfulFetches

def duplicateRate : ℚ := rate c.duplicatesFound (c.freshSignals + c.duplicatesFound)

def signalYield : ℚ := rate c.freshSignals c.totalFetches

def computeStatus : HealthStatus :=
  if c.fetchSuccessRate < 5 / 10 then .failing
  else if 8 / 10 < c.duplicateRate then .noisy
  else if c.signalYield < 5 / 100 ∧ 10 < c.totalFetches then .stale
  else .healthy

end FetchCounters

structure FetchCall where
  now : ℤ
  sourceId : String
  sourceUrl : String := ""
  success : Bool := true
  parsed : Bool := true
  duplicates : ℕ := 0
  fresh : ℕ := 0
  deriving DecidableEq, Repr

def FetchCounters.count (c : FetchCounters) (call : FetchCall) : FetchCounters where
  totalFetches := c.totalFetches + 1
  successfulFetches := if call.success then c.successfulFetches + 1 else c.successfulFetches
  parseSuccesses := if call.parsed then c.parseSuccesses + 1 else c.parseSuccesses
  duplicatesFound := c.duplicatesFound + call.duplicates
  freshSignals := c.freshSignals + call.fresh

abbrev SourceHealthService := Table SourceHealthMetrics.sourceId

def metricsFor (s : SourceHealthService) (call : FetchCall) : SourceHealthMetrics :=
  (s.get? call.sourceId).getD { sourceId := call.sourceId, sourceUrl := call.sourceUrl }

def SourceHealthMetrics.fetched (m : SourceHealthMetrics) (call : FetchCall) :
    SourceHealthMetrics where
  toFetchCounters := m.toFetchCounters.count call
  sourceId := m.sourceId
  sourceUrl := m.sourceUrl
  lastGoodCrawl := if call.success then some call.now else m.lastGoodCrawl
  status := (m.toFetchCounters.count call).computeStatus

def recordFetch (s : SourceHealthService) (call : FetchCall) : SourceHealthService :=
  s.save ((metricsFor s call).fetched call)

def getHealth (s : SourceHealthService) (sourceId : String) : Option SourceHealthMetrics :=
  s.get? sourceId

def unhealthySources (s : SourceHealthService) : List SourceHealthMetrics :=
  s.values.filter fun m => m.status ≠ .healthy

theorem mem_unhealthySources {s : SourceHealthService} {m : SourceHealthMetrics} :
    m ∈ unhealthySources s ↔ (∃ id, getHealth s id = some m) ∧ m.status ≠ .healthy := by
  rw [unhealthySources, List.mem_filter, decide_eq_true_iff]
  exact and_congr_left' Dict.mem_values_iff

def run (calls : List FetchCall) : SourceHealthService :=
  runTrace recordFetch Table.empty calls

/-! ### What the counters count -/

def callsFor (id : String) (calls : List FetchCall) : List FetchCall :=
  calls.filter fun call => call.sourceId = id

def tally (calls : List FetchCall) : FetchCounters where
  totalFetches := calls.length
  successfulFetches := calls.countP FetchCall.success
  parseSuccesses := calls.countP FetchCall.parsed
  duplicatesFound := (calls.map FetchCall.duplicates).sum
  freshSignals := (calls.map FetchCall.fresh).sum

theorem tally_concat (calls : List FetchCall) (call : FetchCall) :
    tally (calls ++ [call]) = (tally calls).count call := by
  simp only [tally, FetchCounters.count, List.length_append, List.length_singleton,
    List.countP_append, List.countP_singleton, List.map_append, List.map_singleton,
    List.sum_append, List.sum_singleton, FetchCounters.mk.injEq, true_and, and_true]
  constructor <;> split <;> simp

theorem tally_perm {calls calls' : List FetchCall} (h : calls'.Perm calls) :
    tally calls' = tally calls := by
  simp only [tally, h.length_eq, h.countP_eq, (h.map _).sum_eq]

theorem callsFor_concat (id : String) (calls : List FetchCall) (call : FetchCall) :
    callsFor id (calls ++ [call]) =
      if call.sourceId = id then callsFor id calls ++ [call] else callsFor id calls := by
  rw [callsFor, List.filter_append, callsFor]
  split
  · next h => simp [h]
  · next h => simp [h]

structure Recorded (calls : List FetchCall) (id : String) (s : SourceHealthService) : Prop where
  absent : s.get? id = none ↔ callsFor id calls = []
  counters : ∀ m, s.get? id = some m → m.toFetchCounters = tally (callsFor id calls)
  status : ∀ m, s.get? id = some m → m.status = m.toFetchCounters.computeStatus

theorem metricsFor_sourceId (s : SourceHealthService) (call : FetchCall) :
    (metricsFor s call).sourceId = call.sourceId := by
  rw [metricsFor]
  cases h : s.get? call.sourceId with
  | none => rfl
  | some m => exact Table.key_of_get? h

theorem recordFetch_own (s : SourceHealthService) (call : FetchCall) :
    ∃ m, (recordFetch s call).get? call.sourceId = some m ∧
      m.toFetchCounters = (metricsFor s call).toFetchCounters.count call ∧
      m.status = m.toFetchCounters.computeStatus := by
  refine ⟨(metricsFor s call).fetched call, ?_, rfl, rfl⟩
  rw [recordFetch, Table.get?_save]
  exact if_pos (metricsFor_sourceId s call).symm

theorem recordFetch_other (s : SourceHealthService) {call : FetchCall} {id : String}
    (h : id ≠ call.sourceId) : (recordFetch s call).get? id = s.get? id := by
  rw [recordFetch, Table.get?_save_other]
  exact fun hid => h (hid.trans (metricsFor_sourceId s call))

theorem run_recorded (calls : List FetchCall) (id : String) : Recorded calls id (run calls) := by
  induction calls using List.reverseRecOn with
  | nil =>
    refine ⟨iff_of_true rfl rfl, ?_, ?_⟩
    · intro m h
      cases h
    · intro m h
      cases h
  | append_singleton calls call ih =>
    rw [run, runTrace_concat]
    change Recorded (calls ++ [call]) id (recordFetch (run calls) call)
    by_cases hid : call.sourceId = id
    · subst hid
      obtain ⟨m, hm, hcounters, hstatus⟩ := recordFetch_own (run calls) call
      have hbefore : (metricsFor (run calls) call).toFetchCounters =
          tally (callsFor call.sourceId calls) := by
        rw [metricsFor]
        cases hget : (run calls).get? call.sourceId with
        | none => rw [ih.absent.1 hget]; rfl
        | some m => exact ih.counters m hget
      constructor
      · rw [hm, callsFor_concat, if_pos rfl]
        exact iff_of_false nofun (by simp)
      · intro m' hm'
        rw [hm] at hm'
        cases hm'
        rw [callsFor_concat, if_pos rfl, tally_concat, hcounters, hbefore]
      · intro m' hm'
        rw [hm] at hm'
        cases hm'
        exact hstatus
    · have hsame := recordFetch_other (run calls) (Ne.symm hid)
      constructor
      · rw [hsame, callsFor_concat, if_neg hid]
        exact ih.absent
      · rw [hsame, callsFor_concat, if_neg hid]
        exact ih.counters
      · rw [hsame]
        exact ih.status

/-! ### Sound counters -/

theorem rate_bounds {part whole : ℕ} (h : part ≤ whole) :
    0 ≤ rate part whole ∧ rate part whole ≤ 1 := by
  have hpos : (0 : ℚ) < (max whole 1 : ℕ) := by
    have : 0 < max whole 1 := by omega
    exact_mod_cast this
  constructor
  · exact div_nonneg (Nat.cast_nonneg part) hpos.le
  · rw [rate, div_le_one hpos]
    have : part ≤ max whole 1 := by omega
    exact_mod_cast this

/-- No counter exceeds the one it is divided by, and the rates are between 0 and 1. -/
structure SoundCounters (c : FetchCounters) : Prop where
  fetched : c.successfulFetches ≤ c.totalFetches
  parsed : c.parseSuccesses ≤ c.successfulFetches
  fetchRate : 0 ≤ c.fetchSuccessRate ∧ c.fetchSuccessRate ≤ 1
  parseRate : 0 ≤ c.parseSuccessRate ∧ c.parseSuccessRate ≤ 1
  duplicateRate : 0 ≤ c.duplicateRate ∧ c.duplicateRate ≤ 1

theorem soundCounters_tally_iff {calls : List FetchCall} :
    SoundCounters (tally calls) ↔
      calls.countP FetchCall.parsed ≤ calls.countP FetchCall.success := by
  constructor
  · intro h
    exact h.parsed
  · intro h
    have hfetched : (tally calls).successfulFetches ≤ (tally calls).totalFetches :=
      List.countP_le_length
    exact ⟨hfetched, h, rate_bounds hfetched, rate_bounds h, rate_bounds (Nat.le_add_left _ _)⟩

def report (s : SourceHealthService) (id : String) : Option (FetchCounters × HealthStatus) :=
  (s.get? id).map fun m => (m.toFetchCounters, m.status)

theorem report_run (calls : List FetchCall) (id : String) :
    report (run calls) id =
      if callsFor id calls = [] then none
      else some (tally (callsFor id calls), (tally (callsFor id calls)).computeStatus) := by
  have h := run_recorded calls id
  rw [report]
  cases hget : (run calls).get? id with
  | none => rw [if_pos (h.absent.1 hget)]; rfl
  | some m =>
    have hne : callsFor id calls ≠ [] := by
      rw [Ne, ← h.absent, hget]
      exact nofun
    rw [if_neg hne, Option.map_some, h.status m hget, h.counters m hget]

theorem report_perm {calls calls' : List FetchCall} (h : calls'.Perm calls) (id : String) :
    report (run calls') id = report (run calls) id := by
  have hown : (callsFor id calls').Perm (callsFor id calls) := h.filter _
  have hnil : callsFor id calls' = [] ↔ callsFor id calls = [] := by
    rw [← List.length_eq_zero_iff, ← List.length_eq_zero_iff, hown.length_eq]
  rw [report_run, report_run, tally_perm hown]
  simp only [hnil]

structure HealthSound (calls : List FetchCall) : Prop where
  counters : ∀ id m, (run calls).get? id = some m → SoundCounters m.toFetchCounters
  order : ∀ calls' : List FetchCall, calls'.Perm calls →
    ∀ id, report (run calls') id = report (run calls) id

/-- Of every source, no more calls say that the page was parsed than that it was fetched. -/
def ParsedWithinFetched (calls : List FetchCall) : Prop :=
  ∀ id, (callsFor id calls).countP FetchCall.parsed ≤ (callsFor id calls).countP FetchCall.success

/-- The metrics are sound exactly where no source has more parses than successful fetches
recorded. -/
theorem health_sound_iff (calls : List FetchCall) :
    HealthSound calls ↔ ParsedWithinFetched calls := by
  constructor
  · intro h id
    have hrec := run_recorded calls id
    cases hget : (run calls).get? id with
    | none =>
      rw [hrec.absent.1 hget]
      exact le_refl _
    | some m =>
      have hsound := h.counters id m hget
      rw [hrec.counters m hget] at hsound
      exact soundCounters_tally_iff.1 hsound
  · intro h
    refine ⟨?_, fun calls' hperm id => report_perm hperm id⟩
    intro id m hget
    rw [(run_recorded calls id).counters m hget]
    exact soundCounters_tally_iff.2 (h id)

/-- Calls that never report a parse without a fetch keep the metrics sound throughout. -/
theorem health_sound_throughout {calls : List FetchCall}
    (h : ∀ call ∈ calls, call.parsed = true → call.success = true) {before : List FetchCall}
    (hp : before <+: calls) : HealthSound before := by
  rw [health_sound_iff]
  intro id
  refine List.countP_mono_left fun call hcall => ?_
  exact h call (hp.subset (List.mem_of_mem_filter hcall))

def failedFetch : FetchCall where
  now := 0
  sourceId := "s-1"
  success := false

theorem failed_fetch_parsed :
    (report (run [failedFetch]) "s-1").map (fun r => (r.1.successfulFetches, r.1.parseSuccesses)) =
        some (0, 1) ∧
      ¬ HealthSound [failedFetch] := by
  refine ⟨by decide, ?_⟩
  rw [health_sound_iff]
  intro h
  exact absurd (h "s-1") (by decide)

end TrustCopilot.SourceHealth
