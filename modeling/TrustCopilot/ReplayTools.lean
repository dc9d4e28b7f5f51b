import TrustCopilot.Library.Trace
import Mathlib.Data.List.Nodup
import Mathlib.Data.List.Count

/-! Replaying ranges of jobs. The finder and the executor are adversaries: each request brings
the list that the finder returns, with what the executor makes of every job in it. The counter
of duplicates is there, but nothing ever looks for one. -/
namespace TrustCopilot.ReplayTools

open TrustCopilot.Trace

structure ReplayRequest where
  jobType : String
  dateStart : String
  dateEnd : String
  scope : String := ""
  dryRun : Bool := true
  requestedBy : String := ""
  deriving DecidableEq, Repr

structure ReplayResult where
  totalFound : ℕ := 0
  replayed : ℕ := 0
  skippedDuplicate : ℕ := 0
  errors : ℕ := 0
  dryRun : Bool := true
  details : List String := []
  deriving DecidableEq, Repr

/-- A found job, and the text of the exception if the executor raises on it. -/
structure Attempt (J : Type*) where
  job : J
  error : Option String := none
  deriving DecidableEq, Repr

structure ReplayCall (J : Type*) where
  request : ReplayRequest
  found : Option (List (Attempt J))
  hasExecutor : Bool
  deriving DecidableEq, Repr

/-- The history of `ReplayService`. Its paused queues are not looked at by `replay`. -/
structure ReplayService where
  replays : List (ReplayRequest × ReplayResult) := []
  deriving DecidableEq, Repr

variable {J : Type*}

def raised (hasExecutor : Bool) (a : Attempt J) : Option String :=
  if hasExecutor then a.error else none

/-- The body of the loop. `text` is how a job reads in the details. -/
def replayJob (text : J → String) (dryRun hasExecutor : Bool) (result : ReplayResult)
    (a : Attempt J) : ReplayResult :=
  if dryRun then
    { result with
      details := result.details ++ ["[DRY RUN] Would replay: " ++ text a.job]
      replayed := result.replayed + 1 }
  else
    match raised hasExecutor a with
    | none =>
      { result with
        replayed := result.replayed + 1
        details := result.details ++ ["Replayed: " ++ text a.job] }
    | some e =>
      { result with
        errors := result.errors + 1
        details := result.details ++ ["Error: " ++ text a.job ++ " — " ++ e] }

def jobs (c : ReplayCall J) : List (Attempt J) := c.found.getD []

def replay (text : J → String) (s : ReplayService) (c : ReplayCall J) :
    ReplayResult × ReplayService :=
  let result := (jobs c).foldl (replayJob text c.request.dryRun c.hasExecutor)
    { totalFound := (jobs c).length, dryRun := c.request.dryRun }
  (result, ⟨s.replays ++ [(c.request, result)]⟩)

def next (text : J → String) (s : ReplayService) (c : ReplayCall J) : ReplayService :=
  (replay text s c).2

def run (text : J → String) (calls : List (ReplayCall J)) : ReplayService :=
  runTrace (next text) {} calls

/-! ### At most once -/

def succeeded (hasExecutor : Bool) (as : List (Attempt J)) : List J :=
  (as.filter fun a => (raised hasExecutor a).isNone).map Attempt.job

def replayed (c : ReplayCall J) : List J :=
  if c.request.dryRun then [] else succeeded c.hasExecutor (jobs c)

def executed (c : ReplayCall J) : List J :=
  if c.hasExecutor then replayed c else []

/-- How many places of a list hold a job that was replayed before its turn. -/
def duplicates [DecidableEq J] (hasExecutor : Bool) (earlier : List J) : List (Attempt J) → ℕ
  | [] => 0
  | a :: as => (if a.job ∈ earlier then 1 else 0) +
      duplicates hasExecutor (earlier ++ succeeded hasExecutor [a]) as

def AllNew (hasExecutor : Bool) (earlier : List J) : List (Attempt J) → Prop
  | [] => True
  | a :: as => a.job ∉ earlier ∧ AllNew hasExecutor (earlier ++ succeeded hasExecutor [a]) as

/-- The finder never returns, to a live request, a job that was replayed before. -/
def FindsNewJobs (calls : List (ReplayCall J)) : Prop :=
  ∀ xs c, xs ++ [c] <+: calls → c.request.dryRun = false →
    AllNew c.hasExecutor (xs.flatMap replayed) (jobs c)

structure ReplaysOnce [DecidableEq J] (text : J → String) (calls : List (ReplayCall J)) :
    Prop where
  once : ∀ job, (calls.flatMap executed).count job ≤ 1
  skipped : ∀ xs c, xs ++ [c] <+: calls → c.request.dryRun = false →
    (replay text (run text xs) c).1.skippedDuplicate =
      duplicates c.hasExecutor (xs.flatMap replayed) (jobs c)
  accounted : ∀ e ∈ (run text calls).replays,
    e.2.totalFound = e.2.replayed + e.2.skippedDuplicate + e.2.errors

theorem duplicates_eq_zero_iff [DecidableEq J] {hasExecutor : Bool} {earlier : List J}
    {as : List (Attempt J)} :
    duplicates hasExecutor earlier as = 0 ↔ AllNew hasExecutor earlier as := by
  induction as generalizing earlier with
  | nil => exact iff_of_true rfl trivial
  | cons a as ih =>
    rw [duplicates, AllNew, Nat.add_eq_zero_iff, ih]
    by_cases h : a.job ∈ earlier
    · simp [h]
    · simp [h]

theorem succeeded_cons (hasExecutor : Bool) (a : Attempt J) (as : List (Attempt J)) :
    succeeded hasExecutor (a :: as) = succeeded hasExecutor [a] ++ succeeded hasExecutor as := by
  rw [succeeded, succeeded, succeeded, ← List.map_append, ← List.filter_append]
  rfl

theorem mem_succeeded_singleton {hasExecutor : Bool} {a : Attempt J} {job : J}
    (h : job ∈ succeeded hasExecutor [a]) : job = a.job := by
  obtain ⟨b, hb, rfl⟩ := List.mem_map.1 h
  rw [List.mem_singleton.1 (List.mem_filter.1 hb).1]

theorem succeeded_singleton_nodup (hasExecutor : Bool) (a : Attempt J) :
    (succeeded hasExecutor [a]).Nodup := by
  have hlen : (succeeded hasExecutor [a]).length ≤ 1 := by
    rw [succeeded, List.length_map]
    exact List.length_filter_le _ _
  cases hs : succeeded hasExecutor [a] with
  | nil => exact List.nodup_nil
  | cons job rest =>
    rw [hs, List.length_cons] at hlen
    have hrest : rest = [] := List.length_eq_zero_iff.1 (by omega)
    rw [hrest]
    exact List.nodup_singleton job

/-- New jobs stay distinct from the earlier ones and from each other. -/
theorem nodup_of_allNew {hasExecutor : Bool} {earlier : List J} {as : List (Attempt J)}
    (h : AllNew hasExecutor earlier as) (hn : earlier.Nodup) :
    (earlier ++ succeeded hasExecutor as).Nodup := by
  induction as generalizing earlier with
  | nil => rwa [succeeded, List.filter_nil, List.map_nil, List.append_nil]
  | cons a as ih =>
    obtain ⟨hnew, hrest⟩ := h
    rw [succeeded_cons, ← List.append_assoc]
    apply ih hrest
    refine List.nodup_append.2 ⟨hn, succeeded_singleton_nodup hasExecutor a, ?_⟩
    rintro x hx y hy rfl
    rw [mem_succeeded_singleton hy] at hx
    exact hnew hx

theorem replayed_nodup {calls : List (ReplayCall J)} (h : FindsNewJobs calls) :
    (calls.flatMap replayed).Nodup := by
  induction calls using List.reverseRecOn with
  | nil => exact List.nodup_nil
  | append_singleton calls c ih =>
    have hcalls := ih fun xs d hp => h xs d (hp.trans (List.prefix_append calls [c]))
    rw [List.flatMap_append, List.flatMap_singleton, replayed]
    cases hd : c.request.dryRun with
    | true =>
      rw [if_pos rfl, List.append_nil]
      exact hcalls
    | false =>
      rw [if_neg Bool.false_ne_true]
      exact nodup_of_allNew (h calls c List.prefix_rfl hd) hcalls

theorem executed_sublist (calls : List (ReplayCall J)) :
    (calls.flatMap executed).Sublist (calls.flatMap replayed) := by
  induction calls with
  | nil => exact List.Sublist.refl []
  | cons c calls ih =>
    rw [List.flatMap_cons, List.flatMap_cons]
    apply List.Sublist.append _ ih
    rw [executed]
    split
    · exact List.Sublist.refl _
    · exact List.nil_sublist _

/-! ### What a result says -/

theorem replayJob_counts (text : J → String) (dryRun hasExecutor : Bool) (r : ReplayResult)
    (a : Attempt J) :
    (replayJob text dryRun hasExecutor r a).totalFound = r.totalFound ∧
    (replayJob text dryRun hasExecutor r a).skippedDuplicate = r.skippedDuplicate ∧
    (replayJob text dryRun hasExecutor r a).replayed +
      (replayJob text dryRun hasExecutor r a).errors = r.replayed + r.errors + 1 := by
  rw [replayJob]
  split
  · exact ⟨rfl, rfl, Nat.add_right_comm _ _ _⟩
  · split
    · exact ⟨rfl, rfl, Nat.add_right_comm _ _ _⟩
    · exact ⟨rfl, rfl, rfl⟩

theorem loop_counts (text : J → String) (dryRun hasExecutor : Bool) (as : List (Attempt J))
    (r : ReplayResult) :
    (as.foldl (replayJob text dryRun hasExecutor) r).totalFound = r.totalFound ∧
    (as.foldl (replayJob text dryRun hasExecutor) r).skippedDuplicate = r.skippedDuplicate ∧
    (as.foldl (replayJob text dryRun hasExecutor) r).replayed +
      (as.foldl (replayJob text dryRun hasExecutor) r).errors =
        r.replayed + r.errors + as.length := by
  induction as generalizing r with
  | nil => exact ⟨rfl, rfl, rfl⟩
  | cons a as ih =>
    obtain ⟨htotal, hskipped, hdone⟩ := replayJob_counts text dryRun hasExecutor r a
    obtain ⟨htotals, hskips, hdones⟩ := ih (replayJob text dryRun hasExecutor r a)
    rw [List.foldl_cons, List.length_cons]
    refine ⟨htotals.trans htotal, hskips.trans hskipped, ?_⟩
    omega

/-- Every found job is replayed or an error, and none is skipped. -/
theorem replay_counts (text : J → String) (s : ReplayService) (c : ReplayCall J) :
    (replay text s c).1.skippedDuplicate = 0 ∧
    (replay text s c).1.totalFound =
      (replay text s c).1.replayed + (replay text s c).1.errors := by
  obtain ⟨htotal, hskipped, hdone⟩ := loop_counts text c.request.dryRun c.hasExecutor (jobs c)
    { totalFound := (jobs c).length, dryRun := c.request.dryRun }
  refine ⟨hskipped, ?_⟩
  rw [replay]
  dsimp only at htotal hdone ⊢
  omega

theorem history_accounted (text : J → String) (calls : List (ReplayCall J)) :
    ∀ e ∈ (run text calls).replays,
      e.2.totalFound = e.2.replayed + e.2.skippedDuplicate + e.2.errors := by
  induction calls using List.reverseRecOn with
  | nil => exact nofun
  | append_singleton calls c ih =>
    rw [run, runTrace_concat]
    intro e he
    rcases List.mem_append.1 he with he | he
    · exact ih e he
    · rw [List.mem_singleton.1 he]
      obtain ⟨hskipped, htotal⟩ := replay_counts text (run text calls) c
      calc (replay text (run text calls) c).1.totalFound
          = (replay text (run text calls) c).1.replayed +
              (replay text (run text calls) c).1.errors := htotal
        _ = (replay text (run text calls) c).1.replayed +
              (replay text (run text calls) c).1.skippedDuplicate +
              (replay text (run text calls) c).1.errors := by rw [hskipped, Nat.add_zero]

/-- Jobs are replayed once, and what was replayed is counted as skipped, exactly as long as
the finder returns no job a second time. -/
theorem replays_once_iff [DecidableEq J] (text : J → String) (calls : List (ReplayCall J)) :
    ReplaysOnce text calls ↔ FindsNewJobs calls := by
  constructor
  · intro h xs c hp hlive
    apply duplicates_eq_zero_iff.1
    rw [← h.skipped xs c hp hlive]
    exact (replay_counts text (run text xs) c).1
  · intro h
    constructor
    · exact List.nodup_iff_count_le_one.1 ((replayed_nodup h).sublist (executed_sublist calls))
    · intro xs c hp hlive
      rw [(replay_counts text (run text xs) c).1, duplicates_eq_zero_iff.2 (h xs c hp hlive)]
    · exact history_accounted text calls

def overlapping : List (ReplayCall String) :=
  [⟨⟨"send", "2026-03-01", "2026-03-25", "", false, ""⟩, some [⟨"job-1", none⟩], true⟩,
   ⟨⟨"send", "2026-03-20", "2026-03-31", "", false, ""⟩, some [⟨"job-1", none⟩], true⟩]

theorem overlap_executes_twice :
    (overlapping.flatMap executed).count "job-1" = 2 ∧ ¬ ReplaysOnce id overlapping := by
  have htwice : (overlapping.flatMap executed).count "job-1" = 2 := by decide
  refine ⟨htwice, fun h => ?_⟩
  have honce := h.once "job-1"
  rw [htwice] at honce
  exact absurd honce (by decide)

end TrustCopilot.ReplayTools
