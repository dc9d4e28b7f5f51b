import TrustCopilot.AccountStates
import TrustCopilot.Library.OrderedDict
import TrustCopilot.Library.Trace
import Mathlib.Data.Finset.Insert

/-! Fulfillment jobs and their retries. The callback of the runner is an adversary: every run
of a job brings its own outcome. A job that ran out of retries is not among those that
`run_job` leaves alone. -/
namespace TrustCopilot.FulfillmentJobs

open TrustCopilot.OrderedDict
open TrustCopilot.Trace
open TrustCopilot.AccountStates (JsonObject)

inductive JobStatus where
  | pending
  | running
  | completed
  | completedWithGaps
  | failed
  | awaitingMoreEvidence
  deriving DecidableEq, Repr

/-- Times are microseconds. -/
structure FulfillmentJob where
  id : String
  roomId : String := ""
  accountId : String := ""
  status : JobStatus := .pending
  idempotencyKey : String := ""
  inputFiles : List String := []
  outputArtifactId : String := ""
  error : String := ""
  createdAt : ℤ
  startedAt : Option ℤ := none
  completedAt : Option ℤ := none
  retries : ℕ := 0
  maxRetries : ℕ := 3
  runMetadata : JsonObject := []
  deriving DecidableEq, Repr

structure ProcessResult where
  artifactId : Option String := none
  metadata : Option JsonObject := none
  hasGaps : Bool := false
  needsMore : Bool := false
  deriving DecidableEq, Repr

/-- What `process_fn` does when it is called: a result, or an exception with its text. -/
inductive Outcome where
  | returned (result : ProcessResult)
  | raised (error : String)
  deriving DecidableEq, Repr

def Outcome.isRaised : Outcome → Bool
  | .returned _ => false
  | .raised _ => true

structure FulfillmentRunner where
  jobs : Table FulfillmentJob.id
  seenKeys : Finset String

def FulfillmentRunner.empty : FulfillmentRunner := ⟨Table.empty, ∅⟩

def idemKey (roomId : String) (inputFiles : List String) : String :=
  "ful:" ++ roomId ++ ":" ++ toString inputFiles.length

def createJob (s : FulfillmentRunner) (roomId accountId : String) (inputFiles : List String)
    (id : String) (now : ℤ) : (FulfillmentJob × Bool) × FulfillmentRunner :=
  let key := idemKey roomId inputFiles
  let existing :=
    if key ∈ s.seenKeys then s.jobs.rows.first? fun j => j.idempotencyKey = key else none
  match existing with
  | some job => ((job, false), s)
  | none =>
    let job : FulfillmentJob :=
      { id := id
        roomId := roomId
        accountId := accountId
        idempotencyKey := key
        inputFiles := inputFiles
        createdAt := now }
    ((job, true), ⟨s.jobs.save job, insert key s.seenKeys⟩)

def statusOfResult (result : ProcessResult) : JobStatus :=
  if result.hasGaps then .completedWithGaps
  else if result.needsMore then .awaitingMoreEvidence
  else .completed

/-- The `except` branch: one retry less, and after the last one the job has failed. -/
def withException (error : String) (job : FulfillmentJob) : FulfillmentJob :=
  let retries := job.retries + 1
  if job.maxRetries ≤ retries then
    { job with retries := retries, status := .failed, error := error }
  else
    { job with
      retries := retries
      status := .pending
      error := "Retry " ++ toString retries ++ ": " ++ error }

def processed (processFn : Bool) (outcome : Outcome) (finished : ℤ) (job : FulfillmentJob) :
    FulfillmentJob :=
  match processFn, outcome with
  | true, .returned result =>
    { job with
      outputArtifactId := result.artifactId.getD ""
      runMetadata := result.metadata.getD []
      status := statusOfResult result
      completedAt := some finished }
  | true, .raised error => withException error job
  | false, _ =>
    { job with
      outputArtifactId := "artifact_" ++ String.ofList (job.id.toList.take 8)
      status := .completed
      completedAt := some finished }

def started (now : ℤ) (job : FulfillmentJob) : FulfillmentJob :=
  { job with status := .running, startedAt := some now }

def isDone (job : FulfillmentJob) : Bool :=
  job.status = .completed ∨ job.status = .completedWithGaps

/-- `processFn` says whether the runner was built with a callback. -/
def runJob (processFn : Bool) (s : FulfillmentRunner) (jobId : String) (outcome : Outcome)
    (startedAt finishedAt : ℤ) : Except String (FulfillmentJob × FulfillmentRunner) :=
  match s.jobs.get? jobId with
  | none => .error ("Job " ++ jobId ++ " not found")
  | some job =>
    if isDone job then .ok (job, s)
    else
      let job := processed processFn outcome finishedAt (started startedAt job)
      .ok (job, { s with jobs := s.jobs.save job })

/-- `id` is what `uuid4` gives to a job if one is made. -/
inductive RunnerCall where
  | createJob (roomId accountId : String) (inputFiles : List String) (id : String) (now : ℤ)
  | runJob (jobId : String) (outcome : Outcome) (startedAt finishedAt : ℤ)
  deriving DecidableEq, Repr

def next (processFn : Bool) (s : FulfillmentRunner) : RunnerCall → FulfillmentRunner
  | .createJob roomId accountId inputFiles id now =>
    (createJob s roomId accountId inputFiles id now).2
  | .runJob jobId outcome startedAt finishedAt =>
    match runJob processFn s jobId outcome startedAt finishedAt with
    | .ok (_, s') => s'
    | .error _ => s

structure Invocation where
  jobId : String
  raised : Bool
  deriving DecidableEq, Repr

def invocations (processFn : Bool) (s : FulfillmentRunner) : RunnerCall → List Invocation
  | .createJob .. => []
  | .runJob jobId outcome _ _ =>
    match s.jobs.get? jobId with
    | none => []
    | some job =>
      if isDone job || !processFn then []
      else [⟨jobId, outcome.isRaised⟩]

def FreshIds (s : FulfillmentRunner) : RunnerCall → Prop
  | .createJob _ _ _ id _ => s.jobs.get? id = none
  | .runJob .. => True

instance (s : FulfillmentRunner) : (c : RunnerCall) → Decidable (FreshIds s c)
  | .createJob .. => inferInstanceAs (Decidable (_ = _))
  | .runJob .. => isTrue trivial

def SparesFailed (s : FulfillmentRunner) : RunnerCall → Prop
  | .createJob .. => True
  | .runJob jobId _ _ _ => (s.jobs.get? jobId).map FulfillmentJob.status ≠ some .failed

instance (s : FulfillmentRunner) : (c : RunnerCall) → Decidable (SparesFailed s c)
  | .createJob .. => isTrue trivial
  | .runJob .. => inferInstanceAs (Decidable (_ ≠ _))

def run (processFn : Bool) (calls : List RunnerCall) : FulfillmentRunner :=
  runTrace (next processFn) FulfillmentRunner.empty calls

def raises (processFn : Bool) (calls : List RunnerCall) (id : String) : ℕ :=
  (emitted (invocations processFn) (next processFn) FulfillmentRunner.empty calls).count
    ⟨id, true⟩

def RaisesBounded (processFn : Bool) (calls : List RunnerCall) : Prop :=
  ∀ xs, xs <+: calls → ∀ id job, (run processFn xs).jobs.get? id = some job →
    raises processFn xs id ≤ job.maxRetries

def Absorbing (status : JobStatus) : Prop :=
  status = .completed ∨ status = .completedWithGaps ∨ status = .failed

def AbsorbedForever (processFn : Bool) (calls : List RunnerCall) : Prop :=
  ∀ xs ys, xs ++ ys <+: calls → ∀ id job, (run processFn xs).jobs.get? id = some job →
    Absorbing job.status →
    (run processFn (xs ++ ys)).jobs.get? id = some job ∧
      ∀ i ∈ emitted (invocations processFn) (next processFn) (run processFn xs) ys, i.jobId ≠ id

/-! ### What one call does to a job -/

variable {processFn : Bool} {s : FulfillmentRunner} {c : RunnerCall} {k : String}
  {job : FulfillmentJob}

theorem createJob_cases (s : FulfillmentRunner) (roomId accountId : String)
    (inputFiles : List String) (id : String) (now : ℤ) :
    (createJob s roomId accountId inputFiles id now).2 = s ∨
      (createJob s roomId accountId inputFiles id now).2.jobs = s.jobs.save
        { id := id
          roomId := roomId
          accountId := accountId
          idempotencyKey := idemKey roomId inputFiles
          inputFiles := inputFiles
          createdAt := now } := by
  rw [createJob]
  dsimp only
  split
  · exact Or.inl rfl
  · exact Or.inr rfl

theorem processed_frame {β : Type} {f : FulfillmentJob → β}
    (hf : ∀ job artifact metadata status completed error retries, f { job with
      outputArtifactId := artifact, runMetadata := metadata, status := status,
      completedAt := completed, error := error, retries := retries } = f job)
    (outcome : Outcome) (finished : ℤ) (job : FulfillmentJob) :
    f (processed processFn outcome finished job) = f job := by
  cases processFn with
  | false => exact hf job _ job.runMetadata _ _ job.error job.retries
  | true =>
    cases outcome with
    | returned result => exact hf job _ _ _ _ job.error job.retries
    | raised error =>
      rw [processed, withException]
      split
      · exact hf job job.outputArtifactId job.runMetadata _ job.completedAt _ _
      · exact hf job job.outputArtifactId job.runMetadata _ job.completedAt _ _

theorem processed_id (outcome : Outcome) (finished : ℤ) (job : FulfillmentJob) :
    (processed processFn outcome finished job).id = job.id :=
  processed_frame (fun _ _ _ _ _ _ _ => rfl) outcome finished job

theorem runJob_other {outcome : Outcome} {jobId : String} {a b : ℤ} (h : k ≠ jobId) :
    (next processFn s (.runJob jobId outcome a b)).jobs.get? k = s.jobs.get? k := by
  rw [next, runJob]
  cases hj : s.jobs.get? jobId with
  | none => rfl
  | some job =>
    by_cases hd : isDone job = true
    · simp [hd]
    · have hid : (processed processFn outcome b (started a job)).id = jobId := by
        rw [processed_id]
        exact Table.key_of_get? (v := job) hj
      simp only [hd]
      exact Table.get?_save_other s.jobs (by rw [hid]; exact h)

theorem runJob_self {outcome : Outcome} {a b : ℤ} (hj : s.jobs.get? k = some job)
    (hd : isDone job = false) :
    (next processFn s (.runJob k outcome a b)).jobs.get? k =
      some (processed processFn outcome b (started a job)) := by
  have hid : (processed processFn outcome b (started a job)).id = k := by
    rw [processed_id]
    exact Table.key_of_get? (v := job) hj
  have hsave := Table.get?_save_self s.jobs (processed processFn outcome b (started a job))
  rw [hid] at hsave
  rw [next, runJob, hj]
  simpa [hd] using hsave

theorem runJob_done {outcome : Outcome} {a b : ℤ} (hj : s.jobs.get? k = some job)
    (hd : isDone job = true) : next processFn s (.runJob k outcome a b) = s := by
  rw [next, runJob, hj]
  simp [hd]

theorem runJob_absent {outcome : Outcome} {a b : ℤ} (hj : s.jobs.get? k = none) :
    next processFn s (.runJob k outcome a b) = s := by
  rw [next, runJob, hj]

theorem createJob_keeps {roomId accountId : String} {inputFiles : List String} {id : String}
    {now : ℤ} (hf : s.jobs.get? id = none) (h : s.jobs.get? k = some job) :
    (next processFn s (.createJob roomId accountId inputFiles id now)).jobs.get? k =
      some job := by
  rw [next]
  rcases createJob_cases s roomId accountId inputFiles id now with hc | hc
  · rw [hc]
    exact h
  · have hne : k ≠ id := by
      rintro rfl
      rw [hf] at h
      cases h
    rw [hc, Table.get?_save_other s.jobs hne]
    exact h

theorem invoked_job {i : Invocation} (h : i ∈ invocations processFn s c) :
    ∃ outcome a b, c = .runJob i.jobId outcome a b ∧
      ∃ job, s.jobs.get? i.jobId = some job ∧ isDone job = false := by
  cases c with
  | createJob roomId accountId inputFiles id now => cases h
  | runJob jobId outcome a b =>
    rw [invocations] at h
    cases hj : s.jobs.get? jobId with
    | none => rw [hj] at h; cases h
    | some job =>
      rw [hj] at h
      by_cases hd : isDone job = true
      · simp [hd] at h
      · cases processFn with
        | false => simp at h
        | true =>
          rw [Bool.not_eq_true] at hd
          simp only [hd, Bool.not_true, Bool.or_self, Bool.false_eq_true, if_false,
            List.mem_singleton] at h
          subst h
          exact ⟨outcome, a, b, rfl, job, hj, hd⟩

/-- A run leaves a job as it is and does not invoke the callback for it, or it is the run of
that very job and the job is not done. -/
theorem runJob_job_cases (processFn : Bool) (s : FulfillmentRunner) (jobId : String)
    (outcome : Outcome) (a b : ℤ) (k : String) :
    ((next processFn s (.runJob jobId outcome a b)).jobs.get? k = s.jobs.get? k ∧
      ∀ i ∈ invocations processFn s (.runJob jobId outcome a b), i.jobId ≠ k) ∨
    (k = jobId ∧ ∃ job, s.jobs.get? k = some job ∧ isDone job = false) := by
  by_cases hlive : k = jobId ∧ ∃ job, s.jobs.get? k = some job ∧ isDone job = false
  · exact Or.inr hlive
  · apply Or.inl
    constructor
    · by_cases hk : k = jobId
      · subst hk
        cases hj : s.jobs.get? k with
        | none => rw [runJob_absent hj, hj]
        | some job =>
          cases hd : isDone job with
          | true => rw [runJob_done hj hd, hj]
          | false => exact absurd ⟨rfl, job, hj, hd⟩ hlive
      · exact runJob_other hk
    · rintro i hi rfl
      obtain ⟨_, _, _, hcall, hjob⟩ := invoked_job hi
      cases hcall
      exact hlive ⟨rfl, hjob⟩

theorem absorbed_call (hf : FreshIds s c) (hc : SparesFailed s c)
    (h : s.jobs.get? k = some job) (ha : Absorbing job.status) :
    (next processFn s c).jobs.get? k = some job ∧
      ∀ i ∈ invocations processFn s c, i.jobId ≠ k := by
  cases c with
  | createJob roomId accountId inputFiles id now =>
    exact ⟨createJob_keeps hf h, fun _ hi => absurd hi List.not_mem_nil⟩
  | runJob jobId outcome a b =>
    rcases runJob_job_cases processFn s jobId outcome a b k with
      ⟨hkept, hquiet⟩ | ⟨rfl, old, hj, hd⟩
    · exact ⟨hkept.trans h, hquiet⟩
    · rw [h] at hj
      cases hj
      rw [isDone, decide_eq_false_iff_not, not_or] at hd
      rw [SparesFailed, h] at hc
      rcases ha with ha | ha | ha
      · exact absurd ha hd.1
      · exact absurd ha hd.2
      · exact absurd (congrArg some ha) hc

/-- A call that leaves a failed job alone did not run it. -/
theorem spares_of_absorbed
    (h : ∀ job, s.jobs.get? k = some job → job.status = .failed →
      (next processFn s c).jobs.get? k = some job ∧
        ∀ i ∈ invocations processFn s c, i.jobId ≠ k)
    {outcome : Outcome} {a b : ℤ} (hc : c = .runJob k outcome a b) : SparesFailed s c := by
  subst hc
  intro hfailed
  obtain ⟨job, hj, hstatus⟩ := Option.map_eq_some_iff.1 hfailed
  obtain ⟨hkept, hinvoked⟩ := h job hj hstatus
  have hd : isDone job = false := by rw [isDone, hstatus]; rfl
  cases processFn with
  | true =>
    -- the callback is invoked once more
    rw [invocations, hj] at hinvoked
    simp [hd] at hinvoked
  | false =>
    -- the job completes after all
    rw [runJob_self hj hd] at hkept
    have hcompleted := congrArg FulfillmentJob.status (Option.some.inj hkept)
    rw [hstatus] at hcompleted
    cases hcompleted

/-! ### The retries of a job count the exceptions of its runs -/

structure RetryBooks (raises : ℕ) (job : FulfillmentJob) : Prop where
  counted : job.retries = raises
  bounded : job.retries ≤ job.maxRetries
  left : job.status ≠ .failed → job.retries < job.maxRetries

structure Books (raises : String → ℕ) (s : FulfillmentRunner) : Prop where
  job : ∀ id job, s.jobs.get? id = some job → RetryBooks (raises id) job
  absent : ∀ id, s.jobs.get? id = none → raises id = 0

theorem retryBooks_exception {r : ℕ} (h : RetryBooks r job)
    (hlt : job.retries < job.maxRetries) (error : String) :
    RetryBooks (r + 1) (withException error job) := by
  have hcounted := h.counted
  rw [withException]
  by_cases hmax : job.maxRetries ≤ job.retries + 1
  · rw [if_pos hmax]
    exact ⟨congrArg (· + 1) hcounted, hlt, fun hne => absurd rfl hne⟩
  · rw [if_neg hmax]
    exact ⟨congrArg (· + 1) hcounted, hlt, fun _ => not_le.1 hmax⟩

theorem retryBooks_processed {r : ℕ} (h : RetryBooks r job) (hs : job.status ≠ .failed)
    (outcome : Outcome) (a b : ℤ) :
    RetryBooks (r + if processFn && outcome.isRaised then 1 else 0)
      (processed processFn outcome b (started a job)) := by
  have hlt := h.left hs
  have hstarted : RetryBooks r (started a job) := ⟨h.counted, h.bounded, fun _ => hlt⟩
  cases processFn with
  | false => exact ⟨h.counted, h.bounded, fun _ => hlt⟩
  | true =>
    cases outcome with
    | returned result => exact ⟨h.counted, h.bounded, fun _ => hlt⟩
    | raised error => exact retryBooks_exception hstarted hlt error

theorem raises_of_run (hj : s.jobs.get? k = some job) (hd : isDone job = false)
    (outcome : Outcome) (a b : ℤ) :
    (invocations processFn s (.runJob k outcome a b)).count ⟨k, true⟩ =
      if processFn && outcome.isRaised then 1 else 0 := by
  rw [invocations, hj]
  cases processFn with
  | false => simp [hd]
  | true => cases hr : outcome.isRaised <;> simp [hd]

theorem count_other (h : ∀ i ∈ invocations processFn s c, i.jobId ≠ k) :
    (invocations processFn s c).count ⟨k, true⟩ = 0 :=
  List.count_eq_zero.2 fun hin => h _ hin rfl

theorem books_createJob {r : String → ℕ} (h : Books r s) {id : String}
    (hf : s.jobs.get? id = none) (roomId accountId : String) (inputFiles : List String)
    (now : ℤ) :
    Books r (next processFn s (.createJob roomId accountId inputFiles id now)) := by
  rw [next]
  rcases createJob_cases s roomId accountId inputFiles id now with he | he
  · rw [he]
    exact h
  · constructor
    · intro k job hk
      rw [he, Table.get?_save] at hk
      split at hk
      · next hid =>
        cases hk
        rw [hid, h.absent id hf]
        exact ⟨rfl, Nat.zero_le 3, fun _ => Nat.zero_lt_succ 2⟩
      · exact h.job k job hk
    · intro k hk
      rw [he, Table.get?_save] at hk
      split at hk
      · cases hk
      · exact h.absent k hk

theorem books_runJob {r : String → ℕ} (h : Books r s) {jobId : String}
    (hc : (s.jobs.get? jobId).map FulfillmentJob.status ≠ some .failed) (outcome : Outcome)
    (a b : ℤ) :
    Books (fun id => r id +
        (invocations processFn s (.runJob jobId outcome a b)).count ⟨id, true⟩)
      (next processFn s (.runJob jobId outcome a b)) := by
  constructor
  · intro k job hk
    rcases runJob_job_cases processFn s jobId outcome a b k with
      ⟨hkept, hquiet⟩ | ⟨rfl, old, hj, hd⟩
    · rw [hkept] at hk
      rw [count_other hquiet]
      exact h.job k job hk
    · have hs : old.status ≠ .failed := fun he => hc (by rw [hj, ← he]; rfl)
      rw [runJob_self hj hd] at hk
      cases hk
      rw [raises_of_run hj hd]
      exact retryBooks_processed (h.job k old hj) hs outcome a b
  · intro k hk
    rcases runJob_job_cases processFn s jobId outcome a b k with
      ⟨hkept, hquiet⟩ | ⟨rfl, old, hj, hd⟩
    · rw [hkept] at hk
      rw [count_other hquiet]
      exact h.absent k hk
    · rw [runJob_self hj hd] at hk
      cases hk

theorem books_next {r : String → ℕ} (h : Books r s) (hf : FreshIds s c)
    (hc : SparesFailed s c) :
    Books (fun id => r id + (invocations processFn s c).count ⟨id, true⟩)
      (next processFn s c) := by
  cases c with
  | createJob roomId accountId inputFiles id now =>
    exact books_createJob h hf roomId accountId inputFiles now
  | runJob jobId outcome a b => exact books_runJob h hc outcome a b

/-! ### Whole runs -/

theorem books_run {calls : List RunnerCall}
    (hf : ValidTrace FreshIds (next processFn) FulfillmentRunner.empty calls)
    (hc : ValidTrace SparesFailed (next processFn) FulfillmentRunner.empty calls) :
    Books (raises processFn calls) (run processFn calls) := by
  induction calls using List.reverseRecOn with
  | nil => exact ⟨nofun, fun _ _ => rfl⟩
  | append_singleton calls c ih =>
    obtain ⟨hfs, hfc⟩ := validTrace_concat.1 hf
    obtain ⟨hcs, hcc⟩ := validTrace_concat.1 hc
    have hstep : Books _ (next processFn (run processFn calls) c) :=
      books_next (ih hfs hcs) hfc hcc
    rw [run, runTrace_concat]
    have hraises : raises processFn (calls ++ [c]) = fun id => raises processFn calls id +
        (invocations processFn (run processFn calls) c).count ⟨id, true⟩ := by
      funext id
      rw [raises, emitted_concat, List.count_append]
      rfl
    rw [hraises]
    exact hstep

theorem absorbed_run {xs ys : List RunnerCall}
    (hf : ValidTrace FreshIds (next processFn) FulfillmentRunner.empty (xs ++ ys))
    (hc : ValidTrace SparesFailed (next processFn) FulfillmentRunner.empty (xs ++ ys))
    (h : (run processFn xs).jobs.get? k = some job) (ha : Absorbing job.status) :
    (run processFn (xs ++ ys)).jobs.get? k = some job ∧
      ∀ i ∈ emitted (invocations processFn) (next processFn) (run processFn xs) ys,
        i.jobId ≠ k := by
  have hvalid := (validTrace_append.1 (validTrace_and.2 ⟨hf, hc⟩)).2
  have hstep : ∀ s c, s.jobs.get? k = some job → FreshIds s c ∧ SparesFailed s c →
      (next processFn s c).jobs.get? k = some job ∧
        ∀ i ∈ invocations processFn s c, i.jobId ≠ k := by
    rintro s c hj ⟨hfresh, hspares⟩
    exact absorbed_call hfresh hspares hj ha
  rw [run, runTrace_append]
  exact emitted_invariant (I := fun s => s.jobs.get? k = some job) h hstep hvalid

def alwaysRaising : List RunnerCall :=
  .createJob "room-1" "acc-1" ["f.pdf"] "j1" 0 ::
    List.replicate 4 (.runJob "j1" (.raised "permanent") 1 2)

end TrustCopilot.FulfillmentJobs
