import TrustCopilot.FulfillmentJobs

/-! What `create_job` hands back. A job is found again by its key, which is made of the room and
of the number of files. -/
namespace TrustCopilot.JobRequests

open TrustCopilot.OrderedDict
open TrustCopilot.Trace
open TrustCopilot.FulfillmentJobs

structure JobRequest where
  roomId : String
  accountId : String
  inputFiles : List String
  deriving DecidableEq, Repr

def JobRequest.key (r : JobRequest) : String := idemKey r.roomId r.inputFiles

def requestOf (job : FulfillmentJob) : JobRequest := ⟨job.roomId, job.accountId, job.inputFiles⟩

def answers (s : FulfillmentRunner) : RunnerCall → List (JobRequest × FulfillmentJob)
  | .createJob roomId accountId inputFiles id now =>
    [(⟨roomId, accountId, inputFiles⟩, (createJob s roomId accountId inputFiles id now).1.1)]
  | .runJob .. => []

def answered (processFn : Bool) (calls : List RunnerCall) : List (JobRequest × FulfillmentJob) :=
  emitted answers (next processFn) FulfillmentRunner.empty calls

def requested : RunnerCall → List JobRequest
  | .createJob roomId accountId inputFiles _ _ => [⟨roomId, accountId, inputFiles⟩]
  | .runJob .. => []

def requests (calls : List RunnerCall) : List JobRequest := calls.flatMap requested

def Faithful (processFn : Bool) (calls : List RunnerCall) : Prop :=
  ∀ a ∈ answered processFn calls, requestOf a.2 = a.1

def OneJobPerUpload (processFn : Bool) (calls : List RunnerCall) : Prop :=
  ∀ a ∈ answered processFn calls, ∀ b ∈ answered processFn calls,
    a.2.id = b.2.id ↔ a.1.roomId = b.1.roomId ∧ a.1.inputFiles = b.1.inputFiles

instance (processFn : Bool) (calls : List RunnerCall) : Decidable (Faithful processFn calls) :=
  inferInstanceAs (Decidable (∀ a ∈ answered processFn calls, _))

instance (processFn : Bool) (calls : List RunnerCall) :
    Decidable (OneJobPerUpload processFn calls) :=
  inferInstanceAs (Decidable (∀ a ∈ answered processFn calls,
    ∀ b ∈ answered processFn calls, _))

/-- A room that is named twice with as many files is named with the same files, and for the same
account. -/
def CountsTellFiles (calls : List RunnerCall) : Prop :=
  ∀ r ∈ requests calls, ∀ q ∈ requests calls,
    r.roomId = q.roomId → r.inputFiles.length = q.inputFiles.length → r = q

instance (calls : List RunnerCall) : Decidable (CountsTellFiles calls) :=
  inferInstanceAs (Decidable (∀ r ∈ requests calls, ∀ q ∈ requests calls, _ → _ → _))

/-! ### The key -/

theorem last_separator {α : Type*} {c : α} {xs ys ds es : List α}
    (h : xs ++ c :: ds = ys ++ c :: es) (hd : c ∉ ds) (he : c ∉ es) : xs = ys ∧ ds = es := by
  rcases List.append_eq_append_iff.1 h with ⟨as, rfl, ht⟩ | ⟨as, rfl, ht⟩
  · cases as with
    | nil => exact ⟨(List.append_nil xs).symm, (List.cons.inj ht).2⟩
    | cons a as =>
      have htail := (List.cons.inj ht).2
      exact absurd (by simp [htail]) hd
  · cases as with
    | nil => exact ⟨List.append_nil ys, (List.cons.inj ht).2.symm⟩
    | cons a as =>
      have htail := (List.cons.inj ht).2
      exact absurd (by simp [htail]) he

theorem colon_not_digit (n : ℕ) : ':' ∉ Nat.toDigits 10 n := fun h =>
  absurd (Nat.isDigit_of_mem_toDigits (by decide) (by decide) h) (by decide)

/-- A count has no colon, so a key gives back the room and the number of files. -/
theorem key_eq_iff {r q : JobRequest} :
    r.key = q.key ↔ r.roomId = q.roomId ∧ r.inputFiles.length = q.inputFiles.length := by
  constructor
  · intro h
    have hlist := congrArg String.toList h
    simp only [JobRequest.key, idemKey, String.toList_append, List.append_assoc,
      Nat.toString_eq_ofList_toDigits, String.toList_ofList] at hlist
    have htail := List.append_cancel_left hlist
    obtain ⟨hroom, hdigits⟩ :=
      last_separator htail (colon_not_digit _) (colon_not_digit _)
    have hcount := congrArg (fun ds => Nat.ofDigitChars 10 ds 0) hdigits
    exact ⟨String.toList_injective hroom, by simpa using hcount⟩
  · rintro ⟨hroom, hcount⟩
    rw [JobRequest.key, JobRequest.key, idemKey, idemKey, hroom, hcount]

/-! ### What the store remembers of the requests -/

variable {processFn : Bool} {s s' : FulfillmentRunner} {c : RunnerCall}
  {log : List (JobRequest × FulfillmentJob)} {calls : List RunnerCall}

/-- The key a job is filed under and the request it was made for: no run of it changes them. -/
def filed (s : FulfillmentRunner) (k : String) : Option (String × JobRequest) :=
  (s.jobs.get? k).map fun job => (job.idempotencyKey, requestOf job)

theorem filed_of_get? {k : String} {job : FulfillmentJob} (h : s.jobs.get? k = some job) :
    filed s k = some (job.idempotencyKey, requestOf job) := by
  rw [filed, h]
  rfl

/-- The store against the requests made so far and the jobs returned for them. -/
structure Ledger (log : List (JobRequest × FulfillmentJob)) (s : FulfillmentRunner) : Prop where
  seen : ∀ k key r, filed s k = some (key, r) → key ∈ s.seenKeys
  keyed : ∀ k key r, filed s k = some (key, r) → key = r.key
  once : ∀ j k key q r, filed s j = some (key, q) → filed s k = some (key, r) → j = k
  asked : ∀ k key r, filed s k = some (key, r) → r ∈ log.map Prod.fst
  kept : ∀ a ∈ log, filed s a.2.id = some (a.1.key, requestOf a.2)

theorem ledger_empty : Ledger [] FulfillmentRunner.empty where
  seen _ _ _ h := by cases h
  keyed _ _ _ h := by cases h
  once _ _ _ _ _ h := by cases h
  asked _ _ _ h := by cases h
  kept _ h := absurd h List.not_mem_nil

theorem ledger_same (h : Ledger log s) (hfiled : ∀ k, filed s' k = filed s k)
    (hseen : s'.seenKeys = s.seenKeys) : Ledger log s' := by
  have hf : filed s' = filed s := funext hfiled
  constructor
  · rw [hf, hseen]
    exact h.seen
  · rw [hf]
    exact h.keyed
  · rw [hf]
    exact h.once
  · rw [hf]
    exact h.asked
  · rw [hf]
    exact h.kept

theorem runJob_filed (processFn : Bool) (s : FulfillmentRunner) (jobId : String)
    (outcome : Outcome) (a b : ℤ) (k : String) :
    filed (next processFn s (.runJob jobId outcome a b)) k = filed s k := by
  rcases runJob_job_cases processFn s jobId outcome a b k with ⟨hkept, -⟩ | ⟨rfl, job, hj, hd⟩
  · rw [filed, hkept, filed]
  · rw [filed_of_get? (runJob_self hj hd), filed_of_get? hj]
    have hkept := @processed_frame processFn _ (fun job => (job.idempotencyKey, requestOf job))
      (fun _ _ _ _ _ _ _ => rfl) outcome b (started a job)
    exact congrArg some hkept

theorem runJob_seenKeys (processFn : Bool) (s : FulfillmentRunner) (jobId : String)
    (outcome : Outcome) (a b : ℤ) :
    (next processFn s (.runJob jobId outcome a b)).seenKeys = s.seenKeys := by
  cases hj : s.jobs.get? jobId with
  | none => rw [runJob_absent hj]
  | some job =>
    cases hd : isDone job with
    | true => rw [runJob_done hj hd]
    | false =>
      rw [next, runJob, hj]
      simp [hd]

def newJob (r : JobRequest) (id : String) (now : ℤ) : FulfillmentJob where
  id := id
  roomId := r.roomId
  accountId := r.accountId
  idempotencyKey := r.key
  inputFiles := r.inputFiles
  createdAt := now

theorem createJob_answer (h : Ledger log s) (r : JobRequest) (id : String) (now : ℤ) :
    (∃ job, s.jobs.get? job.id = some job ∧ job.idempotencyKey = r.key ∧
      createJob s r.roomId r.accountId r.inputFiles id now = ((job, false), s)) ∨
    (∀ k q, filed s k ≠ some (r.key, q)) ∧
      createJob s r.roomId r.accountId r.inputFiles id now =
        ((newJob r id now, true), ⟨s.jobs.save (newJob r id now), insert r.key s.seenKeys⟩) := by
  by_cases hseen : r.key ∈ s.seenKeys
  · cases hfind : s.jobs.rows.first? fun j => j.idempotencyKey = r.key with
    | some job =>
      obtain ⟨hkey, k, hk⟩ := Dict.first?_some hfind
      have hid : job.id = k := s.jobs.keyed k job hk
      refine Or.inl ⟨job, by rw [hid]; exact hk, of_decide_eq_true hkey, ?_⟩
      rw [createJob]
      dsimp only
      rw [← JobRequest.key, if_pos hseen, hfind]
    | none =>
      refine Or.inr ⟨fun k q hk => ?_, ?_⟩
      · obtain ⟨job, hj, he⟩ := Option.map_eq_some_iff.1 hk
        exact of_decide_eq_false (Dict.first?_none hfind hj) (congrArg Prod.fst he)
      · rw [createJob]
        dsimp only
        rw [← JobRequest.key, if_pos hseen, hfind]
        rfl
  · refine Or.inr ⟨fun k q hk => hseen (h.seen k _ q hk), ?_⟩
    rw [createJob]
    dsimp only
    rw [← JobRequest.key, if_neg hseen]
    rfl

theorem ledger_found (h : Ledger log s) {r : JobRequest} {job : FulfillmentJob}
    (hj : s.jobs.get? job.id = some job) (hkey : job.idempotencyKey = r.key) :
    Ledger (log ++ [(r, job)]) s := by
  refine ⟨h.seen, h.keyed, h.once, fun k key q hk => ?_, fun a ha => ?_⟩
  · rw [List.map_append]
    exact List.mem_append_left _ (h.asked k key q hk)
  · rcases List.mem_append.1 ha with ha | ha
    · exact h.kept a ha
    · obtain rfl := List.mem_singleton.1 ha
      rw [filed_of_get? hj, hkey]

theorem filed_new (s : FulfillmentRunner) (r : JobRequest) (id : String) (now : ℤ)
    (keys : Finset String) (k : String) :
    filed ⟨s.jobs.save (newJob r id now), keys⟩ k =
      if k = id then some (r.key, r) else filed s k := by
  have hid : (newJob r id now).id = id := rfl
  rw [filed, Table.get?_save, hid]
  by_cases hk : k = id
  · rw [if_pos hk, if_pos hk]
    rfl
  · rw [if_neg hk, if_neg hk, filed]

theorem ledger_new (h : Ledger log s) {r : JobRequest} {id : String} (now : ℤ)
    (hfresh : s.jobs.get? id = none) (hfree : ∀ k q, filed s k ≠ some (r.key, q)) :
    Ledger (log ++ [(r, newJob r id now)])
      ⟨s.jobs.save (newJob r id now), insert r.key s.seenKeys⟩ := by
  have hcases : ∀ {k key q},
      filed ⟨s.jobs.save (newJob r id now), insert r.key s.seenKeys⟩ k = some (key, q) →
      (k = id ∧ key = r.key ∧ q = r) ∨ filed s k = some (key, q) := by
    intro k key q hk
    rw [filed_new] at hk
    split at hk
    · next hid =>
      cases hk
      exact Or.inl ⟨hid, rfl, rfl⟩
    · exact Or.inr hk
  constructor
  · intro k key q hk
    rcases hcases hk with ⟨-, rfl, -⟩ | hk
    · exact Finset.mem_insert_self _ _
    · exact Finset.mem_insert_of_mem (h.seen k key q hk)
  · intro k key q hk
    rcases hcases hk with ⟨-, rfl, rfl⟩ | hk
    · rfl
    · exact h.keyed k key q hk
  · intro j k key q q' hj hk
    rcases hcases hj with ⟨rfl, rfl, -⟩ | hj
    · rcases hcases hk with ⟨rfl, -, -⟩ | hk
      · rfl
      · exact absurd hk (hfree k q')
    · rcases hcases hk with ⟨-, rfl, -⟩ | hk
      · exact absurd hj (hfree j q)
      · exact h.once j k key q q' hj hk
  · intro k key q hk
    rw [List.map_append]
    rcases hcases hk with ⟨-, -, rfl⟩ | hk
    · exact List.mem_append_right _ (List.mem_singleton_self _)
    · exact List.mem_append_left _ (h.asked k key q hk)
  · intro a ha
    rw [filed_new]
    rcases List.mem_append.1 ha with ha | ha
    · have hold := h.kept a ha
      have hne : a.2.id ≠ id := by
        intro he
        rw [he, filed, hfresh] at hold
        cases hold
      rw [if_neg hne, hold]
    · obtain rfl := List.mem_singleton.1 ha
      exact if_pos rfl

theorem ledger_next (h : Ledger log s) (hf : FreshIds s c) :
    Ledger (log ++ answers s c) (next processFn s c) := by
  cases c with
  | createJob roomId accountId inputFiles id now =>
    rcases createJob_answer h ⟨roomId, accountId, inputFiles⟩ id now with
      ⟨job, hj, hkey, he⟩ | ⟨hfree, he⟩
    · rw [answers, next, he]
      exact ledger_found h hj hkey
    · rw [answers, next, he]
      exact ledger_new h now hf hfree
  | runJob jobId outcome a b =>
    rw [answers, List.append_nil]
    exact ledger_same h (runJob_filed processFn s jobId outcome a b)
      (runJob_seenKeys processFn s jobId outcome a b)

theorem ledger_run (hf : ValidTrace FreshIds (next processFn) FulfillmentRunner.empty calls) :
    Ledger (answered processFn calls) (run processFn calls) := by
  refine history_invariant (I := fun calls s => Ledger (answered processFn calls) s)
    ledger_empty (fun calls c _ h hc => ?_) hf
  rw [answered, emitted_concat]
  exact ledger_next h hc

/-! ### Whole runs -/

theorem answered_requests (processFn : Bool) (calls : List RunnerCall) :
    (answered processFn calls).map Prod.fst = requests calls := by
  have hstep : ∀ s c, (answers s c).map Prod.fst = requested c := fun s c => by
    cases c <;> rfl
  have hrun : ∀ s, (emitted answers (next processFn) s calls).map Prod.fst = requests calls := by
    induction calls with
    | nil => exact fun _ => rfl
    | cons c calls ih =>
      intro s
      rw [emitted, List.map_append, hstep, ih]
      rfl
  exact hrun FulfillmentRunner.empty

theorem mem_requests_iff (processFn : Bool) {r : JobRequest} :
    r ∈ requests calls ↔ ∃ a ∈ answered processFn calls, a.1 = r := by
  rw [← answered_requests processFn, List.mem_map]

theorem same_job_iff (h : Ledger log s) {a b : JobRequest × FulfillmentJob} (ha : a ∈ log)
    (hb : b ∈ log) : a.2.id = b.2.id ↔ a.1.key = b.1.key := by
  have hfa := h.kept a ha
  have hfb := h.kept b hb
  constructor
  · intro hid
    rw [hid, hfb] at hfa
    exact congrArg Prod.fst (Option.some.inj hfa).symm
  · intro hkey
    rw [← hkey] at hfb
    exact h.once _ _ _ _ _ hfa hfb

/-- A run hands back the jobs that were asked for, and one for each upload, exactly as long as
a room is not named twice with other files of the same number or for another account. -/
theorem faithful_and_one_job_iff
    (hf : ValidTrace FreshIds (next processFn) FulfillmentRunner.empty calls) :
    Faithful processFn calls ∧ OneJobPerUpload processFn calls ↔ CountsTellFiles calls := by
  have hledger := ledger_run hf
  constructor
  · rintro ⟨hfaithful, -⟩ r hr q hq hroom hcount
    obtain ⟨a, ha, rfl⟩ := (mem_requests_iff processFn).1 hr
    obtain ⟨b, hb, rfl⟩ := (mem_requests_iff processFn).1 hq
    have hid := (same_job_iff hledger ha hb).2 (key_eq_iff.2 ⟨hroom, hcount⟩)
    have hfa := hledger.kept a ha
    rw [hid, hledger.kept b hb] at hfa
    have hsame := congrArg Prod.snd (Option.some.inj hfa)
    rw [← hfaithful a ha, ← hfaithful b hb]
    exact hsame.symm
  · intro htell
    have hasked : ∀ a ∈ answered processFn calls, a.1 ∈ requests calls := fun a ha =>
      (mem_requests_iff processFn).2 ⟨a, ha, rfl⟩
    constructor
    · intro a ha
      have hfa := hledger.kept a ha
      have hmade : requestOf a.2 ∈ requests calls := by
        rw [← answered_requests processFn]
        exact hledger.asked _ _ _ hfa
      obtain ⟨hroom, hcount⟩ := key_eq_iff.1 (hledger.keyed _ _ _ hfa)
      exact (htell _ (hasked a ha) _ hmade hroom hcount).symm
    · intro a ha b hb
      rw [same_job_iff hledger ha hb, key_eq_iff]
      constructor
      · rintro ⟨hroom, hcount⟩
        rw [htell _ (hasked a ha) _ (hasked b hb) hroom hcount]
        exact ⟨rfl, rfl⟩
      · rintro ⟨hroom, hfiles⟩
        exact ⟨hroom, congrArg List.length hfiles⟩

def twoUploads : List RunnerCall :=
  [.createJob "room-1" "acc-1" ["f.pdf"] "j1" 0,
    .createJob "room-1" "acc-1" ["f.pdf", "g.pdf"] "j2" 1,
    .createJob "room-1" "acc-1" ["f.pdf"] "j3" 2]

theorem two_uploads_two_jobs :
    Faithful false twoUploads ∧ OneJobPerUpload false twoUploads :=
  (faithful_and_one_job_iff (by decide)).2 (by decide)

def replacedFile : List RunnerCall :=
  [.createJob "room-1" "acc-1" ["f.pdf"] "j1" 0, .createJob "room-1" "acc-1" ["g.pdf"] "j2" 1]

theorem replaced_file_not_processed :
    ValidTrace FreshIds (next false) FulfillmentRunner.empty replacedFile ∧
    ¬ Faithful false replacedFile ∧ ¬ OneJobPerUpload false replacedFile := by
  refine ⟨by decide, by decide, by decide⟩

end TrustCopilot.JobRequests
