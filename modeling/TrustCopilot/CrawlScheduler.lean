import TrustCopilot.Library.OrderedDict
import TrustCopilot.Library.Trace
import Mathlib.Data.List.Sort
import Mathlib.Algebra.Order.Ring.Int
import Mathlib.Algebra.Order.Ring.Rat

/-! The crawl scheduler: due sources are turned into crawl jobs, and each emission and each
failure moves the next crawl of its source into the future. Times are microseconds. -/
namespace TrustCopilot.CrawlScheduler

open TrustCopilot.OrderedDict
open TrustCopilot.Trace

def hours (n : ℤ) : ℤ := n * 3600000000

def maxBackoffHours : ℤ := 720

/-- `datetime.max`; a later time raises. -/
def timeMax : ℤ := 253402300799999999

structure SourceEntry where
  id : String
  sourceType : String
  urlPattern : String
  domain : String
  pageTypeHint : Option String := none
  active : Bool := true
  priority : ℤ := 5
  recrawlHours : ℤ := 168
  rateLimitRpm : ℤ := 10
  lastCrawledAt : Option ℤ := none
  nextCrawlAt : Option ℤ := none
  consecutiveFailures : ℕ := 0
  lastError : Option String := none
  healthScore : ℚ := 1
  requiresJs : Bool := false
  deriving DecidableEq, Repr

structure CrawlJob where
  sourceEntryId : String
  url : String
  domain : String
  sourceType : String
  pageTypeHint : Option String
  priority : ℤ
  requiresJs : Bool
  emittedAt : ℤ
  deriving DecidableEq, Repr

structure Scheduler where
  sources : Table SourceEntry.id
  jobs : List CrawlJob
  clock : ℤ

def Scheduler.new (sources : List SourceEntry) (clock : ℤ) : Scheduler :=
  ⟨sources.foldl Table.save Table.empty, [], clock⟩

def isDue (now : ℤ) (src : SourceEntry) : Bool :=
  src.active && src.nextCrawlAt.any fun t => t ≤ now

/-- `ORDER BY priority DESC, next_crawl_at ASC` -/
def Before (a b : SourceEntry) : Prop :=
  b.priority < a.priority ∨
    (a.priority = b.priority ∧ a.nextCrawlAt.getD 0 ≤ b.nextCrawlAt.getD 0)

instance : DecidableRel Before := fun _ _ => inferInstanceAs (Decidable (_ ∨ _))

/-- The query of `emit_due_jobs`; equal sort keys leave the rows in the order they come in. -/
def dueSources (rows : List SourceEntry) (now : ℤ) (batchSize : ℕ) : List SourceEntry :=
  ((rows.filter (isDue now)).insertionSort Before).take batchSize

def backoffHours (src : SourceEntry) : ℤ :=
  if src.consecutiveFailures > 0 then
    min (src.recrawlHours * 2 ^ src.consecutiveFailures) maxBackoffHours
  else src.recrawlHours

def nextCrawlTime (src : SourceEntry) (now : ℤ) : Option ℤ :=
  if now + hours (backoffHours src) ≤ timeMax then some (now + hours (backoffHours src)) else none

def reschedule (now : ℤ) (src : SourceEntry) : Option SourceEntry :=
  (nextCrawlTime src now).map fun t => { src with nextCrawlAt := some t }

theorem reschedule_some {now : ℤ} {src src' : SourceEntry} (h : reschedule now src = some src') :
    src' = { src with nextCrawlAt := some (now + hours (backoffHours src)) } := by
  obtain ⟨t, ht, rfl⟩ := Option.map_eq_some_iff.1 h
  rw [nextCrawlTime] at ht
  split at ht
  · cases ht
    rfl
  · cases ht

theorem reschedule_id {now : ℤ} {src src' : SourceEntry} (h : reschedule now src = some src') :
    src'.id = src.id := by
  rw [reschedule_some h]

def crawlJob (now : ℤ) (src : SourceEntry) : CrawlJob where
  sourceEntryId := src.id
  url := src.urlPattern
  domain := src.domain
  sourceType := src.sourceType
  pageTypeHint := src.pageTypeHint
  priority := src.priority
  requiresJs := src.requiresJs
  emittedAt := now

/-- One round of the loop of `emit_due_jobs`, on the source table. -/
def moveOn (now : ℤ) (t : Table SourceEntry.id) (src : SourceEntry) :
    Option (Table SourceEntry.id) :=
  (reschedule now src).map t.save

def emitDueJobs (s : Scheduler) (now : ℤ) (rows : List SourceEntry) (batchSize : ℕ) :
    Option (Scheduler × List CrawlJob) :=
  let due := dueSources rows now batchSize
  (due.foldlM (moveOn now) s.sources).map fun sources =>
    ({ s with sources := sources, jobs := s.jobs ++ due.map (crawlJob now) },
      due.map (crawlJob now))

def succeed (now : ℤ) (src : SourceEntry) : SourceEntry :=
  { src with
    lastCrawledAt := some now
    consecutiveFailures := 0
    healthScore := min 1 (src.healthScore + 1 / 10)
    lastError := none }

def fail (now : ℤ) (error : String) (src : SourceEntry) : Option SourceEntry :=
  reschedule now
    { src with
      consecutiveFailures := src.consecutiveFailures + 1
      healthScore := max 0 (src.healthScore - 2 / 10)
      lastError := some (String.ofList (error.toList.take 2000)) }

theorem fail_some {now : ℤ} {error : String} {src src' : SourceEntry}
    (h : fail now error src = some src') :
    src' = { src with
      consecutiveFailures := src.consecutiveFailures + 1
      healthScore := max 0 (src.healthScore - 2 / 10)
      lastError := some (String.ofList (error.toList.take 2000))
      nextCrawlAt := some (now + hours
        (min (src.recrawlHours * 2 ^ (src.consecutiveFailures + 1)) maxBackoffHours)) } := by
  rw [reschedule_some h, backoffHours, if_pos (Nat.succ_pos _)]

theorem fail_id {now : ℤ} {error : String} {src src' : SourceEntry}
    (h : fail now error src = some src') : src'.id = src.id := by
  rw [fail_some h]

def recordSuccess (s : Scheduler) (now : ℤ) (sourceEntryId : String) : Scheduler :=
  match s.sources.get? sourceEntryId with
  | none => s
  | some src => { s with sources := s.sources.save (succeed now src) }

def recordFailure (s : Scheduler) (now : ℤ) (sourceEntryId error : String) : Option Scheduler :=
  match s.sources.get? sourceEntryId with
  | none => some s
  | some src => (fail now error src).map fun src' => { s with sources := s.sources.save src' }

structure NewSource where
  sourceType : String
  urlPattern : String
  domain : String
  pageTypeHint : Option String := none
  priority : ℤ := 5
  recrawlHours : ℤ := 168
  requiresJs : Bool := false
  rateLimitRpm : ℤ := 10
  deriving DecidableEq, Repr

def newEntry (now : ℤ) (id : String) (new : NewSource) : SourceEntry where
  id := id
  sourceType := new.sourceType
  urlPattern := new.urlPattern
  domain := new.domain
  pageTypeHint := new.pageTypeHint
  priority := new.priority
  recrawlHours := new.recrawlHours
  requiresJs := new.requiresJs
  rateLimitRpm := new.rateLimitRpm
  nextCrawlAt := some now

def registerSource (s : Scheduler) (now : ℤ) (id : String) (new : NewSource) : Scheduler :=
  { s with sources := s.sources.save (newEntry now id new) }

/-- The calls, with what they read off the clock, off the database and off `uuid4`. -/
inductive Call where
  | registerSource (now : ℤ) (id : String) (new : NewSource)
  | emitDueJobs (now : ℤ) (rows : List SourceEntry) (batchSize : ℕ)
  | recordSuccess (now : ℤ) (sourceEntryId : String)
  | recordFailure (now : ℤ) (sourceEntryId error : String)
  deriving DecidableEq, Repr

def Call.now : Call → ℤ
  | .registerSource now _ _ => now
  | .emitDueJobs now _ _ => now
  | .recordSuccess now _ => now
  | .recordFailure now _ _ => now

/-- A call that raises is rolled back. -/
def perform (s : Scheduler) : Call → Scheduler
  | .registerSource now id new => registerSource s now id new
  | .emitDueJobs now rows batchSize => ((emitDueJobs s now rows batchSize).map Prod.fst).getD s
  | .recordSuccess now sourceEntryId => recordSuccess s now sourceEntryId
  | .recordFailure now sourceEntryId error => (recordFailure s now sourceEntryId error).getD s

def next (s : Scheduler) (c : Call) : Scheduler := { perform s c with clock := c.now }

def emittedBy (s : Scheduler) : Call → List CrawlJob
  | .emitDueJobs now rows batchSize => ((emitDueJobs s now rows batchSize).map Prod.snd).getD []
  | _ => []

/-- The clock does not go back, a new id is fresh, and a query reads the rows of the table in
some order. -/
def Enabled (s : Scheduler) (c : Call) : Prop :=
  s.clock ≤ c.now ∧
    match c with
    | .registerSource _ id new => s.sources.get? id = none ∧ 1 ≤ new.recrawlHours
    | .emitDueJobs _ rows _ => rows.Perm s.sources.values
    | .recordSuccess _ _ => True
    | .recordFailure _ _ _ => True

instance (s : Scheduler) (c : Call) : Decidable (Enabled s c) :=
  match c with
  | .registerSource _ _ _ => inferInstanceAs (Decidable (_ ∧ _ ∧ _))
  | .emitDueJobs _ _ _ => inferInstanceAs (Decidable (_ ∧ _))
  | .recordSuccess _ _ => inferInstanceAs (Decidable (_ ∧ _))
  | .recordFailure _ _ _ => inferInstanceAs (Decidable (_ ∧ _))

/-! ### The query -/

variable {s : Scheduler} {now : ℤ} {rows : List SourceEntry} {batchSize : ℕ}

theorem dueSources_length (rows : List SourceEntry) (now : ℤ) (batchSize : ℕ) :
    (dueSources rows now batchSize).length ≤ batchSize := List.length_take_le _ _

theorem mem_dueSources {src : SourceEntry} (h : src ∈ dueSources rows now batchSize) :
    src ∈ rows ∧ isDue now src = true := by
  have hsorted := List.mem_of_mem_take h
  rw [List.mem_insertionSort] at hsorted
  exact List.mem_filter.1 hsorted

theorem dueSources_nodup (h : (rows.map SourceEntry.id).Nodup) :
    ((dueSources rows now batchSize).map SourceEntry.id).Nodup := by
  have hsorted : (((rows.filter (isDue now)).insertionSort Before).map SourceEntry.id).Nodup :=
    ((List.perm_insertionSort Before _).map SourceEntry.id).nodup_iff.2
      (h.sublist (List.filter_sublist.map SourceEntry.id))
  exact hsorted.sublist ((List.take_sublist _ _).map SourceEntry.id)

theorem isDue_iff {src : SourceEntry} :
    isDue now src = true ↔ src.active = true ∧ ∃ t, src.nextCrawlAt = some t ∧ t ≤ now := by
  simp [isDue, Option.any_eq_true]

theorem due_rows (hrows : rows.Perm s.sources.values) {src : SourceEntry}
    (h : src ∈ dueSources rows now batchSize) :
    s.sources.get? src.id = some src ∧ isDue now src = true := by
  obtain ⟨hin, hdue⟩ := mem_dueSources h
  exact ⟨Table.mem_values_iff.1 (hrows.mem_iff.1 hin), hdue⟩

theorem due_nodup (hrows : rows.Perm s.sources.values) :
    ((dueSources rows now batchSize).map SourceEntry.id).Nodup :=
  dueSources_nodup ((hrows.map SourceEntry.id).nodup_iff.2 s.sources.values_keys_nodup)

/-! ### The loop -/

theorem moved_other {t t' : Table SourceEntry.id} {xs : List SourceEntry}
    (h : xs.foldlM (moveOn now) t = some t') {id : String} (hid : id ∉ xs.map SourceEntry.id) :
    t'.get? id = t.get? id := by
  induction xs generalizing t with
  | nil =>
    cases h
    rfl
  | cons src xs ih =>
    rw [List.map_cons, List.mem_cons, not_or] at hid
    rw [List.foldlM_cons] at h
    obtain ⟨t₁, ht₁, hrest⟩ := Option.bind_eq_some_iff.1 h
    obtain ⟨src', hsrc', rfl⟩ := Option.map_eq_some_iff.1 ht₁
    rw [ih hrest hid.2]
    apply Table.get?_save_other
    rw [reschedule_id hsrc']
    exact hid.1

theorem moved_mem {t t' : Table SourceEntry.id} {xs : List SourceEntry}
    (h : xs.foldlM (moveOn now) t = some t') (hids : (xs.map SourceEntry.id).Nodup)
    {src : SourceEntry} (hsrc : src ∈ xs) :
    ∃ src', reschedule now src = some src' ∧ t'.get? src.id = some src' := by
  induction xs generalizing t with
  | nil => cases hsrc
  | cons x xs ih =>
    rw [List.map_cons, List.nodup_cons] at hids
    rw [List.foldlM_cons] at h
    obtain ⟨t₁, ht₁, hrest⟩ := Option.bind_eq_some_iff.1 h
    rcases List.mem_cons.1 hsrc with rfl | hin
    · obtain ⟨src', hsrc', rfl⟩ := Option.map_eq_some_iff.1 ht₁
      refine ⟨src', hsrc', ?_⟩
      rw [moved_other hrest hids.1, Table.get?_save, if_pos (reschedule_id hsrc').symm]
    · exact ih hrest hids.2 hin

structure Emission (s : Scheduler) (now : ℤ) (due : List SourceEntry) (s' : Scheduler) :
    Prop where
  jobs : s'.jobs = s.jobs ++ due.map (crawlJob now)
  moved : ∀ src ∈ due, ∃ src', reschedule now src = some src' ∧
    s'.sources.get? src.id = some src'
  kept : ∀ id, id ∉ due.map SourceEntry.id → s'.sources.get? id = s.sources.get? id

theorem emitDueJobs_some {s' : Scheduler} {jobs : List CrawlJob}
    (hrows : rows.Perm s.sources.values)
    (h : emitDueJobs s now rows batchSize = some (s', jobs)) :
    jobs = (dueSources rows now batchSize).map (crawlJob now) ∧
      Emission s now (dueSources rows now batchSize) s' := by
  obtain ⟨sources, hsources, heq⟩ := Option.map_eq_some_iff.1 h
  cases heq
  refine ⟨rfl, rfl, ?_, ?_⟩
  · intro src hsrc
    exact moved_mem hsources (due_nodup hrows) hsrc
  · intro id hid
    exact moved_other hsources hid

theorem emittedBy_cases (s : Scheduler) (c : Call) :
    emittedBy s c = [] ∨ ∃ now rows batchSize, c = .emitDueJobs now rows batchSize ∧
      emittedBy s c = (dueSources rows now batchSize).map (crawlJob now) := by
  cases c with
  | emitDueJobs now rows batchSize =>
    rw [emittedBy, emitDueJobs]
    cases (dueSources rows now batchSize).foldlM (moveOn now) s.sources with
    | none => exact Or.inl rfl
    | some sources => exact Or.inr ⟨now, rows, batchSize, rfl, rfl⟩
  | registerSource now id new => exact Or.inl rfl
  | recordSuccess now id => exact Or.inl rfl
  | recordFailure now id error => exact Or.inl rfl

theorem emittedBy_mem {c : Call} (hc : Enabled s c) {job : CrawlJob} (h : job ∈ emittedBy s c) :
    job.emittedAt = c.now ∧
      ∃ src, s.sources.get? job.sourceEntryId = some src ∧ isDue c.now src = true := by
  rcases emittedBy_cases s c with hnone | ⟨now, rows, batchSize, rfl, hjobs⟩
  · rw [hnone] at h
    cases h
  · rw [hjobs] at h
    obtain ⟨src, hsrc, rfl⟩ := List.mem_map.1 h
    obtain ⟨hget, hdue⟩ := due_rows hc.2 hsrc
    exact ⟨rfl, src, hget, hdue⟩

theorem emittedBy_nodup {c : Call} (hc : Enabled s c) :
    ((emittedBy s c).map CrawlJob.sourceEntryId).Nodup := by
  rcases emittedBy_cases s c with hnone | ⟨now, rows, batchSize, rfl, hjobs⟩
  · rw [hnone]
    exact List.nodup_nil
  · rw [hjobs, List.map_map]
    exact due_nodup hc.2

theorem emittedBy_length (s : Scheduler) (now : ℤ) (rows : List SourceEntry) (batchSize : ℕ) :
    (emittedBy s (.emitDueJobs now rows batchSize)).length ≤ batchSize := by
  rcases emittedBy_cases s (.emitDueJobs now rows batchSize) with hnone | ⟨_, _, _, hcall, hjobs⟩
  · rw [hnone]
    exact Nat.zero_le _
  · cases hcall
    rw [hjobs, List.length_map]
    exact dueSources_length rows now batchSize

theorem jobs_next (s : Scheduler) (c : Call) :
    (next s c).jobs = s.jobs ++ emittedBy s c := by
  cases c with
  | emitDueJobs now rows batchSize =>
    simp only [next, perform, emittedBy, emitDueJobs]
    cases (dueSources rows now batchSize).foldlM (moveOn now) s.sources with
    | none => exact (List.append_nil _).symm
    | some sources => rfl
  | registerSource now id new => exact (List.append_nil _).symm
  | recordSuccess now id =>
    simp only [next, perform, recordSuccess, emittedBy, List.append_nil]
    split <;> rfl
  | recordFailure now id error =>
    simp only [next, perform, recordFailure, emittedBy, List.append_nil]
    split
    · rfl
    · next src _ => cases fail now error src <;> rfl

/-! ### What one call does to one source -/

inductive Turn (s : Scheduler) (c : Call) (src : SourceEntry) : SourceEntry → Prop
  | kept : (∀ job ∈ emittedBy s c, job.sourceEntryId ≠ src.id) → Turn s c src src
  | emitted : crawlJob c.now src ∈ emittedBy s c →
      Turn s c src { src with nextCrawlAt := some (c.now + hours (backoffHours src)) }
  | succeeded : c = .recordSuccess c.now src.id → Turn s c src (succeed c.now src)
  | failed (error : String) (src' : SourceEntry) : c = .recordFailure c.now src.id error →
      fail c.now error src = some src' → Turn s c src src'

theorem Turn.quiet {c : Call} {src : SourceEntry} (h : emittedBy s c = []) : Turn s c src src := by
  apply Turn.kept
  intro job hjob
  rw [h] at hjob
  cases hjob

theorem source_emission {now : ℤ} {rows : List SourceEntry} {batchSize : ℕ}
    (hrows : rows.Perm s.sources.values) {src : SourceEntry}
    (h : s.sources.get? src.id = some src) :
    ∃ src', (next s (.emitDueJobs now rows batchSize)).sources.get? src.id = some src' ∧
      Turn s (.emitDueJobs now rows batchSize) src src' := by
  simp only [next, perform]
  cases he : emitDueJobs s now rows batchSize with
  | none =>
    refine ⟨src, h, .quiet ?_⟩
    rw [emittedBy, he]
    rfl
  | some r =>
    obtain ⟨hjobs, -, hmoved, hkept⟩ := emitDueJobs_some hrows he
    have hby : emittedBy s (.emitDueJobs now rows batchSize) =
        (dueSources rows now batchSize).map (crawlJob now) := by
      rw [emittedBy, he]
      exact hjobs
    by_cases hin : src ∈ dueSources rows now batchSize
    · obtain ⟨src', hsrc', hget⟩ := hmoved src hin
      refine ⟨src', hget, ?_⟩
      rw [reschedule_some hsrc']
      apply Turn.emitted
      rw [hby]
      exact List.mem_map_of_mem hin
    · -- two rows of one id are the same row
      have hout : ∀ x ∈ dueSources rows now batchSize, x.id ≠ src.id := by
        intro x hx hid
        have hget := (due_rows hrows hx).1
        rw [hid, h] at hget
        cases hget
        exact hin hx
      refine ⟨src, (hkept src.id ?_).trans h, .kept ?_⟩
      · intro hid
        obtain ⟨x, hx, hxid⟩ := List.mem_map.1 hid
        exact hout x hx hxid
      · intro job hjob
        rw [hby] at hjob
        obtain ⟨x, hx, rfl⟩ := List.mem_map.1 hjob
        exact hout x hx

theorem source_turn {c : Call} (hc : Enabled s c) {src : SourceEntry}
    (h : s.sources.get? src.id = some src) :
    ∃ src', (next s c).sources.get? src.id = some src' ∧ Turn s c src src' := by
  cases c with
  | registerSource now id new =>
    refine ⟨src, ?_, .quiet rfl⟩
    simp only [next, perform, registerSource, Table.get?_save]
    rw [if_neg]
    · exact h
    · intro hid
      have hfree : s.sources.get? (newEntry now id new).id = none := hc.2.1
      rw [← hid, h] at hfree
      cases hfree
  | emitDueJobs now rows batchSize => exact source_emission hc.2 h
  | recordSuccess now id =>
    simp only [next, perform, recordSuccess]
    cases hget : s.sources.get? id with
    | none => exact ⟨src, h, .quiet rfl⟩
    | some x =>
      have hid : (succeed now x).id = x.id := rfl
      rcases Table.get?_rewrite h hget hid with hkept | ⟨rfl, hnew⟩
      · exact ⟨src, hkept, .quiet rfl⟩
      · refine ⟨_, hnew, .succeeded ?_⟩
        rw [show src.id = id from Table.key_of_get? hget]
        rfl
  | recordFailure now id error =>
    simp only [next, perform, recordFailure]
    cases hget : s.sources.get? id with
    | none => exact ⟨src, h, .quiet rfl⟩
    | some x =>
      simp only
      cases hf : fail now error x with
      | none => exact ⟨src, h, .quiet rfl⟩
      | some x' =>
        rcases Table.get?_rewrite h hget (fail_id hf) with hkept | ⟨rfl, hnew⟩
        · exact ⟨src, hkept, .quiet rfl⟩
        · refine ⟨x', hnew, .failed error x' ?_ hf⟩
          rw [show src.id = id from Table.key_of_get? hget]
          rfl

theorem absent_emission {now : ℤ} {rows : List SourceEntry} {batchSize : ℕ}
    (hrows : rows.Perm s.sources.values) {id : String} (h : s.sources.get? id = none) :
    (next s (.emitDueJobs now rows batchSize)).sources.get? id = none := by
  simp only [next, perform]
  cases he : emitDueJobs s now rows batchSize with
  | none => exact h
  | some r =>
    obtain ⟨-, -, -, hkept⟩ := emitDueJobs_some hrows he
    refine (hkept id ?_).trans h
    intro hin
    obtain ⟨x, hx, rfl⟩ := List.mem_map.1 hin
    rw [(due_rows hrows hx).1] at h
    cases h

theorem absent_next {c : Call} (hc : Enabled s c) {id : String}
    (h : s.sources.get? id = none) :
    (next s c).sources.get? id = none ∨ ∃ now new, c = .registerSource now id new ∧
      (next s c).sources.get? id = some (newEntry now id new) := by
  cases c with
  | registerSource now id' new =>
    by_cases hid : id = id'
    · subst hid
      exact Or.inr ⟨now, new, rfl, (Table.get?_save _ _ _).trans (if_pos rfl)⟩
    · exact Or.inl ((Table.get?_save _ _ _).trans ((if_neg hid).trans h))
  | emitDueJobs now rows batchSize => exact Or.inl (absent_emission hc.2 h)
  | recordSuccess now id' =>
    left
    simp only [next, perform, recordSuccess]
    cases hget : s.sources.get? id' with
    | none => exact h
    | some x => exact Table.get?_rewrite_absent h hget rfl
  | recordFailure now id' error =>
    left
    simp only [next, perform, recordFailure]
    cases hget : s.sources.get? id' with
    | none => exact h
    | some x =>
      simp only
      cases hf : fail now error x with
      | none => exact h
      | some x' => exact Table.get?_rewrite_absent h hget (fail_id hf)

theorem source_origin {c : Call} (hc : Enabled s c) {id : String} {src' : SourceEntry}
    (h : (next s c).sources.get? id = some src') :
    (∃ src, s.sources.get? id = some src ∧ Turn s c src src') ∨
      s.sources.get? id = none ∧ ∃ now new, c = .registerSource now id new ∧
        src' = newEntry now id new := by
  cases hbefore : s.sources.get? id with
  | some src =>
    have hid : src.id = id := Table.key_of_get? hbefore
    obtain ⟨x, hx, hturn⟩ := source_turn hc (hid.symm ▸ hbefore)
    rw [hid, h] at hx
    cases hx
    exact Or.inl ⟨src, rfl, hturn⟩
  | none =>
    right
    rcases absent_next hc hbefore with hnone | ⟨now, new, hcall, hnew⟩
    · rw [hnone] at h
      cases h
    · rw [hnew] at h
      cases h
      exact ⟨rfl, now, new, hcall, rfl⟩

theorem turn_of_known {c : Call} (hc : Enabled s c) {id : String} {src src' : SourceEntry}
    (hsrc : s.sources.get? id = some src) (hget : (next s c).sources.get? id = some src') :
    Turn s c src src' := by
  rcases source_origin hc hget with ⟨x, hx, hturn⟩ | ⟨hnone, -⟩
  · rw [hsrc] at hx
    cases hx
    exact hturn
  · rw [hnone] at hsrc
    cases hsrc

/-! ### Spacing -/

def spacing (src : SourceEntry) : ℤ := hours (min src.recrawlHours maxBackoffHours)

theorem spacing_le_backoff {src : SourceEntry} (h : 1 ≤ src.recrawlHours) :
    spacing src ≤ hours (backoffHours src) := by
  have hpow : (1 : ℤ) ≤ 2 ^ src.consecutiveFailures := one_le_pow₀ (by omega)
  have hgrow : src.recrawlHours ≤ src.recrawlHours * 2 ^ src.consecutiveFailures :=
    le_mul_of_one_le_right (by omega) hpow
  simp only [spacing, hours, backoffHours]
  split <;> omega

theorem turn_recrawlHours {c : Call} {src src' : SourceEntry} (h : Turn s c src src') :
    src'.recrawlHours = src.recrawlHours := by
  cases h with
  | kept _ => rfl
  | emitted _ => rfl
  | succeeded _ => rfl
  | failed error src' _ hf => rw [fail_some hf]

theorem turn_spacing {c : Call} {src src' : SourceEntry} (h : Turn s c src src') :
    spacing src' = spacing src := by
  rw [spacing, spacing, turn_recrawlHours h]

def Waits (src : SourceEntry) (emittedAt : ℤ) : Prop :=
  ∃ t, src.nextCrawlAt = some t ∧ emittedAt + spacing src ≤ t

theorem waits_moved {src : SourceEntry} (h : 1 ≤ src.recrawlHours) {emittedAt now : ℤ}
    (hpast : emittedAt ≤ now) :
    Waits { src with nextCrawlAt := some (now + hours (backoffHours src)) } emittedAt := by
  have hback := spacing_le_backoff h
  refine ⟨_, rfl, ?_⟩
  simp only [spacing] at hback ⊢
  omega

theorem waits_turn {c : Call} {src src' : SourceEntry} (h : Turn s c src src')
    (hrecrawl : 1 ≤ src.recrawlHours) {emittedAt : ℤ} (hpast : emittedAt ≤ c.now)
    (hw : Waits src emittedAt) : Waits src' emittedAt := by
  cases h with
  | kept _ => exact hw
  | emitted _ => exact waits_moved hrecrawl hpast
  | succeeded _ => exact hw
  | failed error src' _ hf =>
    rw [reschedule_some hf]
    apply waits_moved _ hpast
    exact hrecrawl

structure Paced (s : Scheduler) : Prop where
  recrawl : ∀ id src, s.sources.get? id = some src → 1 ≤ src.recrawlHours
  past : ∀ job ∈ s.jobs, job.emittedAt ≤ s.clock
  known : ∀ job ∈ s.jobs, ∃ src, s.sources.get? job.sourceEntryId = some src
  waits : ∀ job ∈ s.jobs, ∀ src, s.sources.get? job.sourceEntryId = some src →
    Waits src job.emittedAt
  spaced : s.jobs.Pairwise fun a b => a.sourceEntryId = b.sourceEntryId →
    ∀ src, s.sources.get? a.sourceEntryId = some src → a.emittedAt + spacing src ≤ b.emittedAt

theorem paced_recrawl {c : Call} (h : Paced s) (hc : Enabled s c) {id : String}
    {src' : SourceEntry} (hget : (next s c).sources.get? id = some src') :
    1 ≤ src'.recrawlHours := by
  rcases source_origin hc hget with ⟨src, hsrc, hturn⟩ | ⟨-, now, new, rfl, rfl⟩
  · rw [turn_recrawlHours hturn]
    exact h.recrawl id src hsrc
  · exact hc.2.2

theorem known_job {c : Call} (h : Paced s) (hc : Enabled s c) {job : CrawlJob}
    (hjob : job ∈ s.jobs ++ emittedBy s c) :
    ∃ src, s.sources.get? job.sourceEntryId = some src := by
  rcases List.mem_append.1 hjob with hold | hnew
  · exact h.known job hold
  · obtain ⟨-, src, hsrc, -⟩ := emittedBy_mem hc hnew
    exact ⟨src, hsrc⟩

theorem paced_waits {c : Call} (h : Paced s) (hc : Enabled s c) {job : CrawlJob}
    (hjob : job ∈ s.jobs ++ emittedBy s c) {src' : SourceEntry}
    (hget : (next s c).sources.get? job.sourceEntryId = some src') :
    Waits src' job.emittedAt := by
  obtain ⟨src, hsrc⟩ := known_job h hc hjob
  have hturn := turn_of_known hc hsrc hget
  have hrecrawl := h.recrawl _ src hsrc
  rcases List.mem_append.1 hjob with hold | hnew
  · apply waits_turn hturn hrecrawl
    · exact (h.past job hold).trans hc.1
    · exact h.waits job hold src hsrc
  · have hat := (emittedBy_mem hc hnew).1
    cases hturn with
    | kept hother => exact absurd (Table.key_of_get? hsrc).symm (hother job hnew)
    | emitted _ => exact waits_moved hrecrawl hat.le
    | succeeded hcall =>
      rw [hcall] at hnew
      cases hnew
    | failed error src' hcall _ =>
      rw [hcall] at hnew
      cases hnew

/-- A job that is emitted now comes a spacing after every earlier job of its source: the source
was due. -/
theorem paced_gap {c : Call} (h : Paced s) (hc : Enabled s c) {a b : CrawlJob}
    (ha : a ∈ s.jobs) (hb : b ∈ emittedBy s c) (hsame : a.sourceEntryId = b.sourceEntryId)
    {src' : SourceEntry} (hget : (next s c).sources.get? a.sourceEntryId = some src') :
    a.emittedAt + spacing src' ≤ b.emittedAt := by
  obtain ⟨hat, src, hsrc, hdue⟩ := emittedBy_mem hc hb
  rw [← hsame] at hsrc
  obtain ⟨-, t, ht, hle⟩ := isDue_iff.1 hdue
  obtain ⟨t', ht', hwait⟩ := h.waits a ha src hsrc
  rw [ht] at ht'
  cases ht'
  rw [turn_spacing (turn_of_known hc hsrc hget)]
  omega

theorem paced_spaced {c : Call} (h : Paced s) (hc : Enabled s c) :
    (s.jobs ++ emittedBy s c).Pairwise fun a b => a.sourceEntryId = b.sourceEntryId →
      ∀ src, (next s c).sources.get? a.sourceEntryId = some src →
        a.emittedAt + spacing src ≤ b.emittedAt := by
  refine List.pairwise_append.2 ⟨?_, ?_, ?_⟩
  · refine h.spaced.imp_of_mem ?_
    intro a b ha _ hspaced hsame src' hget
    obtain ⟨src, hsrc⟩ := h.known a ha
    rw [turn_spacing (turn_of_known hc hsrc hget)]
    exact hspaced hsame src hsrc
  · have hnodup := emittedBy_nodup hc
    rw [List.Nodup, List.pairwise_map] at hnodup
    exact hnodup.imp fun hne hsame => absurd hsame hne
  · intro a ha b hb hsame src' hget
    exact paced_gap h hc ha hb hsame hget

theorem paced_next {c : Call} (h : Paced s) (hc : Enabled s c) : Paced (next s c) := by
  constructor
  · intro id src hget
    exact paced_recrawl h hc hget
  · intro job hjob
    rw [jobs_next] at hjob
    rcases List.mem_append.1 hjob with hold | hnew
    · exact (h.past job hold).trans hc.1
    · exact (emittedBy_mem hc hnew).1.le
  · intro job hjob
    rw [jobs_next] at hjob
    obtain ⟨src, hsrc⟩ := known_job h hc hjob
    have hid : src.id = job.sourceEntryId := Table.key_of_get? hsrc
    obtain ⟨src', hget, -⟩ := source_turn hc (hid.symm ▸ hsrc)
    exact ⟨src', hid ▸ hget⟩
  · intro job hjob src hget
    rw [jobs_next] at hjob
    exact paced_waits h hc hjob hget
  · rw [jobs_next]
    exact paced_spaced h hc

/-! ### Runs -/

def run (start : Scheduler) (calls : List Call) : Scheduler := runTrace next start calls

def Unstarted (start : Scheduler) : Prop :=
  start.jobs = [] ∧ ∀ id src, start.sources.get? id = some src → 1 ≤ src.recrawlHours

theorem paced_start {start : Scheduler} (h : Unstarted start) : Paced start where
  recrawl := h.2
  past job hjob := by rw [h.1] at hjob; cases hjob
  known job hjob := by rw [h.1] at hjob; cases hjob
  waits job hjob := by rw [h.1] at hjob; cases hjob
  spaced := by rw [h.1]; exact List.Pairwise.nil

theorem run_paced {start : Scheduler} {calls : List Call} (h0 : Unstarted start)
    (h : ValidTrace Enabled next start calls) : Paced (run start calls) :=
  history_invariant (I := fun _ s => Paced s) (paced_start h0)
    (fun _ _ _ hs hc => paced_next hs hc) h

structure EmissionSound (s : Scheduler) (c : Call) : Prop where
  logged : (next s c).jobs = s.jobs ++ emittedBy s c
  due : ∀ job ∈ emittedBy s c, ∃ src, s.sources.get? job.sourceEntryId = some src ∧
    src.active = true ∧ ∃ t, src.nextCrawlAt = some t ∧ t ≤ job.emittedAt
  once : ((emittedBy s c).map CrawlJob.sourceEntryId).Nodup
  batch : ∀ now rows batchSize, c = .emitDueJobs now rows batchSize →
    (emittedBy s c).length ≤ batchSize

theorem emission_sound {c : Call} (hc : Enabled s c) : EmissionSound s c where
  logged := jobs_next s c
  due job hjob := by
    obtain ⟨hat, src, hsrc, hdue⟩ := emittedBy_mem hc hjob
    rw [hat]
    exact ⟨src, hsrc, isDue_iff.1 hdue⟩
  once := emittedBy_nodup hc
  batch now rows batchSize hcall := by
    rw [hcall]
    exact emittedBy_length s now rows batchSize

structure CrawlsPaced (start : Scheduler) (calls : List Call) : Prop where
  emissions : ∀ before c, before ++ [c] <+: calls → EmissionSound (run start before) c
  spaced : ∀ id src, (run start calls).sources.get? id = some src →
    ((run start calls).jobs.filter fun job => job.sourceEntryId = id).Pairwise fun a b =>
      a.emittedAt + hours (min src.recrawlHours 720) ≤ b.emittedAt

theorem crawls_paced {start : Scheduler} {calls : List Call} (h0 : Unstarted start)
    (h : ValidTrace Enabled next start calls) : CrawlsPaced start calls where
  emissions before c hp := emission_sound (validTrace_concat.1 (validTrace_earlier hp h)).2
  spaced id src hget := by
    refine List.pairwise_filter.2 ((run_paced h0 h).spaced.imp ?_)
    intro a b hspaced ha hb
    simp only [decide_eq_true_eq] at ha hb
    exact hspaced (ha.trans hb.symm) src (ha ▸ hget)

def blog : SourceEntry :=
  newEntry 0 "src-1"
    { sourceType := "blog", urlPattern := "https://acme.com/blog", domain := "acme.com",
      recrawlHours := 24 }

def blogCalls : List Call :=
  [.registerSource 0 "src-1"
      { sourceType := "blog", urlPattern := "https://acme.com/blog", domain := "acme.com",
        recrawlHours := 24 },
    .emitDueJobs 0 [blog] 10,
    .recordFailure (hours 1) "src-1" "timeout",
    .emitDueJobs (hours 49)
      [{ blog with
          consecutiveFailures := 1
          healthScore := 8 / 10
          lastError := some "timeout"
          nextCrawlAt := some (hours 49) }] 10]

theorem blog_crawls_paced : CrawlsPaced (Scheduler.new [] 0) blogCalls :=
  crawls_paced ⟨rfl, fun _ _ h => by cases h⟩ (by decide +kernel)

end TrustCopilot.CrawlScheduler
