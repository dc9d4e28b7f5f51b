import TrustCopilot.CrawlScheduler
import TrustCopilot.Library.Latest

/-! How long a healthy source waits for its next crawl. The date is set when a job is emitted
or a crawl fails, with the failures there are at that moment; a success resets the failures and
leaves the date as it is. -/
namespace TrustCopilot.CrawlRecovery

open TrustCopilot.CrawlScheduler
open TrustCopilot.Latest
open TrustCopilot.OrderedDict
open TrustCopilot.Trace

def DueAfterCrawl (src : SourceEntry) : Prop :=
  src.consecutiveFailures = 0 → ∀ l t, src.lastCrawledAt = some l → src.nextCrawlAt = some t →
    t ≤ l + hours src.recrawlHours

def AllDue (s : Scheduler) : Prop :=
  ∀ id src, s.sources.get? id = some src → DueAfterCrawl src

/-- A failure that is recorded for a source; beyond `datetime.max` it raises. -/
def failureBy (s : Scheduler) : Call → List (String × ℤ)
  | .recordFailure now id error =>
    if ((s.sources.get? id).bind (fail now error)).isSome then [(id, now)] else []
  | _ => []

def dated (s : Scheduler) (c : Call) : List (String × ℤ) :=
  ((emittedBy s c).map fun job => (job.sourceEntryId, job.emittedAt)) ++ failureBy s c

def dateOf (id : String) (e : String × ℤ) : Option ℤ := if e.1 = id then some e.2 else none

section Runs

variable (clock : ℤ) (calls : List Call)

def state : Scheduler := run (Scheduler.new [] clock) calls

def lastDated (id : String) : Option ℤ :=
  latest (dateOf id) (emitted dated next (Scheduler.new [] clock) calls)

/-- A source that has failed succeeds so long after it was last sent out or failed that the rest
of its backoff is no longer than its interval, and the query of an emission finds no healthy one
after its last crawl; an emission beyond `datetime.max` raises. -/
def InTime : Call → Prop
  | .recordSuccess now id => ∀ src ∈ (state clock calls).sources.get? id,
    0 < src.consecutiveFailures → ∀ d ∈ lastDated clock calls id,
      hours (backoffHours src) - hours src.recrawlHours ≤ now - d
  | .emitDueJobs now rows batchSize =>
    (∃ src ∈ dueSources rows now batchSize, timeMax < now + hours (backoffHours src)) ∨
      ∀ src ∈ dueSources rows now batchSize, src.consecutiveFailures = 0 →
        ∀ l ∈ src.lastCrawledAt, now ≤ l
  | _ => True

instance (c : Call) : Decidable (InTime clock calls c) :=
  match c with
  | .registerSource _ _ _ => isTrue trivial
  | .emitDueJobs _ _ _ => inferInstanceAs (Decidable (_ ∨ _))
  | .recordSuccess _ _ => inferInstanceAs (Decidable (∀ src ∈ _, _))
  | .recordFailure _ _ _ => isTrue trivial

end Runs

variable {s : Scheduler} {c : Call} {clock : ℤ} {calls : List Call} {id : String}
  {src : SourceEntry}

/-! ### Dates -/

theorem state_concat (clock : ℤ) (calls : List Call) (c : Call) :
    state clock (calls ++ [c]) = next (state clock calls) c :=
  runTrace_concat _ calls c

theorem latest_append_other {history new : List (String × ℤ)} (h : ∀ e ∈ new, e.1 ≠ id) :
    latest (dateOf id) (history ++ new) = latest (dateOf id) history := by
  induction new using List.reverseRecOn with
  | nil => rw [List.append_nil]
  | append_singleton new e ih =>
    have he : dateOf id e = none := if_neg (h e (by simp))
    rw [← List.append_assoc, latest_concat, he, Option.none_or]
    exact ih fun x hx => h x (List.mem_append_left _ hx)

theorem lastDated_other (h : ∀ e ∈ dated (state clock calls) c, e.1 ≠ id) :
    lastDated clock (calls ++ [c]) id = lastDated clock calls id := by
  rw [lastDated, emitted_concat]
  exact latest_append_other h

theorem latest_append_dated {history new : List (String × ℤ)} {d : ℤ}
    (h : (id, d) ∈ new) (hall : ∀ e ∈ new, e.2 = d) :
    latest (dateOf id) (history ++ new) = some d := by
  induction new using List.reverseRecOn with
  | nil => cases h
  | append_singleton new e ih =>
    rw [← List.append_assoc, latest_concat]
    by_cases hid : e.1 = id
    · rw [dateOf, if_pos hid, hall e (by simp), Option.some_or]
    · rw [dateOf, if_neg hid, Option.none_or]
      refine ih ?_ fun x hx => hall x (List.mem_append_left _ hx)
      rcases List.mem_append.1 h with h | h
      · exact h
      · exact absurd (List.mem_singleton.1 h ▸ rfl) hid

theorem dated_now (hc : Enabled s c) : ∀ e ∈ dated s c, e.2 = c.now := by
  intro e he
  rcases List.mem_append.1 he with he | he
  · obtain ⟨job, hjob, rfl⟩ := List.mem_map.1 he
    exact (emittedBy_mem hc hjob).1
  · cases c with
    | recordFailure now id error =>
      rw [failureBy] at he
      split at he
      · rw [List.mem_singleton.1 he]
        rfl
      · cases he
    | registerSource now id new => cases he
    | emitDueJobs now rows batchSize => cases he
    | recordSuccess now id => cases he

theorem lastDated_now (hc : Enabled (state clock calls) c)
    (h : (id, c.now) ∈ dated (state clock calls) c) :
    lastDated clock (calls ++ [c]) id = some c.now := by
  rw [lastDated, emitted_concat]
  exact latest_append_dated h (dated_now hc)

theorem dated_other (hsrc : s.sources.get? id = some src)
    (hkept : (next s c).sources.get? id = some src)
    (hjobs : ∀ job ∈ emittedBy s c, job.sourceEntryId ≠ id) : ∀ e ∈ dated s c, e.1 ≠ id := by
  intro e he
  rcases List.mem_append.1 he with he | he
  · obtain ⟨job, hjob, rfl⟩ := List.mem_map.1 he
    exact hjobs job hjob
  · cases c with
    | recordFailure now id' error =>
      rw [failureBy] at he
      split at he
      · next hsome =>
        rw [List.mem_singleton.1 he]
        rintro rfl
        obtain ⟨src', hf⟩ := Option.isSome_iff_exists.1 hsome
        rw [hsrc, Option.bind_some] at hf
        have hmore : (next s (.recordFailure now id' error)).sources.get? id' = some src' := by
          have hid : id' = src'.id := by rw [fail_id hf, Table.key_of_get? hsrc]
          simp only [next, perform, recordFailure, hsrc, hf, Option.map_some, Option.getD_some]
          rw [Table.get?_save, if_pos hid]
        rw [hkept, fail_some hf] at hmore
        have hcount := congrArg SourceEntry.consecutiveFailures (Option.some.inj hmore)
        simp at hcount
      · cases he
    | registerSource now id new => cases he
    | emitDueJobs now rows batchSize => cases he
    | recordSuccess now id => cases he

/-! ### Emissions -/

theorem moved_isSome {now : ℤ} {t : Table SourceEntry.id} {due : List SourceEntry}
    (h : ∀ src ∈ due, now + hours (backoffHours src) ≤ timeMax) :
    ∃ t', due.foldlM (moveOn now) t = some t' := by
  induction due generalizing t with
  | nil => exact ⟨t, rfl⟩
  | cons src due ih =>
    rw [List.forall_mem_cons] at h
    have hmoved : moveOn now t src =
        some (t.save { src with nextCrawlAt := some (now + hours (backoffHours src)) }) := by
      rw [moveOn, reschedule, nextCrawlTime, if_pos h.1]
      rfl
    rw [List.foldlM_cons, hmoved]
    exact ih h.2

theorem emitted_due {now : ℤ} {rows : List SourceEntry} {batchSize : ℕ}
    (hrows : rows.Perm s.sources.values) (hsrc : s.sources.get? src.id = some src)
    (h : crawlJob now src ∈ emittedBy s (.emitDueJobs now rows batchSize)) :
    src ∈ dueSources rows now batchSize ∧
      ∀ x ∈ dueSources rows now batchSize, now + hours (backoffHours x) ≤ timeMax := by
  rw [emittedBy] at h
  cases he : emitDueJobs s now rows batchSize with
  | none =>
    rw [he] at h
    cases h
  | some r =>
    obtain ⟨hjobs, -, hmoved, -⟩ := emitDueJobs_some hrows he
    rw [he, Option.map_some, Option.getD_some, hjobs] at h
    obtain ⟨x, hx, hjob⟩ := List.mem_map.1 h
    have hid : x.id = src.id := congrArg CrawlJob.sourceEntryId hjob
    have hget := (due_rows hrows hx).1
    rw [hid, hsrc] at hget
    cases hget
    refine ⟨hx, fun y hy => ?_⟩
    obtain ⟨y', hy', -⟩ := hmoved y hy
    by_contra hlate
    rw [reschedule, nextCrawlTime, if_neg hlate] at hy'
    cases hy'

theorem due_moved {now : ℤ} {rows : List SourceEntry} {batchSize : ℕ}
    (hrows : rows.Perm s.sources.values)
    (h : ∀ x ∈ dueSources rows now batchSize, now + hours (backoffHours x) ≤ timeMax)
    (hsrc : src ∈ dueSources rows now batchSize) :
    (next s (.emitDueJobs now rows batchSize)).sources.get? src.id =
      some { src with nextCrawlAt := some (now + hours (backoffHours src)) } := by
  obtain ⟨t, ht⟩ := moved_isSome (t := s.sources) h
  obtain ⟨src', hsrc', hget⟩ := moved_mem ht (due_nodup hrows) hsrc
  rw [← reschedule_some hsrc', ← hget]
  simp only [next, perform, emitDueJobs, ht, Option.map_some, Option.getD_some]

/-! ### What a run keeps -/

def BacksOff (clock : ℤ) (calls : List Call) (id : String) : Prop :=
  ∀ src, (state clock calls).sources.get? id = some src → 0 < src.consecutiveFailures →
    ∃ d, lastDated clock calls id = some d ∧ src.nextCrawlAt = some (d + hours (backoffHours src))

theorem backsOff_next (hc : Enabled (state clock calls) c) (h : BacksOff clock calls id) :
    BacksOff clock (calls ++ [c]) id := by
  intro src' hget hfailing
  rw [state_concat] at hget
  rcases source_origin hc hget with ⟨src, hsrc, hturn⟩ | ⟨-, now, new, -, rfl⟩
  · have hid : src.id = id := Table.key_of_get? hsrc
    cases hturn with
    | kept hjobs =>
      rw [lastDated_other (dated_other hsrc hget (hid ▸ hjobs))]
      exact h _ hsrc hfailing
    | emitted hjob =>
      refine ⟨c.now, lastDated_now hc ?_, rfl⟩
      exact List.mem_append_left _ (List.mem_map.2 ⟨_, hjob, by rw [← hid]; rfl⟩)
    | succeeded _ => exact absurd hfailing (Nat.lt_irrefl 0)
    | failed error src' hcall hf =>
      refine ⟨c.now, lastDated_now hc ?_, ?_⟩
      · have hin : (id, c.now) ∈ failureBy (state clock calls) c := by
          rw [hcall, failureBy, hid, hsrc, Option.bind_some, hf]
          exact List.mem_singleton_self _
        exact List.mem_append_right _ hin
      · rw [reschedule_some hf]
        rfl
  · exact absurd hfailing (Nat.lt_irrefl 0)

theorem backsOff_run (h : ValidTrace Enabled next (Scheduler.new [] clock) calls) (id : String) :
    BacksOff clock calls id := by
  induction calls using List.reverseRecOn with
  | nil =>
    intro src hget
    cases hget
  | append_singleton calls c ih =>
    obtain ⟨hcalls, hc⟩ := validTrace_concat.1 h
    exact backsOff_next hc (ih hcalls)

structure DueSoon (s : Scheduler) (src : SourceEntry) : Prop where
  soon : src.consecutiveFailures = 0 → ∀ t, src.nextCrawlAt = some t →
    t ≤ s.clock + hours src.recrawlHours
  crawled : DueAfterCrawl src

theorem dueSoon_next (h : ValidTrace Enabled next (Scheduler.new [] clock) calls)
    (hc : Enabled (state clock calls) c) (htime : InTime clock calls c)
    (hdue : ∀ id src, (state clock calls).sources.get? id = some src →
      DueSoon (state clock calls) src)
    {src' : SourceEntry} (hget : (next (state clock calls) c).sources.get? id = some src') :
    DueSoon (next (state clock calls) c) src' := by
  have hclock : (state clock calls).clock ≤ c.now := hc.1
  rcases source_origin hc hget with ⟨src, hsrc, hturn⟩ | ⟨-, now, new, rfl, rfl⟩
  · have hid : src.id = id := Table.key_of_get? hsrc
    obtain ⟨hsoon, hcrawled⟩ := hdue id src hsrc
    cases hturn with
    | kept _ =>
      refine ⟨fun hhealthy t ht => (hsoon hhealthy t ht).trans ?_, hcrawled⟩
      exact Int.add_le_add_right hclock _
    | emitted hjob =>
      constructor
      · intro hhealthy t ht
        cases ht
        have hzero : src.consecutiveFailures = 0 := hhealthy
        exact le_of_eq (by simp [backoffHours, hzero, next])
      · intro hhealthy l t hl ht
        cases ht
        have hzero : src.consecutiveFailures = 0 := hhealthy
        have hnow : c.now ≤ l := by
          rcases emittedBy_cases (state clock calls) c with hnone | ⟨now, rows, n, rfl, -⟩
          · rw [hnone] at hjob
            cases hjob
          · obtain ⟨hin, hdates⟩ := emitted_due hc.2 (hid.symm ▸ hsrc) hjob
            rcases htime with ⟨x, hx, hlate⟩ | hcrawled
            · exact absurd hlate (not_lt.2 (hdates x hx))
            · exact hcrawled src hin hzero l hl
        simp only [backoffHours, hzero, gt_iff_lt, Nat.lt_irrefl, if_false]
        exact Int.add_le_add_right hnow _
    | succeeded hcall =>
      have hnext : ∀ t, src.nextCrawlAt = some t → t ≤ c.now + hours src.recrawlHours := by
        intro t ht
        rcases Nat.eq_zero_or_pos src.consecutiveFailures with hzero | hfailing
        · exact (hsoon hzero t ht).trans (Int.add_le_add_right hclock _)
        · obtain ⟨d, hd, hdate⟩ := backsOff_run h id src hsrc hfailing
          rw [hcall] at htime
          have hrest := htime src (hid.symm ▸ hsrc) hfailing d (hid.symm ▸ hd)
          rw [hdate] at ht
          cases ht
          omega
      refine ⟨fun _ t ht => hnext t ht, fun _ l t hl ht => ?_⟩
      cases hl
      exact hnext t ht
    | failed error src' _ hf =>
      have hfailing : src'.consecutiveFailures ≠ 0 := by
        rw [fail_some hf]
        exact Nat.succ_ne_zero _
      exact ⟨fun hzero => absurd hzero hfailing, fun hzero => absurd hzero hfailing⟩
  · constructor
    · intro _ t ht
      cases ht
      have hpos : 1 ≤ new.recrawlHours := hc.2.2
      simp only [newEntry, next, Call.now, hours]
      omega
    · intro _ l t hl
      cases hl

theorem dueSoon_run (h : ValidTrace Enabled next (Scheduler.new [] clock) calls)
    (htime : ∀ before c, before ++ [c] <+: calls → InTime clock before c) :
    ∀ id src, (state clock calls).sources.get? id = some src →
      DueSoon (state clock calls) src := by
  induction calls using List.reverseRecOn with
  | nil =>
    intro id src hget
    cases hget
  | append_singleton calls c ih =>
    obtain ⟨hcalls, hc⟩ := validTrace_concat.1 h
    have hearlier := ih hcalls fun before e hp =>
      htime before e (hp.trans (List.prefix_append calls [c]))
    intro id src hget
    rw [state_concat] at hget ⊢
    exact dueSoon_next hcalls hc (htime calls c List.prefix_rfl) hearlier hget

/-! ### The other direction -/

theorem inTime_of_due (h : ValidTrace Enabled next (Scheduler.new [] clock) calls)
    (hc : Enabled (state clock calls) c) (hdue : AllDue (next (state clock calls) c)) :
    InTime clock calls c := by
  cases c with
  | registerSource now id new => trivial
  | recordFailure now id error => trivial
  | recordSuccess now id =>
    intro src hsrc hfailing d hd
    have hid : src.id = id := Table.key_of_get? hsrc
    obtain ⟨d', hd', hdate⟩ := backsOff_run h id src hsrc hfailing
    have hsame : d = d' := Option.some.inj (hd.symm.trans hd')
    have hget : (next (state clock calls) (.recordSuccess now id)).sources.get? id =
        some (succeed now src) := by
      have hrow : (state clock calls).sources.get? id = some src := hsrc
      simp only [next, perform, recordSuccess, hrow]
      exact (Table.get?_save _ _ _).trans (if_pos hid.symm)
    have hle := hdue id _ hget rfl now _ rfl hdate
    have hinterval : (succeed now src).recrawlHours = src.recrawlHours := rfl
    rw [hinterval] at hle
    omega
  | emitDueJobs now rows batchSize =>
    by_cases hlate : ∃ src ∈ dueSources rows now batchSize, timeMax < now + hours (backoffHours src)
    · exact Or.inl hlate
    · right
      push Not at hlate
      intro src hsrc hzero l hl
      have hle := hdue _ _ (due_moved hc.2 hlate hsrc) hzero l _ hl rfl
      simp only [backoffHours, hzero, gt_iff_lt, Nat.lt_irrefl, if_false] at hle
      omega

/-- From an empty registry, every healthy source is due within its interval of its last crawl in
all states of a run exactly if no source recovers with more than an interval of its backoff left,
and no healthy one is sent out again. -/
theorem due_kept_iff (h : ValidTrace Enabled next (Scheduler.new [] clock) calls) :
    (∀ before, before <+: calls → AllDue (state clock before)) ↔
      ∀ before c, before ++ [c] <+: calls → InTime clock before c := by
  constructor
  · intro hdue before c hp
    obtain ⟨hbefore, hc⟩ := validTrace_concat.1 (validTrace_earlier hp h)
    have hafter := hdue _ hp
    rw [state_concat] at hafter
    exact inTime_of_due hbefore hc hafter
  · intro htime before hp id src hget
    have hbefore := validTrace_earlier hp h
    exact (dueSoon_run hbefore (fun xs c hxs => htime xs c (hxs.trans hp)) id src hget).crawled

def patientCalls : List Call :=
  [.registerSource 0 "src-1"
      { sourceType := "blog", urlPattern := "https://acme.com/blog", domain := "acme.com",
        recrawlHours := 24 },
    .recordFailure 0 "src-1" "timeout",
    .recordFailure (hours 1) "src-1" "timeout",
    .recordSuccess (hours 73) "src-1"]

theorem patient_source_due : AllDue (state 0 patientCalls) ∧
    ((state 0 patientCalls).sources.get? "src-1").bind SourceEntry.nextCrawlAt =
      some (hours 73 + hours 24) := by
  have hin : ∀ before c, before ++ [c] <+: patientCalls → InTime 0 before c := by
    intro before c hp
    have hall : ∀ xs ∈ patientCalls.inits, ∀ c ∈ xs.getLast?, InTime 0 xs.dropLast c := by
      decide +kernel
    have htime := hall _ ((List.mem_inits _ _).2 hp) c (by simp)
    rwa [List.dropLast_concat] at htime
  exact ⟨(due_kept_iff (by decide +kernel)).2 hin _ List.prefix_rfl, by decide +kernel⟩

def dailyCalls : List Call :=
  [.registerSource 0 "src-1"
      { sourceType := "blog", urlPattern := "https://acme.com/blog", domain := "acme.com",
        recrawlHours := 24 },
    .emitDueJobs 0 [blog] 10,
    .recordSuccess (hours 1) "src-1",
    .emitDueJobs (hours 24)
      [{ blog with lastCrawledAt := some (hours 1), nextCrawlAt := some (hours 24) }] 10]

def recoveredCalls : List Call :=
  [.registerSource 0 "src-1"
      { sourceType := "blog", urlPattern := "https://acme.com/blog", domain := "acme.com",
        recrawlHours := 24 },
    .recordFailure 0 "src-1" "timeout",
    .recordSuccess (hours 1) "src-1"]

/-- While the job of the second day is out, and after the recovery, the source waits longer
than a day after its last crawl. -/
theorem healthy_source_waits_longer :
    (ValidTrace Enabled next (Scheduler.new [] 0) dailyCalls ∧
      ∃ src, (run (Scheduler.new [] 0) dailyCalls).sources.get? "src-1" = some src ∧
        ¬ DueAfterCrawl src) ∧
    (ValidTrace Enabled next (Scheduler.new [] 0) recoveredCalls ∧
      ∃ src, (run (Scheduler.new [] 0) recoveredCalls).sources.get? "src-1" = some src ∧
        ¬ DueAfterCrawl src) := by
  refine ⟨⟨by decide +kernel, { blog with
      lastCrawledAt := some (hours 1)
      nextCrawlAt := some (hours 48) }, by decide +kernel, fun h => ?_⟩,
    ⟨by decide +kernel, { blog with
      lastCrawledAt := some (hours 1)
      nextCrawlAt := some (hours 48)
      healthScore := 9 / 10 }, by decide +kernel, fun h => ?_⟩⟩
  · exact absurd (h rfl _ _ rfl rfl) (by decide)
  · exact absurd (h rfl _ _ rfl rfl) (by decide)

end TrustCopilot.CrawlRecovery
