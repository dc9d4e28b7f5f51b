import TrustCopilot.OutboxClaims

/-! Finished events. `complete` and `fail` assign a status without looking at the current
one, so what keeps an event finished is that nobody calls them on it again. The calls come
in any order here, and each is given an object of its event that another session may have
overtaken. -/
namespace TrustCopilot.Outbox

open TrustCopilot.OrderedDict
open TrustCopilot.Trace

/-- An update statement has the columns whose value was changed since the object was loaded. -/
def changed {α : Type*} [DecidableEq α] (loaded assigned stored : α) : α :=
  if assigned = loaded then stored else assigned

def flushChanged (loaded row event : OutboxEvent) : OutboxEvent :=
  { row with
    status := changed loaded.status event.status row.status
    claimedBy := changed loaded.claimedBy event.claimedBy row.claimedBy
    claimedAt := changed loaded.claimedAt event.claimedAt row.claimedAt
    completedAt := changed loaded.completedAt event.completedAt row.completedAt
    lastError := changed loaded.lastError event.lastError row.lastError }

/-- `locked` are the rows that other transactions hold during a claim, and `ordered` is what
the query finds besides them. -/
inductive Call where
  | publish (event : OutboxEvent)
  | claimBatch (workerId : String) (batchSize : ℕ) (locked : List String)
      (ordered : List OutboxEvent) (now : ℤ)
  | complete (event : OutboxEvent) (now : ℤ)
  | fail (event : OutboxEvent) (error : String)
  deriving DecidableEq, Repr

def claimBatch (_ : Dict String OutboxEvent) : Call → List OutboxEvent
  | .claimBatch workerId batchSize _ ordered now =>
    (ordered.take batchSize).map (claim workerId now)
  | _ => []

def call (rows : Dict String OutboxEvent) : Call → Dict String OutboxEvent
  | .publish event => if admits rows event then rows.set event.id event else rows
  | .claimBatch workerId batchSize locked ordered now =>
    flushAll flushClaim (claimBatch rows (.claimBatch workerId batchSize locked ordered now)) rows
  | .complete event now => flushAll (flushChanged event) [complete now event] rows
  | .fail event error => flushAll (flushChanged event) [fail error event] rows

def Answerable (rows : Dict String OutboxEvent) : Call → Prop
  | .publish event => NewRow event
  | .claimBatch _ _ locked ordered _ =>
    ordered.Perm (rows.values.filter fun row => row.status = .pending ∧ row.id ∉ locked) ∧
      ordered.Pairwise fun a b => a.createdAt ≤ b.createdAt
  | _ => True

instance (rows : Dict String OutboxEvent) : (c : Call) → Decidable (Answerable rows c)
  | .publish event => inferInstanceAs (Decidable (NewRow event))
  | .claimBatch .. => inferInstanceAs (Decidable (_ ∧ _))
  | .complete .. => isTrue trivial
  | .fail .. => isTrue trivial

def Finished (status : OutboxStatus) : Prop := status = .completed ∨ status = .dead

instance (status : OutboxStatus) : Decidable (Finished status) :=
  inferInstanceAs (Decidable (_ ∨ _))

def statusOf (rows : Dict String OutboxEvent) (id : String) : Option OutboxStatus :=
  (rows.get? id).map OutboxEvent.status

/-- A finished row is spared by a call that assigns the status it has, or one that its object
has already. -/
def SparesFinished (rows : Dict String OutboxEvent) : Call → Prop
  | .complete event _ => statusOf rows event.id = some .dead → event.status = .completed
  | .fail event _ =>
    if event.maxAttempts ≤ event.attempts then
      statusOf rows event.id = some .completed → event.status = .dead
    else
      statusOf rows event.id = some .completed ∨ statusOf rows event.id = some .dead →
        event.status = .pending
  | _ => True

instance (rows : Dict String OutboxEvent) : (c : Call) → Decidable (SparesFinished rows c)
  | .publish _ => isTrue trivial
  | .claimBatch .. => isTrue trivial
  | .complete .. => inferInstanceAs (Decidable (_ → _))
  | .fail .. => inferInstanceAs (Decidable (ite _ _ _))

def afterCalls (calls : List Call) : Dict String OutboxEvent := runTrace call Dict.empty calls

def FinishedForever (calls : List Call) : Prop :=
  ∀ xs ys, xs ++ ys <+: calls → ∀ id status, statusOf (afterCalls xs) id = some status →
    Finished status → statusOf (afterCalls (xs ++ ys)) id = some status ∧
      id ∉ (emitted claimBatch call (afterCalls xs) ys).map OutboxEvent.id

/-! ### What one call does to a status -/

variable {rows : Dict String OutboxEvent} {id : String}

theorem statusOf_flushChanged (loaded event : OutboxEvent) :
    statusOf (flushAll (flushChanged loaded) [event] rows) id =
      if id = event.id then (statusOf rows id).map (changed loaded.status event.status)
      else statusOf rows id := by
  rw [statusOf, flushAll, Dict.get?_mapValues, statusOf]
  by_cases h : id = event.id
  · subst h
    cases rows.get? event.id <;> simp [flushChanged]
  · have hne : ¬ event.id = id := fun he => h he.symm
    cases rows.get? id <;> simp [h, hne]

theorem changed_eq_stored_iff {α : Type*} [DecidableEq α] {loaded assigned stored : α} :
    changed loaded assigned stored = stored ↔ stored = assigned ∨ loaded = assigned := by
  rw [changed]
  split
  · next h => simp [h]
  · next h =>
    have hne : ¬ loaded = assigned := fun he => h he.symm
    simp [hne, eq_comm]

/-- A finished row keeps its status through a flush exactly if that status is assigned to
the object, or the one assigned is not new to it. -/
theorem flush_keeps_iff {loaded event : OutboxEvent} {status : OutboxStatus}
    (h : statusOf rows event.id = some status) :
    statusOf (flushAll (flushChanged loaded) [event] rows) event.id = some status ↔
      status = event.status ∨ loaded.status = event.status := by
  rw [statusOf_flushChanged, if_pos rfl, h, Option.map_some, Option.some_inj]
  exact changed_eq_stored_iff

theorem fail_status (error : String) (event : OutboxEvent) :
    (fail error event).status =
      if event.maxAttempts ≤ event.attempts then OutboxStatus.dead else .pending := by
  rw [fail]
  split <;> rfl

def Keyed (rows : Dict String OutboxEvent) : Prop :=
  ∀ id row, rows.get? id = some row → row.id = id

theorem flushClaim_id (row event : OutboxEvent) : (flushClaim row event).id = row.id := rfl

theorem flushChanged_id (loaded row event : OutboxEvent) :
    (flushChanged loaded row event).id = row.id := rfl

theorem keyed_flushAll {flush : OutboxEvent → OutboxEvent → OutboxEvent}
    (hflush : ∀ row event, (flush row event).id = row.id) (h : Keyed rows)
    (events : List OutboxEvent) : Keyed (flushAll flush events rows) := by
  intro id row hrow
  rw [flushAll, Dict.get?_mapValues] at hrow
  obtain ⟨old, hold, rfl⟩ := Option.map_eq_some_iff.1 hrow
  cases events.find? fun e => e.id = id with
  | none => exact h id old hold
  | some event => exact (hflush old event).trans (h id old hold)

theorem keyed_call (h : Keyed rows) (c : Call) : Keyed (call rows c) := by
  cases c with
  | publish event =>
    rw [call]
    split
    · intro id row hrow
      rcases Dict.get?_set_cases hrow with ⟨rfl, rfl⟩ | ⟨-, hold⟩
      · rfl
      · exact h id row hold
    · exact h
  | claimBatch w n locked ordered now => exact keyed_flushAll flushClaim_id h _
  | complete event now => exact keyed_flushAll (flushChanged_id event) h _
  | fail event error => exact keyed_flushAll (flushChanged_id event) h _

theorem keyed_afterCalls (calls : List Call) : Keyed (afterCalls calls) := by
  induction calls using List.reverseRecOn with
  | nil => intro id row h; cases h
  | append_singleton calls c ih =>
    rw [afterCalls, runTrace_concat]
    exact keyed_call ih c

theorem picked_pending {w : String} {n : ℕ} {locked : List String} {ordered : List OutboxEvent}
    {now : ℤ} (hk : Keyed rows) (ha : Answerable rows (.claimBatch w n locked ordered now))
    {e : OutboxEvent} (he : e ∈ ordered.take n) :
    rows.get? e.id = some e ∧ e.status = .pending := by
  have hin := ha.1.mem_iff.1 (List.mem_of_mem_take he)
  rw [List.mem_filter, decide_eq_true_eq] at hin
  obtain ⟨id, hid⟩ := Dict.mem_values_iff.1 hin.1
  exact ⟨by rw [hk id e hid]; exact hid, hin.2.1⟩

theorem finished_not_picked {w : String} {n : ℕ} {locked : List String}
    {ordered : List OutboxEvent} {now : ℤ} {status : OutboxStatus} (hk : Keyed rows)
    (ha : Answerable rows (.claimBatch w n locked ordered now))
    (hs : statusOf rows id = some status) (hf : Finished status) :
    id ∉ (ordered.take n).map OutboxEvent.id := by
  intro hin
  obtain ⟨e, he, rfl⟩ := List.mem_map.1 hin
  obtain ⟨hrow, hp⟩ := picked_pending hk ha he
  rw [statusOf, hrow, Option.map_some, hp] at hs
  cases hs
  rcases hf with h | h <;> cases h

theorem publish_keeps {status : OutboxStatus} (event : OutboxEvent)
    (hs : statusOf rows id = some status) :
    statusOf (call rows (.publish event)) id = some status := by
  rw [call]
  split
  · next hadm =>
    have hne : id ≠ event.id := by
      rintro rfl
      rw [statusOf, admitted_absent hadm] at hs
      cases hs
    rw [statusOf, Dict.get?_set_other rows hne]
    exact hs
  · exact hs

theorem claim_keeps {w : String} {n : ℕ} {locked : List String} {ordered : List OutboxEvent}
    {now : ℤ} {status : OutboxStatus} (hk : Keyed rows)
    (ha : Answerable rows (.claimBatch w n locked ordered now))
    (hs : statusOf rows id = some status) (hf : Finished status) :
    statusOf (call rows (.claimBatch w n locked ordered now)) id = some status := by
  rw [call, claimBatch, statusOf, get?_flushAll (claim_id w now) (flushClaim_claim w now)
    (fun e he => (picked_pending hk ha he).1), if_neg (finished_not_picked hk ha hs hf)]
  exact hs

theorem flush_keeps {loaded event : OutboxEvent} {status : OutboxStatus}
    (h : ∀ status, statusOf rows event.id = some status → Finished status →
      status = event.status ∨ loaded.status = event.status)
    (hs : statusOf rows id = some status) (hf : Finished status) :
    statusOf (flushAll (flushChanged loaded) [event] rows) id = some status := by
  by_cases hid : id = event.id
  · subst hid
    exact (flush_keeps_iff hs).2 (h status hs hf)
  · rw [statusOf_flushChanged, if_neg hid]
    exact hs

theorem spares_complete_iff {event : OutboxEvent} {now : ℤ} :
    SparesFinished rows (.complete event now) ↔
      ∀ status, statusOf rows event.id = some status → Finished status →
        status = .completed ∨ event.status = .completed := by
  constructor
  · rintro hc status hs (rfl | rfl)
    · exact Or.inl rfl
    · exact Or.inr (hc hs)
  · intro h hs
    exact (h .dead hs (Or.inr rfl)).resolve_left nofun

theorem spares_fail_iff {event : OutboxEvent} {error : String} :
    SparesFinished rows (.fail event error) ↔
      ∀ status, statusOf rows event.id = some status → Finished status →
        status = (fail error event).status ∨ event.status = (fail error event).status := by
  rw [SparesFinished, fail_status]
  by_cases hmax : event.maxAttempts ≤ event.attempts
  · rw [if_pos hmax, if_pos hmax]
    constructor
    · rintro hc status hs (rfl | rfl)
      · exact Or.inr (hc hs)
      · exact Or.inl rfl
    · intro h hs
      exact (h .completed hs (Or.inl rfl)).resolve_left nofun
  · rw [if_neg hmax, if_neg hmax]
    constructor
    · rintro hc status hs (rfl | rfl)
      · exact Or.inr (hc (Or.inl hs))
      · exact Or.inr (hc (Or.inr hs))
    · rintro h (hs | hs)
      · exact (h .completed hs (Or.inl rfl)).resolve_left nofun
      · exact (h .dead hs (Or.inr rfl)).resolve_left nofun

theorem finished_call {c : Call} {status : OutboxStatus} (hk : Keyed rows)
    (ha : Answerable rows c) (hc : SparesFinished rows c) (hs : statusOf rows id = some status)
    (hf : Finished status) :
    statusOf (call rows c) id = some status ∧
      id ∉ (claimBatch rows c).map OutboxEvent.id := by
  cases c with
  | publish event => exact ⟨publish_keeps event hs, List.not_mem_nil⟩
  | claimBatch w n locked ordered now =>
    refine ⟨claim_keeps hk ha hs hf, fun hin => finished_not_picked hk ha hs hf ?_⟩
    rwa [claimBatch, List.map_map] at hin
  | complete event now =>
    exact ⟨flush_keeps (spares_complete_iff.1 hc) hs hf, List.not_mem_nil⟩
  | fail event error =>
    have hspares := spares_fail_iff.1 hc
    rw [← fail_id error event] at hspares
    exact ⟨flush_keeps hspares hs hf, List.not_mem_nil⟩

theorem spares_of_kept {c : Call} (h : ∀ id status, statusOf rows id = some status →
    Finished status → statusOf (call rows c) id = some status) : SparesFinished rows c := by
  cases c with
  | publish event => trivial
  | claimBatch w n locked ordered now => trivial
  | complete event now =>
    refine spares_complete_iff.2 fun status hs hf => ?_
    have hkeeps := @flush_keeps_iff rows event (complete now event) status
    exact (hkeeps hs).1 (h event.id status hs hf)
  | fail event error =>
    refine spares_fail_iff.2 fun status hs hf => ?_
    have hkeeps := @flush_keeps_iff rows event (fail error event) status
    rw [fail_id] at hkeeps
    exact (hkeeps hs).1 (h event.id status hs hf)

/-! ### Whole runs -/

theorem finished_run {xs ys : List Call} {status : OutboxStatus}
    (ha : ValidTrace Answerable call Dict.empty (xs ++ ys))
    (hc : ValidTrace SparesFinished call Dict.empty (xs ++ ys))
    (hs : statusOf (afterCalls xs) id = some status) (hf : Finished status) :
    statusOf (afterCalls (xs ++ ys)) id = some status ∧
      id ∉ (emitted claimBatch call (afterCalls xs) ys).map OutboxEvent.id := by
  have hvalid := (validTrace_append.1 (validTrace_and.2 ⟨ha, hc⟩)).2
  have hstep : ∀ rows c, Keyed rows ∧ statusOf rows id = some status →
      Answerable rows c ∧ SparesFinished rows c →
      (Keyed (call rows c) ∧ statusOf (call rows c) id = some status) ∧
        ∀ e ∈ claimBatch rows c, e.id ≠ id := by
    rintro rows c ⟨hk, hstatus⟩ ⟨hac, hcc⟩
    obtain ⟨hkept, hout⟩ := finished_call hk hac hcc hstatus hf
    exact ⟨⟨keyed_call hk c, hkept⟩, fun e he heq => hout (List.mem_map.2 ⟨e, he, heq⟩)⟩
  obtain ⟨⟨-, hkept⟩, hout⟩ := emitted_invariant ⟨keyed_afterCalls xs, hs⟩ hstep hvalid
  rw [afterCalls, runTrace_append]
  refine ⟨hkept, fun hin => ?_⟩
  obtain ⟨e, he, heq⟩ := List.mem_map.1 hin
  exact hout e he heq

/-- Finished events stay finished exactly as long as every call spares them. -/
theorem finished_forever_iff {calls : List Call}
    (ha : ValidTrace Answerable call Dict.empty calls) :
    FinishedForever calls ↔ ValidTrace SparesFinished call Dict.empty calls := by
  constructor
  · intro h
    refine validTrace_of_after fun xs c hp _ => spares_of_kept fun id status hs hf => ?_
    have hafter := (h xs [c] hp id status hs hf).1
    rwa [afterCalls, runTrace_concat] at hafter
  · intro hc xs ys hp id status hs hf
    exact finished_run (validTrace_earlier hp ha) (validTrace_earlier hp hc) hs hf

def sampleEvent : OutboxEvent where
  id := "e1"
  eventType := "send_email"
  payload := default
  idempotencyKey := "k1"
  createdAt := 0

def sampleObject : OutboxEvent := claim "w1" 1 sampleEvent

def completedThenFailed : List Call :=
  [.publish sampleEvent, .claimBatch "w1" 10 [] [sampleEvent] 1, .complete sampleObject 2,
    .fail (complete 2 sampleObject) "timeout"]

theorem completed_forever : FinishedForever (completedThenFailed.take 3) :=
  (finished_forever_iff (by decide)).2 (by decide)

theorem completed_claimed_again :
    ValidTrace Answerable call Dict.empty completedThenFailed ∧
    statusOf (afterCalls (completedThenFailed.take 3)) "e1" = some .completed ∧
    ∃ row, (afterCalls completedThenFailed).get? "e1" = some row ∧ row.status = .pending ∧
      Answerable (afterCalls completedThenFailed) (.claimBatch "w2" 10 [] [row] 3) ∧
      ¬ FinishedForever completedThenFailed := by
  refine ⟨by decide, by decide, _, rfl, by decide, by decide, fun h => ?_⟩
  have hkept := (h (completedThenFailed.take 3) (completedThenFailed.drop 3)
    (by rw [List.take_append_drop]) "e1" .completed (by decide) (Or.inl rfl)).1
  exact absurd hkept (by decide)

end TrustCopilot.Outbox
