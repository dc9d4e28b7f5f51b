import TrustCopilot.Outbox

/-! Exclusive claims. The locks of open claims and the events in the pollers' hands name each
row at most once, whatever the interleaving, and the attempts of a row are its claims. -/
namespace TrustCopilot.Outbox

open TrustCopilot.OrderedDict
open TrustCopilot.Trace

/-! ### What a flush does to the table -/

@[simp] theorem claim_id (workerId : String) (now : ℤ) (e : OutboxEvent) :
    (claim workerId now e).id = e.id := rfl

@[simp] theorem complete_id (now : ℤ) (e : OutboxEvent) : (complete now e).id = e.id := rfl

@[simp] theorem fail_id (error : String) (e : OutboxEvent) : (fail error e).id = e.id := by
  rw [fail]
  split <;> rfl

theorem flushClaim_claim (workerId : String) (now : ℤ) (e : OutboxEvent) :
    flushClaim e (claim workerId now e) = claim workerId now e := rfl

theorem flushComplete_complete (now : ℤ) (e : OutboxEvent) :
    flushComplete e (complete now e) = complete now e := rfl

theorem flushFail_fail (error : String) (e : OutboxEvent) :
    flushFail e (fail error e) = fail error e := by
  rw [flushFail, fail]
  by_cases h : e.maxAttempts ≤ e.attempts <;> simp [h]

theorem get?_flushAll {f : OutboxEvent → OutboxEvent}
    {flush : OutboxEvent → OutboxEvent → OutboxEvent} (hid : ∀ e, (f e).id = e.id)
    (hflush : ∀ e, flush e (f e) = f e) {rows : Dict String OutboxEvent}
    {events : List OutboxEvent} (hrow : ∀ e ∈ events, rows.get? e.id = some e) (id : String) :
    (flushAll flush (events.map f) rows).get? id =
      if id ∈ events.map OutboxEvent.id then (rows.get? id).map f else rows.get? id := by
  rw [flushAll, Dict.get?_mapValues]
  cases hf : (events.map f).find? fun e => e.id = id with
  | none =>
    have hno : id ∉ events.map OutboxEvent.id := by
      intro hin
      obtain ⟨e, he, rfl⟩ := List.mem_map.1 hin
      have := List.find?_eq_none.1 hf (f e) (List.mem_map_of_mem he)
      simp [hid] at this
    rw [if_neg hno]
    cases rows.get? id <;> rfl
  | some c =>
    have hc : c.id = id := by simpa using List.find?_some hf
    obtain ⟨e, he, rfl⟩ := List.mem_map.1 (List.mem_of_find?_eq_some hf)
    rw [hid] at hc
    subst hc
    rw [if_pos (List.mem_map_of_mem he), hrow e he, Option.map_some, Option.map_some]
    exact congrArg some (hflush e)

/-! ### Locks and holdings -/

variable {κ : Type*} [DecidableEq κ] {workerId : κ → String} {s : Store κ}

structure Exclusive (workerId : κ → String) (s : Store κ) : Prop where
  keyed : ∀ id row, s.rows.get? id = some row → row.id = id
  locked : ∀ l ∈ s.locked, s.rows.get? l.2.id = some l.2 ∧ l.2.status = .pending
  locked_once : (ids s.locked).Nodup
  held : ∀ h ∈ s.held, s.rows.get? h.2.id = some h.2 ∧ h.2.status = .claimed ∧
    h.2.claimedBy = some (workerId h.1)
  held_once : (ids s.held).Nodup

def Store.empty : Store κ := ⟨Dict.empty, [], []⟩

omit [DecidableEq κ] in
theorem exclusive_empty : Exclusive workerId (Store.empty : Store κ) where
  keyed := by intro id row h; cases h
  locked := by intro l h; cases h
  locked_once := List.nodup_nil
  held := by intro l h; cases h
  held_once := List.nodup_nil

theorem mem_selection {k : κ} {e : OutboxEvent} : e ∈ selection s k ↔ (k, e) ∈ s.locked := by
  simp [selection]

omit [DecidableEq κ] in
theorem locked_unique (h : Exclusive workerId s) {l m : κ × OutboxEvent} (hl : l ∈ s.locked)
    (hm : m ∈ s.locked) (he : l.2.id = m.2.id) : l = m :=
  List.inj_on_of_nodup_map h.locked_once hl hm he

omit [DecidableEq κ] in
theorem held_unique (h : Exclusive workerId s) {l m : κ × OutboxEvent} (hl : l ∈ s.held)
    (hm : m ∈ s.held) (he : l.2.id = m.2.id) : l = m :=
  List.inj_on_of_nodup_map h.held_once hl hm he

omit [DecidableEq κ] in
/-- A locked row is pending and a held one is claimed, so no row is both. -/
theorem locked_not_held (h : Exclusive workerId s) {l m : κ × OutboxEvent} (hl : l ∈ s.locked)
    (hm : m ∈ s.held) : l.2.id ≠ m.2.id := by
  intro he
  have hrow := (h.locked l hl).1
  rw [he, (h.held m hm).1] at hrow
  have hstatus := (h.locked l hl).2
  rw [← Option.some.inj hrow, (h.held m hm).2.1] at hstatus
  cases hstatus

theorem selection_rows (h : Exclusive workerId s) (k : κ) :
    ∀ e ∈ selection s k, s.rows.get? e.id = some e :=
  fun _ he => (h.locked _ (mem_selection.1 he)).1

theorem selection_once (h : Exclusive workerId s) (k : κ) :
    ((selection s k).map OutboxEvent.id).Nodup := by
  rw [selection, List.map_map]
  exact h.locked_once.sublist (List.filter_sublist.map _)

omit [DecidableEq κ] in
theorem values_ids (h : Exclusive workerId s) :
    s.rows.values.map OutboxEvent.id = s.rows.keys := by
  rw [Dict.values, Dict.keys, List.map_map]
  exact List.map_congr_left fun e he => h.keyed e.1 e.2 (Dict.get?_eq_some_iff.2 he)

omit [DecidableEq κ] in
theorem claimable_row (h : Exclusive workerId s) {e : OutboxEvent} (he : e ∈ claimable s) :
    s.rows.get? e.id = some e ∧ e.status = .pending ∧ e.id ∉ ids s.locked := by
  rw [claimable, List.mem_filter, decide_eq_true_eq] at he
  obtain ⟨id, hid⟩ := Dict.mem_values_iff.1 he.1
  exact ⟨by rw [h.keyed id e hid]; exact hid, he.2⟩

omit [DecidableEq κ] in
theorem claimable_once (h : Exclusive workerId s) :
    ((claimable s).map OutboxEvent.id).Nodup := by
  have hv := values_ids h
  have hkeys : (s.rows.values.map OutboxEvent.id).Nodup := by rw [hv]; exact s.rows.nodup
  exact hkeys.sublist (List.filter_sublist.map _)

omit [DecidableEq κ] in
theorem row_kept {f : OutboxEvent → OutboxEvent} {rows rows' : Dict String OutboxEvent}
    {J : List String}
    (hrows : ∀ id, rows'.get? id = if id ∈ J then (rows.get? id).map f else rows.get? id)
    {e : OutboxEvent} (he : rows.get? e.id = some e) (hJ : e.id ∉ J) :
    rows'.get? e.id = some e := by
  rw [hrows, if_neg hJ]
  exact he

theorem keyed_written {f : OutboxEvent → OutboxEvent} {rows rows' : Dict String OutboxEvent}
    {J : List String} (hid : ∀ e, (f e).id = e.id)
    (hrows : ∀ id, rows'.get? id = if id ∈ J then (rows.get? id).map f else rows.get? id)
    (hkeyed : ∀ id row, rows.get? id = some row → row.id = id) {id : String}
    {row : OutboxEvent} (h : rows'.get? id = some row) : row.id = id := by
  rw [hrows] at h
  split at h
  · obtain ⟨old, hold, rfl⟩ := Option.map_eq_some_iff.1 h
    rw [hid]
    exact hkeyed id old hold
  · exact hkeyed id row h

theorem admitted_absent {rows : Dict String OutboxEvent} {event : OutboxEvent}
    (h : admits rows event = true) : rows.get? event.id = none := by
  rw [admits, decide_eq_true_eq, ← Dict.get?_isSome_iff, Option.not_isSome_iff_eq_none] at h
  exact h.1

theorem row_kept_insert {rows : Dict String OutboxEvent} {event e : OutboxEvent}
    (h : admits rows event = true) (he : rows.get? e.id = some e) :
    (rows.set event.id event).get? e.id = some e := by
  have hne : e.id ≠ event.id := by
    intro heq
    rw [heq, admitted_absent h] at he
    cases he
  rw [Dict.get?_set_other _ hne]
  exact he

theorem exclusive_publish (h : Exclusive workerId s) (event : OutboxEvent) :
    Exclusive workerId (next workerId s (.publish event)) := by
  rw [next]
  split
  · next ha =>
    refine ⟨fun id row hrow => ?_, fun l hl => ?_, h.locked_once, fun l hl => ?_, h.held_once⟩
    · rcases Dict.get?_set_cases hrow with ⟨rfl, rfl⟩ | ⟨-, hold⟩
      · rfl
      · exact h.keyed id row hold
    · exact ⟨row_kept_insert ha (h.locked l hl).1, (h.locked l hl).2⟩
    · exact ⟨row_kept_insert ha (h.held l hl).1, (h.held l hl).2⟩
  · exact h

theorem exclusive_select (h : Exclusive workerId s) {k : κ} {n : ℕ} {ordered : List OutboxEvent}
    (he : Enabled s (.select k n ordered)) :
    Exclusive workerId (next workerId s (.select k n ordered)) := by
  obtain ⟨-, hperm, -⟩ := he
  have hpicked : ∀ e ∈ ordered.take n, e ∈ claimable s := fun e hin =>
    hperm.mem_iff.1 (List.mem_of_mem_take hin)
  have hids : ids ((ordered.take n).map fun e => (k, e)) =
      (ordered.take n).map OutboxEvent.id := by
    rw [ids, List.map_map]
    rfl
  refine ⟨h.keyed, fun l hl => ?_, ?_, h.held, h.held_once⟩
  · rcases List.mem_append.1 hl with hl | hl
    · exact h.locked l hl
    · obtain ⟨e, hin, rfl⟩ := List.mem_map.1 hl
      have hrow := claimable_row h (hpicked e hin)
      exact ⟨hrow.1, hrow.2.1⟩
  · have hnodup : ((ordered.take n).map OutboxEvent.id).Nodup := by
      have hall : (ordered.map OutboxEvent.id).Nodup :=
        (hperm.map OutboxEvent.id).nodup_iff.2 (claimable_once h)
      exact hall.sublist ((List.take_sublist n ordered).map _)
    have hsplit : ids (next workerId s (.select k n ordered)).locked =
        ids s.locked ++ (ordered.take n).map OutboxEvent.id := by
      rw [← hids]
      exact List.map_append
    rw [hsplit]
    refine List.nodup_append.2 ⟨h.locked_once, hnodup, ?_⟩
    rintro a ha _ hb rfl
    obtain ⟨e, hin, rfl⟩ := List.mem_map.1 hb
    exact (claimable_row h (hpicked e hin)).2.2 ha

theorem claim_rows (h : Exclusive workerId s) (k : κ) (now : ℤ) (id : String) :
    (next workerId s (.commitClaim k now)).rows.get? id =
      if id ∈ (selection s k).map OutboxEvent.id then
        (s.rows.get? id).map (claim (workerId k) now)
      else s.rows.get? id :=
  get?_flushAll (claim_id (workerId k) now) (flushClaim_claim (workerId k) now)
    (selection_rows h k) id

theorem exclusive_commitClaim (h : Exclusive workerId s) (k : κ) (now : ℤ) :
    Exclusive workerId (next workerId s (.commitClaim k now)) := by
  have hrows := claim_rows h k now
  constructor
  · exact fun id row => keyed_written (claim_id (workerId k) now) hrows h.keyed
  · intro l hl
    obtain ⟨hl, hk⟩ := List.mem_filter.1 hl
    refine ⟨row_kept hrows (h.locked l hl).1 fun hin => ?_, (h.locked l hl).2⟩
    -- no other poller's lock names a row of this claim
    obtain ⟨e, he, heq⟩ := List.mem_map.1 hin
    have : (k, e) = l := locked_unique h (mem_selection.1 he) hl heq
    rw [← this] at hk
    simp at hk
  · exact h.locked_once.sublist (List.filter_sublist.map _)
  · intro m hm
    rcases List.mem_append.1 hm with hm | hm
    · refine ⟨row_kept hrows (h.held m hm).1 fun hin => ?_, (h.held m hm).2⟩
      obtain ⟨e, he, heq⟩ := List.mem_map.1 hin
      exact locked_not_held h (mem_selection.1 he) hm heq
    · obtain ⟨c, hc, rfl⟩ := List.mem_map.1 hm
      obtain ⟨e, he, rfl⟩ := List.mem_map.1 hc
      refine ⟨?_, rfl, rfl⟩
      rw [claim_id, hrows, if_pos (List.mem_map_of_mem he), selection_rows h k e he]
      rfl
  · have hsplit : ids (next workerId s (.commitClaim k now)).held =
        ids s.held ++ (selection s k).map OutboxEvent.id := by
      simp [next, ids, Function.comp_def]
    rw [hsplit]
    refine List.nodup_append.2 ⟨h.held_once, selection_once h k, ?_⟩
    rintro a ha _ hb rfl
    obtain ⟨m, hm, rfl⟩ := List.mem_map.1 ha
    obtain ⟨e, he, heq⟩ := List.mem_map.1 hb
    exact locked_not_held h (mem_selection.1 he) hm heq

omit [DecidableEq κ] in
theorem finish_rows {f : OutboxEvent → OutboxEvent}
    {flush : OutboxEvent → OutboxEvent → OutboxEvent} (hid : ∀ e, (f e).id = e.id)
    (hflush : ∀ e, flush e (f e) = f e) (h : Exclusive workerId s) {k : κ} {event : OutboxEvent}
    (he : (k, event) ∈ s.held) (id : String) :
    (flushAll flush ([event].map f) s.rows).get? id =
      if id ∈ [event.id] then (s.rows.get? id).map f else s.rows.get? id := by
  refine get?_flushAll hid hflush (fun e hin => ?_) id
  rw [List.mem_singleton.1 hin]
  exact (h.held _ he).1

theorem exclusive_finish {f : OutboxEvent → OutboxEvent}
    {flush : OutboxEvent → OutboxEvent → OutboxEvent} (hid : ∀ e, (f e).id = e.id)
    (hflush : ∀ e, flush e (f e) = f e) (h : Exclusive workerId s) {k : κ} {event : OutboxEvent}
    (he : (k, event) ∈ s.held) :
    Exclusive workerId { s with
      rows := flushAll flush ([event].map f) s.rows
      held := letGo s.held k event } := by
  have hrows := finish_rows hid hflush h he
  constructor
  · exact fun id row => keyed_written hid hrows h.keyed
  · intro l hl
    refine ⟨row_kept hrows (h.locked l hl).1 fun hin => ?_, (h.locked l hl).2⟩
    exact locked_not_held h hl he (List.mem_singleton.1 hin)
  · exact h.locked_once
  · intro m hm
    obtain ⟨hm, hne⟩ := List.mem_filter.1 hm
    refine ⟨row_kept hrows (h.held m hm).1 fun hin => ?_, (h.held m hm).2⟩
    have : m = (k, event) := held_unique h hm he (List.mem_singleton.1 hin)
    simp [this] at hne
  · exact h.held_once.sublist (List.filter_sublist.map _)

theorem exclusive_crash (h : Exclusive workerId s) (k : κ) :
    Exclusive workerId (next workerId s (.crash k)) where
  keyed := h.keyed
  locked := fun l hl => h.locked l (List.mem_filter.1 hl).1
  locked_once := h.locked_once.sublist (List.filter_sublist.map _)
  held := fun m hm => h.held m (List.mem_filter.1 hm).1
  held_once := h.held_once.sublist (List.filter_sublist.map _)

theorem exclusive_next (h : Exclusive workerId s) {e : PollerStep κ} (he : Enabled s e) :
    Exclusive workerId (next workerId s e) := by
  cases e with
  | publish event => exact exclusive_publish h event
  | select k n ordered => exact exclusive_select h he
  | commitClaim k now => exact exclusive_commitClaim h k now
  | rollback k =>
    have hc := exclusive_crash h k
    exact ⟨hc.keyed, hc.locked, hc.locked_once, h.held, h.held_once⟩
  | complete k event now =>
    exact exclusive_finish (complete_id now) (flushComplete_complete now) h he
  | fail k event error => exact exclusive_finish (fail_id error) (flushFail_fail error) h he
  | crash k => exact exclusive_crash h k

/-! ### Attempts -/

def claimedIds (s : Store κ) : PollerStep κ → List String
  | .commitClaim k _ => (selection s k).map OutboxEvent.id
  | _ => []

def failedIds (_ : Store κ) : PollerStep κ → List String
  | .fail _ event _ => [event.id]
  | _ => []

def run (workerId : κ → String) (steps : List (PollerStep κ)) : Store κ :=
  runTrace (next workerId) Store.empty steps

def claims (workerId : κ → String) (steps : List (PollerStep κ)) (id : String) : ℕ :=
  (emitted claimedIds (next workerId) Store.empty steps).count id

def failures (workerId : κ → String) (steps : List (PollerStep κ)) (id : String) : ℕ :=
  (emitted failedIds (next workerId) Store.empty steps).count id

/-- What a row says of its history: it has been claimed and failed this many times. -/
structure RowBooks (claims failures : ℕ) (row : OutboxEvent) : Prop where
  attempts : row.attempts = claims
  bounded : row.attempts ≤ row.maxAttempts
  pending : row.status = .pending → row.attempts < row.maxAttempts ∧ row.claimedBy = none ∧
    failures = claims
  claimed : row.status = .claimed → claims = failures + 1
  dead : row.status = .dead → row.attempts = row.maxAttempts ∧ failures = claims

structure Books (claims failures : String → ℕ) (s : Store κ) : Prop where
  row : ∀ id row, s.rows.get? id = some row → RowBooks (claims id) (failures id) row
  absent : ∀ id, s.rows.get? id = none → claims id = 0 ∧ failures id = 0

theorem rowBooks_new {row : OutboxEvent} (h : NewRow row) : RowBooks 0 0 row := by
  obtain ⟨hs, hb, ha, hm⟩ := h
  constructor
  · exact ha
  · omega
  · exact fun _ => ⟨by omega, hb, rfl⟩
  · rw [hs]; exact nofun
  · rw [hs]; exact nofun

variable {c f : ℕ} {row : OutboxEvent}

theorem rowBooks_claim (h : RowBooks c f row) (hs : row.status = .pending) (name : String)
    (now : ℤ) : RowBooks (c + 1) f (claim name now row) := by
  obtain ⟨hlt, -, hf⟩ := h.pending hs
  have hattempts := h.attempts
  constructor
  · exact congrArg (· + 1) hattempts
  · exact hlt
  · exact nofun
  · exact fun _ => by omega
  · exact nofun

theorem rowBooks_complete (h : RowBooks c f row) (now : ℤ) :
    RowBooks c f (complete now row) where
  attempts := h.attempts
  bounded := h.bounded
  pending := nofun
  claimed := nofun
  dead := nofun

/-- The last attempt allowed goes to `dead`, any other back to `pending`. -/
theorem rowBooks_fail (h : RowBooks c f row) (hs : row.status = .claimed) (error : String) :
    RowBooks c (f + 1) (fail error row) := by
  have hc := h.claimed hs
  have hattempts := h.attempts
  have hbounded := h.bounded
  rw [fail]
  split
  · next hmax =>
    exact ⟨hattempts, hbounded, nofun, nofun, fun _ => ⟨le_antisymm hbounded hmax, hc.symm⟩⟩
  · next hmax =>
    exact ⟨hattempts, hbounded, fun _ => ⟨not_le.1 hmax, rfl, hc.symm⟩, nofun, nofun⟩

variable {claimed failed : String → ℕ}

omit [DecidableEq κ] in
theorem books_written {g : OutboxEvent → OutboxEvent} {s' : Store κ} {J : List String}
    {claimed' failed' : String → ℕ} (h : Books claimed failed s)
    (hrows : ∀ id, s'.rows.get? id =
      if id ∈ J then (s.rows.get? id).map g else s.rows.get? id)
    (hin : ∀ id ∈ J, ∃ row, s.rows.get? id = some row ∧
      RowBooks (claimed' id) (failed' id) (g row))
    (hout : ∀ id ∉ J, claimed' id = claimed id ∧ failed' id = failed id) :
    Books claimed' failed' s' := by
  constructor
  · intro id row hrow
    rw [hrows] at hrow
    split at hrow
    · next hJ =>
      obtain ⟨old, hold, hb⟩ := hin id hJ
      rw [hold] at hrow
      cases hrow
      exact hb
    · next hJ =>
      rw [(hout id hJ).1, (hout id hJ).2]
      exact h.row id row hrow
  · intro id hnone
    rw [hrows] at hnone
    split at hnone
    · next hJ =>
      obtain ⟨old, hold, -⟩ := hin id hJ
      rw [hold] at hnone
      cases hnone
    · next hJ =>
      rw [(hout id hJ).1, (hout id hJ).2]
      exact h.absent id hnone

theorem books_publish (h : Books claimed failed s) {event : OutboxEvent} (hnew : NewRow event) :
    Books claimed failed (next workerId s (.publish event)) := by
  rw [next]
  split
  · next ha =>
    have habsent := admitted_absent ha
    constructor
    · intro id row hrow
      rcases Dict.get?_set_cases hrow with ⟨rfl, rfl⟩ | ⟨-, hold⟩
      · rw [(h.absent _ habsent).1, (h.absent _ habsent).2]
        exact rowBooks_new hnew
      · exact h.row id row hold
    · intro id hnone
      rw [Dict.get?_set] at hnone
      split at hnone
      · cases hnone
      · exact h.absent id hnone
  · exact h

theorem books_next (hx : Exclusive workerId s) (h : Books claimed failed s) {e : PollerStep κ}
    (he : Enabled s e) :
    Books (fun id => claimed id + (claimedIds s e).count id)
      (fun id => failed id + (failedIds s e).count id) (next workerId s e) := by
  cases e with
  | publish event => exact books_publish h he
  | select k n ordered => exact ⟨h.row, h.absent⟩
  | rollback k => exact ⟨h.row, h.absent⟩
  | crash k => exact ⟨h.row, h.absent⟩
  | commitClaim k now =>
    refine books_written h (claim_rows hx k now) (fun id hid => ?_) fun id hid => ?_
    · obtain ⟨row, hin, rfl⟩ := List.mem_map.1 hid
      have hrow := selection_rows hx k row hin
      refine ⟨row, hrow, ?_⟩
      rw [claimedIds, List.count_eq_one_of_mem (selection_once hx k) hid]
      exact rowBooks_claim (h.row _ row hrow) (hx.locked _ (mem_selection.1 hin)).2 _ now
    · rw [claimedIds, List.count_eq_zero.2 hid]
      exact ⟨rfl, rfl⟩
  | complete k event now =>
    refine books_written h (finish_rows (complete_id now) (flushComplete_complete now) hx he)
      (fun id hid => ?_) fun id hid => ⟨rfl, rfl⟩
    rw [List.mem_singleton.1 hid]
    have hrow := (hx.held _ he).1
    exact ⟨event, hrow, rowBooks_complete (h.row _ event hrow) now⟩
  | fail k event error =>
    refine books_written h (finish_rows (fail_id error) (flushFail_fail error) hx he)
      (fun id hid => ?_) fun id hid => ?_
    · rw [List.mem_singleton.1 hid]
      obtain ⟨hrow, hs, -⟩ := hx.held _ he
      refine ⟨event, hrow, ?_⟩
      rw [failedIds, List.count_singleton_self]
      exact rowBooks_fail (h.row _ event hrow) hs error
    · rw [failedIds, List.count_eq_zero.2 hid]
      exact ⟨rfl, rfl⟩

theorem run_books {steps : List (PollerStep κ)}
    (h : ValidTrace Enabled (next workerId) Store.empty steps) :
    Exclusive workerId (run workerId steps) ∧
    Books (claims workerId steps) (failures workerId steps) (run workerId steps) := by
  refine history_invariant
    (I := fun es s => Exclusive workerId s ∧ Books (claims workerId es) (failures workerId es) s)
    ⟨exclusive_empty, ⟨fun id row h => (by cases h), fun id _ => ⟨rfl, rfl⟩⟩⟩ ?_ h
  rintro es e - ⟨hx, hb⟩ he
  have hc : claims workerId (es ++ [e]) = fun id =>
      claims workerId es id + (claimedIds (run workerId es) e).count id := by
    funext id
    rw [claims, emitted_concat, List.count_append, claims, run]
  have hf : failures workerId (es ++ [e]) = fun id =>
      failures workerId es id + (failedIds (run workerId es) e).count id := by
    funext id
    rw [failures, emitted_concat, List.count_append, failures, run]
  rw [hc, hf]
  exact ⟨exclusive_next hx he, books_next hx hb he⟩

/-! ### The batch of a claim -/

/-- At most `n` claimable rows, the oldest ones, and all of them if there are fewer than `n`. -/
structure OldestClaimable (s : Store κ) (n : ℕ) (batch : List OutboxEvent) : Prop where
  size : batch.length ≤ n
  claimable : ∀ e ∈ batch, e ∈ claimable s
  in_order : batch.Pairwise fun a b => a.createdAt ≤ b.createdAt
  oldest : ∀ e ∈ Outbox.claimable s, e ∉ batch →
    batch.length = n ∧ ∀ b ∈ batch, b.createdAt ≤ e.createdAt

omit [DecidableEq κ] in
theorem take_oldest {n : ℕ} {ordered : List OutboxEvent} (hp : ordered.Perm (claimable s))
    (ho : ordered.Pairwise fun a b => a.createdAt ≤ b.createdAt) :
    OldestClaimable s n (ordered.take n) where
  size := List.length_take_le n ordered
  claimable e he := hp.mem_iff.1 (List.mem_of_mem_take he)
  in_order := ho.sublist (List.take_sublist n ordered)
  oldest := by
    intro e he hn
    rw [← hp.mem_iff, ← List.take_append_drop n ordered] at he
    have hdrop : e ∈ ordered.drop n := (List.mem_append.1 he).resolve_left hn
    rw [← List.take_append_drop n ordered, List.pairwise_append] at ho
    refine ⟨?_, fun b hb => ho.2.2 b hb e hdrop⟩
    have hlen := List.length_pos_of_mem hdrop
    rw [List.length_drop] at hlen
    rw [List.length_take]
    omega

/-- The steps that open or close a claim of the poller. -/
def OwnClaim (k : κ) : PollerStep κ → Prop
  | .select j _ _ => j = k
  | .commitClaim j _ => j = k
  | .rollback j => j = k
  | .crash j => j = k
  | _ => False

theorem selection_without {j k : κ} (h : j ≠ k) :
    ((without s.locked j).filter fun l => l.1 = k).map Prod.snd = selection s k := by
  rw [selection, without, List.filter_filter]
  congr 1
  apply List.filter_congr
  intro l _
  by_cases hl : l.1 = k
  · simp [hl, Ne.symm h]
  · simp [hl]

theorem own_selection (j k : κ) (events : List OutboxEvent) :
    ((events.map fun e => (j, e)).filter fun l => l.1 = k).map Prod.snd =
      if j = k then events else [] := by
  induction events with
  | nil => split <;> rfl
  | cons e events ih =>
    rw [List.map_cons, List.filter_cons]
    by_cases hj : j = k
    · simp only [hj, decide_true, if_true, List.map_cons] at ih ⊢
      rw [ih]
    · simp [hj]

theorem selection_select (j k : κ) (n : ℕ) (ordered : List OutboxEvent) :
    selection (next workerId s (.select j n ordered)) k =
      selection s k ++ if j = k then ordered.take n else [] := by
  rw [selection, next, List.filter_append, List.map_append, own_selection]
  rfl

/-- The batch of an open claim is out of the reach of every other poller. -/
theorem selection_next {k : κ} {e : PollerStep κ} (h : ¬ OwnClaim k e) :
    selection (next workerId s e) k = selection s k := by
  cases e with
  | publish event =>
    rw [next]
    split <;> rfl
  | select j n ordered =>
    have hj : j ≠ k := h
    rw [selection_select, if_neg hj, List.append_nil]
  | commitClaim j now => exact selection_without h
  | rollback j => exact selection_without h
  | crash j => exact selection_without h
  | complete j event now => rfl
  | fail j event error => rfl

theorem selection_run {k : κ} {es : List (PollerStep κ)} (h : ∀ e ∈ es, ¬ OwnClaim k e) :
    selection (runTrace (next workerId) s es) k = selection s k := by
  induction es generalizing s with
  | nil => rfl
  | cons e es ih =>
    rw [runTrace, ih fun x hx => h x (List.mem_cons_of_mem e hx)]
    exact selection_next (h e List.mem_cons_self)

structure ClaimsKept (workerId : κ → String) (steps : List (PollerStep κ)) : Prop where
  exclusive : ∀ k e k' e', (k, e) ∈ (run workerId steps).held →
    (k', e') ∈ (run workerId steps).held → e.id = e'.id → k = k'
  attempts : ∀ id row, (run workerId steps).rows.get? id = some row →
    row.attempts = claims workerId steps id ∧ row.attempts ≤ row.maxAttempts
  pending : ∀ id row, (run workerId steps).rows.get? id = some row → row.status = .pending →
    row.attempts < row.maxAttempts ∧ row.claimedBy = none
  dead : ∀ id row, (run workerId steps).rows.get? id = some row → row.status = .dead →
    claims workerId steps id = row.maxAttempts ∧ failures workerId steps id = row.maxAttempts
  batch : ∀ xs k n ordered ys, steps = xs ++ .select k n ordered :: ys →
    (∀ e ∈ ys, ¬ OwnClaim k e) → selection (run workerId steps) k = ordered.take n ∧
      OldestClaimable (run workerId xs) n (ordered.take n)
  returned : ∀ k now, (next workerId (run workerId steps) (.commitClaim k now)).held =
    (run workerId steps).held ++
      ((selection (run workerId steps) k).map (claim (workerId k) now)).map fun e => (k, e)

def sampleRow (id : String) (createdAt : ℤ) : OutboxEvent where
  id := id
  eventType := "signal.discovered"
  payload := []
  maxAttempts := 1
  idempotencyKey := "idem-" ++ id
  createdAt := createdAt

def sampleClaimed : OutboxEvent := claim "worker-a" 3 (sampleRow "e1" 1)

def twoPollers : List (PollerStep Bool) :=
  [.publish (sampleRow "e1" 1), .publish (sampleRow "e2" 2),
    .select false 1 [sampleRow "e1" 1, sampleRow "e2" 2], .select true 1 [sampleRow "e2" 2],
    .commitClaim false 3, .commitClaim true 3, .fail false sampleClaimed "smtp down"]

def sampleWorkerId (k : Bool) : String := if k then "worker-b" else "worker-a"

example : (run sampleWorkerId twoPollers).rows.get? "e1" =
    some (fail "smtp down" sampleClaimed) := by decide

end TrustCopilot.Outbox
