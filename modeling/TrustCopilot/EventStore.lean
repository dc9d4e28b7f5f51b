import TrustCopilot.Library.GatedLog
import Mathlib.Data.Int.Basic

/-! The sink for raw events: switched off at first, it keeps what is emitted while it is on and
answers queries for the newest events. -/
namespace TrustCopilot.EventStore

open TrustCopilot.GatedLog

structure RawEvent where
  eventType : String
  sourceId : String := ""
  accountId : String := ""
  payload : List (String × String) := []
  deriving DecidableEq, Repr

abbrev EventStoreSink := Gate RawEvent

def enable (s : EventStoreSink) : EventStoreSink := { s with enabled := true }

def disable (s : EventStoreSink) : EventStoreSink := { s with enabled := false }

def emit (s : EventStoreSink) (event : RawEvent) : Option RawEvent × EventStoreSink :=
  if s.enabled then (some event, { s with log := s.log ++ [event] }) else (none, s)

/-- `results[-limit:]` -/
def lastOf {α : Type*} (limit : ℤ) (results : List α) : List α :=
  if 0 < limit then results.drop (results.length - limit.toNat)
  else results.drop (-limit).toNat

/-- The two filters; an empty one is left out. -/
def wanted (eventType sourceId : String) (e : RawEvent) : Bool :=
  (eventType = "" ∨ e.eventType = eventType) ∧ (sourceId = "" ∨ e.sourceId = sourceId)

def query (s : EventStoreSink) (eventType : String := "") (sourceId : String := "")
    (limit : ℤ := 100) : List RawEvent :=
  lastOf limit (s.log.filter (wanted eventType sourceId))

def count (s : EventStoreSink) (eventType : String := "") : ℕ :=
  if eventType = "" then s.log.length else s.log.countP fun e => e.eventType = eventType

def call (s : EventStoreSink) : Event RawEvent → EventStoreSink
  | .enable => enable s
  | .disable => disable s
  | .offer e => (emit s e).2

theorem call_eq_next (s : EventStoreSink) (c : Event RawEvent) : call s c = next s c := by
  cases c with
  | enable => rfl
  | disable => rfl
  | offer e =>
    rw [call, emit, next]
    split <;> rfl

def after (enabled : Bool) (calls : List (Event RawEvent)) : EventStoreSink :=
  calls.foldl call { enabled := enabled }

theorem after_append (enabled : Bool) (before rest : List (Event RawEvent)) :
    after enabled (before ++ rest) =
      ⟨switched (switched enabled before) rest,
        admitted enabled before ++ admitted (switched enabled before) rest⟩ := by
  have hrun : after enabled (before ++ rest) = run { enabled := enabled } (before ++ rest) := by
    rw [after, funext fun s => funext (call_eq_next s), run]
  rw [hrun, run_eq, List.nil_append, switched_append, admitted_append]

/-- The sink is on: it was turned on last, or made so and never turned off. -/
def On (enabled : Bool) (calls : List (Event RawEvent)) : Prop :=
  (∃ xs ys, calls = xs ++ .enable :: ys ∧ .disable ∉ ys) ∨ enabled = true ∧ .disable ∉ calls

theorem wanted_type (eventType : String) :
    wanted eventType "" = fun e => decide (eventType = "" ∨ e.eventType = eventType) := by
  funext e
  simp [wanted]

theorem count_eq (s : EventStoreSink) (eventType : String) :
    count s eventType = (s.log.filter (wanted eventType "")).length := by
  rw [count, wanted_type]
  split
  · next h => simp [h]
  · next h => simp [h, List.countP_eq_length_filter]

theorem wanted_anySource {eventType sourceId : String} {e : RawEvent}
    (h : wanted eventType sourceId e = true) : wanted eventType "" e = true := by
  rw [wanted, decide_eq_true_iff] at h ⊢
  exact ⟨h.1, Or.inl rfl⟩

/-- From the newest on, a positive limit keeps so many results and any other all but the oldest. -/
theorem lastOf_reverse {α : Type*} (limit : ℤ) (results : List α) :
    (lastOf limit results).reverse = results.reverse.take
      (if 0 < limit then limit.toNat else results.length - (-limit).toNat) := by
  rw [lastOf]
  split
  · rw [List.take_reverse]
  · rw [List.reverse_drop]

/-- What was emitted while the sink was off leaves no trace. What was emitted while it was on is
counted, and a query that it meets has it in the place, from the newest on, that the later events of
that kind leave to it: with a positive limit as long as they are fewer than the limit, and otherwise
unless it is among the oldest, of which the limit then says how many are left out. -/
theorem query_holds (enabled : Bool) (before rest : List (Event RawEvent)) (e : RawEvent)
    (eventType sourceId : String) (limit : ℤ) (hwanted : wanted eventType sourceId e = true) :
    let calls := before ++ .offer e :: rest
    (¬ On enabled before → after enabled calls = after enabled (before ++ rest)) ∧
    (On enabled before →
      let earlier := (admitted enabled before).filter (wanted eventType sourceId)
      let later := (admitted true rest).filter (wanted eventType sourceId)
      count (after enabled calls) eventType =
        count (after enabled (before ++ rest)) eventType + 1 ∧
      (query (after enabled calls) eventType sourceId limit).reverse[later.length]? =
        if (if 0 < limit then (later.length : ℤ) < limit else -limit ≤ earlier.length)
          then some e else none) := by
  intro calls
  have hswitch : switched enabled before = true ↔ On enabled before := switched_iff
  refine ⟨fun hoff => ?_, fun hon => ?_⟩
  · have hoff' : switched enabled before = false := by
      rw [← Bool.not_eq_true]
      exact mt hswitch.1 hoff
    rw [after_append, after_append, hoff']
    rfl
  · intro earlier later
    have hon' := hswitch.2 hon
    have hlog : (after enabled calls).log = admitted enabled before ++ e :: admitted true rest := by
      rw [after_append, hon']
      rfl
    have hrest : (after enabled (before ++ rest)).log =
        admitted enabled before ++ admitted true rest := by
      rw [after_append, hon']
    constructor
    · rw [count_eq, count_eq, hlog, hrest, List.filter_append, List.filter_append,
        List.filter_cons_of_pos (wanted_anySource hwanted), List.length_append, List.length_append,
        List.length_cons]
      rfl
    · have hmet : (after enabled calls).log.filter (wanted eventType sourceId) =
          earlier ++ e :: later := by
        rw [hlog, List.filter_append, List.filter_cons_of_pos hwanted]
      have hplace : (earlier ++ e :: later).reverse[later.length]? = some e := by
        rw [List.reverse_append, List.reverse_cons, List.append_assoc,
          List.getElem?_append_right (Nat.le_of_eq List.length_reverse), List.length_reverse,
          Nat.sub_self]
        rfl
      rw [query, hmet, lastOf_reverse, List.getElem?_take, hplace]
      refine if_congr ?_ rfl rfl
      split
      · omega
      · rw [List.length_append, List.length_cons]
        omega

theorem query_holds_second :
    (query (after false [.enable, .offer ⟨"crawl", "s1", "", []⟩, .offer ⟨"crawl", "s2", "", []⟩])
      "crawl" "" 1).reverse[0]? = some ⟨"crawl", "s2", "", []⟩ :=
  ((query_holds false [.enable, .offer ⟨"crawl", "s1", "", []⟩] [] ⟨"crawl", "s2", "", []⟩ "crawl"
    "" 1 rfl).2 (Or.inl ⟨[], [.offer ⟨"crawl", "s1", "", []⟩], rfl, by simp⟩)).2

end TrustCopilot.EventStore
