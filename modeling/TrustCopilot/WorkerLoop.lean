import TrustCopilot.Library.Trace
import Mathlib.Data.List.Count

/-! The loop of the base worker: an item is popped off the Redis list, processed in a session of
its own, and committed. An exception is logged and the loop goes on; the session is closed
without a commit. `work` is what `process_item` does to the database when it succeeds. -/
namespace TrustCopilot.WorkerLoop

open TrustCopilot.Trace

variable {δ : Type*}

/-- The worker with its queue, head first, and what it holds between the pop and the end of the
iteration. `processed` lists the items whose session was committed. -/
structure Worker (δ : Type*) where
  running : Bool
  queue : List String
  inHand : Option String
  db : δ
  processed : List String

def Worker.start (queue : List String) (db : δ) : Worker δ := ⟨true, queue, none, db, []⟩

inductive Outcome where
  | committed
  | raised
  deriving DecidableEq, Repr

inductive Step where
  | lpush (payload : String)
  | stop
  | rpop
  | finish (outcome : Outcome)
  deriving DecidableEq, Repr

variable (work : String → δ → δ)

/-- An empty queue makes the worker sleep; an iteration that has begun is finished also after
the stop signal. -/
def next (w : Worker δ) : Step → Worker δ
  | .lpush payload => { w with queue := payload :: w.queue }
  | .stop => { w with running := false }
  | .rpop =>
    match w.running, w.inHand, w.queue.getLast? with
    | true, none, some item => { w with queue := w.queue.dropLast, inHand := some item }
    | _, _, _ => w
  | .finish outcome =>
    match w.inHand, outcome with
    | some item, .committed =>
      { w with inHand := none, db := work item w.db, processed := w.processed ++ [item] }
    | some _, .raised => { w with inHand := none }
    | none, _ => w

def run (queue : List String) (db : δ) (steps : List Step) : Worker δ :=
  runTrace (next work) (Worker.start queue db) steps

def pushedBy : Step → List String
  | .lpush payload => [payload]
  | _ => []

def pushed (queue : List String) (steps : List Step) : List String :=
  queue ++ steps.flatMap pushedBy

/-- Between iterations every item is in the queue, or it was processed and committed; an item
that was pushed several times is there as many times. -/
def NothingDropped (queue : List String) (db : δ) (steps : List Step) : Prop :=
  ∀ xs, xs <+: steps → (run work queue db xs).inHand = none → ∀ item,
    (pushed queue xs).count item ≤
      (run work queue db xs).queue.count item + (run work queue db xs).processed.count item

def Completes (w : Worker δ) : Step → Prop
  | .finish .raised => w.inHand = none
  | _ => True

instance (w : Worker δ) (step : Step) : Decidable (Completes w step) :=
  match step with
  | .finish .raised => inferInstanceAs (Decidable (_ = _))
  | .finish .committed => isTrue trivial
  | .lpush _ => isTrue trivial
  | .stop => isTrue trivial
  | .rpop => isTrue trivial

variable {work} {queue : List String} {db : δ} {steps : List Step}

theorem run_concat (steps : List Step) (step : Step) :
    run work queue db (steps ++ [step]) = next work (run work queue db steps) step :=
  runTrace_concat (Worker.start queue db) steps step

def droppedBy (w : Worker δ) : Step → List String
  | .finish .raised => w.inHand.toList
  | _ => []

variable (work) in
def dropped (queue : List String) (db : δ) (steps : List Step) : List String :=
  emitted droppedBy (next work) (Worker.start queue db) steps

theorem count_rpop {xs : List String} {last : String} (h : xs.getLast? = some last)
    (item : String) : xs.count item = xs.dropLast.count item + [last].count item := by
  rw [← List.count_append, List.dropLast_append_getLast? last h]

/-- What a step adds to the queue, the hand, the processed and the dropped items is what it
pushes. -/
theorem accounted_next (w : Worker δ) (step : Step) (item : String) :
    (next work w step).queue.count item + (next work w step).inHand.toList.count item +
        (next work w step).processed.count item + (droppedBy w step).count item =
      w.queue.count item + w.inHand.toList.count item + w.processed.count item +
        (pushedBy step).count item := by
  cases step with
  | lpush payload =>
    simp only [next, droppedBy, pushedBy, List.count_cons, List.count_nil]
    omega
  | stop => rfl
  | rpop =>
    simp only [next, droppedBy, pushedBy]
    split
    · next last _ hhand hlast =>
      have hcount := count_rpop hlast item
      simp only [hhand, Option.toList_none, Option.toList_some, List.count_nil]
      omega
    · rfl
  | finish outcome =>
    simp only [next, pushedBy]
    cases hhand : w.inHand with
    | none => cases outcome <;> simp [droppedBy, hhand]
    | some held =>
      cases outcome with
      | committed =>
        simp only [droppedBy, Option.toList_none, Option.toList_some, List.count_append,
          List.count_nil]
        omega
      | raised =>
        simp only [droppedBy, hhand, Option.toList_none, Option.toList_some, List.count_nil]
        omega

theorem pushed_concat (queue : List String) (steps : List Step) (step : Step) :
    pushed queue (steps ++ [step]) = pushed queue steps ++ pushedBy step := by
  simp [pushed]

theorem dropped_concat (steps : List Step) (step : Step) :
    dropped work queue db (steps ++ [step]) =
      dropped work queue db steps ++ droppedBy (run work queue db steps) step :=
  emitted_concat droppedBy (Worker.start queue db) steps step

/-- Every item is in the queue, in hand, processed or dropped. -/
theorem accounted (queue : List String) (db : δ) (steps : List Step) (item : String) :
    (pushed queue steps).count item =
      (run work queue db steps).queue.count item +
        (run work queue db steps).inHand.toList.count item +
        (run work queue db steps).processed.count item +
        (dropped work queue db steps).count item := by
  induction steps using List.reverseRecOn with
  | nil => simp [pushed, run, Worker.start, dropped, emitted]
  | append_singleton steps step ih =>
    have hnext := @accounted_next _ work (run work queue db steps) step item
    rw [run_concat, dropped_concat, pushed_concat, List.count_append, List.count_append]
    omega

theorem dropped_none (h : ValidTrace Completes (next work) (Worker.start queue db) steps) :
    dropped work queue db steps = [] := by
  induction steps using List.reverseRecOn with
  | nil => rfl
  | append_singleton steps step ih =>
    obtain ⟨hsteps, hstep⟩ := validTrace_concat.1 h
    rw [dropped_concat, ih hsteps, List.nil_append]
    cases step with
    | finish outcome =>
      cases outcome with
      | committed => rfl
      | raised =>
        have hhand : (run work queue db steps).inHand = none := hstep
        rw [droppedBy, hhand]
        rfl
    | _ => rfl

/-- Nothing is dropped exactly when no popped item is processed with an exception: the handler
does not put the item back. -/
theorem nothing_dropped_iff (queue : List String) (db : δ) (steps : List Step) :
    NothingDropped work queue db steps ↔
      ValidTrace Completes (next work) (Worker.start queue db) steps := by
  constructor
  · intro h
    apply validTrace_of_after
    intro xs step hp _
    cases step with
    | finish outcome =>
      cases outcome with
      | committed => trivial
      | raised =>
        change (run work queue db xs).inHand = none
        cases hhand : (run work queue db xs).inHand with
        | none => rfl
        | some item =>
          have hidle : (run work queue db (xs ++ [.finish .raised])).inHand = none := by
            simp only [run_concat, next, hhand]
          have hkept := h _ hp hidle item
          have hbooks := @accounted _ work queue db (xs ++ [.finish .raised]) item
          rw [dropped_concat, droppedBy, hhand, List.count_append, Option.toList_some,
            List.count_singleton_self] at hbooks
          omega
    | _ => trivial
  · intro h xs hp hidle item
    have hbooks := @accounted _ work queue db xs item
    rw [dropped_none (validTrace_earlier hp h), hidle, Option.toList_none, List.count_nil]
      at hbooks
    omega

def failedOnce : List Step := [.rpop, .finish .raised]

/-- The item is in neither place when the loop polls again. -/
theorem failed_item_dropped :
    (run (fun _ d => d) ["acc-1"] () failedOnce).queue = [] ∧
    (run (fun _ d => d) ["acc-1"] () failedOnce).processed = [] ∧
    ¬ NothingDropped (fun _ d => d) ["acc-1"] () failedOnce := by
  refine ⟨rfl, rfl, fun h => ?_⟩
  have hcount := h failedOnce List.prefix_rfl rfl "acc-1"
  revert hcount
  decide

end TrustCopilot.WorkerLoop
