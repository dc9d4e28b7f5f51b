import TrustCopilot.Sending

/-! Replays of send tasks. The worker appends every successful send to its own record and
never looks at that record again. -/
namespace TrustCopilot.SendReplays

open TrustCopilot.PyText (asciiLower)
open TrustCopilot.Trace
open TrustCopilot.Sending

def returnsNormally : Option (Except String Unit) → Bool
  | some (.ok _) => true
  | _ => false

variable (lower sha256Hex : String → String)

def delivered (w : SendWorker) : Call → List String
  | .send task att =>
    if validateTask lower w task = [] ∧ returnsNormally att.provider then [task.id] else []
  | _ => []

def deliveries (calls : List Call) : List String :=
  emitted (delivered lower) (next lower sha256Hex) SendWorker.new calls

def DeliveredOnce (calls : List Call) : Prop :=
  ∀ taskId, (deliveries lower sha256Hex calls).count taskId ≤ 1

/-- A task id in the worker's record is not sent again, unless the checks stop the task or the
provider function does not come back. -/
def NotResent (w : SendWorker) : Call → Prop
  | .send task att => task.id ∈ w.sent.map SendResult.taskId →
    validateTask lower w task ≠ [] ∨ returnsNormally att.provider = false
  | _ => True

instance (w : SendWorker) (c : Call) : Decidable (NotResent lower w c) := by
  cases c <;> unfold NotResent <;> infer_instance

/-- All sends of a worker meet the provider function it was built with, or none does. -/
def FixedSendFn (calls : List Call) : Prop :=
  ∃ hasSendFn, ∀ task att, .send task att ∈ calls → att.provider.isSome = hasSendFn

variable {lower sha256Hex}

/-- With a provider function, a send is delivered and recorded exactly if it is a success. -/
theorem send_provider (w : SendWorker) {task : SendTask} {att : Attempt}
    (h : att.provider.isSome = true) :
    delivered lower w (.send task att) =
        (if (send lower sha256Hex w task att).2.1.success then [task.id] else []) ∧
      (send lower sha256Hex w task att).1.sent.map SendResult.taskId =
        w.sent.map SendResult.taskId ++
          (if (send lower sha256Hex w task att).2.1.success then [task.id] else []) := by
  cases hv : validateTask lower w task with
  | cons e errors => simp [send, delivered, hv]
  | nil =>
    cases hp : att.provider with
    | none => simp [hp] at h
    | some ending =>
      cases ending with
      | error e => simp [send, delivered, hv, hp, returnsNormally]
      | ok u => simp [send, delivered, hv, hp, returnsNormally]

theorem sent_send (w : SendWorker) {task : SendTask} {att : Attempt}
    (h : att.provider.isSome = true) :
    (send lower sha256Hex w task att).1.sent.map SendResult.taskId =
      w.sent.map SendResult.taskId ++ delivered lower w (.send task att) := by
  obtain ⟨hdelivered, hsent⟩ := @send_provider lower sha256Hex w task att h
  rw [hsent, hdelivered]

/-- A worker with a provider function records exactly what it delivers. -/
theorem sent_next {c : Call} (w : SendWorker)
    (hc : ∀ task att, c = .send task att → att.provider.isSome = true) :
    (next lower sha256Hex w c).sent.map SendResult.taskId =
      w.sent.map SendResult.taskId ++ delivered lower w c := by
  cases c with
  | send task att => exact sent_send w (hc task att rfl)
  | bounce event now =>
    simp only [next, delivered, List.append_nil, processBounce]
    split <;> rfl
  | _ => simp only [next, processComplaint, delivered, List.append_nil]

theorem sent_run {calls : List Call}
    (h : ∀ task att, .send task att ∈ calls → att.provider.isSome = true) :
    (run lower sha256Hex calls).sent.map SendResult.taskId = deliveries lower sha256Hex calls := by
  induction calls using List.reverseRecOn with
  | nil => rfl
  | append_singleton calls c ih =>
    have hprev := ih fun task att hin => h task att (List.mem_append_left _ hin)
    rw [run, runTrace_concat, deliveries, emitted_concat, sent_next _ fun task att hc => ?_]
    · exact congrArg (· ++ _) hprev
    · exact h task att (by simp [hc])

/-- A call is not a resend exactly when it delivers nothing that was delivered before. -/
theorem notResent_iff {calls : List Call} {c : Call} (h : FixedSendFn (calls ++ [c])) :
    NotResent lower (run lower sha256Hex calls) c ↔
      ∀ id ∈ delivered lower (run lower sha256Hex calls) c,
        id ∉ deliveries lower sha256Hex calls := by
  obtain ⟨hasSendFn, h⟩ := h
  cases c with
  | send task att =>
    have hatt : att.provider.isSome = hasSendFn := h task att (by simp)
    cases hasSendFn with
    | true =>
      rw [← sent_run fun task att hin => h task att (List.mem_append_left _ hin)]
      simp only [NotResent, delivered]
      by_cases hv : validateTask lower (run lower sha256Hex calls) task = []
      · by_cases hr : returnsNormally att.provider = true
        · simp [hv, hr]
        · simp [hv, hr]
      · simp [hv]
    | false =>
      have hr : returnsNormally att.provider = false := by
        rw [Option.isSome_eq_false_iff, Option.isNone_iff_eq_none] at hatt
        rw [hatt]
        rfl
      simp [NotResent, delivered, hr]
  | _ => simp [NotResent, delivered]

/-- No task id is delivered twice exactly as long as no task in the worker's record comes
through a send again. -/
theorem delivered_once_iff_not_resent {calls : List Call} (h : FixedSendFn calls) :
    DeliveredOnce lower sha256Hex calls ↔
      ValidTrace (NotResent lower) (next lower sha256Hex) SendWorker.new calls := by
  rw [DeliveredOnce, ← List.nodup_iff_count_le_one]
  induction calls using List.reverseRecOn with
  | nil => exact iff_of_true List.nodup_nil trivial
  | append_singleton calls c ih =>
    have hprev : FixedSendFn calls :=
      h.imp fun _ hb task att hin => hb task att (List.mem_append_left _ hin)
    have hone : (delivered lower (run lower sha256Hex calls) c).Nodup := by
      cases c with
      | send task att =>
        simp only [delivered]
        split
        · exact List.nodup_singleton _
        · exact List.nodup_nil
      | _ => exact List.nodup_nil
    have hresent : NotResent lower (run lower sha256Hex calls) c ↔
        ∀ id ∈ delivered lower (run lower sha256Hex calls) c,
          id ∉ deliveries lower sha256Hex calls := notResent_iff h
    rw [validTrace_concat, ← ih hprev, ← run, hresent, deliveries, emitted_concat,
      List.nodup_append]
    constructor
    · rintro ⟨hn, -, hd⟩
      exact ⟨hn, fun id hid hin => hd id hin id hid rfl⟩
    · rintro ⟨hn, hd⟩
      exact ⟨hn, hone, fun a ha b hb hab => hd b hb (hab ▸ ha)⟩

def replayedAttempt : Attempt := ⟨"fedcba9876543210", 2, some (.ok ())⟩

def replayAfterComplaint : List Call :=
  [.send sampleTask sampleAttempt, .complaint ⟨"alice@acme.com", .spam, ""⟩ 1,
    .send sampleTask replayedAttempt]

theorem complaint_stops_replay : DeliveredOnce asciiLower sampleDigest replayAfterComplaint :=
  have hfixed : FixedSendFn replayAfterComplaint := by
    refine ⟨true, fun task att hin => ?_⟩
    rw [replayAfterComplaint] at hin
    rcases List.mem_cons.1 hin with hin | hin
    · cases hin; rfl
    · rcases List.mem_cons.1 hin with hin | hin
      · cases hin
      · cases List.mem_singleton.1 hin; rfl
  (delivered_once_iff_not_resent hfixed).2 (by decide)

def immediateReplay : List Call :=
  [.send sampleTask sampleAttempt, .send sampleTask replayedAttempt]

/-- A replay of a task that was delivered delivers it again. -/
theorem replay_delivers_twice :
    deliveries asciiLower sampleDigest immediateReplay = ["task-1", "task-1"] ∧
    ¬ DeliveredOnce asciiLower sampleDigest immediateReplay := by
  have htwice : deliveries asciiLower sampleDigest immediateReplay = ["task-1", "task-1"] := by
    decide
  refine ⟨htwice, fun h => ?_⟩
  have hcount := h "task-1"
  rw [htwice] at hcount
  revert hcount
  decide

end TrustCopilot.SendReplays
