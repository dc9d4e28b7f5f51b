import TrustCopilot.Suppression
import TrustCopilot.Library.Trace

/-! The send worker: authorisation, budget and suppression checks before a send, and the
bounces and complaints that suppress their recipient. `lower` and `sha256Hex` stand for the
interpreter's `str.lower` and SHA-256. -/
namespace TrustCopilot.Sending

open TrustCopilot.Trace
open TrustCopilot.KeyHistory
open TrustCopilot.PyText
open TrustCopilot.Suppression

structure SendTask where
  id : String := ""
  mailboxId : String := ""
  mailboxEmail : String := ""
  recipientEmail : String := ""
  subject : String := ""
  bodyText : String := ""
  policyDecisionId : String := ""
  budgetToken : String := ""
  accountId : String := ""
  contactId : String := ""
  campaignId : String := ""
  deriving DecidableEq, Repr

structure SendResult where
  taskId : String
  success : Bool
  providerMessageId : String := ""
  payloadHash : String := ""
  error : String := ""
  sentAt : Option ℤ := none
  threadId : String := ""
  deriving DecidableEq, Repr

inductive BounceType where
  | hard
  | soft
  deriving DecidableEq, Repr

structure BounceEvent where
  recipientEmail : String
  bounceType : BounceType
  reason : String := ""
  providerMessageId : String := ""
  deriving DecidableEq, Repr

inductive ComplaintType where
  | spam
  | abuse
  deriving DecidableEq, Repr

def ComplaintType.value : ComplaintType → String
  | .spam => "spam"
  | .abuse => "abuse"

structure ComplaintEvent where
  recipientEmail : String
  complaintType : ComplaintType
  providerMessageId : String := ""
  deriving DecidableEq, Repr

/-- What a send takes from outside: the random id, the clock, and, if the worker has a
provider function, how that function ends. -/
structure Attempt where
  uuidHex : String
  now : ℤ
  provider : Option (Except String Unit) := none

structure SendWorker where
  suppression : SuppressionService
  sent : List SendResult
  deriving DecidableEq, Repr

def SendWorker.new : SendWorker := ⟨SuppressionService.new, []⟩

def takeChars (n : ℕ) (s : String) : String := String.ofList (s.toList.take n)

theorem takeChars_eq_empty_iff {n : ℕ} {s : String} (hn : 0 < n) :
    takeChars n s = "" ↔ s = "" := by
  rw [takeChars, ← String.toList_inj, String.toList_ofList, ← String.toList_inj]
  simp only [String.toList_empty, List.take_eq_nil_iff, hn.ne', false_or]

section Worker

variable (lower sha256Hex : String → String)

def validateTask (w : SendWorker) (task : SendTask) : List String :=
  (if task.policyDecisionId = "" then ["Missing policy decision — send not authorized"]
    else []) ++
  (if task.budgetToken = "" then ["Missing budget token — send not budgeted"] else []) ++
  (if task.recipientEmail = "" then ["Missing recipient email"] else []) ++
  (if task.subject = "" ∨ task.bodyText = "" then ["Missing message content"] else []) ++
  match isSuppressed lower w.suppression task.recipientEmail "" task.accountId "" with
  | (true, record) =>
    ["Recipient suppressed: " ++ (record.map fun r => r.reason.value).getD "unknown"]
  | (false, _) => []

def payloadHash (task : SendTask) : String :=
  takeChars 16 (sha256Hex (task.subject ++ "|" ++ task.bodyText ++ "|" ++ task.recipientEmail))

def threadId (task : SendTask) : String :=
  if task.accountId = "" then "" else "thread_" ++ takeChars 8 task.accountId

/-- The last component says whether the provider was reached: its function was called, or the
send was reported as a success. -/
def send (w : SendWorker) (task : SendTask) (att : Attempt) :
    SendWorker × SendResult × Bool :=
  match validateTask lower w task with
  | e :: errors =>
    (w, { taskId := task.id, success := false, error := "; ".intercalate (e :: errors) }, false)
  | [] =>
    match att.provider with
    | some (.error e) =>
      (w, { taskId := task.id, success := false, error := e,
            payloadHash := payloadHash sha256Hex task }, true)
    | _ =>
      let result : SendResult :=
        { taskId := task.id
          success := true
          providerMessageId := "msg_" ++ takeChars 12 att.uuidHex
          payloadHash := payloadHash sha256Hex task
          sentAt := some att.now
          threadId := threadId task }
      ({ w with sent := w.sent ++ [result] }, result, true)

def processBounce (w : SendWorker) (event : BounceEvent) (now : ℤ) : SendWorker :=
  match event.bounceType with
  | .hard =>
    { w with
      suppression := add lower w.suppression .email event.recipientEmail .hardBounce
        "system" ("Hard bounce: " ++ event.reason) now }
  | .soft => w

def processComplaint (w : SendWorker) (event : ComplaintEvent) (now : ℤ) : SendWorker :=
  { w with
    suppression := add lower w.suppression .email event.recipientEmail .complaint
      "system" ("Complaint: " ++ event.complaintType.value) now }

end Worker

inductive Call where
  | add (scope : SuppressionScope) (key : String) (reason : SuppressionReason)
      (createdBy notes : String) (now : ℤ)
  | remove (scope : SuppressionScope) (key : String)
  | bulkImport (records : List (SuppressionScope × String × SuppressionReason)) (now : ℤ)
  | bounce (event : BounceEvent) (now : ℤ)
  | complaint (event : ComplaintEvent) (now : ℤ)
  | send (task : SendTask) (att : Attempt)

section Runs

variable (lower sha256Hex : String → String)

def next (w : SendWorker) : Call → SendWorker
  | .add scope key reason createdBy notes now =>
    { w with suppression := add lower w.suppression scope key reason createdBy notes now }
  | .remove scope key => { w with suppression := (remove lower w.suppression scope key).1 }
  | .bulkImport records now =>
    { w with suppression := (bulkImport lower w.suppression records now).1 }
  | .bounce event now => processBounce lower w event now
  | .complaint event now => processComplaint lower w event now
  | .send task att => (send lower sha256Hex w task att).1

def run (calls : List Call) : SendWorker :=
  runTrace (next lower sha256Hex) SendWorker.new calls

/-- The suppression keys a call puts in force or withdraws. -/
def changes : Call → History
  | .add scope key _ _ _ _ => [.put (scope, normalise lower key)]
  | .remove scope key => [.drop (scope, normalise lower key)]
  | .bulkImport records _ => records.map fun r => .put (r.1, normalise lower r.2.1)
  | .bounce event _ =>
    match event.bounceType with
    | .hard => [.put (.email, normalise lower event.recipientEmail)]
    | .soft => []
  | .complaint event _ => [.put (.email, normalise lower event.recipientEmail)]
  | .send _ _ => []

/-- An entry for the scope and the normalised key was added after its last removal. -/
def EntryInForce (calls : List Call) (scope : SuppressionScope) (key : String) : Prop :=
  InForce (calls.flatMap (changes lower)) (scope, normalise lower key)

end Runs

def emailDomain (email : String) : Option String :=
  if '@' ∈ email.toList then
    some (String.ofList (email.toList.reverse.takeWhile (· ≠ '@')).reverse)
  else none

def taskKeys (task : SendTask) : List (SuppressionScope × String) :=
  [(.email, task.recipientEmail), (.account, task.accountId), (.campaign, task.campaignId)] ++
    (emailDomain task.recipientEmail).toList.map fun d => (.domain, d)

/-- The keys of a task that the worker never looks up: its campaign, an account id that is
blank, and the domain of an address with more than one at sign. -/
def uncheckedKeys (task : SendTask) : List (SuppressionScope × String) :=
  [(.campaign, task.campaignId)] ++
  (if task.accountId = "" then [(.account, task.accountId)] else []) ++
  (if task.recipientEmail.toList.count '@' ≤ 1 then []
    else (emailDomain task.recipientEmail).toList.map fun d => (.domain, d))

variable {lower sha256Hex : String → String}

theorem send_suppression (w : SendWorker) (task : SendTask) (att : Attempt) :
    (send lower sha256Hex w task att).1.suppression = w.suppression := by
  rw [send]
  split
  · rfl
  · split <;> rfl

/-- The provider is reached exactly when no check objects. -/
theorem send_reaches_iff (w : SendWorker) (task : SendTask) (att : Attempt) :
    (send lower sha256Hex w task att).2.2 = true ↔ validateTask lower w task = [] := by
  rw [send]
  split
  · next h => simp [h]
  · next h => rw [h]; split <;> simp

theorem enforces_next {history : History} {w : SendWorker} (h : Enforces history w.suppression)
    (c : Call) :
    Enforces (history ++ changes lower c) (next lower sha256Hex w c).suppression := by
  cases c with
  | add scope key reason createdBy notes now =>
    exact enforces_add h scope key reason createdBy notes now
  | remove scope key => exact enforces_remove h scope key
  | bulkImport records now => exact enforces_bulkImport h records now
  | bounce event now =>
    cases ht : event.bounceType with
    | hard =>
      simp only [changes, next, processBounce, ht]
      exact enforces_add h .email event.recipientEmail .hardBounce _ _ now
    | soft => simpa [changes, next, processBounce, ht] using h
  | complaint event now => exact enforces_add h .email event.recipientEmail .complaint _ _ now
  | send task att =>
    rw [changes, List.append_nil, next, send_suppression]
    exact h

theorem enforces_run (calls : List Call) :
    Enforces (calls.flatMap (changes lower)) (run lower sha256Hex calls).suppression := by
  induction calls using List.reverseRecOn with
  | nil => exact enforces_new
  | append_singleton calls c ih =>
    rw [run, runTrace_concat, List.flatMap_append, List.flatMap_singleton]
    exact enforces_next ih c

theorem validateTask_nil {w : SendWorker} {task : SendTask} (h : validateTask lower w task = []) :
    task.recipientEmail ≠ "" ∧
    (isSuppressed lower w.suppression task.recipientEmail "" task.accountId "").1 = false := by
  rw [validateTask] at h
  simp only [List.append_eq_nil_iff] at h
  obtain ⟨⟨⟨-, hr⟩, -⟩, hs⟩ := h
  constructor
  · intro he; simp [he] at hr
  · split at hs
    · cases hs
    · next hf => rw [hf]

/-- On an address with one at sign the worker looks up its domain. -/
theorem split_emailDomain {email d : String} (hd : emailDomain email = some d)
    (hc : email.toList.count '@' ≤ 1) : (split email '@')[1]? = some d := by
  rw [emailDomain] at hd
  split at hd
  · next hm =>
    obtain ⟨name, dom, he⟩ := List.append_of_mem hm
    rw [he, List.count_append, List.count_cons_self] at hc
    have hname : '@' ∉ name := List.count_eq_zero.1 (by omega)
    have hdom : '@' ∉ dom := List.count_eq_zero.1 (by omega)
    have hlast : (email.toList.reverse.takeWhile (· ≠ '@')).reverse = dom := by
      rw [he, List.reverse_append, List.reverse_cons, List.append_assoc,
        List.takeWhile_append_of_pos (by simpa using fun c hx (hc : c = '@') => hdom (hc ▸ hx))]
      simp
    rw [hlast] at hd
    rw [split, he, List.splitOn_append_cons_self_of_not_mem hname,
      List.splitOn_eq_singleton hdom]
    simpa using hd
  · cases hd

/-- A key that a reached send looked up is not in force. -/
theorem checked_key_not_inForce {calls : List Call} {task : SendTask} {att : Attempt}
    (h : (send lower sha256Hex (run lower sha256Hex calls) task att).2.2 = true)
    {scope : SuppressionScope} {key : String}
    (hk : makeKey lower scope key ∈
      suppressionChecks lower task.recipientEmail "" task.accountId "") :
    ¬ EntryInForce lower calls scope key := by
  have hs := (validateTask_nil ((send_reaches_iff _ _ _).1 h)).2
  have hfree := (isSuppressed_eq_false_iff _ _ _ _).1 hs _ hk
  intro hin
  have hrun : Enforces (calls.flatMap (changes lower)) (run lower sha256Hex calls).suppression :=
    enforces_run calls
  have hheld := (hrun (scope, normalise lower key)).2 hin
  rw [makeKey] at hfree
  rw [hfree] at hheld
  cases hheld

/-- A send that reaches the provider is free of every suppression of its task exactly when it
is free of those the worker does not look up. -/
theorem reached_send_unsuppressed_iff {calls : List Call} {task : SendTask} {att : Attempt}
    (h : (send lower sha256Hex (run lower sha256Hex calls) task att).2.2 = true) :
    (∀ k ∈ taskKeys task, ¬ EntryInForce lower calls k.1 k.2) ↔
      ∀ k ∈ uncheckedKeys task, ¬ EntryInForce lower calls k.1 k.2 := by
  have hemail := (validateTask_nil ((send_reaches_iff _ _ _).1 h)).1
  constructor
  · intro hall k hk
    refine hall k ?_
    simp only [uncheckedKeys, List.mem_append] at hk
    rcases hk with (hk | hk) | hk
    · simp_all [taskKeys]
    · split at hk <;> simp_all [taskKeys]
    · split at hk
      · cases hk
      · exact List.mem_append_right _ hk
  · intro hfree k hk
    simp only [taskKeys, List.mem_append, List.mem_cons, List.not_mem_nil, or_false] at hk
    rcases hk with (rfl | rfl | rfl) | hk
    · exact checked_key_not_inForce h (by simp [suppressionChecks, hemail])
    · by_cases ha : task.accountId = ""
      · exact hfree _ (by simp [uncheckedKeys, ha])
      · exact checked_key_not_inForce h (by simp [suppressionChecks, ha])
    · exact hfree _ (by simp [uncheckedKeys])
    · by_cases hc : task.recipientEmail.toList.count '@' ≤ 1
      · obtain ⟨d, hd, rfl⟩ := List.mem_map.1 hk
        have hd := Option.mem_toList.1 hd
        have hat : '@' ∈ task.recipientEmail.toList := by
          by_contra hn
          simp [emailDomain, hn] at hd
        refine checked_key_not_inForce h ?_
        simp [suppressionChecks, hemail, hat, split_emailDomain hd hc]
      · exact hfree k (List.mem_append_right _ (by rw [if_neg hc]; exact hk))

def sampleTask : SendTask where
  id := "task-1"
  mailboxId := "mb-1"
  mailboxEmail := "send@myco.com"
  recipientEmail := "alice@acme.com"
  subject := "Test"
  bodyText := "Hello there."
  policyDecisionId := "pol-1"
  budgetToken := "budget-1"
  accountId := "acc-1"
  contactId := "ct-1"
  campaignId := "camp-1"

def sampleAttempt : Attempt := ⟨"0123456789abcdef", 1, some (.ok ())⟩

def sampleDigest : String → String :=
  fun _ => "548fed279123f40d1b81db2b5180f393a0e753ebaa056c7572f476a267a71705"

/-- A colleague is suppressed, and the account was and is no longer. -/
def blockedColleague : List Call :=
  [.add .account "acc-1" .manualBlock "admin" "" 0,
    .add .email "bob@acme.com" .manualBlock "admin" "" 5, .remove .account "acc-1"]

theorem unsuppressed_sample_send :
    (∀ k ∈ taskKeys sampleTask, ¬ EntryInForce asciiLower blockedColleague k.1 k.2) ↔
      ∀ k ∈ uncheckedKeys sampleTask, ¬ EntryInForce asciiLower blockedColleague k.1 k.2 :=
  have hreached : (send asciiLower id (run asciiLower id blockedColleague) sampleTask
      sampleAttempt).2.2 = true := by decide
  reached_send_unsuppressed_iff hreached

def blockedCampaign : List Call := [.add .campaign "camp-1" .manualBlock "admin" "" 0]

/-- A campaign suppression does not stop the send of a task of that campaign. -/
theorem campaign_suppression_passed_over :
    (send asciiLower id (run asciiLower id blockedCampaign) sampleTask
      sampleAttempt).2.1.success = true ∧
    (send asciiLower id (run asciiLower id blockedCampaign) sampleTask
      sampleAttempt).2.2 = true ∧
    (.campaign, "camp-1") ∈ taskKeys sampleTask ∧
    EntryInForce asciiLower blockedCampaign .campaign "camp-1" :=
  ⟨by decide, by decide, by decide, [], [], rfl, List.not_mem_nil⟩

end TrustCopilot.Sending
