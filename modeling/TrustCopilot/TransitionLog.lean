import TrustCopilot.AccountStates
import TrustCopilot.Library.OrderedDict
import TrustCopilot.Library.Trace
import TrustCopilot.Library.Walks

/-! Transition requests served one at a time: the committed account rows and the committed
audit log after each of them. -/
namespace TrustCopilot.TransitionLog

open TrustCopilot.OrderedDict
open TrustCopilot.Trace
open TrustCopilot.Walks
open TrustCopilot.AccountStates

/-- The committed account rows, each under its own id. -/
abbrev AccountTable := Table Account.id

structure Database where
  accounts : AccountTable
  log : List AuditEvent

/-- The guard's and the lookup's errors, or the constraint that fails the flush. -/
inductive RequestError where
  | transition (e : TransitionError)
  | duplicateKey (key : Option String)
  deriving DecidableEq, Repr

def Database.commit (db : Database) (acc : Account) (audit : AuditEvent) : Database :=
  { accounts := db.accounts.save acc, log := db.log ++ [audit] }

/-- One request in its own session. A flush that hits the unique constraint raises, and the
session is closed without a commit. -/
def serve (db : Database) (accountId : String) (req : TransitionRequest) :
    Database × Except RequestError Account :=
  match transitionById (db.accounts.get? accountId) accountId req with
  | .error e => (db, .error (.transition e))
  | .ok (acc, audit) =>
    if keyUnique db.log audit then (db.commit acc audit, .ok acc)
    else (db, .error (.duplicateKey audit.idempotencyKey))

abbrev Request := String × TransitionRequest

def next (db : Database) (r : Request) : Database := (serve db r.1 r.2).1

def Database.start (accounts : AccountTable) : Database := ⟨accounts, []⟩

def run (accounts : AccountTable) (requests : List Request) : Database :=
  runTrace next (Database.start accounts) requests

def Database.eventsOf (db : Database) (accountId : String) : List AuditEvent :=
  db.log.filter fun a => a.accountId = accountId

/-- What a request can do: raise and leave everything alone, or commit one transition of an
existing row together with its audit event. -/
theorem serve_cases (db : Database) (accountId : String) (req : TransitionRequest) :
    (∃ e, serve db accountId req = (db, .error e)) ∨
    ∃ old acc audit, db.accounts.get? accountId = some old ∧
      transition old req = .ok (acc, audit) ∧ keyUnique db.log audit = true ∧
      serve db accountId req = (db.commit acc audit, .ok acc) := by
  cases ht : transitionById (db.accounts.get? accountId) accountId req with
  | error e => exact Or.inl ⟨.transition e, by simp [serve, ht]⟩
  | ok r =>
    obtain ⟨acc, audit⟩ := r
    cases hrow : db.accounts.get? accountId with
    | none => simp [transitionById, hrow] at ht
    | some old =>
      rw [hrow, transitionById_ok_iff] at ht
      cases hk : keyUnique db.log audit with
      | true =>
        refine Or.inr ⟨old, acc, audit, rfl, ht, hk, ?_⟩
        simp [serve, hrow, transitionById_ok_iff.2 ht, hk]
      | false =>
        refine Or.inl ⟨.duplicateKey audit.idempotencyKey, ?_⟩
        simp [serve, hrow, transitionById_ok_iff.2 ht, hk]

theorem raise_leaves_database {db : Database} {accountId : String} {req : TransitionRequest}
    {e : RequestError} (h : (serve db accountId req).2 = .error e) :
    (serve db accountId req).1 = db := by
  rcases serve_cases db accountId req with ⟨e', he⟩ | ⟨old, acc, audit, -, -, -, hs⟩
  · rw [he]
  · rw [hs] at h
    cases h

theorem keyUnique_nodup {log : List AuditEvent} {audit : AuditEvent}
    (h : keyUnique log audit = true) (hn : (log.filterMap AuditEvent.idempotencyKey).Nodup) :
    ((log ++ [audit]).filterMap AuditEvent.idempotencyKey).Nodup := by
  rw [List.filterMap_append]
  cases hk : audit.idempotencyKey with
  | none => simpa [hk] using hn
  | some key =>
    simp only [keyUnique, hk, List.all_eq_true, bne_iff_ne] at h
    have hfresh : key ∉ log.filterMap AuditEvent.idempotencyKey := by
      intro hin
      obtain ⟨a, ha, hak⟩ := List.mem_filterMap.1 hin
      exact h a ha hak
    simpa [hk, List.nodup_append] using
      ⟨hn, fun k a ha hak hkey => hfresh (hkey ▸ List.mem_filterMap.2 ⟨a, ha, hak⟩)⟩

structure Accounted (old : Account) (events : List AuditEvent) (acc : Account) : Prop where
  chain : Walk AuditEvent.oldState AuditEvent.newState old.state events acc.state
  version : acc.version - old.version = events.length

structure LogFaithful (accounts : AccountTable) (db : Database) : Prop where
  accounted : ∀ id old, accounts.get? id = some old →
    ∃ acc, db.accounts.get? id = some acc ∧ Accounted old (db.eventsOf id) acc
  links : ∀ a ∈ db.log, canTransition a.oldState a.newState = true
  keys : (db.log.filterMap AuditEvent.idempotencyKey).Nodup

theorem eventsOf_commit (db : Database) (acc : Account) (audit : AuditEvent) (id : String) :
    (db.commit acc audit).eventsOf id =
      db.eventsOf id ++ if audit.accountId = id then [audit] else [] := by
  rw [Database.eventsOf, Database.commit, List.filter_append]
  by_cases h : audit.accountId = id <;> simp [Database.eventsOf, h]

theorem accounted_transition {old acc acc' : Account} {events : List AuditEvent}
    {req : TransitionRequest} {audit : AuditEvent} (h : Accounted old events acc)
    (ht : transition acc req = .ok (acc', audit)) :
    Accounted old (events ++ [audit]) acc' := by
  obtain ⟨-, -, -, hversion, hold, hnew⟩ := transition_ok ht
  constructor
  · rw [walk_concat, hold]
    exact ⟨h.chain, hnew⟩
  · have := h.version
    rw [hversion, List.length_append, List.length_singleton]
    push_cast
    omega

theorem logFaithful_start (accounts : AccountTable) :
    LogFaithful accounts (Database.start accounts) where
  accounted _ old h := ⟨old, h, rfl, by simp [Database.eventsOf, Database.start]⟩
  links _ ha := absurd ha List.not_mem_nil
  keys := List.nodup_nil

theorem logFaithful_next {accounts : AccountTable} {db : Database}
    (h : LogFaithful accounts db) (r : Request) : LogFaithful accounts (next db r) := by
  obtain ⟨accountId, req⟩ := r
  rcases serve_cases db accountId req with ⟨e, he⟩ | ⟨row, acc, audit, hrow, ht, hkey, hs⟩
  · rw [next, he]
    exact h
  · rw [next, hs]
    obtain ⟨hcan, hid, hstate, -, hold, hnew⟩ := transition_ok ht
    have hrowid : row.id = accountId := Table.key_of_get? hrow
    have haudit : audit.accountId = accountId := (transition_audit ht).1.trans hrowid
    have hacc : acc.id = accountId := hid.trans hrowid
    constructor
    · intro id old hin
      obtain ⟨cur, hcur, hstory⟩ := h.accounted id old hin
      rw [eventsOf_commit, haudit]
      by_cases hsame : accountId = id
      · subst hsame
        rw [hrow] at hcur
        cases hcur
        refine ⟨acc, ?_, ?_⟩
        · simp only [Database.commit, Table.get?_save, hacc, if_true]
        · rw [if_pos rfl]
          exact accounted_transition hstory ht
      · refine ⟨cur, ?_, ?_⟩
        · simp only [Database.commit, Table.get?_save, hacc, if_neg (Ne.symm hsame), hcur]
        · rw [if_neg hsame, List.append_nil]
          exact hstory
    · intro a ha
      rcases List.mem_append.1 ha with ha | ha
      · exact h.links a ha
      · cases List.mem_singleton.1 ha
        rw [hold, hnew, hstate]
        exact hcan
    · exact keyUnique_nodup hkey h.keys

theorem logFaithful_run (accounts : AccountTable) (requests : List Request) :
    LogFaithful accounts (run accounts requests) := by
  induction requests using List.reverseRecOn with
  | nil => exact logFaithful_start accounts
  | append_singleton requests r ih =>
    rw [run, runTrace_concat]
    exact logFaithful_next ih r

/-- After any requests the log accounts for every row, and a request that raises next changes
nothing. -/
theorem rows_and_log_in_step (accounts : AccountTable) (requests : List Request) :
    LogFaithful accounts (run accounts requests) ∧
    ∀ accountId req e, (serve (run accounts requests) accountId req).2 = .error e →
      (serve (run accounts requests) accountId req).1 = run accounts requests :=
  ⟨logFaithful_run accounts requests, fun _ _ _ => raise_leaves_database⟩

end TrustCopilot.TransitionLog
