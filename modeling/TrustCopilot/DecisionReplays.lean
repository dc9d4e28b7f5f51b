import TrustCopilot.Library.DictPatch
import TrustCopilot.Library.Trace

/-! Decision traces and their replay. A trace keeps the inputs and the reason codes of one
contact decision; a replay runs other rules on the same inputs and reports what changed. The
values of a JSON object are left abstract. -/
namespace TrustCopilot.DecisionReplays

open TrustCopilot.OrderedDict
open TrustCopilot.DictPatch
open TrustCopilot.Trace

variable {J : Type*}

structure ContactDecision (J : Type*) where
  id : String
  accountId : String
  status : String
  reasonCodes : Option (Dict String J)

structure ReplayDiff (J : Type*) where
  traceId : String
  verdictChanged : Bool
  originalVerdict : String
  replayedVerdict : String
  reasonDiff : KeyDiff String J

structure DecisionTrace (J : Type*) where
  id : String
  decisionId : String
  accountId : String
  inputSnapshot : Dict String J
  ruleHits : Option (Dict String J)
  modelScores : Option (Dict String J)
  finalReasonCodes : Option (Dict String J)
  outputVerdict : String
  replayDiff : Option (ReplayDiff J) := none

abbrev Traces (J : Type*) := Table (DecisionTrace.id (J := J))

/-- The primary key is drawn by the database. -/
def recordTrace (db : Traces J) (id : String) (decision : ContactDecision J)
    (inputSnapshot : Dict String J) (ruleHits modelScores : Option (Dict String J) := none) :
    Traces J :=
  db.save {
    id := id
    decisionId := decision.id
    accountId := decision.accountId
    inputSnapshot := inputSnapshot
    ruleHits := ruleHits
    modelScores := modelScores
    finalReasonCodes := decision.reasonCodes
    outputVerdict := decision.status }

/-- The dictionary that a rules function returns; either entry may be missing. -/
structure Replayed (J : Type*) where
  verdict : Option String := none
  reasonCodes : Option (Dict String J) := none

/-- `final_reason_codes or {}` -/
def DecisionTrace.originalReasons (trace : DecisionTrace J) : Dict String J :=
  trace.finalReasonCodes.getD Dict.empty

/-- The verdict and the reason codes under the new rules; without rules, the recorded ones. -/
def outcome (trace : DecisionTrace J) (newRulesFn : Option (Dict String J → Replayed J)) :
    String × Dict String J :=
  match newRulesFn with
  | some rules =>
    let replayed := rules trace.inputSnapshot
    (replayed.verdict.getD trace.outputVerdict, replayed.reasonCodes.getD trace.originalReasons)
  | none => (trace.outputVerdict, trace.originalReasons)

def diffOf (trace : DecisionTrace J) (new : String × Dict String J) : ReplayDiff J where
  traceId := trace.id
  verdictChanged := new.1 ≠ trace.outputVerdict
  originalVerdict := trace.outputVerdict
  replayedVerdict := new.1
  reasonDiff := keyDiff trace.originalReasons new.2

def replayDecision (db : Traces J) (traceId : String)
    (newRulesFn : Option (Dict String J → Replayed J) := none) :
    Except String (ReplayDiff J × Traces J) :=
  match db.get? traceId with
  | none => .error s!"Trace {traceId} not found"
  | some trace =>
    let diff := diffOf trace (outcome trace newRulesFn)
    .ok (diff, db.save { trace with replayDiff := some diff })

theorem replayDecision_of_stored {db : Traces J} {traceId : String} {trace : DecisionTrace J}
    (h : db.get? traceId = some trace) (newRulesFn : Option (Dict String J → Replayed J)) :
    replayDecision db traceId newRulesFn = .ok (diffOf trace (outcome trace newRulesFn),
      db.save { trace with replayDiff := some (diffOf trace (outcome trace newRulesFn)) }) := by
  rw [replayDecision, h]

theorem replayDecision_cases {db db' : Traces J} {traceId : String} {diff : ReplayDiff J}
    {newRulesFn : Option (Dict String J → Replayed J)}
    (h : replayDecision db traceId newRulesFn = .ok (diff, db')) :
    ∃ trace, db.get? traceId = some trace ∧ diff = diffOf trace (outcome trace newRulesFn) ∧
      db' = db.save { trace with replayDiff := some diff } := by
  cases hs : db.get? traceId with
  | none => rw [replayDecision, hs] at h; cases h
  | some trace =>
    rw [replayDecision_of_stored hs] at h
    cases h
    exact ⟨trace, rfl, rfl, rfl⟩

def DecisionTrace.recorded (trace : DecisionTrace J) : DecisionTrace J :=
  { trace with replayDiff := none }

theorem replayDecision_recorded {db db' : Traces J} {traceId : String} {diff : ReplayDiff J}
    {newRulesFn : Option (Dict String J → Replayed J)}
    (h : replayDecision db traceId newRulesFn = .ok (diff, db')) (k : String) :
    (db'.get? k).map DecisionTrace.recorded = (db.get? k).map DecisionTrace.recorded := by
  obtain ⟨trace, hs, -, rfl⟩ := replayDecision_cases h
  have hid : trace.id = traceId := Table.key_of_get? hs
  by_cases hk : k = traceId
  · subst hk
    rw [hs, Table.get?_save, if_pos hid.symm]
    rfl
  · rw [Table.get?_save_other]
    rwa [← hid] at hk

theorem replayDecision_again {db db' : Traces J} {traceId : String} {diff : ReplayDiff J}
    {newRulesFn : Option (Dict String J → Replayed J)}
    (h : replayDecision db traceId newRulesFn = .ok (diff, db')) :
    ∃ db'', replayDecision db' traceId newRulesFn = .ok (diff, db'') := by
  obtain ⟨trace, hs, rfl, rfl⟩ := replayDecision_cases h
  have hid : trace.id = traceId := Table.key_of_get? hs
  have hs' := Table.get?_save_self db
    { trace with replayDiff := some (diffOf trace (outcome trace newRulesFn)) }
  subst hid
  exact ⟨_, replayDecision_of_stored hs' newRulesFn⟩

/-! ### What a replay's diff tells -/

def ReplayDiff.ReportsNoChange (diff : ReplayDiff J) : Prop :=
  diff.verdictChanged = false ∧ diff.reasonDiff.Unchanged

instance (diff : ReplayDiff J) : Decidable diff.ReportsNoChange :=
  inferInstanceAs (Decidable (_ ∧ _))

/-- The diff gives the new reason codes back from the old ones, and reports no change only where
there is none. -/
def Complete (trace : DecisionTrace J) (new : String × Dict String J) (diff : ReplayDiff J) :
    Prop :=
  SameEntries (diff.reasonDiff.patch trace.originalReasons) new.2 ∧
    (diff.ReportsNoChange →
      new.1 = trace.outputVerdict ∧ SameEntries trace.originalReasons new.2)

theorem complete_diffOf_iff {trace : DecisionTrace J} {new : String × Dict String J} :
    Complete trace new (diffOf trace new) ↔ AgreeOnCommon trace.originalReasons new.2 := by
  constructor
  · intro h
    exact patch_keyDiff_iff.1 h.1
  · intro h
    have hpatch := patch_keyDiff_iff.2 h
    refine ⟨hpatch, ?_⟩
    rintro ⟨hverdict, hreasons⟩
    constructor
    · simpa [diffOf] using hverdict
    · intro k
      rw [← patch_of_unchanged hreasons trace.originalReasons k]
      exact hpatch k

/-- The diff of a replay is complete exactly where the reason codes that both decisions have
carry the same values. -/
theorem replay_complete_iff {db : Traces J} {traceId : String} {trace : DecisionTrace J}
    (h : db.get? traceId = some trace) (newRulesFn : Option (Dict String J → Replayed J)) :
    ∃ diff db', replayDecision db traceId newRulesFn = .ok (diff, db') ∧
      (Complete trace (outcome trace newRulesFn) diff ↔
        AgreeOnCommon trace.originalReasons (outcome trace newRulesFn).2) :=
  ⟨_, _, replayDecision_of_stored h newRulesFn, complete_diffOf_iff⟩

def tieredTrace : DecisionTrace ℕ where
  id := "trace-1"
  decisionId := "decision-1"
  accountId := "acme"
  inputSnapshot := Dict.empty
  ruleHits := none
  modelScores := none
  finalReasonCodes := some ⟨[("tier", 1)], by decide⟩
  outputVerdict := "contacted"

def retiered (_ : Dict String ℕ) : Replayed ℕ where
  verdict := some "contacted"
  reasonCodes := some ⟨[("tier", 2)], by decide⟩

theorem replay_complete_tiered :
    ((Table.empty : Traces ℕ).save tieredTrace).get? "trace-1" = some tieredTrace ∧
      ∃ diff db', replayDecision ((Table.empty : Traces ℕ).save tieredTrace) "trace-1"
          (some retiered) = .ok (diff, db') ∧
        (Complete tieredTrace (outcome tieredTrace (some retiered)) diff ↔
          AgreeOnCommon tieredTrace.originalReasons (outcome tieredTrace (some retiered)).2) :=
  have h := Table.get?_save_self (Table.empty : Traces ℕ) tieredTrace
  ⟨h, replay_complete_iff h (some retiered)⟩

/-- A code whose value alone changes is in neither list: the replay reports no change. -/
theorem retiered_silent :
    ∃ diff db', replayDecision ((Table.empty : Traces ℕ).save tieredTrace) "trace-1"
        (some retiered) = .ok (diff, db') ∧
      diff.ReportsNoChange ∧
      ¬ SameEntries tieredTrace.originalReasons (outcome tieredTrace (some retiered)).2 ∧
      ¬ Complete tieredTrace (outcome tieredTrace (some retiered)) diff := by
  have h := Table.get?_save_self (Table.empty : Traces ℕ) tieredTrace
  refine ⟨_, _, replayDecision_of_stored h (some retiered), by decide, ?_, ?_⟩
  · intro hsame
    exact absurd (hsame "tier") (by decide)
  · rw [complete_diffOf_iff]
    intro hagree
    exact absurd (hagree "tier" 1 2 (by decide) (by decide)) (by decide)

/-! ### Recording and replaying in any order -/

inductive Call (J : Type*) where
  | record (id : String) (decision : ContactDecision J) (inputSnapshot : Dict String J)
    (ruleHits modelScores : Option (Dict String J))
  | replay (traceId : String) (newRulesFn : Option (Dict String J → Replayed J))

/-- A replay of a trace that is not there raises, and nothing is flushed. -/
def next (db : Traces J) : Call J → Traces J
  | .record id decision inputSnapshot ruleHits modelScores =>
    recordTrace db id decision inputSnapshot ruleHits modelScores
  | .replay traceId newRulesFn =>
    match replayDecision db traceId newRulesFn with
    | .ok (_, db') => db'
    | .error _ => db

def Fresh (db : Traces J) : Call J → Prop
  | .record id _ _ _ _ => (db.get? id).isNone = true
  | .replay _ _ => True

instance (db : Traces J) : (c : Call J) → Decidable (Fresh db c)
  | .record .. => inferInstanceAs (Decidable (_ = _))
  | .replay .. => isTrue trivial

def newTrace (id : String) (decision : ContactDecision J) (inputSnapshot : Dict String J)
    (ruleHits modelScores : Option (Dict String J)) : DecisionTrace J where
  id := id
  decisionId := decision.id
  accountId := decision.accountId
  inputSnapshot := inputSnapshot
  ruleHits := ruleHits
  modelScores := modelScores
  finalReasonCodes := decision.reasonCodes
  outputVerdict := decision.status

def replaysOf (k : String) (calls : List (Call J)) :
    List (Option (Dict String J → Replayed J)) :=
  calls.filterMap fun
    | .replay traceId newRulesFn => if traceId = k then some newRulesFn else none
    | .record .. => none

def lastDiff (trace : DecisionTrace J) (k : String) (calls : List (Call J)) :
    Option (ReplayDiff J) :=
  ((replaysOf k calls).getLast?.map fun newRulesFn => diffOf trace (outcome trace newRulesFn)).or
    trace.replayDiff

theorem diffOf_replayed (trace : DecisionTrace J) (diff : Option (ReplayDiff J))
    (newRulesFn : Option (Dict String J → Replayed J)) :
    diffOf { trace with replayDiff := diff }
        (outcome { trace with replayDiff := diff } newRulesFn) =
      diffOf trace (outcome trace newRulesFn) := by
  cases newRulesFn <;> rfl

theorem next_replay_other {db : Traces J} {k traceId : String} (h : k ≠ traceId)
    (newRulesFn : Option (Dict String J → Replayed J)) :
    (next db (.replay traceId newRulesFn)).get? k = db.get? k := by
  rw [next]
  cases hcall : replayDecision db traceId newRulesFn with
  | error e => rfl
  | ok answer =>
    obtain ⟨stored, hs, -, hdb⟩ := replayDecision_cases hcall
    have hid : stored.id = traceId := Table.key_of_get? hs
    dsimp only
    rw [hdb, Table.get?_save_other]
    rwa [← hid] at h

theorem next_replay_self {db : Traces J} {k : String} {stored : DecisionTrace J}
    (h : db.get? k = some stored) (newRulesFn : Option (Dict String J → Replayed J)) :
    (next db (.replay k newRulesFn)).get? k =
      some { stored with replayDiff := some (diffOf stored (outcome stored newRulesFn)) } := by
  have hid : stored.id = k := Table.key_of_get? h
  rw [next, replayDecision_of_stored h]
  subst hid
  exact Table.get?_save_self db _

theorem get?_run {db : Traces J} {k : String} {trace : DecisionTrace J}
    (h : db.get? k = some trace) {calls : List (Call J)} (hcalls : ValidTrace Fresh next db calls) :
    (runTrace next db calls).get? k =
      some { trace with replayDiff := lastDiff trace k calls } := by
  refine history_invariant (I := fun calls db => db.get? k =
    some { trace with replayDiff := lastDiff trace k calls }) h (fun es c _ hes hc => ?_) hcalls
  cases c with
  | record id decision inputSnapshot ruleHits modelScores =>
    have hne : k ≠ id := by
      rintro rfl
      rw [Fresh, hes] at hc
      cases hc
    have hsame : replaysOf k (es ++ [.record id decision inputSnapshot ruleHits modelScores]) =
        replaysOf k es := by
      rw [replaysOf, List.filterMap_append]
      exact List.append_nil _
    rw [next, recordTrace, Table.get?_save_other _ hne, hes, lastDiff, lastDiff, hsame]
  | replay traceId newRulesFn =>
    by_cases hk : k = traceId
    · subst hk
      have hlast : replaysOf k (es ++ [.replay k newRulesFn]) = replaysOf k es ++ [newRulesFn] := by
        simp [replaysOf]
      have hdiff : lastDiff trace k (es ++ [.replay k newRulesFn]) =
          some (diffOf trace (outcome trace newRulesFn)) := by
        rw [lastDiff, hlast, List.getLast?_concat]
        rfl
      rw [next_replay_self hes, diffOf_replayed, hdiff]
    · have hsame : replaysOf k (es ++ [.replay traceId newRulesFn]) = replaysOf k es := by
        simp [replaysOf, Ne.symm hk]
      rw [next_replay_other hk, hes, lastDiff, lastDiff, hsame]

/-- Whatever is recorded and replayed before and after it: a trace stands as it was recorded and
keeps the diff of its last replay, and what the next replay reports depends on nothing but the
record and the rules. -/
theorem trace_stands {db : Traces J} {before after : List (Call J)} {k : String}
    {decision : ContactDecision J} {inputSnapshot : Dict String J}
    {ruleHits modelScores : Option (Dict String J)}
    (h : ValidTrace Fresh next db
      (before ++ .record k decision inputSnapshot ruleHits modelScores :: after)) :
    let trace := newTrace k decision inputSnapshot ruleHits modelScores
    let db' := runTrace next db
      (before ++ .record k decision inputSnapshot ruleHits modelScores :: after)
    db'.get? k = some { trace with
      replayDiff := (replaysOf k after).getLast?.map fun newRulesFn =>
        diffOf trace (outcome trace newRulesFn) } ∧
    ∀ newRulesFn, ∃ db'', replayDecision db' k newRulesFn =
      .ok (diffOf trace (outcome trace newRulesFn), db'') := by
  intro trace db'
  obtain ⟨-, -, hafter⟩ := validTrace_append.1 h
  have hget : db'.get? k = some { trace with replayDiff := lastDiff trace k after } := by
    have hdb : db' = runTrace next db
      (before ++ .record k decision inputSnapshot ruleHits modelScores :: after) := rfl
    rw [hdb, runTrace_append]
    exact get?_run (Table.get?_save_self (runTrace next db before) trace) hafter
  refine ⟨?_, fun newRulesFn => ?_⟩
  · have hdiff : lastDiff trace k after = (replaysOf k after).getLast?.map fun newRulesFn =>
        diffOf trace (outcome trace newRulesFn) := Option.or_none
    rw [hget, hdiff]
  · rw [replayDecision_of_stored hget, diffOf_replayed]
    exact ⟨_, rfl⟩

def contacted : ContactDecision ℕ where
  id := "decision-1"
  accountId := "acme"
  status := "contacted"
  reasonCodes := some ⟨[("tier", 1)], by decide⟩

theorem trace_stands_retiered :
    let before : List (Call ℕ) := [.replay "trace-1" none]
    let after : List (Call ℕ) := [.replay "trace-1" (some retiered),
      .record "trace-2" contacted Dict.empty none none, .replay "trace-2" none]
    let trace := newTrace "trace-1" contacted Dict.empty none none
    let db' := runTrace next Table.empty
      (before ++ .record "trace-1" contacted Dict.empty none none :: after)
    db'.get? "trace-1" = some { trace with
      replayDiff := (replaysOf "trace-1" after).getLast?.map fun newRulesFn =>
        diffOf trace (outcome trace newRulesFn) } ∧
    ∀ newRulesFn, ∃ db'', replayDecision db' "trace-1" newRulesFn =
      .ok (diffOf trace (outcome trace newRulesFn), db'') :=
  trace_stands ⟨trivial, by decide, trivial, by decide, trivial, trivial⟩

end TrustCopilot.DecisionReplays
