import TrustCopilot.PausePersistence
import TrustCopilot.Library.KeyedLog

/-! The safety monitor against a clocked reference. The reference never forgets a pause, it
only compares the resume time of the last one with the clock; the monitor deletes what a
lookup finds expired, and its answers are the same. -/
namespace TrustCopilot.SafetyReference

open TrustCopilot.KeyedLog
open TrustCopilot.OrderedDict
open TrustCopilot.PausePersistence
open TrustCopilot.Safety
open TrustCopilot.Trace

/-- The pauses and resumes of a run, with the entry of each pause. -/
abbrev PauseLog := Log PauseTarget PauseEntry

def entered (scope : PauseScope) (key : String) (reason : PauseReason)
    (autoResumeAt : Option ℤ) (pausedBy : String) (times : PauseTimes) :
    PauseTarget × Option PauseEntry :=
  ((scope, key),
    some
      { scope := scope
        key := key
        reason := reason
        pausedAt := times.pausedAt
        autoResumeAt := autoResumeAt
        pausedBy := pausedBy })

def enteredIf (breached : Bool) (scope : PauseScope) (key : String) (reason : PauseReason)
    (times : PauseTimes) : PauseLog :=
  if breached then [entered scope key reason none "system" times] else []

def target (e : PauseEntry) : PauseTarget := (e.scope, e.key)

/-- The last event on the target is a pause by this entry, which the clock has not reached. -/
def PausedBy (log : PauseLog) (k : PauseTarget) (now : ℤ) (e : PauseEntry) : Prop :=
  LastAssigned log k e ∧ ∀ t, e.autoResumeAt = some t → now < t

def isQuery : Operation → Bool
  | .isPaused _ => true
  | .anyPauseActive _ => true
  | _ => false

def withoutQueries (ops : List Operation) : List Operation := ops.filter fun op => !isQuery op

def readings (ops : List Operation) : List ℤ := ops.flatMap Operation.readings

def Forward (ops : List Operation) : Prop := (readings ops).Pairwise (· ≤ ·)

section Reference

variable (quotient : ℤ → ℤ → ℚ)

def writes (t : Thresholds) : Operation → PauseLog
  | .pause scope key reason autoResumeAt pausedBy times =>
    [entered scope key reason autoResumeAt pausedBy times]
  | .resume scope key _ _ => [((scope, key), none)]
  | .isPaused _ => []
  | .anyPauseActive _ => []
  | .checkHealth metrics scope key bounceTimes complaintTimes denyTimes =>
    if metrics.totalSent < t.minSendsForThreshold then []
    else
      enteredIf (bounceBreached quotient t metrics) scope key .bounceSpike bounceTimes ++
      enteredIf (complaintBreached quotient t metrics) scope key .complaintSpike
        complaintTimes ++
      enteredIf (denyBreached quotient t metrics) scope key .policyDenySurge denyTimes

def pauseLog (t : Thresholds) (ops : List Operation) : PauseLog :=
  ops.flatMap (writes quotient t)

structure MatchesReference (t : Thresholds) (ops : List Operation) : Prop where
  paused : ∀ q, Forward (ops ++ [.isPaused q]) →
    ((isPaused (run quotient t ops) q.scope q.key q.first q.second).2.1 = true ↔
      ∃ e, PausedBy (pauseLog quotient t ops) (q.scope, q.key) q.first e) ∧
    ∀ e, PausedBy (pauseLog quotient t ops) (q.scope, q.key) q.first e →
      (isPaused (run quotient t ops) q.scope q.key q.first q.second).2.2 = some e
  anyPaused : ∀ scopes, Forward (ops ++ [.anyPauseActive scopes]) →
    ((anyPauseActive (run quotient t ops) scopes).2.1 = true ↔
      ∃ q ∈ scopes, ∃ e, PausedBy (pauseLog quotient t ops) (q.scope, q.key) q.first e)
  listed : ∀ now, (∀ e, ∀ r ∈ readings ops, r ≤ now e) →
    ((activePauses (run quotient t ops) now).map target).Nodup ∧
    ∀ e, e ∈ activePauses (run quotient t ops) now ↔
      PausedBy (pauseLog quotient t ops) (target e) (now e) e

/-- No later answer tells whether queries were made during the run, but for the order in
which the active pauses are listed. -/
structure QueriesUnseen (t : Thresholds) (ops : List Operation) : Prop where
  paused : ∀ q, Forward (ops ++ [.isPaused q]) →
    (isPaused (run quotient t ops) q.scope q.key q.first q.second).2 =
      (isPaused (run quotient t (withoutQueries ops)) q.scope q.key q.first q.second).2
  anyPaused : ∀ scopes, Forward (ops ++ [.anyPauseActive scopes]) →
    (anyPauseActive (run quotient t ops) scopes).2 =
      (anyPauseActive (run quotient t (withoutQueries ops)) scopes).2
  listed : ∀ now, (∀ e, ∀ r ∈ readings ops, r ≤ now e) →
    (activePauses (run quotient t ops) now).Perm
      (activePauses (run quotient t (withoutQueries ops)) now)

def Breaching (t : Thresholds) (metrics : HealthMetrics) : Prop :=
  t.minSendsForThreshold ≤ metrics.totalSent ∧
    (bounceRate quotient metrics > t.maxBounceRate ∨
      complaintRate quotient metrics > t.maxComplaintRate ∨
      denyRate quotient metrics > t.maxDenyRate)

/-- A health check leaves a breaching target paused for any clock, and otherwise does
nothing. -/
def HealthEnforced (t : Thresholds) (ops : List Operation) : Prop :=
  ∀ metrics scope key b c d,
    (Breaching quotient t metrics → ∀ first second,
      (isPaused (checkHealth quotient (run quotient t ops) metrics scope key b c d).1
        scope key first second).2.1 = true) ∧
    (¬ Breaching quotient t metrics →
      checkHealth quotient (run quotient t ops) metrics scope key b c d =
        (run quotient t ops, []))

end Reference

/-! ### The monitor mirrors the reference, but for entries that have expired -/

/-- Whatever the dictionary lacks has expired by every time that is not before the readings. -/
def Reflects (log : PauseLog) (rs : List ℤ) (m : SafetyMonitor) : Prop :=
  ∀ now, (∀ r ∈ rs, r ≤ now) →
    Mirrors pauseKey (fun e => e.isActive now = false) log m.pauses

variable {quotient : ℤ → ℤ → ℚ} {t : Thresholds} {m : SafetyMonitor} {l : PauseLog}
  {rs : List ℤ}

theorem isActive_iff {e : PauseEntry} {now : ℤ} :
    e.isActive now = true ↔ ∀ t, e.autoResumeAt = some t → now < t := by
  rw [PauseEntry.isActive]
  cases e.autoResumeAt with
  | none => simp
  | some t => simp

theorem inactive_later {e : PauseEntry} {now later : ℤ} (h : now ≤ later)
    (he : e.isActive now = false) : e.isActive later = false := by
  rw [← Bool.not_eq_true, isActive_iff] at he ⊢
  intro hlater
  apply he
  intro t ht
  have := hlater t ht
  omega

theorem reflects_readings (h : Reflects l rs m) (rs' : List ℤ) : Reflects l (rs ++ rs') m :=
  fun now hnow => h now fun r hr => hnow r (List.mem_append_left rs' hr)

theorem reflects_pause (h : Reflects l rs m) (scope : PauseScope) (key : String)
    (reason : PauseReason) (autoResumeAt : Option ℤ) (pausedBy : String) (times : PauseTimes) :
    Reflects (l ++ [entered scope key reason autoResumeAt pausedBy times]) rs
      (pause m scope key reason autoResumeAt pausedBy times).1 :=
  fun now hnow => mirrors_set pauseKey_injective (h now hnow) _ _

theorem reflects_resume (h : Reflects l rs m) (scope : PauseScope) (key resumedBy : String)
    (now : ℤ) : Reflects (l ++ [((scope, key), none)]) rs
      (resume m scope key resumedBy now).1 := by
  intro later hlater
  rw [resume]
  split
  · exact mirrors_erase pauseKey_injective (h later hlater) _
  · next hn =>
    rw [Option.not_isSome_iff_eq_none] at hn
    exact mirrors_absent (h later hlater) hn

theorem reflects_isPaused (h : Reflects l rs m) (scope : PauseScope) (key : String)
    (first second : ℤ) :
    Reflects l (rs ++ [first, second]) (isPaused m scope key first second).1 := by
  intro now hnow
  have hrs := reflects_readings h [first, second] now hnow
  rcases isPaused_evicts m scope key first second with he | ⟨e, hslot, hinactive, he⟩
  · rw [he]
    exact hrs
  · rw [he]
    have hsecond : second ≤ now := hnow second (by simp)
    exact mirrors_evict pauseKey_injective hrs hslot (inactive_later hsecond hinactive)

theorem reflects_anyPauseActive (h : Reflects l rs m) (scopes : List Lookup) :
    Reflects l (rs ++ scopes.flatMap fun q => [q.first, q.second])
      (anyPauseActive m scopes).1 := by
  induction scopes generalizing m rs with
  | nil => exact reflects_readings h _
  | cons q scopes ih =>
    have hq := reflects_isPaused h q.scope q.key q.first q.second
    rw [List.flatMap_cons, ← List.append_assoc, anyPauseActive]
    split
    · next m' entry heq =>
      rw [heq] at hq
      exact reflects_readings hq _
    · next m' entry heq =>
      rw [heq] at hq
      exact ih hq

theorem reflects_pauseIf {st : SafetyMonitor × List PauseEntry} (h : Reflects l rs st.1)
    (breached : Bool) (scope : PauseScope) (key : String) (reason : PauseReason)
    (times : PauseTimes) :
    Reflects (l ++ enteredIf breached scope key reason times) rs
      (pauseIf breached scope key reason times st).1 := by
  cases breached with
  | false => rwa [enteredIf, if_neg Bool.false_ne_true, List.append_nil]
  | true => exact reflects_pause h scope key reason none "system" times

theorem reflects_checkHealth (h : Reflects l rs m) (ht : m.thresholds = t)
    (metrics : HealthMetrics) (scope : PauseScope) (key : String) (b c d : PauseTimes) :
    Reflects (l ++ writes quotient t (.checkHealth metrics scope key b c d)) rs
      (checkHealth quotient m metrics scope key b c d).1 := by
  subst ht
  rw [writes, checkHealth]
  split
  · rwa [List.append_nil]
  · rw [← List.append_assoc, ← List.append_assoc]
    apply reflects_pauseIf
    apply reflects_pauseIf
    exact reflects_pauseIf h _ scope key _ b

theorem reflects_next (h : Reflects l rs m) (ht : m.thresholds = t) (op : Operation) :
    Reflects (l ++ writes quotient t op) (rs ++ op.readings) (next quotient m op) := by
  cases op with
  | pause scope key reason autoResumeAt pausedBy times =>
    exact reflects_readings (reflects_pause h scope key reason autoResumeAt pausedBy times) _
  | resume scope key resumedBy now =>
    exact reflects_readings (reflects_resume h scope key resumedBy now) _
  | isPaused q =>
    rw [writes, List.append_nil]
    exact reflects_isPaused h q.scope q.key q.first q.second
  | anyPauseActive scopes =>
    rw [writes, List.append_nil]
    exact reflects_anyPauseActive h scopes
  | checkHealth metrics scope key b c d =>
    exact reflects_readings (reflects_checkHealth h ht metrics scope key b c d) _

theorem reflects_run (ops : List Operation) :
    Reflects (pauseLog quotient t ops) (readings ops) (run quotient t ops) := by
  induction ops using List.reverseRecOn with
  | nil => exact fun _ _ => mirrors_empty
  | append_singleton ops op ih =>
    rw [pauseLog, List.flatMap_append, List.flatMap_singleton, readings, List.flatMap_append,
      List.flatMap_singleton, run, runTrace_concat]
    exact reflects_next ih (run_thresholds t ops) op

theorem enteredIf_labelled (breached : Bool) (scope : PauseScope) (key : String)
    (reason : PauseReason) (times : PauseTimes) :
    Labelled target (enteredIf breached scope key reason times) := by
  cases breached with
  | false => exact labelled_nil
  | true => exact labelled_assign rfl

theorem writes_labelled (op : Operation) : Labelled target (writes quotient t op) := by
  cases op with
  | pause scope key reason autoResumeAt pausedBy times => exact labelled_assign rfl
  | resume scope key resumedBy now => exact labelled_remove
  | isPaused q => exact labelled_nil
  | anyPauseActive scopes => exact labelled_nil
  | checkHealth metrics scope key b c d =>
    rw [writes]
    split
    · exact labelled_nil
    · apply labelled_append
      · exact labelled_append (enteredIf_labelled _ _ _ _ b) (enteredIf_labelled _ _ _ _ c)
      · exact enteredIf_labelled _ _ _ _ d

theorem pauseLog_labelled (ops : List Operation) :
    Labelled target (pauseLog quotient t ops) := labelled_flatMap writes_labelled ops

/-! ### Answers -/

def current (log : PauseLog) (k : PauseTarget) (now : ℤ) : Option PauseEntry :=
  (standing log k).filter fun e => e.isActive now

theorem current_eq_some_iff {k : PauseTarget} {now : ℤ} {e : PauseEntry} :
    current l k now = some e ↔ PausedBy l k now e := by
  rw [current, Option.filter_eq_some_iff, standing_eq_some_iff, isActive_iff, PausedBy]

theorem current_isSome_iff {k : PauseTarget} {now : ℤ} :
    (current l k now).isSome = true ↔ ∃ e, PausedBy l k now e := by
  rw [Option.isSome_iff_exists]
  simp only [current_eq_some_iff]

/-- At a time that is not before the readings so far, the slot of a target filtered by the
clock is what the reference has. -/
theorem slot_current (h : Reflects l rs m) {now : ℤ} (hnow : ∀ r ∈ rs, r ≤ now)
    (k : PauseTarget) :
    (m.pauses.get? (pauseKey k)).filter (fun e => e.isActive now) = current l k now := by
  rw [current]
  rcases (h now hnow).slot k with hslot | ⟨hnone, e, hstand, hstale⟩
  · rw [hslot]
  · rw [hnone, hstand, Option.filter_none, Option.filter_some, hstale]
    rfl

theorem isPaused_eq (m : SafetyMonitor) (scope : PauseScope) (key : String)
    (first second : ℤ) :
    (isPaused m scope key first second).2 =
      let found := (m.pauses.get? (pauseKey (scope, key))).filter fun e => e.isActive first
      (found.isSome, found) := by
  rw [isPaused]
  cases m.pauses.get? (pauseKey (scope, key)) with
  | none => rfl
  | some entry =>
    rw [Option.filter_some]
    by_cases h : entry.isActive first = true
    · simp [h]
    · simp only [h]
      split
      · next hfalse => cases hfalse
      · split <;> rfl

theorem isPaused_current (h : Reflects l rs m) {scope : PauseScope} {key : String}
    {first : ℤ} (hnow : ∀ r ∈ rs, r ≤ first) (second : ℤ) :
    (isPaused m scope key first second).2 =
      ((current l (scope, key) first).isSome, current l (scope, key) first) := by
  rw [isPaused_eq, slot_current h hnow]

theorem forward_concat {ops : List Operation} {op : Operation} (h : Forward (ops ++ [op])) :
    op.readings.Pairwise (· ≤ ·) ∧ ∀ r ∈ readings ops, ∀ s ∈ op.readings, r ≤ s := by
  rw [Forward, readings, List.flatMap_append, List.flatMap_singleton,
    List.pairwise_append] at h
  exact h.2

/-- The lookups of a list, each at its own time, find the first target that is paused. -/
theorem anyPauseActive_current (h : Reflects l rs m) {scopes : List Lookup}
    (hfwd : (scopes.flatMap fun q => [q.first, q.second]).Pairwise (· ≤ ·))
    (hlater : ∀ r ∈ rs, ∀ s ∈ scopes.flatMap fun q => [q.first, q.second], r ≤ s) :
    (anyPauseActive m scopes).2 =
      let found := scopes.findSome? fun q => current l (q.scope, q.key) q.first
      (found.isSome, found) := by
  induction scopes generalizing m rs with
  | nil => rfl
  | cons q scopes ih =>
    rw [List.flatMap_cons, List.pairwise_append] at hfwd
    have hq := @isPaused_current m l rs h q.scope q.key q.first
      (fun r hr => hlater r hr q.first (by simp)) q.second
    have hnext := reflects_isPaused h q.scope q.key q.first q.second
    rw [anyPauseActive, List.findSome?_cons]
    cases hc : current l (q.scope, q.key) q.first with
    | some e =>
      rw [hc] at hq
      split
      · next m' entry heq => rw [heq] at hq; exact hq
      · next m' entry heq => rw [heq] at hq; cases hq
    | none =>
      rw [hc] at hq
      split
      · next m' entry heq => rw [heq] at hq; cases hq
      · next m' entry heq =>
        rw [heq] at hnext
        apply ih hnext hfwd.2.1
        intro r hr s hs
        rcases List.mem_append.1 hr with hr | hr
        · exact hlater r hr s (List.mem_append_right _ hs)
        · exact hfwd.2.2 r hr s hs

/-- At its own time, which is not before the readings so far, an entry is listed if the
reference has it. -/
theorem mem_activePauses (h : Reflects l rs m) (hl : Labelled target l) {now : PauseEntry → ℤ}
    {e : PauseEntry} (hnow : ∀ r ∈ rs, r ≤ now e) :
    e ∈ activePauses m now ↔ PausedBy l (target e) (now e) e := by
  have hm := h (now e) hnow
  rw [activePauses, List.mem_filter, PausedBy, ← standing_eq_some_iff, ← isActive_iff]
  constructor
  · rintro ⟨hin, hactive⟩
    exact ⟨mem_values_standing hm hl hin, hactive⟩
  · rintro ⟨hstand, hactive⟩
    refine ⟨mem_values_of_standing hm ?_ hstand, hactive⟩
    rw [Bool.not_eq_false]
    exact hactive

theorem activePauses_nodup (h : Reflects l rs m) (hl : Labelled target l)
    (now : PauseEntry → ℤ) : ((activePauses m now).map target).Nodup := by
  obtain ⟨u, -, hu⟩ := exists_later rs 0
  have hvalues := values_labels_nodup (h u hu) hl
  exact hvalues.sublist (List.filter_sublist.map target)

theorem matches_reference (t : Thresholds) (ops : List Operation) :
    MatchesReference quotient t ops := by
  have hrun : Reflects (pauseLog quotient t ops) (readings ops) (run quotient t ops) :=
    reflects_run ops
  refine ⟨fun q hfwd => ?_, fun scopes hfwd => ?_, fun now hnow => ⟨?_, fun e => ?_⟩⟩
  · obtain ⟨-, hlater⟩ := forward_concat hfwd
    have hfirst : ∀ r ∈ readings ops, r ≤ q.first := fun r hr =>
      hlater r hr q.first List.mem_cons_self
    rw [isPaused_current hrun hfirst]
    exact ⟨current_isSome_iff, fun e he => current_eq_some_iff.2 he⟩
  · obtain ⟨hown, hlater⟩ := forward_concat hfwd
    rw [anyPauseActive_current hrun hown hlater, List.findSome?_isSome_iff]
    simp only [current_isSome_iff]
  · exact activePauses_nodup hrun (pauseLog_labelled ops) now
  · exact mem_activePauses hrun (pauseLog_labelled ops) (hnow e)

/-! ### Queries inserted into a run -/

theorem writes_query {op : Operation} (h : isQuery op = true) : writes quotient t op = [] := by
  cases op with
  | isPaused q => rfl
  | anyPauseActive scopes => rfl
  | _ => cases h

theorem pauseLog_withoutQueries (ops : List Operation) :
    pauseLog quotient t (withoutQueries ops) = pauseLog quotient t ops := by
  induction ops with
  | nil => rfl
  | cons op ops ih =>
    have hops : (withoutQueries ops).flatMap (writes quotient t) =
      ops.flatMap (writes quotient t) := ih
    rw [pauseLog, pauseLog, withoutQueries, List.filter_cons, List.flatMap_cons]
    by_cases h : isQuery op = true
    · rw [writes_query h, h]
      exact hops
    · rw [Bool.not_eq_true] at h
      rw [h, ← hops]
      rfl

theorem readings_withoutQueries {ops : List Operation} {r : ℤ}
    (h : r ∈ readings (withoutQueries ops)) : r ∈ readings ops := by
  obtain ⟨op, hop, hr⟩ := List.mem_flatMap.1 h
  exact List.mem_flatMap.2 ⟨op, (List.mem_filter.1 hop).1, hr⟩

theorem reflects_withoutQueries (ops : List Operation) :
    Reflects (pauseLog quotient t ops) (readings ops) (run quotient t (withoutQueries ops)) := by
  intro now hnow
  have hrun : Reflects _ _ (run quotient t (withoutQueries ops)) :=
    reflects_run (withoutQueries ops)
  rw [pauseLog_withoutQueries] at hrun
  exact hrun now fun r hr => hnow r (readings_withoutQueries hr)

theorem queries_unseen (t : Thresholds) (ops : List Operation) :
    QueriesUnseen quotient t ops := by
  have hrun : Reflects (pauseLog quotient t ops) (readings ops) (run quotient t ops) :=
    reflects_run ops
  have hbare : Reflects (pauseLog quotient t ops) (readings ops)
      (run quotient t (withoutQueries ops)) := reflects_withoutQueries ops
  have hlabel : Labelled target (pauseLog quotient t ops) := pauseLog_labelled ops
  refine ⟨fun q hfwd => ?_, fun scopes hfwd => ?_, fun now hnow => ?_⟩
  · obtain ⟨-, hlater⟩ := forward_concat hfwd
    have hfirst : ∀ r ∈ readings ops, r ≤ q.first := fun r hr =>
      hlater r hr q.first List.mem_cons_self
    rw [isPaused_current hrun hfirst, isPaused_current hbare hfirst]
  · obtain ⟨hown, hlater⟩ := forward_concat hfwd
    rw [anyPauseActive_current hrun hown hlater, anyPauseActive_current hbare hown hlater]
  · have hnodup := (activePauses_nodup hrun hlabel now).of_map
    have hnodup' := (activePauses_nodup hbare hlabel now).of_map
    refine (List.perm_ext_iff_of_nodup hnodup hnodup').2 fun e => ?_
    rw [mem_activePauses hrun hlabel (hnow e), mem_activePauses hbare hlabel (hnow e)]

/-! ### Health checks -/

theorem breaches_ne_nil_iff {metrics : HealthMetrics} :
    breaches quotient t metrics ≠ [] ↔ Breaching quotient t metrics := by
  rw [breaches, Breaching]
  by_cases hs : metrics.totalSent < t.minSendsForThreshold
  · rw [if_pos hs]
    exact iff_of_false (fun h => h rfl) fun h => absurd h.1 (not_le.2 hs)
  · rw [if_neg hs]
    simp only [ne_eq, List.append_eq_nil_iff, ite_eq_right_iff, bounceBreached,
      complaintBreached, denyBreached, decide_eq_true_eq, List.cons_ne_nil, imp_false,
      not_lt.1 hs, true_and]
    tauto

theorem checkHealth_idle {metrics : HealthMetrics}
    (h : ¬ Breaching quotient m.thresholds metrics) (scope : PauseScope) (key : String)
    (b c d : PauseTimes) : checkHealth quotient m metrics scope key b c d = (m, []) := by
  rw [checkHealth]
  split
  · rfl
  · next hs =>
    have hrates := not_and.1 h (not_lt.1 hs)
    rw [not_or, not_or] at hrates
    have hbounce : bounceBreached quotient m.thresholds metrics = false :=
      decide_eq_false hrates.1
    have hcomplaint : complaintBreached quotient m.thresholds metrics = false :=
      decide_eq_false hrates.2.1
    have hdeny : denyBreached quotient m.thresholds metrics = false :=
      decide_eq_false hrates.2.2
    rw [hbounce, hcomplaint, hdeny]
    rfl

theorem health_enforced (t : Thresholds) (ops : List Operation) :
    HealthEnforced quotient t ops := by
  intro metrics scope key b c d
  have ht : (run quotient t ops).thresholds = t := run_thresholds t ops
  constructor
  · intro h first second
    apply held_answers
    apply (heldForGood_checkHealth (run quotient t ops) metrics scope key b c d (scope, key)).2
    rw [ht]
    exact Or.inl ⟨rfl, breaches_ne_nil_iff.2 h⟩
  · intro h
    apply checkHealth_idle
    rwa [ht]

/-- The monitor answers as the reference does, whatever queries are made, and its health
checks do what they say. -/
theorem monitor_matches_reference (quotient : ℤ → ℤ → ℚ) (t : Thresholds)
    (ops : List Operation) :
    MatchesReference quotient t ops ∧ QueriesUnseen quotient t ops ∧
      HealthEnforced quotient t ops :=
  ⟨matches_reference t ops, queries_unseen t ops, health_enforced t ops⟩

def lookedUp : List Operation :=
  [.pause .mailbox "mb-1" .bounceSpike (some 10) "system" ⟨0, 0⟩,
    .pause .mailbox "mb-2" .manual none "operator" ⟨1, 1⟩,
    .isPaused ⟨.mailbox, "mb-1", 10, 10⟩,
    .pause .mailbox "mb-1" .manual none "operator" ⟨11, 11⟩]

theorem lookup_reorders :
    Forward lookedUp ∧
    (activePauses (run exactQuotient {} lookedUp) fun _ => 11).map PauseEntry.key =
      ["mb-2", "mb-1"] ∧
    (activePauses (run exactQuotient {} (withoutQueries lookedUp)) fun _ => 11).map
      PauseEntry.key = ["mb-1", "mb-2"] := by
  refine ⟨?_, by decide +kernel, by decide +kernel⟩
  rw [Forward]
  decide

end TrustCopilot.SafetyReference
