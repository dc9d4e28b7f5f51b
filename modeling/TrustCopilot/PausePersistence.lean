import TrustCopilot.Safety

/-! How long a pause stays in force. A pause without a resume time is meant to hold until
somebody resumes it; every operation writes the same slot of the monitor's dictionary. -/
namespace TrustCopilot.PausePersistence

open TrustCopilot.OrderedDict
open TrustCopilot.KeyHistory
open TrustCopilot.Trace
open TrustCopilot.Safety

def heldForGood (m : SafetyMonitor) (k : PauseTarget) : Bool :=
  (m.pauses.get? (pauseKey k)).any fun e => e.autoResumeAt.isNone

variable (quotient : ℤ → ℤ → ℚ)

def breaches (t : Thresholds) (metrics : HealthMetrics) : List PauseReason :=
  if metrics.totalSent < t.minSendsForThreshold then []
  else
    (if bounceBreached quotient t metrics then [.bounceSpike] else []) ++
    (if complaintBreached quotient t metrics then [.complaintSpike] else []) ++
    (if denyBreached quotient t metrics then [.policyDenySurge] else [])

/-- The pauses without a resume time that an operation enters, and the targets it resumes. -/
def changes (t : Thresholds) : Operation → List (Change PauseTarget)
  | .pause scope key _ none _ _ => [.put (scope, key)]
  | .pause _ _ _ (some _) _ _ => []
  | .resume scope key _ _ => [.drop (scope, key)]
  | .isPaused _ => []
  | .anyPauseActive _ => []
  | .checkHealth metrics scope key _ _ _ =>
    (breaches quotient t metrics).map fun _ => .put (scope, key)

def run (t : Thresholds) (ops : List Operation) : SafetyMonitor :=
  runTrace (next quotient) (SafetyMonitor.new t) ops

/-- A pause without a resume time was entered for the target and not resumed since. -/
def IndefinitelyPaused (t : Thresholds) (ops : List Operation) (k : PauseTarget) : Prop :=
  InForce (ops.flatMap (changes quotient t)) k

/-- Every lookup after the run, with no clock reading before those of the run, finds the
indefinite pauses in force. -/
def PausesPersist (t : Thresholds) (ops : List Operation) : Prop :=
  ∀ scope key, IndefinitelyPaused quotient t ops (scope, key) →
    ∀ first second, (∀ r ∈ ops.flatMap Operation.readings, r ≤ first) → first ≤ second →
      (isPaused (run quotient t ops) scope key first second).2.1 = true

/-- No resume time is put on a target whose present entry has none. -/
def KeepsIndefinite (m : SafetyMonitor) : Operation → Prop
  | .pause scope key _ (some _) _ _ => heldForGood m (scope, key) = false
  | _ => True

instance (m : SafetyMonitor) (op : Operation) : Decidable (KeepsIndefinite m op) := by
  unfold KeepsIndefinite
  split <;> infer_instance

variable {quotient}

theorem heldForGood_iff {m : SafetyMonitor} {k : PauseTarget} :
    heldForGood m k = true ↔
      ∃ e, m.pauses.get? (pauseKey k) = some e ∧ e.autoResumeAt = none := by
  simp [heldForGood, Option.any_eq_true]

theorem heldForGood_pause (m : SafetyMonitor) (scope : PauseScope) (key : String)
    (reason : PauseReason) (autoResumeAt : Option ℤ) (pausedBy : String) (times : PauseTimes)
    (k : PauseTarget) :
    heldForGood (pause m scope key reason autoResumeAt pausedBy times).1 k =
      if k = (scope, key) then autoResumeAt.isNone else heldForGood m k := by
  simp only [heldForGood, pause, Dict.get?_set, pauseKey_injective.eq_iff]
  split
  · rfl
  · rfl

theorem heldForGood_resume (m : SafetyMonitor) (scope : PauseScope) (key resumedBy : String)
    (now : ℤ) (k : PauseTarget) :
    heldForGood (resume m scope key resumedBy now).1 k =
      if k = (scope, key) then false else heldForGood m k := by
  simp only [resume]
  split
  · simp only [heldForGood, Dict.get?_erase, pauseKey_injective.eq_iff]
    split
    · rfl
    · rfl
  · next hnone =>
    split
    · next hk =>
      rw [hk, heldForGood, Option.not_isSome_iff_eq_none.1 hnone]
      rfl
    · rfl

theorem isPaused_answer (m : SafetyMonitor) (scope : PauseScope) (key : String)
    (first second : ℤ) :
    (isPaused m scope key first second).2.1 =
      (m.pauses.get? (pauseKey (scope, key))).any fun e => e.isActive first := by
  rw [isPaused]
  cases m.pauses.get? (pauseKey (scope, key)) with
  | none => rfl
  | some entry =>
    cases h : entry.isActive first with
    | true => simp [h]
    | false =>
      simp only [Option.any_some, h, Bool.false_eq_true, if_false]
      split <;> rfl

/-- A lookup leaves the monitor alone, or removes an entry that its second reading found
inactive. -/
theorem isPaused_evicts (m : SafetyMonitor) (scope : PauseScope) (key : String)
    (first second : ℤ) :
    (isPaused m scope key first second).1 = m ∨
    ∃ e, m.pauses.get? (pauseKey (scope, key)) = some e ∧ e.isActive second = false ∧
      (isPaused m scope key first second).1 =
        { m with pauses := m.pauses.erase (pauseKey (scope, key)) } := by
  rw [isPaused]
  cases hslot : m.pauses.get? (pauseKey (scope, key)) with
  | none => exact Or.inl rfl
  | some entry =>
    by_cases h1 : entry.isActive first
    · exact Or.inl (by simp [h1])
    · by_cases h2 : entry.isActive second
      · exact Or.inl (by simp [h1, h2])
      · exact Or.inr ⟨entry, rfl, by simpa using h2, by simp [h1, h2]⟩

/-- A lookup only ever removes an entry whose resume time has come. -/
theorem isPaused_cases (m : SafetyMonitor) (scope : PauseScope) (key : String)
    (first second : ℤ) :
    (isPaused m scope key first second).1 = m ∨
    ∃ e t, m.pauses.get? (pauseKey (scope, key)) = some e ∧ e.autoResumeAt = some t ∧
      (isPaused m scope key first second).1 =
        { m with pauses := m.pauses.erase (pauseKey (scope, key)) } := by
  rcases isPaused_evicts m scope key first second with h | ⟨e, hslot, hinactive, h⟩
  · exact Or.inl h
  · cases hresume : e.autoResumeAt with
    | none => simp [PauseEntry.isActive, hresume] at hinactive
    | some t => exact Or.inr ⟨e, t, hslot, hresume, h⟩

theorem heldForGood_isPaused (m : SafetyMonitor) (scope : PauseScope) (key : String)
    (first second : ℤ) (k : PauseTarget) :
    heldForGood (isPaused m scope key first second).1 k = heldForGood m k := by
  rcases isPaused_cases m scope key first second with h | ⟨e, t, hslot, hresume, h⟩
  · rw [h]
  · rw [h]
    simp only [heldForGood, Dict.get?_erase, pauseKey_injective.eq_iff]
    by_cases hk : k = (scope, key)
    · simp [hk, hslot, hresume]
    · simp [hk]

theorem heldForGood_anyPauseActive (m : SafetyMonitor) (scopes : List Lookup) (k : PauseTarget) :
    heldForGood (anyPauseActive m scopes).1 k = heldForGood m k := by
  induction scopes generalizing m with
  | nil => rfl
  | cons q scopes ih =>
    have hq := heldForGood_isPaused m q.scope q.key q.first q.second k
    rw [anyPauseActive]
    split
    · next m' entry heq => rw [heq] at hq; exact hq
    · next m' entry heq => rw [heq] at hq; rw [ih, hq]

theorem heldForGood_pauseIf (breached : Bool) (scope : PauseScope) (key : String)
    (reason : PauseReason) (times : PauseTimes) (st : SafetyMonitor × List PauseEntry)
    (k : PauseTarget) :
    heldForGood (pauseIf breached scope key reason times st).1 k = true ↔
      (k = (scope, key) ∧ breached = true) ∨ heldForGood st.1 k = true := by
  cases breached with
  | false => simp [pauseIf]
  | true =>
    simp only [pauseIf, if_true, heldForGood_pause]
    split
    · next hk => simp [hk]
    · next hk => simp [hk]

theorem heldForGood_checkHealth (m : SafetyMonitor) (metrics : HealthMetrics)
    (scope : PauseScope) (key : String) (b c d : PauseTimes) (k : PauseTarget) :
    heldForGood (checkHealth quotient m metrics scope key b c d).1 k = true ↔
      (k = (scope, key) ∧ breaches quotient m.thresholds metrics ≠ []) ∨
        heldForGood m k = true := by
  simp only [checkHealth, breaches]
  split
  · simp
  · simp only [heldForGood_pauseIf]
    cases bounceBreached quotient m.thresholds metrics <;>
      cases complaintBreached quotient m.thresholds metrics <;>
      cases denyBreached quotient m.thresholds metrics <;> simp

@[simp] theorem isPaused_thresholds (m : SafetyMonitor) (scope : PauseScope) (key : String)
    (first second : ℤ) :
    (isPaused m scope key first second).1.thresholds = m.thresholds := by
  rcases isPaused_cases m scope key first second with h | ⟨e, t, -, -, h⟩ <;> rw [h]

theorem anyPauseActive_thresholds (m : SafetyMonitor) (scopes : List Lookup) :
    (anyPauseActive m scopes).1.thresholds = m.thresholds := by
  induction scopes generalizing m with
  | nil => rfl
  | cons q scopes ih =>
    have hq := isPaused_thresholds m q.scope q.key q.first q.second
    rw [anyPauseActive]
    split
    · next m' entry heq => rw [heq] at hq; exact hq
    · next m' entry heq => rw [heq] at hq; rw [ih, hq]

theorem pauseIf_thresholds (breached : Bool) (scope : PauseScope) (key : String)
    (reason : PauseReason) (times : PauseTimes) (st : SafetyMonitor × List PauseEntry) :
    (pauseIf breached scope key reason times st).1.thresholds = st.1.thresholds := by
  cases breached <;> rfl

theorem next_thresholds (m : SafetyMonitor) (op : Operation) :
    (next quotient m op).thresholds = m.thresholds := by
  cases op with
  | pause scope key reason autoResumeAt pausedBy times => rfl
  | resume scope key resumedBy now =>
    simp only [next, resume]
    split <;> rfl
  | isPaused q => exact isPaused_thresholds m q.scope q.key q.first q.second
  | anyPauseActive scopes => exact anyPauseActive_thresholds m scopes
  | checkHealth metrics scope key b c d =>
    simp only [next, checkHealth]
    split
    · rfl
    · simp only [pauseIf_thresholds]

theorem run_thresholds (t : Thresholds) (ops : List Operation) :
    (run quotient t ops).thresholds = t := by
  induction ops using List.reverseRecOn with
  | nil => rfl
  | append_singleton ops op ih =>
    rw [run, runTrace_concat, next_thresholds]
    exact ih

/-- Whatever a step leaves without a resume time was paused for good and not resumed. -/
theorem held_next {m : SafetyMonitor} {op : Operation} {history : List (Change PauseTarget)}
    {k : PauseTarget} (hm : heldForGood m k = true → InForce history k)
    (h : heldForGood (next quotient m op) k = true) :
    InForce (history ++ changes quotient m.thresholds op) k := by
  cases op with
  | pause scope key reason autoResumeAt pausedBy times =>
    rw [next, heldForGood_pause] at h
    cases autoResumeAt with
    | none =>
      rw [changes, inForce_put]
      split at h
      · next hk => exact Or.inl hk
      · exact Or.inr (hm h)
    | some t =>
      rw [changes, List.append_nil]
      split at h
      · cases h
      · exact hm h
  | resume scope key resumedBy now =>
    rw [next, heldForGood_resume] at h
    rw [changes, inForce_drop]
    split at h
    · cases h
    · next hk => exact ⟨hk, hm h⟩
  | isPaused q =>
    rw [next, heldForGood_isPaused] at h
    rw [changes, List.append_nil]
    exact hm h
  | anyPauseActive scopes =>
    rw [next, heldForGood_anyPauseActive] at h
    rw [changes, List.append_nil]
    exact hm h
  | checkHealth metrics scope key b c d =>
    rw [next, heldForGood_checkHealth] at h
    rw [changes, inForce_puts]
    exact h.imp_right hm

/-- A step that puts no resume time on an indefinite pause keeps all of them. -/
theorem kept_next {m : SafetyMonitor} {op : Operation} {history : List (Change PauseTarget)}
    {k : PauseTarget} (hop : KeepsIndefinite m op)
    (hm : InForce history k → heldForGood m k = true)
    (h : InForce (history ++ changes quotient m.thresholds op) k) :
    heldForGood (next quotient m op) k = true := by
  cases op with
  | pause scope key reason autoResumeAt pausedBy times =>
    rw [next, heldForGood_pause]
    cases autoResumeAt with
    | none =>
      rw [changes, inForce_put] at h
      split
      · rfl
      · next hk => exact hm (h.resolve_left hk)
    | some t =>
      rw [changes, List.append_nil] at h
      split
      · next hk =>
        rw [KeepsIndefinite, ← hk, hm h] at hop
        cases hop
      · exact hm h
  | resume scope key resumedBy now =>
    rw [changes, inForce_drop] at h
    rw [next, heldForGood_resume, if_neg h.1]
    exact hm h.2
  | isPaused q =>
    rw [changes, List.append_nil] at h
    rw [next, heldForGood_isPaused]
    exact hm h
  | anyPauseActive scopes =>
    rw [changes, List.append_nil] at h
    rw [next, heldForGood_anyPauseActive]
    exact hm h
  | checkHealth metrics scope key b c d =>
    rw [changes, inForce_puts] at h
    rw [next, heldForGood_checkHealth]
    exact h.imp_right hm

theorem indefinite_concat {t : Thresholds} {ops : List Operation} {op : Operation}
    {k : PauseTarget} :
    IndefinitelyPaused quotient t (ops ++ [op]) k ↔
      InForce (ops.flatMap (changes quotient t) ++
        changes quotient (run quotient t ops).thresholds op) k := by
  rw [IndefinitelyPaused, List.flatMap_append, List.flatMap_singleton, run_thresholds]

theorem held_run {t : Thresholds} {ops : List Operation} {k : PauseTarget}
    (h : heldForGood (run quotient t ops) k = true) : IndefinitelyPaused quotient t ops k := by
  induction ops using List.reverseRecOn with
  | nil => simp [run, heldForGood, SafetyMonitor.new] at h
  | append_singleton ops op ih =>
    rw [run, runTrace_concat] at h
    exact indefinite_concat.2 (held_next ih h)

theorem kept_run {t : Thresholds} {ops : List Operation} {k : PauseTarget}
    (h : ValidTrace KeepsIndefinite (next quotient) (SafetyMonitor.new t) ops)
    (hk : IndefinitelyPaused quotient t ops k) : heldForGood (run quotient t ops) k = true := by
  induction ops using List.reverseRecOn with
  | nil => simp [IndefinitelyPaused] at hk
  | append_singleton ops op ih =>
    obtain ⟨hops, hop⟩ := validTrace_concat.1 h
    rw [run, runTrace_concat]
    exact kept_next hop (ih hops) (indefinite_concat.1 hk)

/-- An entry without a resume time is found at every reading of the clock. -/
theorem held_answers {m : SafetyMonitor} {scope : PauseScope} {key : String}
    (h : heldForGood m (scope, key) = true) (first second : ℤ) :
    (isPaused m scope key first second).2.1 = true := by
  obtain ⟨e, hslot, hresume⟩ := heldForGood_iff.1 h
  rw [isPaused_answer, hslot, Option.any_some, PauseEntry.isActive, hresume]

theorem exists_later (readings : List ℤ) (t : ℤ) : ∃ u, t ≤ u ∧ ∀ r ∈ readings, r ≤ u := by
  induction readings with
  | nil => exact ⟨t, le_rfl, nofun⟩
  | cons r readings ih =>
    obtain ⟨u, htu, hu⟩ := ih
    refine ⟨max r u, by omega, fun x hx => ?_⟩
    rcases List.mem_cons.1 hx with rfl | hx
    · omega
    · have := hu x hx
      omega

/-- Once the resume time of the entry in the slot has come, the pause is over. -/
theorem timed_answers (m : SafetyMonitor) (scope : PauseScope) (key : String)
    (reason : PauseReason) (pausedBy : String) (times : PauseTimes) {t first : ℤ} (h : t ≤ first)
    (second : ℤ) :
    (isPaused (pause m scope key reason (some t) pausedBy times).1 scope key first second).2.1 =
      false := by
  rw [isPaused_answer, pause, Dict.get?_set_self, Option.any_some, PauseEntry.isActive]
  simp only [ge_iff_le, h, decide_true, Bool.not_true]

/-- Pauses without a resume time stay in force until they are resumed exactly as long as no
pause with a resume time is entered over one. -/
theorem pauses_persist_iff_never_timed (t : Thresholds) (ops : List Operation) :
    (∀ xs, xs <+: ops → PausesPersist quotient t xs) ↔
      ValidTrace KeepsIndefinite (next quotient) (SafetyMonitor.new t) ops := by
  constructor
  · intro h
    apply validTrace_of_after
    intro xs op hp _
    cases op with
    | pause scope key reason autoResumeAt pausedBy times =>
      cases autoResumeAt with
      | none => trivial
      | some resumeAt =>
        rw [KeepsIndefinite, ← run, Bool.eq_false_iff]
        intro hheld
        -- the pause for good is still not resumed, but its slot has a resume time now
        have hstill : IndefinitelyPaused quotient t
            (xs ++ [.pause scope key reason (some resumeAt) pausedBy times]) (scope, key) := by
          rw [indefinite_concat, changes, List.append_nil]
          exact held_run hheld
        obtain ⟨later, hresume, hlater⟩ := exists_later ((xs ++
          [Operation.pause scope key reason (some resumeAt) pausedBy times]).flatMap
            Operation.readings) resumeAt
        have hpaused := h _ hp scope key hstill later later hlater le_rfl
        rw [run, runTrace_concat, next, timed_answers _ _ _ _ _ _ hresume] at hpaused
        cases hpaused
    | _ => trivial
  · intro h xs hp scope key hk first second _ _
    exact held_answers (kept_run (validTrace_earlier hp h) hk) first second

def manualPause : Operation := .pause .system "global" .manual none "operator" ⟨0, 0⟩

/-- An hour's pause is entered over the operator's kill switch. -/
def timedOverManual : List Operation :=
  [manualPause, .pause .system "global" .bounceSpike (some 60) "system" ⟨0, 0⟩]

/-- Exact division, where floats and rationals compare alike. -/
def exactQuotient (a b : ℤ) : ℚ := a / b

/-- When the later pause runs out, the kill switch is gone. -/
theorem timed_pause_lifts_kill_switch :
    IndefinitelyPaused exactQuotient {} timedOverManual (.system, "global") ∧
    (isPaused (run exactQuotient {} timedOverManual) .system "global" 59 59).2.1 = true ∧
    (isPaused (run exactQuotient {} timedOverManual) .system "global" 60 60).2.1 = false ∧
    ¬ PausesPersist exactQuotient {} timedOverManual := by
  have hlapsed :
      (isPaused (run exactQuotient {} timedOverManual) .system "global" 60 60).2.1 = false := by
    decide
  have hpaused : IndefinitelyPaused exactQuotient {} timedOverManual (.system, "global") :=
    ⟨[], [], rfl, List.not_mem_nil⟩
  refine ⟨hpaused, by decide, hlapsed, fun h => ?_⟩
  have hheld := h .system "global" hpaused 60 60 (by decide) le_rfl
  rw [hlapsed] at hheld
  cases hheld

end TrustCopilot.PausePersistence
