import TrustCopilot.Retention

/-! The cadence of the nudges. Each workspace has its last nudge and its count in a state of
its own, and both are tied to the one list of nudges that the agent keeps for all of them. -/
namespace TrustCopilot.NudgeCadence

open TrustCopilot.OrderedDict
open TrustCopilot.Retention
open TrustCopilot.Trace

def run (ops : List Operation) : RetentionAgent := runTrace next RetentionAgent.new ops

def sent (ops : List Operation) : List Send := emitted sends next RetentionAgent.new ops

def sentTo (ops : List Operation) (k : String) : List Send :=
  (sent ops).filter fun s => s.nudge.workspaceId = k

def nudgesOf (a : RetentionAgent) (k : String) : List NudgeEvent :=
  a.nudges.filter fun n => n.workspaceId = k

def onlyOn (k : String) (ops : List Operation) : List Operation :=
  ops.filter fun op => op.workspaceId = k

structure Cadence (ops : List Operation) : Prop where
  logged : (sent ops).map Send.nudge = (run ops).nudges.filter fun n => n.suppressed = false
  spaced : ∀ k, (sentTo ops k).Pairwise fun x y => x.sentAt + cooldown ≤ y.sentAt
  stopped : ∀ xs ys k, xs ++ .deactivate k :: ys <+: ops →
    ∀ s ∈ emitted sends next (run (xs ++ [.deactivate k])) ys, s.nudge.workspaceId ≠ k
  suppressed : ∀ xs op, xs ++ [op] <+: ops → ∀ s ∈ sends (run xs) op,
    ∀ u, (stateOf (run xs) op.workspaceId).suppressedUntil = some u → u ≤ s.sentAt
  counted : ∀ k, k ≠ "" →
    (stateOf (run ops) k).nudgeCount = (sentNudges (run ops) k).length
  isolated : ∀ k, nudgesOf (run ops) k = nudgesOf (run (onlyOn k ops)) k

structure Tracked (st : RetentionState) (xs : List Send) : Prop where
  counted : st.nudgeCount = xs.length
  last : ∀ x ∈ xs, ∃ l, st.lastNudgeAt = some l ∧ x.sentAt ≤ l
  spaced : xs.Pairwise fun x y => x.sentAt + cooldown ≤ y.sentAt

variable {ops xs : List Operation} {op : Operation} {k : String}

theorem forward_earlier (hp : xs <+: ops) (h : Forward ops) : Forward xs := by
  obtain ⟨ys, rfl⟩ := hp
  rw [Forward, List.flatMap_append, List.pairwise_append] at h
  exact h.1

theorem forward_times {nudgeType : NudgeType} {context : NudgeContext} {times : NudgeTimes}
    (h : Forward (ops ++ [.scheduleNudge k nudgeType context times])) :
    times.suppressionChecked ≤ times.nudgedAt ∧ times.cooldownChecked ≤ times.nudgedAt := by
  rw [Forward, List.flatMap_append, List.flatMap_singleton, List.pairwise_append] at h
  have hown := h.2.1
  simp only [Operation.readings, List.pairwise_cons] at hown
  exact ⟨hown.2.1 _ (by simp), hown.2.2.1 _ (by simp)⟩

theorem sentTo_concat (ops : List Operation) (op : Operation) (k : String) :
    sentTo (ops ++ [op]) k =
      sentTo ops k ++ if k = op.workspaceId then sends (run ops) op else [] := by
  rw [sentTo, sent, emitted_concat, List.filter_append]
  congr 1
  split
  · next h =>
    apply List.filter_eq_self.2
    intro s hs
    rw [decide_eq_true_eq, h]
    exact sends_workspaceId hs
  · next h =>
    apply List.filter_eq_nil_iff.2
    intro s hs
    rw [decide_eq_true_eq, sends_workspaceId hs]
    exact fun he => h he.symm

theorem tracked_other {st st' : RetentionState} {xs : List Send} (h : Tracked st xs)
    (hcount : st'.nudgeCount = st.nudgeCount) (hlast : st'.lastNudgeAt = st.lastNudgeAt) :
    Tracked st' xs :=
  ⟨hcount.trans h.counted, by rw [hlast]; exact h.last, h.spaced⟩

/-- A nudge is sent when the cooldown since the last one is over, and becomes the last one. -/
theorem tracked_send {st : RetentionState} {xs : List Send} (h : Tracked st xs) {s : Send}
    (hs : ∀ l, st.lastNudgeAt = some l → l + cooldown ≤ s.sentAt) :
    Tracked { st with lastNudgeAt := some s.sentAt, nudgeCount := st.nudgeCount + 1 }
      (xs ++ [s]) := by
  have hgap : ∀ x ∈ xs, x.sentAt + cooldown ≤ s.sentAt := by
    intro x hx
    obtain ⟨l, hl, hle⟩ := h.last x hx
    have := hs l hl
    omega
  refine ⟨?_, fun x hx => ⟨s.sentAt, rfl, ?_⟩, ?_⟩
  · rw [List.length_append, List.length_singleton, ← h.counted]
  · rcases List.mem_append.1 hx with hx | hx
    · have := hgap x hx
      rw [cooldown, days] at this
      omega
    · obtain rfl := List.mem_singleton.1 hx
      exact Int.le_refl x.sentAt
  · refine List.pairwise_append.2 ⟨h.spaced, List.pairwise_singleton _ s, ?_⟩
    intro x hx y hy
    rw [List.mem_singleton.1 hy]
    exact hgap x hx

theorem tracked_step {a : RetentionAgent} {sentSoFar : List Send} (hf : Forward [op])
    (h : Tracked (stateOf a k) sentSoFar) : Tracked (stateOf (next a op) k)
      (sentSoFar ++ if k = op.workspaceId then sends a op else []) := by
  rw [stateOf_next]
  by_cases hk : k = op.workspaceId
  · rw [if_pos hk, if_pos hk]
    cases op with
    | scheduleNudge j nudgeType context times =>
      have hk : k = j := hk
      subst hk
      rw [effect, nudgeFor, sends]
      by_cases hc : canNudge (stateOf a k) times.suppressionChecked times.cooldownChecked = true
      · rw [if_pos hc, if_pos hc]
        refine tracked_send h (s := ⟨_, times.nudgedAt⟩) fun l hl => ?_
        have hcool := (canNudge_iff.1 hc).2.2 l hl
        exact Int.le_trans hcool (@forward_times [] k nudgeType context times hf).2
      · rw [if_neg hc, if_neg hc, List.append_nil]
        exact h
    | suppress j n now =>
      rw [effect, sends, List.append_nil]
      cases suppressionEnd now n with
      | none => exact h
      | some u => exact tracked_other h rfl rfl
    | deactivate j =>
      rw [effect, sends, List.append_nil]
      exact tracked_other h rfl rfl
  · rw [if_neg hk, if_neg hk, List.append_nil]
    exact h

theorem forward_last (h : Forward (ops ++ [op])) : Forward [op] := by
  rw [Forward, List.flatMap_append, List.pairwise_append] at h
  exact h.2.1

theorem tracked_run (hf : Forward ops) (k : String) :
    Tracked (stateOf (run ops) k) (sentTo ops k) := by
  induction ops using List.reverseRecOn with
  | nil => exact ⟨rfl, nofun, List.Pairwise.nil⟩
  | append_singleton ops op ih =>
    have hops := ih (forward_earlier (List.prefix_append ops [op]) hf)
    rw [run, runTrace_concat, sentTo_concat]
    exact tracked_step (forward_last hf) hops

theorem sent_logged (ops : List Operation) :
    (sent ops).map Send.nudge = (run ops).nudges.filter fun n => n.suppressed = false := by
  induction ops using List.reverseRecOn with
  | nil => rfl
  | append_singleton ops op ih =>
    rw [sent, emitted_concat, List.map_append, run, runTrace_concat, nudges_next,
      List.filter_append]
    exact congrArg₂ (· ++ ·) ih (sends_nudges (run ops) op)

theorem sentTo_length (ops : List Operation) {k : String} (hk : k ≠ "") :
    (sentTo ops k).length = (sentNudges (run ops) k).length := by
  have hsplit : sentNudges (run ops) k =
      ((sent ops).map Send.nudge).filter fun n => n.workspaceId = k := by
    rw [sent_logged, List.filter_filter, sentNudges, if_pos hk]
    simp only [Bool.decide_and]
  rw [hsplit, sentTo, List.filter_map, List.length_map]
  rfl

/-! ### Stops and suppressions -/

theorem inactive_next {a : RetentionAgent} (h : (stateOf a k).active = false)
    (op : Operation) :
    (stateOf (next a op) k).active = false ∧
      ∀ s ∈ sends a op, s.nudge.workspaceId ≠ k := by
  constructor
  · rw [stateOf_next]
    split
    · cases op with
      | scheduleNudge j nudgeType context times =>
        rw [effect, nudgeFor]
        split <;> exact h
      | suppress j n now =>
        rw [effect]
        cases suppressionEnd now n <;> exact h
      | deactivate j => rfl
    · exact h
  · rintro s hs rfl
    obtain ⟨nudgeType, context, times, -, hc, -⟩ := mem_sends hs
    rw [sends_workspaceId hs] at h
    have hactive := (canNudge_iff.1 hc).1
    rw [h] at hactive
    cases hactive

/-- An inactive workspace stays inactive, and is sent nothing. -/
theorem inactive_run {a : RetentionAgent} (h : (stateOf a k).active = false)
    (ys : List Operation) :
    (stateOf (runTrace next a ys) k).active = false ∧
      ∀ s ∈ emitted sends next a ys, s.nudge.workspaceId ≠ k := by
  have hstep : ∀ a op, (stateOf a k).active = false → True →
      (stateOf (next a op) k).active = false ∧ ∀ s ∈ sends a op, s.nudge.workspaceId ≠ k :=
    fun _ op ha _ => inactive_next ha op
  exact emitted_invariant (I := fun a => (stateOf a k).active = false) h hstep
    (validTrace_of_forall (fun _ _ => trivial) a ys)

theorem suppression_over (hf : Forward (ops ++ [op])) {s : Send}
    (hs : s ∈ sends (run ops) op) {u : ℤ}
    (hu : (stateOf (run ops) op.workspaceId).suppressedUntil = some u) : u ≤ s.sentAt := by
  obtain ⟨nudgeType, context, times, hop, hc, hat⟩ := mem_sends hs
  have hover := (canNudge_iff.1 hc).2.1 u hu
  rw [hop] at hf
  have htimes := (forward_times hf).1
  omega

/-! ### Other workspaces -/

/-- The operations on a workspace decide its state and its nudges alone. -/
theorem isolated_run (ops : List Operation) (k : String) :
    stateOf (run ops) k = stateOf (run (onlyOn k ops)) k ∧
      nudgesOf (run ops) k = nudgesOf (run (onlyOn k ops)) k := by
  induction ops using List.reverseRecOn with
  | nil => exact ⟨rfl, rfl⟩
  | append_singleton ops op ih =>
    obtain ⟨hstate, hnudges⟩ := ih
    rw [onlyOn, List.filter_append]
    by_cases hk : k = op.workspaceId
    · have hkeep : [op].filter (fun op => op.workspaceId = k) = [op] := by simp [hk]
      rw [hkeep, run, run, runTrace_concat, runTrace_concat]
      constructor
      · rw [stateOf_next, stateOf_next, if_pos hk, if_pos hk]
        exact congrArg (effect op) hstate
      · rw [nudgesOf, nudgesOf, nudges_next, nudges_next, List.filter_append,
          List.filter_append, ← hk]
        exact congrArg₂ (· ++ ·) hnudges (by rw [← run, hstate]; rfl)
    · have hdrop : [op].filter (fun op => op.workspaceId = k) = [] := by simp [Ne.symm hk]
      rw [hdrop, List.append_nil, run, runTrace_concat]
      constructor
      · rw [stateOf_next, if_neg hk]
        exact hstate
      · rw [nudgesOf, nudges_next, List.filter_append]
        have hnone : (posted op (stateOf (run ops) op.workspaceId)).filter
            (fun n => n.workspaceId = k) = [] := by
          apply List.filter_eq_nil_iff.2
          intro n hn
          rw [decide_eq_true_eq, posted_workspaceId hn, stateOf_workspaceId]
          exact fun he => hk he.symm
        exact (congrArg₂ (· ++ ·) hnudges hnone).trans (List.append_nil _)

/-- Under a clock that does not go back the nudges keep their cadence, and every workspace
with a name counts its own. -/
theorem cadence_kept (hf : Forward ops) : Cadence ops where
  logged := sent_logged ops
  spaced k := (tracked_run hf k).spaced
  stopped xs ys k _ s hs := by
    have hself : k = (Operation.deactivate k).workspaceId := rfl
    have hinactive : (stateOf (run (xs ++ [.deactivate k])) k).active = false := by
      rw [run, runTrace_concat, stateOf_next, if_pos hself]
      rfl
    exact (inactive_run hinactive ys).2 s hs
  suppressed xs op hp s hs u hu := suppression_over (forward_earlier hp hf) hs hu
  counted k hk := by
    rw [(tracked_run hf k).counted]
    exact sentTo_length ops hk
  isolated k := (isolated_run ops k).2

def instant (now : ℤ) : NudgeTimes := ⟨now, now, now, now⟩

def unnamed : List Operation :=
  [.scheduleNudge "" .missingEvidence {} (instant 0),
    .scheduleNudge "ws-1" .missingEvidence {} (instant 0)]

theorem unnamed_cadence : Cadence unnamed := cadence_kept (by decide)

/-- The nudges sent to the workspace without a name are listed with those of all others. -/
theorem unnamed_miscounted :
    Forward unnamed ∧ (stateOf (run unnamed) "").nudgeCount = 1 ∧
      (sentNudges (run unnamed) "").length = 2 :=
  ⟨by decide, by decide, by decide⟩

end TrustCopilot.NudgeCadence
