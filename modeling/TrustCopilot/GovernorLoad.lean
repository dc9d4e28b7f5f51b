import TrustCopilot.ThroughputControls
import Mathlib.Algebra.Order.Ring.Rat
import Mathlib.Tactic.FieldSimp
import Mathlib.Tactic.Ring

/-! The rest of the throughput governor: how many workers may be on one domain, the queues it
watches, how often an account is processed again, and the mean time of processing. Latencies are
exact rationals. -/
namespace TrustCopilot.GovernorLoad

open TrustCopilot.OrderedDict
open TrustCopilot.Trace

structure DomainConcurrency where
  domain : String
  maxConcurrent : ℕ := 3
  active : ℕ := 0
  deriving DecidableEq, Repr

def DomainConcurrency.canStart (dc : DomainConcurrency) : Bool := dc.active < dc.maxConcurrent

structure QueueHealth where
  queueName : String
  depth : ℤ := 0
  maxDepth : ℤ := 100000
  alarmThreshold : ℤ := 80000
  processingRate : ℚ := 0
  deriving DecidableEq, Repr

def QueueHealth.alarming (q : QueueHealth) : Bool := q.alarmThreshold ≤ q.depth

def QueueHealth.blocked (q : QueueHealth) : Bool := q.maxDepth ≤ q.depth

structure ThroughputMetrics where
  totalProcessed : ℕ := 0
  totalBackpressured : ℕ := 0
  avgLatencyMs : ℚ := 0
  deriving DecidableEq, Repr

/-- `budgets` holds the budgets of the sources and the count of the skipped. -/
structure Governor where
  budgets : ThroughputControls.ThroughputGovernor
  domainConcurrency : Dict String DomainConcurrency
  queues : Dict String QueueHealth
  reprocessCounts : Dict String ℕ
  metrics : ThroughputMetrics

def maxReprocess : ℕ := 3

def Governor.new : Governor where
  budgets := .new
  domainConcurrency := Dict.empty
  queues := Dict.empty
  reprocessCounts := Dict.empty
  metrics := {}

def concurrencyOf (gov : Governor) (domain : String) : DomainConcurrency :=
  (gov.domainConcurrency.get? domain).getD { domain := domain }

def acquireDomain (gov : Governor) (domain : String) : Bool × Governor :=
  let dc := concurrencyOf gov domain
  if dc.canStart then
    (true,
      { gov with
        domainConcurrency := gov.domainConcurrency.set domain { dc with active := dc.active + 1 } })
  else
    (false,
      { gov with
        domainConcurrency := gov.domainConcurrency.set domain dc
        metrics := { gov.metrics with
          totalBackpressured := gov.metrics.totalBackpressured + 1 } })

def releaseDomain (gov : Governor) (domain : String) : Governor :=
  match gov.domainConcurrency.get? domain with
  | some dc =>
    if 0 < dc.active then
      { gov with
        domainConcurrency := gov.domainConcurrency.set domain { dc with active := dc.active - 1 } }
    else gov
  | none => gov

def updateQueue (gov : Governor) (queueName : String) (depth : ℤ) (rate : ℚ) : Governor :=
  let q := (gov.queues.get? queueName).getD { queueName := queueName }
  { gov with queues := gov.queues.set queueName { q with depth := depth, processingRate := rate } }

def canEnqueue (gov : Governor) (queueName : String) : Bool :=
  match gov.queues.get? queueName with
  | none => true
  | some q => !q.blocked

def canReprocess (gov : Governor) (accountId : String) : Bool :=
  (gov.reprocessCounts.get? accountId).getD 0 < maxReprocess

def recordReprocess (gov : Governor) (accountId : String) : Governor :=
  { gov with
    reprocessCounts := gov.reprocessCounts.set accountId
      ((gov.reprocessCounts.get? accountId).getD 0 + 1) }

def recordProcessed (gov : Governor) (latencyMs : ℚ) : Governor :=
  let n := gov.metrics.totalProcessed + 1
  { gov with
    metrics := { gov.metrics with
      totalProcessed := n
      avgLatencyMs := (gov.metrics.avgLatencyMs * (n - 1) + latencyMs) / n } }

def alarmingQueues (gov : Governor) : List QueueHealth :=
  gov.queues.values.filter QueueHealth.alarming

inductive Report where
  | budget (call : ThroughputControls.Call)
  | updateQueue (queueName : String) (depth : ℤ) (rate : ℚ)
  | recordReprocess (accountId : String)
  | recordProcessed (latencyMs : ℚ)
  deriving DecidableEq, Repr

inductive Call where
  | acquireDomain (domain : String)
  | releaseDomain (domain : String)
  | report (r : Report)
  deriving DecidableEq, Repr

def report (gov : Governor) : Report → Governor
  | .budget call => { gov with budgets := ThroughputControls.next gov.budgets call }
  | .updateQueue q depth rate => updateQueue gov q depth rate
  | .recordReprocess a => recordReprocess gov a
  | .recordProcessed latency => recordProcessed gov latency

def next (gov : Governor) : Call → Governor
  | .acquireDomain d => (acquireDomain gov d).2
  | .releaseDomain d => releaseDomain gov d
  | .report r => report gov r

def run (calls : List Call) : Governor := runTrace next .new calls

variable {gov : Governor} {d : String}

@[simp] theorem report_domainConcurrency (gov : Governor) (r : Report) :
    (report gov r).domainConcurrency = gov.domainConcurrency := by
  cases r <;> rfl

@[simp] theorem concurrencyOf_report (gov : Governor) (r : Report) (d : String) :
    concurrencyOf (report gov r) d = concurrencyOf gov d := by
  rw [concurrencyOf, report_domainConcurrency, concurrencyOf]

theorem concurrencyOf_set (gov : Governor) (j d : String) (dc : DomainConcurrency)
    (m : ThroughputMetrics) :
    concurrencyOf { gov with domainConcurrency := gov.domainConcurrency.set j dc, metrics := m } d =
      if d = j then dc else concurrencyOf gov d := by
  rw [concurrencyOf, concurrencyOf, Dict.get?_set]
  split <;> rfl

/-- A domain lets in one more or turns the caller away, and no other domain sees it. -/
theorem acquireDomain_cases (gov : Governor) (j : String) :
    ((acquireDomain gov j).1 = true ∧ (concurrencyOf gov j).canStart = true ∧
      ∀ d, concurrencyOf (acquireDomain gov j).2 d =
        if d = j then { concurrencyOf gov j with active := (concurrencyOf gov j).active + 1 }
        else concurrencyOf gov d) ∨
    ((acquireDomain gov j).1 = false ∧ (concurrencyOf gov j).canStart = false ∧
      ∀ d, concurrencyOf (acquireDomain gov j).2 d = concurrencyOf gov d) := by
  rw [acquireDomain]
  by_cases hstart : (concurrencyOf gov j).canStart
  · rw [if_pos hstart]
    exact Or.inl ⟨rfl, hstart, fun d => concurrencyOf_set gov j d _ _⟩
  · rw [if_neg hstart]
    refine Or.inr ⟨rfl, by simpa using hstart, fun d => ?_⟩
    rw [concurrencyOf_set]
    split
    · next h => rw [h]
    · rfl

theorem releaseDomain_concurrencyOf (gov : Governor) (j d : String) :
    concurrencyOf (releaseDomain gov j) d =
      if d = j then { concurrencyOf gov j with active := (concurrencyOf gov j).active - 1 }
      else concurrencyOf gov d := by
  rw [releaseDomain]
  cases hj : gov.domainConcurrency.get? j with
  | none =>
    by_cases hd : d = j
    · subst d
      simp [concurrencyOf, hj]
    · simp [hd]
  | some dc =>
    have hdc : concurrencyOf gov j = dc := by rw [concurrencyOf, hj, Option.getD_some]
    by_cases hactive : 0 < dc.active
    · simp only [hactive, if_true]
      rw [hdc]
      exact concurrencyOf_set gov j d _ gov.metrics
    · have hzero : dc.active = 0 := by omega
      simp only [hactive, if_false]
      split
      · next hd =>
        rw [hd, hdc]
        cases dc
        simp_all
      · rfl

def Capped (gov : Governor) : Prop :=
  ∀ d, (concurrencyOf gov d).maxConcurrent = 3 ∧ (concurrencyOf gov d).active ≤ 3

theorem capped_next (h : Capped gov) (c : Call) : Capped (next gov c) := by
  intro d
  cases c with
  | report r =>
    rw [next, concurrencyOf_report]
    exact h d
  | releaseDomain j =>
    rw [next, releaseDomain_concurrencyOf]
    split
    · exact ⟨(h j).1, (Nat.sub_le _ 1).trans (h j).2⟩
    · exact h d
  | acquireDomain j =>
    rw [next]
    rcases acquireDomain_cases gov j with ⟨-, hstart, hafter⟩ | ⟨-, -, hafter⟩
    · rw [hafter]
      split
      · have hlt : (concurrencyOf gov j).active < (concurrencyOf gov j).maxConcurrent := by
          simpa [DomainConcurrency.canStart] using hstart
        have hmax := (h j).1
        exact ⟨hmax, by simp only; omega⟩
      · exact h d
    · rw [hafter]
      exact h d

theorem capped_new : Capped .new := fun _ => ⟨rfl, Nat.zero_le _⟩

theorem capped_run (calls : List Call) : Capped (run calls) :=
  history_invariant (I := fun _ => Capped) capped_new (fun _ e _ h _ => capped_next h e)
    (validTrace_of_forall (fun _ _ => trivial) _ calls)

/-! ### Callers that keep to nothing -/

def answer (d : String) (gov : Governor) : Call → List Bool
  | .acquireDomain j => if j = d then [(acquireDomain gov j).1] else []
  | _ => []

def granted (d : String) (gov : Governor) (calls : List Call) : ℕ :=
  (emitted (answer d) next gov calls).count true

theorem granted_cons (d : String) (gov : Governor) (c : Call) (calls : List Call) :
    granted d gov (c :: calls) = (answer d gov c).count true + granted d (next gov c) calls :=
  List.count_append

theorem granted_le_of_capped (h : Capped gov) (d : String) (calls : List Call) :
    granted d gov calls + (concurrencyOf gov d).active ≤ 3 + calls.count (.releaseDomain d) := by
  induction calls generalizing gov with
  | nil => simpa [granted, emitted] using (h d).2
  | cons c calls ih =>
    have hrest := ih (capped_next h c)
    rw [granted_cons, List.count_cons]
    cases c with
    | report r =>
      have hsame : concurrencyOf (next gov (.report r)) d = concurrencyOf gov d :=
        concurrencyOf_report gov r d
      rw [hsame] at hrest
      simpa [answer] using hrest
    | releaseDomain j =>
      have hafter : concurrencyOf (next gov (.releaseDomain j)) d = _ :=
        releaseDomain_concurrencyOf gov j d
      rw [hafter] at hrest
      by_cases hj : j = d
      · subst j
        simp only [if_pos] at hrest
        simp only [answer, List.count_nil, beq_self_eq_true, if_true]
        omega
      · rw [if_neg (Ne.symm hj)] at hrest
        have hne : (Call.releaseDomain j == Call.releaseDomain d) = false := by simp [hj]
        simpa [answer, hne] using hrest
    | acquireDomain j =>
      have hne : (Call.acquireDomain j == Call.releaseDomain d) = false := rfl
      by_cases hj : j = d
      · subst j
        rcases acquireDomain_cases gov d with ⟨hans, hstart, hafter⟩ | ⟨hans, -, hafter⟩
        · have hactive : (concurrencyOf (next gov (.acquireDomain d)) d).active =
              (concurrencyOf gov d).active + 1 := by rw [next, hafter, if_pos rfl]
          rw [hactive] at hrest
          simp only [answer, if_true, hans, List.count_singleton_self, hne]
          simp only [Bool.false_eq_true, if_false]
          omega
        · have hsame : concurrencyOf (next gov (.acquireDomain d)) d = concurrencyOf gov d :=
            hafter d
          rw [hsame] at hrest
          simpa [answer, hans, hne] using hrest
      · have hsame : concurrencyOf (next gov (.acquireDomain j)) d = concurrencyOf gov d := by
          rw [next]
          rcases acquireDomain_cases gov j with ⟨-, -, hafter⟩ | ⟨-, -, hafter⟩
          · rw [hafter, if_neg (Ne.symm hj)]
          · exact hafter d
        rw [hsame] at hrest
        simpa [answer, hj, hne] using hrest

/-- Whoever calls, and even if what is given back was never taken: in no stretch of a run is a
domain entered more than three times beyond what is given back in that stretch. -/
theorem granted_le (before calls : List Call) (d : String) :
    granted d (run before) calls ≤ 3 + calls.count (.releaseDomain d) :=
  (Nat.le_add_right _ _).trans (granted_le_of_capped (capped_run before) d calls)

/-! ### Workers that give back what they took -/

structure Crew (κ : Type*) where
  gov : Governor
  inside : List (κ × String)

/-- A worker asks to go onto a domain, and works there if it may; or it has finished there. -/
inductive Move (κ : Type*) where
  | enter (w : κ) (d : String)
  | leave (w : κ) (d : String)
  | report (r : Report)
  deriving DecidableEq, Repr

variable {κ : Type*} [DecidableEq κ]

def Crew.start : Crew κ := ⟨.new, []⟩

def crewNext (s : Crew κ) : Move κ → Crew κ
  | .enter w d =>
    let r := acquireDomain s.gov d
    ⟨r.2, if r.1 then (w, d) :: s.inside else s.inside⟩
  | .leave w d => ⟨releaseDomain s.gov d, s.inside.erase (w, d)⟩
  | .report r => { s with gov := GovernorLoad.report s.gov r }

def Honest (s : Crew κ) : Move κ → Prop
  | .leave w d => (w, d) ∈ s.inside
  | _ => True

instance honestDecidable (s : Crew κ) (m : Move κ) : Decidable (Honest s m) := by
  cases m <;> unfold Honest <;> infer_instance

def load (s : Crew κ) (d : String) : ℕ := s.inside.countP fun x => x.2 = d

def Counted (s : Crew κ) : Prop :=
  Capped s.gov ∧ ∀ d, (concurrencyOf s.gov d).active = load s d

theorem counted_next {s : Crew κ} (h : Counted s) {m : Move κ} (hm : Honest s m) :
    Counted (crewNext s m) := by
  obtain ⟨hcap, hcount⟩ := h
  cases m with
  | report r =>
    refine ⟨capped_next hcap (.report r), fun d => ?_⟩
    rw [crewNext, concurrencyOf_report]
    exact hcount d
  | leave w j =>
    refine ⟨capped_next hcap (.releaseDomain j), fun d => ?_⟩
    have hperm : load s d = load (crewNext s (.leave w j)) d + if j = d then 1 else 0 := by
      rw [load, (List.perm_cons_erase hm).countP_eq, List.countP_cons]
      simp [load, crewNext]
    have hload : load (crewNext s (.leave w j)) d = if d = j then load s j - 1 else load s d := by
      by_cases hd : d = j
      · subst d
        rw [if_pos rfl] at hperm ⊢
        omega
      · rw [if_neg (Ne.symm hd)] at hperm
        rw [if_neg hd, hperm, Nat.add_zero]
    rw [hload]
    have hafter : concurrencyOf (crewNext s (.leave w j)).gov d = _ :=
      releaseDomain_concurrencyOf s.gov j d
    rw [hafter]
    split
    · rw [hcount]
    · exact hcount d
  | enter w j =>
    refine ⟨capped_next hcap (.acquireDomain j), fun d => ?_⟩
    rw [crewNext]
    rcases acquireDomain_cases s.gov j with ⟨hans, -, hafter⟩ | ⟨hans, -, hafter⟩
    · rw [hafter, hans, if_pos rfl, load, List.countP_cons]
      by_cases hd : d = j
      · subst d
        simp [hcount, load]
      · simp [hd, Ne.symm hd, hcount, load]
    · rw [hafter, hans]
      exact hcount d

/-- Workers that give back only what they took: however their moves and the other calls mix, the
counter of a domain is the number of workers on it, never more than three, and a worker is turned
away exactly when three are there. -/
theorem workers_inside (ms : List (Move κ)) (h : ValidTrace Honest crewNext .start ms)
    (d : String) :
    let s := runTrace crewNext .start ms
    (concurrencyOf s.gov d).active = load s d ∧ load s d ≤ 3 ∧
      ((acquireDomain s.gov d).1 = true ↔ load s d < 3) := by
  have hcounted : Counted (runTrace crewNext (Crew.start : Crew κ) ms) :=
    history_invariant (I := fun _ => Counted) ⟨capped_new, fun _ => rfl⟩
      (fun _ _ _ hs he => counted_next hs he) h
  obtain ⟨hcap, hcount⟩ := hcounted
  intro s
  have hmax := hcap d
  rw [hcount d] at hmax
  refine ⟨hcount d, hmax.2, ?_⟩
  have hstart : (concurrencyOf s.gov d).canStart = true ↔ load s d < 3 := by
    rw [DomainConcurrency.canStart, hmax.1, hcount d, decide_eq_true_iff]
  rw [← hstart]
  rcases acquireDomain_cases s.gov d with ⟨hans, hcan, -⟩ | ⟨hans, hcan, -⟩
  · rw [hans, hcan]
  · rw [hans, hcan]

theorem workers_inside_three :
    let s := runTrace crewNext (Crew.start : Crew ℕ) [.enter 0 "acme.com", .enter 1 "acme.com",
      .enter 2 "acme.com", .leave 1 "acme.com"]
    (concurrencyOf s.gov "acme.com").active = load s "acme.com" ∧ load s "acme.com" ≤ 3 ∧
      ((acquireDomain s.gov "acme.com").1 = true ↔ load s "acme.com" < 3) :=
  workers_inside _ (by decide) "acme.com"

/-! ### The log of the reports -/

def latencies (calls : List Call) : List ℚ :=
  calls.filterMap fun
    | .report (.recordProcessed latency) => some latency
    | _ => none

def depths (queueName : String) (calls : List Call) : List ℤ :=
  calls.filterMap fun
    | .report (.updateQueue q depth _) => if q = queueName then some depth else none
    | _ => none

def answers (gov : Governor) : Call → List Bool
  | .acquireDomain d => [(acquireDomain gov d).1]
  | _ => []

/-- The governor keeps what its log says: the number of times an account was processed again, the
depth each queue reported last, the mean of the latencies, the number of refusals. -/
structure Keeps (calls : List Call) (gov : Governor) : Prop where
  reprocess : ∀ a, (gov.reprocessCounts.get? a).getD 0 = calls.count (.report (.recordReprocess a))
  depth : ∀ q, (gov.queues.get? q).map QueueHealth.depth = (depths q calls).getLast?
  health : ∀ q health, gov.queues.get? q = some health →
    health.queueName = q ∧ health.maxDepth = 100000 ∧ health.alarmThreshold = 80000
  processed : gov.metrics.totalProcessed = (latencies calls).length
  mean : gov.metrics.avgLatencyMs * gov.metrics.totalProcessed = (latencies calls).sum
  refused : gov.metrics.totalBackpressured = (emitted answers next .new calls).count false

theorem latencies_concat (calls : List Call) (c : Call) :
    latencies (calls ++ [c]) = latencies calls ++ latencies [c] := List.filterMap_append

theorem depths_concat (q : String) (calls : List Call) (c : Call) :
    depths q (calls ++ [c]) = depths q calls ++ depths q [c] := List.filterMap_append

theorem latencies_quiet {c : Call} (hc : latencies [c] = []) (calls : List Call) :
    latencies (calls ++ [c]) = latencies calls := by
  rw [latencies_concat, hc, List.append_nil]

theorem depths_quiet {q : String} {c : Call} (hc : depths q [c] = []) (calls : List Call) :
    depths q (calls ++ [c]) = depths q calls := by
  rw [depths_concat, hc, List.append_nil]

theorem keeps_domains {calls : List Call} {gov gov' : Governor} (h : Keeps calls gov) (c : Call)
    (hc : ∀ r, c ≠ .report r) (hqueues : gov'.queues = gov.queues)
    (hcounts : gov'.reprocessCounts = gov.reprocessCounts)
    (hprocessed : gov'.metrics.totalProcessed = gov.metrics.totalProcessed)
    (hmean : gov'.metrics.avgLatencyMs = gov.metrics.avgLatencyMs)
    (hrefused : gov'.metrics.totalBackpressured =
      (emitted answers next .new (calls ++ [c])).count false) : Keeps (calls ++ [c]) gov' := by
  have hlat : latencies (calls ++ [c]) = latencies calls := by
    cases c with
    | report r => exact absurd rfl (hc r)
    | acquireDomain | releaseDomain => exact latencies_quiet rfl calls
  have hdep : ∀ q, depths q (calls ++ [c]) = depths q calls := by
    intro q
    cases c with
    | report r => exact absurd rfl (hc r)
    | acquireDomain | releaseDomain => exact depths_quiet rfl calls
  constructor
  · intro a
    rw [hcounts, h.reprocess, List.count_append, List.count_singleton, if_neg, Nat.add_zero]
    simpa using hc _
  · intro q
    rw [hqueues, hdep, h.depth]
  · rw [hqueues]
    exact h.health
  · rw [hlat, hprocessed, h.processed]
  · rw [hlat, hmean, hprocessed, h.mean]
  · exact hrefused

theorem refused_report (calls : List Call) (r : Report) :
    (emitted answers next .new (calls ++ [.report r])).count false =
      (emitted answers next .new calls).count false := by
  rw [emitted_concat]
  exact congrArg _ (List.append_nil _)

theorem mean_step (mean latency : ℚ) (n : ℕ) :
    (mean * ((n + 1 : ℕ) - 1) + latency) / (n + 1 : ℕ) * (n + 1 : ℕ) = mean * n + latency := by
  have hpos : ((n + 1 : ℕ) : ℚ) ≠ 0 := by
    rw [Nat.cast_ne_zero]
    exact Nat.succ_ne_zero n
  rw [div_mul_cancel₀ _ hpos]
  push_cast
  ring

theorem keeps_report {calls : List Call} {gov : Governor} (h : Keeps calls gov) (r : Report) :
    Keeps (calls ++ [.report r]) (report gov r) := by
  have hrefused := refused_report calls r
  cases r with
  | budget call =>
    refine ⟨fun a => ?_, fun q => ?_, h.health, ?_, ?_, ?_⟩
    · rw [List.count_append]
      exact h.reprocess a
    · rw [depths_quiet rfl]
      exact h.depth q
    · rw [latencies_quiet rfl]
      exact h.processed
    · rw [latencies_quiet rfl]
      exact h.mean
    · rw [hrefused]
      exact h.refused
  | updateQueue j depth rate =>
    refine ⟨fun a => ?_, fun q => ?_, fun q health hq => ?_, ?_, ?_, ?_⟩
    · rw [List.count_append]
      exact h.reprocess a
    · rw [depths_concat, report, updateQueue, Dict.get?_set]
      by_cases hq : q = j
      · subst q
        simp [depths]
      · simp [depths, hq, Ne.symm hq, h.depth]
    · rcases Dict.get?_set_cases hq with ⟨rfl, rfl⟩ | ⟨hne, hold⟩
      · cases hget : gov.queues.get? q with
        | none => exact ⟨rfl, rfl, rfl⟩
        | some old => exact h.health q old hget
      · exact h.health q health hold
    · rw [latencies_quiet rfl]
      exact h.processed
    · rw [latencies_quiet rfl]
      exact h.mean
    · rw [hrefused]
      exact h.refused
  | recordReprocess j =>
    refine ⟨fun a => ?_, fun q => ?_, h.health, ?_, ?_, ?_⟩
    · rw [report, recordReprocess, Dict.get?_set, List.count_append, List.count_singleton]
      by_cases ha : a = j
      · subst a
        simp [h.reprocess]
      · simp [ha, Ne.symm ha, h.reprocess]
    · rw [depths_quiet rfl]
      exact h.depth q
    · rw [latencies_quiet rfl]
      exact h.processed
    · rw [latencies_quiet rfl]
      exact h.mean
    · rw [hrefused]
      exact h.refused
  | recordProcessed latency =>
    refine ⟨fun a => ?_, fun q => ?_, h.health, ?_, ?_, ?_⟩
    · rw [List.count_append]
      exact h.reprocess a
    · rw [depths_quiet rfl]
      exact h.depth q
    · rw [latencies_concat, List.length_append, ← h.processed]
      rfl
    · have hlast : latencies [.report (.recordProcessed latency)] = [latency] := rfl
      rw [latencies_concat, hlast, List.sum_append, List.sum_singleton, ← h.mean]
      exact mean_step _ latency _
    · rw [hrefused]
      exact h.refused

theorem keeps_next {calls : List Call} (h : Keeps calls (run calls)) (c : Call) :
    Keeps (calls ++ [c]) (next (run calls) c) := by
  cases c with
  | report r => exact keeps_report h r
  | releaseDomain d =>
    have hrefused : (run calls).metrics.totalBackpressured =
        (emitted answers next .new (calls ++ [.releaseDomain d])).count false := by
      rw [emitted_concat, h.refused]
      exact congrArg _ (List.append_nil _).symm
    rw [next, releaseDomain]
    split
    · split
      · exact keeps_domains h _ (by simp) rfl rfl rfl rfl hrefused
      · exact keeps_domains h _ (by simp) rfl rfl rfl rfl hrefused
    · exact keeps_domains h _ (by simp) rfl rfl rfl rfl hrefused
  | acquireDomain d =>
    have hlast : (emitted answers next .new (calls ++ [.acquireDomain d])).count false =
        (emitted answers next .new calls).count false +
          [(acquireDomain (run calls) d).1].count false := by
      rw [emitted_concat, List.count_append]
      rfl
    rw [next]
    by_cases hstart : (concurrencyOf (run calls) d).canStart
    · have hcall : acquireDomain (run calls) d = (true, _) := if_pos hstart
      rw [hcall] at hlast ⊢
      exact keeps_domains h _ (by simp) rfl rfl rfl rfl (by rw [hlast]; exact h.refused)
    · have hcall : acquireDomain (run calls) d = (false, _) := if_neg hstart
      rw [hcall] at hlast ⊢
      exact keeps_domains h _ (by simp) rfl rfl rfl rfl
        (by rw [hlast]; exact congrArg (· + 1) h.refused)

theorem keeps_run (calls : List Call) : Keeps calls (run calls) := by
  induction calls using List.reverseRecOn with
  | nil =>
    refine ⟨fun _ => rfl, fun _ => rfl, ?_, rfl, ?_, rfl⟩
    · intro q health hq
      cases hq
    · exact zero_mul _
  | append_singleton calls c ih =>
    have hrun : run (calls ++ [c]) = next (run calls) c := runTrace_concat _ _ _
    rw [hrun]
    exact keeps_next ih c

/-- Every answer of the governor is read off its log, whatever else was called in between. -/
theorem run_summary (calls : List Call) :
    (∀ a, canReprocess (run calls) a = true ↔
      calls.count (.report (.recordReprocess a)) < 3) ∧
    (∀ q, canEnqueue (run calls) q = true ↔
      ∀ depth, (depths q calls).getLast? = some depth → depth < 100000) ∧
    (∀ q, q ∈ (alarmingQueues (run calls)).map QueueHealth.queueName ↔
      ∃ depth, (depths q calls).getLast? = some depth ∧ 80000 ≤ depth) ∧
    (run calls).metrics.totalProcessed = (latencies calls).length ∧
    (run calls).metrics.avgLatencyMs * (latencies calls).length = (latencies calls).sum ∧
    (run calls).metrics.totalBackpressured = (emitted answers next .new calls).count false := by
  have h := keeps_run calls
  refine ⟨fun a => ?_, fun q => ?_, fun q => ?_, h.processed, ?_, h.refused⟩
  · rw [canReprocess, h.reprocess, decide_eq_true_iff]
    rfl
  · rw [canEnqueue, ← h.depth]
    cases hq : (run calls).queues.get? q with
    | none => simp
    | some health => simp [QueueHealth.blocked, (h.health q health hq).2.1]
  · rw [alarmingQueues, List.mem_map]
    constructor
    · rintro ⟨health, hmem, rfl⟩
      obtain ⟨hvalue, halarm⟩ := List.mem_filter.1 hmem
      obtain ⟨k, hk⟩ := Dict.mem_values_iff.1 hvalue
      obtain ⟨hname, -, hthreshold⟩ := h.health k health hk
      refine ⟨health.depth, ?_, by simpa [QueueHealth.alarming, hthreshold] using halarm⟩
      rw [hname, ← h.depth, hk]
      rfl
    · rintro ⟨depth, hlast, hdepth⟩
      rw [← h.depth] at hlast
      obtain ⟨health, hk, rfl⟩ := Option.map_eq_some_iff.1 hlast
      obtain ⟨hname, -, hthreshold⟩ := h.health q health hk
      refine ⟨health, List.mem_filter.2 ⟨Dict.mem_values_iff.2 ⟨q, hk⟩, ?_⟩, hname⟩
      simpa [QueueHealth.alarming, hthreshold] using hdepth
  · rw [← h.processed]
    exact h.mean

end TrustCopilot.GovernorLoad
