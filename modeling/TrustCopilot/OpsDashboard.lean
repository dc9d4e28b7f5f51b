import TrustCopilot.Library.GroupedFold
import Mathlib.Data.Rat.Floor

/-! The metrics of the lanes that operators see, and their summary over all lanes. Numbers are exact
rationals. -/
namespace TrustCopilot.OpsDashboard

open TrustCopilot.GroupedFold
open TrustCopilot.OrderedDict

structure LaneMetrics where
  lane : String
  discoveryCount : ℚ := 0
  dedupeRate : ℚ := 0
  qualifiedCount : ℚ := 0
  contactCount : ℚ := 0
  replyCount : ℚ := 0
  intakeCount : ℚ := 0
  proofDelivered : ℚ := 0
  paidCount : ℚ := 0
  bounceCount : ℚ := 0
  suppressionCount : ℚ := 0
  deriving DecidableEq, Repr

namespace LaneMetrics

def conversionRate (m : LaneMetrics) : ℚ := m.paidCount / max m.contactCount 1

def bounceRate (m : LaneMetrics) : ℚ := m.bounceCount / max m.contactCount 1

end LaneMetrics

inductive Metric where
  | discoveryCount
  | dedupeRate
  | qualifiedCount
  | contactCount
  | replyCount
  | intakeCount
  | proofDelivered
  | paidCount
  | bounceCount
  | suppressionCount
  deriving DecidableEq, Repr

/-- What `hasattr` finds under a name: a number, something that no number can be added to, or
nothing. -/
inductive Attribute where
  | field (f : Metric)
  | fixed
  | absent
  deriving DecidableEq, Repr

/-- `inherited` has the names that a lane has from its class besides, such as `__doc__`. -/
def attributeOf (inherited : String → Bool) (name : String) : Attribute :=
  match name with
  | "discovery_count" => .field .discoveryCount
  | "dedupe_rate" => .field .dedupeRate
  | "qualified_count" => .field .qualifiedCount
  | "contact_count" => .field .contactCount
  | "reply_count" => .field .replyCount
  | "intake_count" => .field .intakeCount
  | "proof_delivered" => .field .proofDelivered
  | "paid_count" => .field .paidCount
  | "bounce_count" => .field .bounceCount
  | "suppression_count" => .field .suppressionCount
  | "qualification_rate" | "contact_rate" | "reply_rate" | "conversion_rate" | "bounce_rate" =>
    .fixed
  | _ => if inherited name then .fixed else .absent

namespace LaneMetrics

/-- `getattr(m, key)` -/
def get (m : LaneMetrics) : Metric → ℚ
  | .discoveryCount => m.discoveryCount
  | .dedupeRate => m.dedupeRate
  | .qualifiedCount => m.qualifiedCount
  | .contactCount => m.contactCount
  | .replyCount => m.replyCount
  | .intakeCount => m.intakeCount
  | .proofDelivered => m.proofDelivered
  | .paidCount => m.paidCount
  | .bounceCount => m.bounceCount
  | .suppressionCount => m.suppressionCount

/-- `setattr(m, key, getattr(m, key) + val)` -/
def add (m : LaneMetrics) (f : Metric) (val : ℚ) : LaneMetrics :=
  match f with
  | .discoveryCount => { m with discoveryCount := m.discoveryCount + val }
  | .dedupeRate => { m with dedupeRate := m.dedupeRate + val }
  | .qualifiedCount => { m with qualifiedCount := m.qualifiedCount + val }
  | .contactCount => { m with contactCount := m.contactCount + val }
  | .replyCount => { m with replyCount := m.replyCount + val }
  | .intakeCount => { m with intakeCount := m.intakeCount + val }
  | .proofDelivered => { m with proofDelivered := m.proofDelivered + val }
  | .paidCount => { m with paidCount := m.paidCount + val }
  | .bounceCount => { m with bounceCount := m.bounceCount + val }
  | .suppressionCount => { m with suppressionCount := m.suppressionCount + val }

@[simp] theorem get_add (m : LaneMetrics) (f g : Metric) (val : ℚ) :
    (m.add f val).get g = m.get g + if f = g then val else 0 := by
  cases f <;> cases g <;> simp [add, get]

end LaneMetrics

abbrev Lanes := Dict String LaneMetrics

section Calls

variable (inherited : String → Bool)

/-- `record(lane, **kwargs)`. The keywords are other than `lane`, and their values are numbers. -/
structure Call where
  lane : String
  kwargs : List (String × ℚ)
  deriving DecidableEq, Repr

/-- The loop over the keywords, and whether it raised an error: a rate cannot be set, and what comes
from the class is not a number. What was added before that stays. -/
def addAll (m : LaneMetrics) : List (String × ℚ) → LaneMetrics × Bool
  | [] => (m, false)
  | (key, val) :: rest =>
    match attributeOf inherited key with
    | .field f => addAll (m.add f val) rest
    | .fixed => (m, true)
    | .absent => addAll m rest

def record (lanes : Lanes) (c : Call) : Lanes × Bool :=
  let m := (lanes.get? c.lane).getD { lane := c.lane }
  (lanes.set c.lane (addAll inherited m c.kwargs).1, (addAll inherited m c.kwargs).2)

def getLane (lanes : Lanes) (lane : String) : LaneMetrics :=
  (lanes.get? lane).getD { lane := lane }

structure FunnelSummary where
  discovery : ℚ
  qualified : ℚ
  contacted : ℚ
  replied : ℚ
  intake : ℚ
  proofDelivered : ℚ
  paid : ℚ
  bounceRate : ℚ
  conversionRate : ℚ
  deriving DecidableEq, Repr

/-- The nine additions of the loop; the dedupe rate is not added up. -/
def addTo (totals m : LaneMetrics) : LaneMetrics :=
  { totals with
    discoveryCount := totals.discoveryCount + m.discoveryCount
    qualifiedCount := totals.qualifiedCount + m.qualifiedCount
    contactCount := totals.contactCount + m.contactCount
    replyCount := totals.replyCount + m.replyCount
    intakeCount := totals.intakeCount + m.intakeCount
    proofDelivered := totals.proofDelivered + m.proofDelivered
    paidCount := totals.paidCount + m.paidCount
    bounceCount := totals.bounceCount + m.bounceCount
    suppressionCount := totals.suppressionCount + m.suppressionCount }

def totals (lanes : Lanes) : LaneMetrics := lanes.values.foldl addTo { lane := "total" }

def funnelSummary (lanes : Lanes) : FunnelSummary :=
  let t := totals lanes
  { discovery := t.discoveryCount
    qualified := t.qualifiedCount
    contacted := t.contactCount
    replied := t.replyCount
    intake := t.intakeCount
    proofDelivered := t.proofDelivered
    paid := t.paidCount
    bounceRate := t.bounceRate
    conversionRate := t.conversionRate }

def run (calls : List Call) : Lanes :=
  calls.foldl (fun lanes c => (record inherited lanes c).1) Dict.empty

/-! ### What a call adds -/

/-- The keywords of a call that are reached: those before the first that raises an error. -/
def reached (c : Call) : List (String × ℚ) :=
  c.kwargs.takeWhile fun kw => attributeOf inherited kw.1 ≠ .fixed

def added (f : Metric) (c : Call) : ℚ :=
  ((reached inherited c).map fun kw =>
    if attributeOf inherited kw.1 = .field f then kw.2 else 0).sum

theorem addAll_get (m : LaneMetrics) (c : Call) (f : Metric) :
    (addAll inherited m c.kwargs).1.get f = m.get f + added inherited f c := by
  obtain ⟨lane, kwargs⟩ := c
  induction kwargs generalizing m with
  | nil => simp [addAll, added, reached]
  | cons kw rest ih =>
    obtain ⟨key, val⟩ := kw
    cases hkey : attributeOf inherited key with
    | fixed => simp [addAll, added, reached, hkey]
    | absent =>
      simp only [addAll, hkey, ih]
      simp [added, reached, hkey]
    | field g =>
      simp only [addAll, hkey, ih, LaneMetrics.get_add, add_assoc]
      simp [added, reached, hkey]

theorem run_eq (calls : List Call) : run inherited calls =
    grouped Call.lane (fun lane => { lane := lane })
      (fun m c => (addAll inherited m c.kwargs).1) calls := rfl

theorem fresh_get (lane : String) (f : Metric) : ({ lane := lane } : LaneMetrics).get f = 0 := by
  cases f <;> rfl

theorem getLane_run (calls : List Call) (lane : String) (f : Metric) :
    (getLane (run inherited calls) lane).get f =
      ((calls.filter fun c => c.lane = lane).map (added inherited f)).sum := by
  rw [getLane, run_eq, getD_grouped,
    foldl_measure (f := fun m => LaneMetrics.get m f) (fun m c => addAll_get inherited m c f),
    fresh_get, zero_add, group]

/-! ### The summary -/

theorem totals_get (lanes : Lanes) {f : Metric} (hf : f ≠ .dedupeRate) :
    (totals lanes).get f = lanes.total fun _ m => m.get f := by
  have hadd : ∀ t m, (addTo t m).get f = t.get f + m.get f := by
    intro t m
    cases f <;> first | rfl | exact absurd rfl hf
  rw [totals, foldl_measure (f := fun m => LaneMetrics.get m f) hadd, fresh_get, zero_add,
    Dict.values, List.map_map, Dict.total]
  rfl

theorem total_run (calls : List Call) (f : Metric) :
    (run inherited calls).total (fun _ m => m.get f) = (calls.map (added inherited f)).sum := by
  rw [run_eq]
  exact total_grouped (f := fun _ m => LaneMetrics.get m f) (fun lane => fresh_get lane f)
    (fun m c => addAll_get inherited m c f) calls

def summaryOf (t : Metric → ℚ) : FunnelSummary where
  discovery := t .discoveryCount
  qualified := t .qualifiedCount
  contacted := t .contactCount
  replied := t .replyCount
  intake := t .intakeCount
  proofDelivered := t .proofDelivered
  paid := t .paidCount
  bounceRate := t .bounceCount / max (t .contactCount) 1
  conversionRate := t .paidCount / max (t .contactCount) 1

theorem funnelSummary_eq (lanes : Lanes) :
    funnelSummary lanes = summaryOf fun f => lanes.total fun _ m => m.get f := by
  simp only [summaryOf, ← totals_get lanes (f := .discoveryCount) (by decide),
    ← totals_get lanes (f := .qualifiedCount) (by decide),
    ← totals_get lanes (f := .contactCount) (by decide),
    ← totals_get lanes (f := .replyCount) (by decide),
    ← totals_get lanes (f := .intakeCount) (by decide),
    ← totals_get lanes (f := .proofDelivered) (by decide),
    ← totals_get lanes (f := .paidCount) (by decide),
    ← totals_get lanes (f := .bounceCount) (by decide)]
  rfl

/-- After any calls, those among them that raised an error, every lane has what its own calls added,
and the summary is that of one lane on which all of them had been recorded: neither the lanes they
went to nor their order shows in it. -/
theorem summary_conserves (calls : List Call) :
    (∀ lane f, (getLane (run inherited calls) lane).get f =
      ((calls.filter fun c => c.lane = lane).map (added inherited f)).sum) ∧
    funnelSummary (run inherited calls) =
      summaryOf (fun f => (calls.map (added inherited f)).sum) ∧
    ∀ calls' : List Call, calls'.Perm calls →
      funnelSummary (run inherited calls') = funnelSummary (run inherited calls) := by
  have hsummary : ∀ cs : List Call, funnelSummary (run inherited cs) =
      summaryOf fun f => (cs.map (added inherited f)).sum := by
    intro cs
    rw [funnelSummary_eq]
    simp only [total_run]
  refine ⟨getLane_run inherited calls, hsummary calls, fun calls' hperm => ?_⟩
  rw [hsummary, hsummary]
  simp only [(hperm.map _).sum_eq]

end Calls

end TrustCopilot.OpsDashboard
