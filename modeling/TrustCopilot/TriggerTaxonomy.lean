import Mathlib.Algebra.Order.Ring.Rat

/-! The trigger taxonomy: what a type of signal weighs, how fast it decays and how it is
explained. -/
namespace TrustCopilot.TriggerTaxonomy

inductive TriggerCategory where
  | positive
  | supporting
  | negative
  deriving DecidableEq, Repr

structure TriggerSpec where
  signalType : String
  category : TriggerCategory
  baseWeight : ℚ
  decayHalfLifeDays : ℤ
  explanation : String
  deriving DecidableEq, Repr

def triggerTaxonomy : List TriggerSpec :=
  [⟨"soc2_announced", .positive, 1, 90, "Company announced or achieved SOC 2 certification"⟩,
    ⟨"iso27001_mentioned", .positive, 9 / 10, 90, "ISO 27001 certification mentioned"⟩,
    ⟨"trust_center_launched", .positive, 95 / 100, 60, "Trust center or security portal launched"⟩,
    ⟨"security_hiring", .positive, 8 / 10, 45, "Hiring for security/infosec roles"⟩,
    ⟨"compliance_hiring", .positive, 85 / 100, 45, "Hiring for compliance/GRC roles"⟩,
    ⟨"funding_round", .positive, 7 / 10, 60, "Recently closed a funding round"⟩,
    ⟨"upmarket_expansion", .positive, 8 / 10, 60,
      "Moving upmarket or targeting enterprise customers"⟩,
    ⟨"procurement_review", .positive, 75 / 100, 30,
      "Procurement or security review process mentioned"⟩,
    ⟨"certification_milestone", .positive, 85 / 100, 90,
      "Achieved a compliance certification milestone"⟩,
    ⟨"trust_page_added", .supporting, 5 / 10, 120, "Trust or security page exists on the site"⟩,
    ⟨"enterprise_customer_mention", .supporting, 4 / 10, 90, "Enterprise customers mentioned"⟩,
    ⟨"vendor_security_mention", .supporting, 5 / 10, 60,
      "Vendor security or third-party risk mentioned"⟩,
    ⟨"negative_competitor", .negative, -9 / 10, 180, "Competitor product already in use"⟩,
    ⟨"negative_too_small", .negative, -6 / 10, 365,
      "Company appears too small for the product"⟩,
    ⟨"negative_too_large", .negative, -5 / 10, 365,
      "Company appears too large for the product"⟩,
    ⟨"negative_stale", .negative, -3 / 10, 30, "Signal references an old date, likely stale"⟩]

def getSpec (signalType : String) : Option TriggerSpec :=
  triggerTaxonomy.find? fun spec => spec.signalType = signalType

def getCategory (signalType : String) : TriggerCategory :=
  match getSpec signalType with
  | some spec => spec.category
  | none => .supporting

theorem getSpec_some {signalType : String} {spec : TriggerSpec}
    (h : getSpec signalType = some spec) :
    spec ∈ triggerTaxonomy ∧ spec.signalType = signalType :=
  ⟨List.mem_of_find?_eq_some h, by simpa using List.find?_some h⟩

/-- The sign of a weight goes with the category, and a type that is known weighs something and
decays. -/
structure SoundSpec (spec : TriggerSpec) : Prop where
  negative : spec.category = .negative ↔ spec.baseWeight < 0
  weight : spec.baseWeight ≠ 0
  halfLife : 0 < spec.decayHalfLifeDays

theorem taxonomy_sound : ∀ spec ∈ triggerTaxonomy, SoundSpec spec := by
  have hall : ∀ spec ∈ triggerTaxonomy, (spec.category = .negative ↔ spec.baseWeight < 0) ∧
      spec.baseWeight ≠ 0 ∧ 0 < spec.decayHalfLifeDays := by decide +kernel
  intro spec hspec
  obtain ⟨hnegative, hweight, hhalf⟩ := hall spec hspec
  exact ⟨hnegative, hweight, hhalf⟩

theorem getSpec_sound {signalType : String} {spec : TriggerSpec}
    (h : getSpec signalType = some spec) : SoundSpec spec :=
  taxonomy_sound spec (getSpec_some h).1

theorem getCategory_negative_iff {signalType : String} :
    getCategory signalType = .negative ↔
      ∃ spec, getSpec signalType = some spec ∧ spec.baseWeight < 0 := by
  rw [getCategory]
  cases h : getSpec signalType with
  | none => simp
  | some spec => simp [(getSpec_sound h).negative]

end TrustCopilot.TriggerTaxonomy
