import TrustCopilot.Suppression

/-! Asking the suppression list about more of a contact. The domain of an address is looked up
only as long as no domain is given beside it. -/
namespace TrustCopilot.SuppressionArguments

open TrustCopilot.OrderedDict
open TrustCopilot.PyText
open TrustCopilot.Suppression

/-- The arguments of `is_suppressed`. The empty string is the default of each. -/
structure Arguments where
  email : String := ""
  domain : String := ""
  accountId : String := ""
  campaignId : String := ""
  deriving DecidableEq, Repr

/-- `b` has the arguments of `a`, and values for some that `a` leaves empty. -/
structure FillsIn (a b : Arguments) : Prop where
  email : a.email = "" ∨ b.email = a.email
  domain : a.domain = "" ∨ b.domain = a.domain
  accountId : a.accountId = "" ∨ b.accountId = a.accountId
  campaignId : a.campaignId = "" ∨ b.campaignId = a.campaignId

def emailDomain (email : String) : String := (split email '@')[1]?.getD ""

section Service

variable (lower : String → String)

def suppressed (svc : SuppressionService) (a : Arguments) : Prop :=
  (isSuppressed lower svc a.email a.domain a.accountId a.campaignId).1 = true

instance (svc : SuppressionService) (a : Arguments) : Decidable (suppressed lower svc a) :=
  inferInstanceAs (Decidable (_ = _))

def Listed (svc : SuppressionService) (scope : SuppressionScope) (key : String) : Prop :=
  key ≠ "" ∧ (svc.entries.get? (makeKey lower scope key)).isSome = true

instance (svc : SuppressionService) (scope : SuppressionScope) (key : String) :
    Decidable (Listed lower svc scope key) := inferInstanceAs (Decidable (_ ∧ _))

/-- The domain of the address is on the list. -/
def EmailDomainListed (svc : SuppressionService) (email : String) : Prop :=
  '@' ∈ email.toList ∧
    (svc.entries.get? (makeKey lower .domain (emailDomain email))).isSome = true

instance (svc : SuppressionService) (email : String) :
    Decidable (EmailDomainListed lower svc email) := inferInstanceAs (Decidable (_ ∧ _))

/-- Where a domain is filled in beside an address whose own domain is on the list, something
else of the contact is on the list as well. -/
def DomainCovered (svc : SuppressionService) (a b : Arguments) : Prop :=
  a.domain = "" → b.domain ≠ "" → EmailDomainListed lower svc a.email →
    Listed lower svc .email a.email ∨ Listed lower svc .domain b.domain ∨
      Listed lower svc .account b.accountId ∨ Listed lower svc .campaign b.campaignId

end Service

variable {lower : String → String} {svc : SuppressionService} {a b : Arguments}

theorem ne_empty_of_at {email : String} (h : '@' ∈ email.toList) : email ≠ "" := by
  rintro rfl
  cases h

theorem isSuppressed_iff {email domain accountId campaignId : String} :
    (isSuppressed lower svc email domain accountId campaignId).1 = true ↔
      ∃ k ∈ suppressionChecks lower email domain accountId campaignId,
        (svc.entries.get? k).isSome = true := by
  rw [← not_iff_not, Bool.not_eq_true, isSuppressed_eq_false_iff]
  simp

/-- What makes a query come back suppressed. -/
theorem suppressed_iff :
    suppressed lower svc a ↔
      Listed lower svc .email a.email ∨
      (a.domain = "" ∧ EmailDomainListed lower svc a.email ∨ Listed lower svc .domain a.domain) ∨
      Listed lower svc .account a.accountId ∨ Listed lower svc .campaign a.campaignId := by
  have hone : ∀ scope key, (∃ k ∈ if key = "" then [] else [makeKey lower scope key],
      (svc.entries.get? k).isSome = true) ↔ Listed lower svc scope key := by
    intro scope key
    rw [Listed]
    by_cases hkey : key = "" <;> simp [hkey]
  have hdomain : (∃ k ∈ if a.domain ≠ "" then [makeKey lower .domain a.domain]
      else if a.email ≠ "" ∧ '@' ∈ a.email.toList then
        [makeKey lower .domain (emailDomain a.email)] else [],
      (svc.entries.get? k).isSome = true) ↔
      a.domain = "" ∧ EmailDomainListed lower svc a.email ∨
        Listed lower svc .domain a.domain := by
    rw [Listed, EmailDomainListed]
    by_cases hd : a.domain = ""
    · by_cases hat : '@' ∈ a.email.toList
      · simp [hd, hat, ne_empty_of_at hat]
      · simp [hd, hat]
    · simp [hd]
  rw [suppressed, isSuppressed_iff, suppressionChecks]
  simp only [List.mem_append, or_and_right, exists_or]
  rw [hone, hone, hone, ← hdomain]
  simp only [or_assoc]
  rfl

theorem listed_fillsIn {scope : SuppressionScope} {x y : String} (h : x = "" ∨ y = x)
    (hx : Listed lower svc scope x) : Listed lower svc scope y := by
  rcases h with h | rfl
  · exact absurd h hx.1
  · exact hx

theorem email_kept (h : FillsIn a b) (ha : EmailDomainListed lower svc a.email) :
    b.email = a.email := h.email.resolve_left (ne_empty_of_at ha.1)

/-- Filling in arguments keeps a contact suppressed, unless a domain hides the one that the
address has. -/
theorem filled_in_suppressed_iff (h : FillsIn a b) :
    (suppressed lower svc a → suppressed lower svc b) ↔ DomainCovered lower svc a b := by
  constructor
  · intro hkept ha hb hdomain
    have hsuppressed := hkept (suppressed_iff.2 (Or.inr (Or.inl (Or.inl ⟨ha, hdomain⟩))))
    rcases suppressed_iff.1 hsuppressed with he | (⟨hempty, -⟩ | hd) | hrest
    · rw [email_kept h hdomain] at he
      exact Or.inl he
    · exact absurd hempty hb
    · exact Or.inr (Or.inl hd)
    · exact Or.inr (Or.inr hrest)
  · intro hcovered hsuppressed
    rcases suppressed_iff.1 hsuppressed with he | (⟨ha, hdomain⟩ | hd) | hacc | hcamp
    · exact suppressed_iff.2 (Or.inl (listed_fillsIn h.email he))
    · by_cases hb : b.domain = ""
      · rw [← email_kept h hdomain] at hdomain
        exact suppressed_iff.2 (Or.inr (Or.inl (Or.inl ⟨hb, hdomain⟩)))
      · rcases hcovered ha hb hdomain with he | hd | hrest
        · exact suppressed_iff.2 (Or.inl (listed_fillsIn h.email he))
        · exact suppressed_iff.2 (Or.inr (Or.inl (Or.inr hd)))
        · exact suppressed_iff.2 (Or.inr (Or.inr hrest))
    · exact suppressed_iff.2 (Or.inr (Or.inl (Or.inr (listed_fillsIn h.domain hd))))
    · exact suppressed_iff.2 (Or.inr (Or.inr (Or.inl (listed_fillsIn h.accountId hacc))))
    · exact suppressed_iff.2 (Or.inr (Or.inr (Or.inr (listed_fillsIn h.campaignId hcamp))))

def blockedDomain : SuppressionService :=
  add asciiLower SuppressionService.new .domain "blocked.com" .legalRequest "system" "" 0

theorem account_added_suppressed :
    suppressed asciiLower blockedDomain { email := "anyone@blocked.com" } ∧
      suppressed asciiLower blockedDomain
        { email := "anyone@blocked.com", accountId := "acc-1" } := by
  have hbefore : suppressed asciiLower blockedDomain { email := "anyone@blocked.com" } := by decide
  have hfill : FillsIn { email := "anyone@blocked.com" }
      { email := "anyone@blocked.com", accountId := "acc-1" } :=
    ⟨Or.inr rfl, Or.inl rfl, Or.inl rfl, Or.inl rfl⟩
  exact ⟨hbefore,
    (filled_in_suppressed_iff hfill).2 (fun _ hdomain => absurd rfl hdomain) hbefore⟩

/-- The company uses another domain for its mail. -/
theorem domain_added_unsuppressed :
    suppressed asciiLower blockedDomain { email := "anyone@blocked.com" } ∧
    ¬ suppressed asciiLower blockedDomain { email := "anyone@blocked.com", domain := "acme.com" } ∧
    FillsIn { email := "anyone@blocked.com" }
      { email := "anyone@blocked.com", domain := "acme.com" } :=
  ⟨by decide, by decide, ⟨Or.inr rfl, Or.inl rfl, Or.inl rfl, Or.inl rfl⟩⟩

end TrustCopilot.SuppressionArguments
