import TrustCopilot.Library.KeyHistory
import TrustCopilot.Library.PyText
import Mathlib.Data.Int.Notation

/-! The suppression list: entries keyed by scope and normalised key, held in one dictionary
under a composite string. `lower` stands for `str.lower`; nothing here depends on it. -/
namespace TrustCopilot.Suppression

open TrustCopilot.OrderedDict
open TrustCopilot.KeyHistory
open TrustCopilot.PyText

inductive SuppressionScope where
  | email
  | domain
  | account
  | campaign
  deriving DecidableEq, Repr

def SuppressionScope.value : SuppressionScope → String
  | .email => "email"
  | .domain => "domain"
  | .account => "account"
  | .campaign => "campaign"

inductive SuppressionReason where
  | unsubscribe
  | legalRequest
  | hardBounce
  | manualBlock
  | wrongPerson
  | complaint
  deriving DecidableEq, Repr

def SuppressionReason.value : SuppressionReason → String
  | .unsubscribe => "unsubscribe"
  | .legalRequest => "legal_request"
  | .hardBounce => "hard_bounce"
  | .manualBlock => "manual_block"
  | .wrongPerson => "wrong_person_do_not_retry"
  | .complaint => "complaint"

structure SuppressionRecord where
  scope : SuppressionScope
  key : String
  reason : SuppressionReason
  createdAt : ℤ
  createdBy : String := "system"
  notes : String := ""
  deriving DecidableEq, Repr

structure SuppressionService where
  entries : Dict String SuppressionRecord
  deriving DecidableEq, Repr

def SuppressionService.new : SuppressionService := ⟨Dict.empty⟩

/-- `key.lower().strip()` -/
def normalise (lower : String → String) (key : String) : String := strip (lower key)

/-- The dictionary key of an entry whose key has been normalised. -/
def compositeKey (k : SuppressionScope × String) : String := k.1.value ++ ":" ++ k.2

def makeKey (lower : String → String) (scope : SuppressionScope) (key : String) : String :=
  compositeKey (scope, normalise lower key)

theorem compositeKey_injective : Function.Injective compositeKey := by
  refine tagged_injective (fun s t h => ?_) fun s => ?_
  · cases s <;> cases t <;> simp_all [SuppressionScope.value]
  · cases s <;> decide

section Service

variable (lower : String → String)

def add (svc : SuppressionService) (scope : SuppressionScope) (key : String)
    (reason : SuppressionReason) (createdBy notes : String) (now : ℤ) : SuppressionService :=
  ⟨svc.entries.set (makeKey lower scope key)
    { scope := scope
      key := normalise lower key
      reason := reason
      createdAt := now
      createdBy := createdBy
      notes := notes }⟩

/-- The keys a query looks up, in order. An argument left empty is not looked up. -/
def suppressionChecks (email domain accountId campaignId : String) : List String :=
  (if email = "" then [] else [makeKey lower .email email]) ++
  (if domain ≠ "" then [makeKey lower .domain domain]
    else if email ≠ "" ∧ '@' ∈ email.toList then
      [makeKey lower .domain ((split email '@')[1]?.getD "")]
    else []) ++
  (if accountId = "" then [] else [makeKey lower .account accountId]) ++
  (if campaignId = "" then [] else [makeKey lower .campaign campaignId])

def isSuppressed (svc : SuppressionService) (email domain accountId campaignId : String) :
    Bool × Option SuppressionRecord :=
  match (suppressionChecks lower email domain accountId campaignId).findSome?
      svc.entries.get? with
  | some record => (true, some record)
  | none => (false, none)

def remove (svc : SuppressionService) (scope : SuppressionScope) (key : String) :
    SuppressionService × Bool :=
  if (svc.entries.get? (makeKey lower scope key)).isSome then
    (⟨svc.entries.erase (makeKey lower scope key)⟩, true)
  else (svc, false)

def bulkImport (svc : SuppressionService)
    (records : List (SuppressionScope × String × SuppressionReason)) (now : ℤ) :
    SuppressionService × ℕ :=
  (records.foldl (fun s r => add lower s r.1 r.2.1 r.2.2 "system" "" now) svc, records.length)

end Service

def listEntries (svc : SuppressionService) (scope : Option SuppressionScope) :
    List SuppressionRecord :=
  match scope with
  | none => svc.entries.values
  | some scope => svc.entries.values.filter fun r => r.scope = scope

/-- A key of the suppression list as its entries are compared: scope and normalised key. -/
abbrev ScopedKey := SuppressionScope × String

abbrev History := List (Change ScopedKey)

/-- The dictionary holds exactly the keys that the history has put in force. -/
def Enforces (history : History) (svc : SuppressionService) : Prop :=
  Tracks compositeKey history svc.entries

variable {lower : String → String} {history : History} {svc : SuppressionService}

theorem enforces_new : Enforces [] SuppressionService.new := tracks_empty

theorem enforces_add (h : Enforces history svc) (scope : SuppressionScope) (key : String)
    (reason : SuppressionReason) (createdBy notes : String) (now : ℤ) :
    Enforces (history ++ [.put (scope, normalise lower key)])
      (add lower svc scope key reason createdBy notes now) :=
  tracks_set compositeKey_injective h _ _

theorem erase_absent {d : Dict String SuppressionRecord} {k : String}
    (h : (d.get? k).isSome = false) (j : String) : (d.erase k).get? j = d.get? j := by
  rw [Dict.get?_erase]
  split
  · next hj =>
    rw [hj]
    exact (Option.not_isSome_iff_eq_none.1 (by simp [h])).symm
  · rfl

theorem enforces_remove (h : Enforces history svc) (scope : SuppressionScope) (key : String) :
    Enforces (history ++ [.drop (scope, normalise lower key)])
      (remove lower svc scope key).1 := by
  have hd := tracks_erase compositeKey_injective h (scope, normalise lower key)
  rw [remove]
  split
  · exact hd
  · next hn =>
    intro k
    rw [← hd k, ← erase_absent (by simpa using hn)]
    rfl

theorem enforces_bulkImport (h : Enforces history svc)
    (records : List (SuppressionScope × String × SuppressionReason)) (now : ℤ) :
    Enforces (history ++ records.map fun r => .put (r.1, normalise lower r.2.1))
      (bulkImport lower svc records now).1 := by
  rw [bulkImport]
  induction records generalizing history svc with
  | nil => simpa using h
  | cons r records ih =>
    have hadd : Enforces (history ++ [.put (r.1, normalise lower r.2.1)])
        (add lower svc r.1 r.2.1 r.2.2 "system" "" now) :=
      enforces_add h r.1 r.2.1 r.2.2 "system" "" now
    have hr := ih hadd
    rwa [List.append_assoc] at hr

theorem isSuppressed_eq_false_iff (email domain accountId campaignId : String) :
    (isSuppressed lower svc email domain accountId campaignId).1 = false ↔
      ∀ k ∈ suppressionChecks lower email domain accountId campaignId,
        (svc.entries.get? k).isSome = false := by
  rw [isSuppressed]
  split
  · next r hr =>
    obtain ⟨k, hk, hs⟩ := List.exists_of_findSome?_eq_some hr
    simp only [Bool.true_eq_false, false_iff, not_forall]
    exact ⟨k, hk, by simp [hs]⟩
  · next hn =>
    simpa using List.findSome?_eq_none_iff.1 hn

end TrustCopilot.Suppression
