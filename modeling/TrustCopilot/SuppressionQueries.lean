import TrustCopilot.Suppression
import TrustCopilot.Library.KeyedLog
import TrustCopilot.Library.Trace

/-! What the suppression list answers. The service is compared with the log of what was ever
written to it: each scope and normalised key has the record that was added last, unless it was
removed after that. -/
namespace TrustCopilot.SuppressionQueries

open TrustCopilot.KeyedLog
open TrustCopilot.OrderedDict
open TrustCopilot.PyText
open TrustCopilot.Suppression
open TrustCopilot.Trace

inductive Operation where
  | add (scope : SuppressionScope) (key : String) (reason : SuppressionReason)
      (createdBy notes : String) (now : ℤ)
  | remove (scope : SuppressionScope) (key : String)
  | bulkImport (records : List (SuppressionScope × String × SuppressionReason)) (now : ℤ)
  deriving DecidableEq, Repr

structure Address where
  localPart : String
  domainPart : String
  localFree : '@' ∉ localPart.toList
  domainFree : '@' ∉ domainPart.toList

def Address.text (a : Address) : String := a.localPart ++ "@" ++ a.domainPart

/-- An argument of a query. One that is left empty counts as not given. -/
abbrev Given := {s : String // s ≠ ""}

inductive Query where
  | email (address : Address)
  | domain (domain : Given)
  | account (accountId : Given)
  | campaign (campaignId : Given)

section Service

variable (lower : String → String)

def next (svc : SuppressionService) : Operation → SuppressionService
  | .add scope key reason createdBy notes now =>
    add lower svc scope key reason createdBy notes now
  | .remove scope key => (remove lower svc scope key).1
  | .bulkImport records now => (bulkImport lower svc records now).1

def run (ops : List Operation) : SuppressionService :=
  runTrace (next lower) SuppressionService.new ops

def query (svc : SuppressionService) : Query → Bool × Option SuppressionRecord
  | .email a => isSuppressed lower svc a.text "" "" ""
  | .domain d => isSuppressed lower svc "" d "" ""
  | .account i => isSuppressed lower svc "" "" i ""
  | .campaign i => isSuppressed lower svc "" "" "" i

def Query.scopedKeys : Query → List ScopedKey
  | .email a => [(.email, normalise lower a.text), (.domain, normalise lower a.domainPart)]
  | .domain d => [(.domain, normalise lower d)]
  | .account i => [(.account, normalise lower i)]
  | .campaign i => [(.campaign, normalise lower i)]

def added (scope : SuppressionScope) (key : String) (reason : SuppressionReason)
    (createdBy notes : String) (now : ℤ) : ScopedKey × Option SuppressionRecord :=
  ((scope, normalise lower key),
    some
      { scope := scope
        key := normalise lower key
        reason := reason
        createdAt := now
        createdBy := createdBy
        notes := notes })

def writes : Operation → Log ScopedKey SuppressionRecord
  | .add scope key reason createdBy notes now =>
    [added lower scope key reason createdBy notes now]
  | .remove scope key => [((scope, normalise lower key), none)]
  | .bulkImport records now =>
    records.map fun r => added lower r.1 r.2.1 r.2.2 "system" "" now

def log (ops : List Operation) : Log ScopedKey SuppressionRecord := ops.flatMap (writes lower)

end Service

def scopedKey (r : SuppressionRecord) : ScopedKey := (r.scope, r.key)

structure AnswersLog (log : Log ScopedKey SuppressionRecord) (keys : List ScopedKey)
    (answer : Bool × Option SuppressionRecord) : Prop where
  suppressed : ∀ before k after r, keys = before ++ k :: after → LastAssigned log k r →
    (∀ j ∈ before, ∀ r', ¬ LastAssigned log j r') → answer = (true, some r)
  clear : (∀ k ∈ keys, ∀ r, ¬ LastAssigned log k r) → answer = (false, none)

structure RefinesLog (lower : String → String) (ops : List Operation) : Prop where
  answers : ∀ q, AnswersLog (log lower ops) (q.scopedKeys lower) (query lower (run lower ops) q)
  entries : ∀ scope r, r ∈ listEntries (run lower ops) scope ↔
    LastAssigned (log lower ops) (scopedKey r) r ∧ ∀ s, scope = some s → r.scope = s
  once : ∀ scope, ((listEntries (run lower ops) scope).map scopedKey).Nodup
  frame : ∀ op q, (∀ w ∈ writes lower op, w.1 ∉ q.scopedKeys lower) →
    query lower (next lower (run lower ops) op) q = query lower (run lower ops) q

def Reflects (log : Log ScopedKey SuppressionRecord) (svc : SuppressionService) : Prop :=
  Mirrors compositeKey (fun _ => False) log svc.entries

variable {lower : String → String} {svc : SuppressionService}
  {l : Log ScopedKey SuppressionRecord}

theorem reflects_add (h : Reflects l svc) (scope : SuppressionScope) (key : String)
    (reason : SuppressionReason) (createdBy notes : String) (now : ℤ) :
    Reflects (l ++ [added lower scope key reason createdBy notes now])
      (add lower svc scope key reason createdBy notes now) :=
  mirrors_set compositeKey_injective h _ _

theorem reflects_remove (h : Reflects l svc) (scope : SuppressionScope) (key : String) :
    Reflects (l ++ [((scope, normalise lower key), none)]) (remove lower svc scope key).1 := by
  rw [remove]
  split
  · exact mirrors_erase compositeKey_injective h _
  · next hn =>
    rw [Option.not_isSome_iff_eq_none] at hn
    exact mirrors_absent h hn

theorem reflects_bulkImport (h : Reflects l svc)
    (records : List (SuppressionScope × String × SuppressionReason)) (now : ℤ) :
    Reflects (l ++ records.map fun r => added lower r.1 r.2.1 r.2.2 "system" "" now)
      (bulkImport lower svc records now).1 := by
  rw [bulkImport]
  induction records generalizing l svc with
  | nil => rwa [List.map_nil, List.append_nil]
  | cons r records ih =>
    have hadd : Reflects _ (add lower svc r.1 r.2.1 r.2.2 "system" "" now) :=
      reflects_add h r.1 r.2.1 r.2.2 "system" "" now
    have hr := ih hadd
    rwa [List.append_assoc] at hr

theorem reflects_next (h : Reflects l svc) (op : Operation) :
    Reflects (l ++ writes lower op) (next lower svc op) := by
  cases op with
  | add scope key reason createdBy notes now =>
    exact reflects_add h scope key reason createdBy notes now
  | remove scope key => exact reflects_remove h scope key
  | bulkImport records now => exact reflects_bulkImport h records now

theorem reflects_run (ops : List Operation) : Reflects (log lower ops) (run lower ops) := by
  induction ops using List.reverseRecOn with
  | nil => exact mirrors_empty
  | append_singleton ops op ih =>
    rw [run, runTrace_concat, log, List.flatMap_append, List.flatMap_singleton]
    exact reflects_next ih op

theorem writes_labelled (op : Operation) : Labelled scopedKey (writes lower op) := by
  cases op with
  | add scope key reason createdBy notes now => exact labelled_assign rfl
  | remove scope key => exact labelled_remove
  | bulkImport records now =>
    rw [writes, List.map_eq_flatMap]
    apply labelled_flatMap
    intro r
    exact labelled_assign rfl

theorem log_labelled (ops : List Operation) : Labelled scopedKey (log lower ops) :=
  labelled_flatMap writes_labelled ops

/-! ### Queries -/

theorem Address.text_toList (a : Address) :
    a.text.toList = a.localPart.toList ++ '@' :: a.domainPart.toList := by
  simp [Address.text]

theorem Address.text_ne_empty (a : Address) : a.text ≠ "" := by
  intro he
  have hlist := a.text_toList
  rw [he] at hlist
  simp at hlist

theorem Address.at_mem (a : Address) : '@' ∈ a.text.toList := by
  rw [a.text_toList]
  exact List.mem_append_right _ List.mem_cons_self

theorem Address.split_text (a : Address) : (split a.text '@')[1]? = some a.domainPart := by
  rw [split, a.text_toList, List.splitOn_append_cons_self_of_not_mem a.localFree,
    List.splitOn_eq_singleton a.domainFree]
  simp

theorem isSuppressed_of_checks {email domain accountId campaignId : String}
    {keys : List ScopedKey}
    (h : suppressionChecks lower email domain accountId campaignId = keys.map compositeKey) :
    isSuppressed lower svc email domain accountId campaignId =
      let found := keys.findSome? fun k => svc.entries.get? (compositeKey k)
      (found.isSome, found) := by
  have hlookup : (keys.map compositeKey).findSome? svc.entries.get? =
      keys.findSome? fun k => svc.entries.get? (compositeKey k) := by
    rw [List.findSome?_map]
    rfl
  rw [isSuppressed, h, hlookup]
  cases keys.findSome? fun k => svc.entries.get? (compositeKey k) <;> rfl

/-- A query looks up the keys that match it, in their encoding. -/
theorem query_eq (svc : SuppressionService) (q : Query) :
    query lower svc q =
      let found := (q.scopedKeys lower).findSome? fun k => svc.entries.get? (compositeKey k)
      (found.isSome, found) := by
  cases q with
  | email a =>
    apply isSuppressed_of_checks
    simp [suppressionChecks, a.text_ne_empty, a.at_mem, a.split_text, Query.scopedKeys, makeKey]
  | domain d =>
    apply isSuppressed_of_checks
    simp [suppressionChecks, d.2, Query.scopedKeys, makeKey]
  | account i =>
    apply isSuppressed_of_checks
    simp [suppressionChecks, i.2, Query.scopedKeys, makeKey]
  | campaign i =>
    apply isSuppressed_of_checks
    simp [suppressionChecks, i.2, Query.scopedKeys, makeKey]

theorem query_standing (h : Reflects l svc) (q : Query) :
    query lower svc q =
      let found := (q.scopedKeys lower).findSome? (standing l)
      (found.isSome, found) := by
  have hslots : (fun k => svc.entries.get? (compositeKey k)) = standing l :=
    funext (get?_eq_standing h)
  rw [query_eq, hslots]

theorem standing_eq_none {k : ScopedKey} (h : ∀ r, ¬ LastAssigned l k r) :
    standing l k = none := by
  cases hs : standing l k with
  | none => rfl
  | some r => exact absurd (standing_eq_some_iff.1 hs) (h r)

theorem answersLog (h : Reflects l svc) (q : Query) :
    AnswersLog l (q.scopedKeys lower) (query lower svc q) := by
  rw [query_standing h q]
  constructor
  · intro before k after r hkeys hr hbefore
    have hfirst : before.findSome? (standing l) = none :=
      List.findSome?_eq_none_iff.2 fun j hj => standing_eq_none (hbefore j hj)
    rw [hkeys, List.findSome?_append, hfirst, List.findSome?_cons, standing_eq_some_iff.2 hr]
    rfl
  · intro hclear
    have hnone : (q.scopedKeys lower).findSome? (standing l) = none :=
      List.findSome?_eq_none_iff.2 fun k hk => standing_eq_none (hclear k hk)
    rw [hnone]
    rfl

theorem query_frame (h : Reflects l svc) {op : Operation} {q : Query}
    (hw : ∀ w ∈ writes lower op, w.1 ∉ q.scopedKeys lower) :
    query lower (next lower svc op) q = query lower svc q := by
  rw [query_standing (reflects_next h op), query_standing h]
  have hother : ∀ k ∈ q.scopedKeys lower, ∀ w ∈ writes lower op, w.1 ≠ k := by
    rintro _ hk w hin rfl
    exact hw w hin hk
  rw [findSome?_append_other hother]

theorem mem_listEntries {scope : Option SuppressionScope} {r : SuppressionRecord} :
    r ∈ listEntries svc scope ↔ r ∈ svc.entries.values ∧ ∀ s, scope = some s → r.scope = s := by
  cases scope with
  | none => simp [listEntries]
  | some s => simp [listEntries]

theorem listEntries_sublist (scope : Option SuppressionScope) :
    (listEntries svc scope).Sublist svc.entries.values := by
  cases scope with
  | none => exact List.Sublist.refl _
  | some s => exact List.filter_sublist

/-- The service answers every query, and lists its entries, as the log has them. -/
theorem service_refines_log (lower : String → String) (ops : List Operation) :
    RefinesLog lower ops := by
  have hrun : Reflects (log lower ops) (run lower ops) := reflects_run ops
  have hlabel : Labelled scopedKey (log lower ops) := log_labelled ops
  refine ⟨answersLog hrun, fun scope r => ?_, fun scope => ?_, fun _ _ => query_frame hrun⟩
  · rw [mem_listEntries, ← standing_eq_some_iff]
    constructor
    · rintro ⟨hin, hscope⟩
      exact ⟨mem_values_standing hrun hlabel hin, hscope⟩
    · rintro ⟨hstand, hscope⟩
      exact ⟨mem_values_of_standing hrun (fun h => h) hstand, hscope⟩
  · have hnodup := values_labels_nodup hrun hlabel
    exact hnodup.sublist ((listEntries_sublist scope).map scopedKey)

end TrustCopilot.SuppressionQueries
