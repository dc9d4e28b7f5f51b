import TrustCopilot.Library.PyJson
import TrustCopilot.Library.PyRegex

/-! The adapters of three job boards: what they make of the answer of a board, and what becomes of
an answer with an entry that they cannot read. `alnum` says which characters outside ASCII are
letters or digits, `text` how a value that is no string is printed. -/
namespace TrustCopilot.JobBoards

open TrustCopilot.PyJson
open TrustCopilot.PyRegex
open TrustCopilot.RegexSearch

inductive Board where
  | greenhouse
  | lever
  | ashby
  deriving DecidableEq, Repr

def Board.name : Board → String
  | .greenhouse => "greenhouse"
  | .lever => "lever"
  | .ashby => "ashby"

/-- The type says that a title is a string; nothing checks it for the other fields. -/
structure JobPosting where
  board : String
  companyDomain : String
  jobId : Json
  title : String
  department : Json := .null
  location : Json := .null
  url : Json := .str ""
  seniorityHint : Option String := none
  isSecurityCompliance : Bool := false

section Patterns

variable (alnum : Char → Bool)

def securityKeywords : Regex Char :=
  bounded alnum (alts [phrase ["security"], phrase ["compliance"], phrase ["grc"],
    phrase ["soc", "2"], phrase ["iso", "27001"], phrase ["privacy"], phrase ["trust"],
    phrase ["infosec"], phrase ["information", "security"], phrase ["cybersecurity"],
    phrase ["audit"], phrase ["risk"], phrase ["data", "protection"]])

def seniorityPatterns : List (Regex Char × String) := [
  (bounded alnum (alts [phrase ["vp"], phrase ["vice", "president"], phrase ["head", "of"],
    phrase ["director"]]), "senior_leadership"),
  (bounded alnum (alts [phrase ["senior"], seqs [ilit "sr", opt (ilit ".")], phrase ["lead"],
    phrase ["principal"], phrase ["staff"]]), "senior"),
  (bounded alnum (alts [phrase ["manager"], phrase ["team", "lead"]]), "manager"),
  (bounded alnum (alts [phrase ["junior"], seqs [ilit "jr", opt (ilit ".")], phrase ["associate"],
    phrase ["entry"]]), "junior")]

def detectSeniority (title : String) : Option String :=
  ((seniorityPatterns alnum).find? fun p => found p.1 title.toList).map Prod.snd

/-- `f"{value}"` -/
def formatted (text : Json → String) : Json → String
  | .str s => s
  | value => text value

def isSecurityRole (text : Json → String) (title : String) (department : Json) : Bool :=
  let joined := title ++ " " ++ if department.truthy then formatted text department else ""
  found (securityKeywords alnum) joined.toList

end Patterns

structure Fields where
  title : Json
  department : Json
  location : Json
  jobId : Json
  url : Json

def greenhouseFields (text : Json → String) (j : Json) : Option Fields := do
  let title ← j.get "title" (.str "")
  let deptList ← j.get "departments" (.arr [])
  let dept ← if deptList.truthy then (deptList.first.bind fun d => d.get "name") else some .null
  let loc ← (← j.get "location" (.obj [])).get "name"
  let jobId ← j.get "id" (.str "")
  let url ← j.get "absolute_url" (.str "")
  return ⟨title, dept, loc, .str (formatted text jobId), url⟩

def leverFields (j : Json) : Option Fields := do
  let title ← j.get "text" (.str "")
  let cat ← j.get "categories" (.obj [])
  let department ← cat.get "department"
  let team ← cat.get "team"
  let loc ← cat.get "location"
  let jobId ← j.get "id" (.str "")
  let url ← j.get "hostedUrl" (.str "")
  return ⟨title, if department.truthy then department else team, loc, jobId, url⟩

def ashbyFields (j : Json) : Option Fields := do
  let title ← j.get "title" (.str "")
  let dept ← j.get "departmentName"
  let loc ← j.get "locationName"
  let jobId ← j.get "id" (.str "")
  let url ← j.get "jobUrl" (.str "")
  return ⟨title, dept, loc, jobId, url⟩

def fieldsOf (text : Json → String) : Board → Json → Option Fields
  | .greenhouse => greenhouseFields text
  | .lever => leverFields
  | .ashby => ashbyFields

def entriesOf : Board → Json → Option (List Json)
  | .greenhouse, data => (data.get "jobs" (.arr [])).bind Json.elements
  | .lever, data => data.elements
  | .ashby, data => (data.get "jobs" (.arr [])).bind Json.elements

variable (alnum : Char → Bool) (text : Json → String)

/-- A search in a title that is no string raises an error. -/
def posting (b : Board) (domain : String) (j : Json) : Option JobPosting := do
  let f ← fieldsOf text b j
  match f.title with
  | .str title =>
    some
      { board := b.name
        companyDomain := domain
        jobId := f.jobId
        title := title
        department := f.department
        location := f.location
        url := f.url
        seniorityHint := detectSeniority alnum title
        isSecurityCompliance := isSecurityRole alnum text title f.department }
  | _ => none

/-- An answer of the board, with no data where its body is no JSON. -/
structure Response where
  statusCode : ℕ
  data : Option Json

/-- The three adapters differ in `entriesOf` and `posting` alone. The response is `none` where the
request itself failed; any error on the way gives the empty list. -/
def fetch (b : Board) (domain : String) (resp : Option Response) : List JobPosting :=
  match resp with
  | none => []
  | some r =>
    if r.statusCode ≠ 200 then []
    else ((r.data.bind (entriesOf b)).bind fun js =>
      js.mapM (posting alnum text b domain)).getD []

/-! ### What can be read -/

def field (fields : List (String × Json)) (key : String) (default : Json := .null) : Json :=
  (fields.lookup key).getD default

def Readable : Board → Json → Prop
  | .greenhouse, .obj fields =>
    (field fields "title" (.str "")).IsStr ∧ (field fields "location" (.obj [])).IsObj ∧
      ((field fields "departments" (.arr [])).truthy = true →
        ∃ d, (field fields "departments" (.arr [])).first = some d ∧ d.IsObj)
  | .lever, .obj fields =>
    (field fields "text" (.str "")).IsStr ∧ (field fields "categories" (.obj [])).IsObj
  | .ashby, .obj fields => (field fields "title" (.str "")).IsStr
  | _, _ => False

variable {alnum : Char → Bool} {text : Json → String} {b : Board} {domain : String} {j : Json}

theorem posting_isSome_iff :
    (posting alnum text b domain j).isSome ↔
      ∃ f, fieldsOf text b j = some f ∧ f.title.IsStr := by
  rw [posting]
  cases fieldsOf text b j with
  | none => simp
  | some f =>
    obtain ⟨title, department, location, jobId, url⟩ := f
    cases title <;> simp [Json.IsStr]

theorem get_obj (fields : List (String × Json)) (key : String) (d : Json) :
    (Json.obj fields).get key d = some (field fields key d) := rfl

theorem greenhouse_fields_iff (fields : List (String × Json)) :
    (∃ f, greenhouseFields text (.obj fields) = some f ∧ f.title.IsStr) ↔
      Readable .greenhouse (.obj fields) := by
  simp only [greenhouseFields, get_obj, Option.bind_eq_bind, Option.bind_some, Readable]
  generalize field fields "title" (.str "") = title
  generalize field fields "location" (.obj []) = loc
  generalize field fields "departments" (.arr []) = depts
  by_cases hdepts : depts.truthy = true
  · rw [if_pos hdepts]
    cases hfirst : depts.first with
    | none => simp [hdepts]
    | some d => cases d <;> cases loc <;> simp [Json.get, Json.IsObj, hdepts]
  · rw [if_neg hdepts]
    cases loc <;> simp [Json.get, Json.IsObj, hdepts]

theorem lever_fields_iff (fields : List (String × Json)) :
    (∃ f, leverFields (.obj fields) = some f ∧ f.title.IsStr) ↔
      Readable .lever (.obj fields) := by
  simp only [leverFields, get_obj, Option.bind_eq_bind, Option.bind_some, Readable]
  generalize field fields "text" (.str "") = title
  generalize field fields "categories" (.obj []) = cat
  cases cat <;> simp [Json.get, Json.IsObj]

theorem readable_iff : (posting alnum text b domain j).isSome ↔ Readable b j := by
  rw [posting_isSome_iff]
  cases b with
  | greenhouse =>
    cases j with
    | obj fields => exact greenhouse_fields_iff fields
    | _ => simp [fieldsOf, greenhouseFields, Json.get, Readable]
  | lever =>
    cases j with
    | obj fields => exact lever_fields_iff fields
    | _ => simp [fieldsOf, leverFields, Json.get, Readable]
  | ashby =>
    cases j with
    | obj fields => simp [fieldsOf, ashbyFields, get_obj, Readable]
    | _ => simp [fieldsOf, ashbyFields, Json.get, Readable]

theorem posting_flags {job : JobPosting} (h : posting alnum text b domain j = some job) :
    job.seniorityHint = detectSeniority alnum job.title ∧
      job.isSecurityCompliance = isSecurityRole alnum text job.title job.department := by
  rw [posting] at h
  cases hf : fieldsOf text b j with
  | none => simp [hf] at h
  | some f =>
    obtain ⟨title, department, location, jobId, url⟩ := f
    rw [hf] at h
    cases title with
    | str title =>
      obtain rfl := Option.some.inj h
      exact ⟨rfl, rfl⟩
    | _ => cases h

theorem fetch_cases (alnum : Char → Bool) (text : Json → String) (b : Board) (domain : String)
    (resp : Option Response) :
    fetch alnum text b domain resp = [] ∨ ∃ data js, resp = some ⟨200, some data⟩ ∧
      entriesOf b data = some js ∧
      js.mapM (posting alnum text b domain) = some (fetch alnum text b domain resp) := by
  cases resp with
  | none => exact Or.inl rfl
  | some r =>
    obtain ⟨status, data⟩ := r
    rw [fetch]
    split
    · exact Or.inl rfl
    · next hok =>
      obtain rfl := not_not.1 hok
      cases data with
      | none => exact Or.inl rfl
      | some data =>
        rw [Option.bind_some]
        cases hjs : entriesOf b data with
        | none => exact Or.inl rfl
        | some js =>
          rw [Option.bind_some]
          cases hjobs : js.mapM (posting alnum text b domain) with
          | none => exact Or.inl rfl
          | some jobs => exact Or.inr ⟨data, js, rfl, hjs, hjobs⟩

theorem fetch_entries {data : Json} {js : List Json} (h : entriesOf b data = some js) :
    fetch alnum text b domain (some ⟨200, some data⟩) =
      (js.mapM (posting alnum text b domain)).getD [] := by
  rw [fetch, if_neg (not_not.2 rfl), Option.bind_some, h]
  rfl

/-- A board's answer is taken as a whole or not at all: if the adapter can read every entry, there
is one posting for each, in their order, and otherwise there is none, as there is where the board
did not answer with entries. What a posting says of itself is read off the title and the department
that it carries. -/
theorem fetch_whole_or_nothing (alnum : Char → Bool) (text : Json → String) (b : Board)
    (domain : String) (resp : Option Response) :
    let jobs := fetch alnum text b domain resp
    (∀ data js, resp = some ⟨200, some data⟩ → entriesOf b data = some js →
      ((∀ j ∈ js, Readable b j) → js.map (posting alnum text b domain) = jobs.map some) ∧
      ((∃ j ∈ js, ¬ Readable b j) → jobs = [])) ∧
    (jobs ≠ [] → ∃ data js, resp = some ⟨200, some data⟩ ∧ entriesOf b data = some js) ∧
    ∀ job ∈ jobs, job.seniorityHint = detectSeniority alnum job.title ∧
      job.isSecurityCompliance = isSecurityRole alnum text job.title job.department := by
  intro jobs
  have hcases := fetch_cases alnum text b domain resp
  refine ⟨fun data js hresp hjs => ?_, fun hsome => ?_, fun job hjob => ?_⟩
  · have hjobs : jobs = (js.mapM (posting alnum text b domain)).getD [] := by
      rw [← fetch_entries hjs, ← hresp]
    have hall : (js.mapM (posting alnum text b domain)).isSome ↔ ∀ j ∈ js, Readable b j := by
      rw [mapM_isSome_iff]
      exact forall₂_congr fun j _ => readable_iff
    refine ⟨fun hreadable => ?_, fun ⟨j, hj, hnot⟩ => ?_⟩
    · obtain ⟨made, hmade⟩ := Option.isSome_iff_exists.1 (hall.2 hreadable)
      rw [hjobs, hmade]
      exact mapM_eq_some_iff.1 hmade
    · have hnone : js.mapM (posting alnum text b domain) = none := by
        rw [← Option.not_isSome_iff_eq_none, hall]
        exact fun hreadable => hnot (hreadable j hj)
      rw [hjobs, hnone]
      rfl
  · obtain hnil | ⟨data, js, hresp, hjs, -⟩ := hcases
    · exact absurd hnil hsome
    · exact ⟨data, js, hresp, hjs⟩
  · obtain hnil | ⟨data, js, -, -, hmade⟩ := hcases
    · rw [show jobs = [] from hnil] at hjob
      exact absurd hjob List.not_mem_nil
    · have hmem : some job ∈ js.map (posting alnum text b domain) := by
        rw [mapM_eq_some_iff.1 hmade]
        exact List.mem_map_of_mem hjob
      obtain ⟨j, -, hj⟩ := List.mem_map.1 hmem
      exact posting_flags hj

end TrustCopilot.JobBoards
