import TrustCopilot.Library.OrderedDict
import TrustCopilot.Library.Trace
import Mathlib.Algebra.Order.Ring.Int
import Mathlib.Logic.Function.Basic

/-! The page fetcher and its cache of robots files. Any number of workers fetch pages; between
the requests of one of them the others go on, and all of them share the cache. Times are seconds
of the wall clock, which may jump. -/
namespace TrustCopilot.PageFetches

open TrustCopilot.OrderedDict
open TrustCopilot.Trace

structure FetchResult where
  url : String
  canonicalUrl : String
  statusCode : ℤ
  html : Option String := none
  contentHash : Option String := none
  etag : Option String := none
  lastModified : Option String := none
  fetchMs : ℤ := 0
  skipped : Bool := false
  skipReason : Option String := none
  error : Option String := none
  deriving DecidableEq, Repr

structure FetchCall where
  url : String
  prevEtag : Option String := none
  prevHash : Option String := none
  deriving DecidableEq, Repr

structure Response where
  url : String
  statusCode : ℤ
  text : String
  etag : Option String := none
  lastModified : Option String := none
  retryAfter : Option String := none
  deriving DecidableEq, Repr

inductive Arrival where
  | response (resp : Response) (elapsedMs : ℤ)
  | timeout
  | raised (message : String)
  deriving DecidableEq, Repr

/-- The libraries: `robotsUrl` is what `urlparse` makes of a page's address and `canFetch` the
verdict of `RobotFileParser` on the lines it has parsed; both may raise, with a text. -/
structure Web where
  robotsUrl : String → Except String String
  canFetch : List String → String → Except String Bool
  sha256Hex : String → String

def robotsTtl : ℤ := 3600

/-- An optional argument as a condition reads it: the empty text counts as missing. -/
def given (s : Option String) : Option String := s.filter (· ≠ "")

def failed (call : FetchCall) (message : String) : FetchResult where
  url := call.url
  canonicalUrl := call.url
  statusCode := 0
  error := some message

/-- The first 500 characters of what is raised. -/
def raisedText (message : String) : String := String.ofList (message.toList.take 500)

def disallowed (call : FetchCall) : FetchResult where
  url := call.url
  canonicalUrl := call.url
  statusCode := 0
  skipped := true
  skipReason := some "robots_disallowed"

variable (web : Web)

def pageResult (call : FetchCall) (resp : Response) (elapsedMs : ℤ) : FetchResult :=
  let base : FetchResult :=
    { url := call.url
      canonicalUrl := resp.url
      statusCode := resp.statusCode
      fetchMs := elapsedMs }
  let h := web.sha256Hex resp.text
  if resp.statusCode = 304 then
    { base with etag := call.prevEtag, skipped := true, skipReason := some "not_modified" }
  else if resp.statusCode = 429 then
    { base with error := some ("rate_limited:retry_after=" ++ resp.retryAfter.getD "60") }
  else if 400 ≤ resp.statusCode then
    { base with error := some ("http_" ++ toString resp.statusCode) }
  else if given call.prevHash = some h then
    { base with contentHash := some h, skipped := true, skipReason := some "content_unchanged" }
  else
    { base with
      html := some resp.text
      contentHash := some h
      etag := resp.etag
      lastModified := resp.lastModified }

def arrivalResult (call : FetchCall) : Arrival → FetchResult
  | .response resp elapsedMs => pageResult web call resp elapsedMs
  | .timeout => failed call "timeout"
  | .raised message => failed call (raisedText message)

/-- Where a worker is: between two calls, or waiting for a robots file or for a page. `now` is
what the call has read off the clock. -/
inductive Phase where
  | idle
  | robots (call : FetchCall) (site : String) (now : ℤ)
  | page (call : FetchCall)
  deriving DecidableEq, Repr

structure Fetcher (κ : Type*) where
  robotsCache : Dict String (List String × ℤ)
  phase : κ → Phase

variable {κ : Type*}

def Fetcher.start : Fetcher κ := ⟨Dict.empty, fun _ => .idle⟩

/-- What the workers do that can be seen: requests, the robots files that come in, results. The
stamp of a request and of a robots file is what its call has read off the clock. -/
inductive Effect (κ : Type*) where
  | robotsRequest (k : κ) (site : String) (now : ℤ)
  | robotsFile (site : String) (lines : List String) (now : ℤ)
  | pageRequest (k : κ) (call : FetchCall) (ifNoneMatch : Option String) (now : ℤ)
  | result (k : κ) (call : FetchCall) (r : FetchResult)
  deriving DecidableEq, Repr

/-- A robots file that does not come in counts as an empty one. -/
inductive Event (κ : Type*) where
  | start (k : κ) (call : FetchCall) (now : ℤ)
  | robotsArrived (k : κ) (lines : Option (List String))
  | pageArrived (k : κ) (arrival : Arrival)
  deriving DecidableEq, Repr

variable [DecidableEq κ]

def Fetcher.moveTo (s : Fetcher κ) (k : κ) (p : Phase) : Fetcher κ :=
  { s with phase := Function.update s.phase k p }

/-- What follows from a verdict: the page is asked for, or the call ends. -/
def afterRobots (s : Fetcher κ) (k : κ) (call : FetchCall) (now : ℤ) :
    Except String Bool → Fetcher κ × List (Effect κ)
  | .ok true => (s.moveTo k (.page call), [.pageRequest k call (given call.prevEtag) now])
  | .ok false => (s.moveTo k .idle, [.result k call (disallowed call)])
  | .error message => (s.moveTo k .idle, [.result k call (failed call (raisedText message))])

/-- A robots file in the cache that is not too old. -/
def freshLines (s : Fetcher κ) (site : String) (now : ℤ) : Option (List String) :=
  match s.robotsCache.get? site with
  | some (lines, cachedAt) => if now - cachedAt < robotsTtl then some lines else none
  | none => none

/-- One stretch of a call between two waits. An event that a worker does not wait for is none. -/
def step (s : Fetcher κ) : Event κ → Fetcher κ × List (Effect κ)
  | .start k call now =>
    match s.phase k with
    | .idle =>
      match web.robotsUrl call.url with
      | .error message =>
        (s, [.result k call (failed call (raisedText message))])
      | .ok site =>
        match freshLines s site now with
        | some lines => afterRobots s k call now (web.canFetch lines call.url)
        | none => (s.moveTo k (.robots call site now), [.robotsRequest k site now])
    | _ => (s, [])
  | .robotsArrived k arrived =>
    match s.phase k with
    | .robots call site now =>
      let lines := arrived.getD []
      let s' := { s with robotsCache := s.robotsCache.set site (lines, now) }
      let d := afterRobots s' k call now (web.canFetch lines call.url)
      (d.1, .robotsFile site lines now :: d.2)
    | _ => (s, [])
  | .pageArrived k arrival =>
    match s.phase k with
    | .page call => (s.moveTo k .idle, [.result k call (arrivalResult web call arrival)])
    | _ => (s, [])

def next (s : Fetcher κ) (e : Event κ) : Fetcher κ := (step web s e).1

def effects (s : Fetcher κ) (e : Event κ) : List (Effect κ) := (step web s e).2

def done (es : List (Event κ)) : List (Effect κ) := emitted (effects web) (next web) .start es

@[simp] theorem moveTo_phase_self (s : Fetcher κ) (k : κ) (p : Phase) :
    (s.moveTo k p).phase k = p := by simp [Fetcher.moveTo]

theorem moveTo_phase_other (s : Fetcher κ) {j k : κ} (h : j ≠ k) (p : Phase) :
    (s.moveTo k p).phase j = s.phase j := by simp [Fetcher.moveTo, h]

@[simp] theorem moveTo_robotsCache (s : Fetcher κ) (k : κ) (p : Phase) :
    (s.moveTo k p).robotsCache = s.robotsCache := rfl

inductive Stretch (s : Fetcher κ) : Event κ → Fetcher κ × List (Effect κ) → Prop
  | nothing (e : Event κ) (h : ∀ k call now, e = .start k call now → s.phase k ≠ .idle) :
    Stretch s e (s, [])
  | badAddress {k call now message} (hk : s.phase k = .idle)
    (hurl : web.robotsUrl call.url = .error message) :
    Stretch s (.start k call now) (s, [.result k call (failed call (raisedText message))])
  | askRobots {k call now site} (hk : s.phase k = .idle) (hurl : web.robotsUrl call.url = .ok site)
    (hfresh : freshLines s site now = none) :
    Stretch s (.start k call now) (s.moveTo k (.robots call site now), [.robotsRequest k site now])
  | cached {k call now site lines} (hk : s.phase k = .idle)
    (hurl : web.robotsUrl call.url = .ok site) (hfresh : freshLines s site now = some lines) :
    Stretch s (.start k call now) (afterRobots s k call now (web.canFetch lines call.url))
  | robots {k call site now} (arrived : Option (List String))
    (hk : s.phase k = .robots call site now) :
    Stretch s (.robotsArrived k arrived)
      ((afterRobots { s with robotsCache := s.robotsCache.set site (arrived.getD [], now) } k call
          now (web.canFetch (arrived.getD []) call.url)).1,
        .robotsFile site (arrived.getD []) now ::
          (afterRobots { s with robotsCache := s.robotsCache.set site (arrived.getD [], now) } k
            call now (web.canFetch (arrived.getD []) call.url)).2)
  | page {k call} (arrival : Arrival) (hk : s.phase k = .page call) :
    Stretch s (.pageArrived k arrival)
      (s.moveTo k .idle, [.result k call (arrivalResult web call arrival)])

theorem step_stretch (s : Fetcher κ) (e : Event κ) : Stretch web s e (step web s e) := by
  cases e with
  | start k call now =>
    rw [step]
    split
    · next hk =>
      split
      · next hurl => exact .badAddress hk hurl
      · next hurl =>
        split
        · next hfresh => exact .cached hk hurl hfresh
        · next hfresh => exact .askRobots hk hurl hfresh
    · next hk => exact .nothing _ fun _ _ _ h => by cases h; exact hk
  | robotsArrived k arrived =>
    rw [step]
    split
    · next hk => exact .robots arrived hk
    · exact .nothing _ fun _ _ _ h => by cases h
  | pageArrived k arrival =>
    rw [step]
    split
    · next hk => exact .page arrival hk
    · exact .nothing _ fun _ _ _ h => by cases h

/-! ### Nothing is fetched against the robots file -/

def lastFile (site : String) (before : List (Effect κ)) : Option (List String × ℤ) :=
  (before.filterMap fun
    | .robotsFile s lines now => if s = site then some (lines, now) else none
    | _ => none).getLast?

/-- The robots file of the call's site that came in last is not too old at `now`, and this is
what it says of the page. -/
def Says (before : List (Effect κ)) (call : FetchCall) (now : ℤ) (allowed : Bool) : Prop :=
  ∃ site lines at', web.robotsUrl call.url = .ok site ∧ lastFile site before = some (lines, at') ∧
    now - at' < robotsTtl ∧ web.canFetch lines call.url = .ok allowed

def Backed (before : List (Effect κ)) : Effect κ → Prop
  | .robotsRequest _ site now =>
    ∀ lines at', lastFile site before = some (lines, at') → robotsTtl ≤ now - at'
  | .robotsFile _ _ _ => True
  | .pageRequest _ call ifNoneMatch now =>
    Says web before call now true ∧ ifNoneMatch = given call.prevEtag
  | .result _ call r =>
    r.skipReason = some "robots_disallowed" → ∃ now, Says web before call now false

omit [DecidableEq κ] in
theorem lastFile_append (site : String) (before l : List (Effect κ)) :
    lastFile site (before ++ l) = (lastFile site l).or (lastFile site before) := by
  rw [lastFile, List.filterMap_append, List.getLast?_append]
  rfl

theorem afterRobots_robotsCache (s : Fetcher κ) (k : κ) (call : FetchCall) (now : ℤ)
    (v : Except String Bool) : (afterRobots s k call now v).1.robotsCache = s.robotsCache := by
  rcases v with message | (_ | _) <;> rfl

omit [DecidableEq κ] in
theorem freshLines_some {s : Fetcher κ} {site : String} {now : ℤ} {lines : List String}
    (h : freshLines s site now = some lines) :
    ∃ at', s.robotsCache.get? site = some (lines, at') ∧ now - at' < robotsTtl := by
  rw [freshLines] at h
  split at h
  · next found cachedAt hget =>
    split at h
    · next hage =>
      cases h
      exact ⟨cachedAt, hget, hage⟩
    · cases h
  · cases h

omit [DecidableEq κ] in
theorem freshLines_none {s : Fetcher κ} {site : String} {now : ℤ} (h : freshLines s site now = none)
    {lines : List String} {at' : ℤ} (hget : s.robotsCache.get? site = some (lines, at')) :
    robotsTtl ≤ now - at' := by
  rw [freshLines, hget] at h
  by_contra hage
  rw [not_le] at hage
  simp [hage] at h

/-- The cache is the robots files that came in last, and a worker waits for the robots file of
its own call's site. -/
structure Remembers (before : List (Effect κ)) (s : Fetcher κ) : Prop where
  cache : ∀ site, s.robotsCache.get? site = lastFile site before
  waiting : ∀ k call site now, s.phase k = .robots call site now → web.robotsUrl call.url = .ok site

theorem concat_prefix_singleton {α : Type*} {xs : List α} {a b : α} (h : xs ++ [a] <+: [b]) :
    xs = [] ∧ a = b := by
  cases xs with
  | nil => simpa using h
  | cons x xs => simp at h

theorem remembers_moveTo {before l : List (Effect κ)} {s : Fetcher κ} (h : Remembers web before s)
    {k : κ} {p : Phase} (hl : ∀ site, lastFile site l = none)
    (hp : ∀ call site now, p = .robots call site now → web.robotsUrl call.url = .ok site) :
    Remembers web (before ++ l) (s.moveTo k p) := by
  constructor
  · intro site
    rw [moveTo_robotsCache, lastFile_append, hl, Option.none_or]
    exact h.cache site
  · intro j call site now hj
    by_cases hjk : j = k
    · subst j
      rw [moveTo_phase_self] at hj
      exact hp call site now hj
    · rw [moveTo_phase_other s hjk] at hj
      exact h.waiting j call site now hj

omit [DecidableEq κ] in
theorem remembers_file {before : List (Effect κ)} {s : Fetcher κ} (h : Remembers web before s)
    (site : String) (lines : List String) (now : ℤ) :
    Remembers web (before ++ [.robotsFile site lines now])
      { s with robotsCache := s.robotsCache.set site (lines, now) } := by
  refine ⟨fun site' => ?_, h.waiting⟩
  rw [lastFile_append, Dict.get?_set, h.cache]
  by_cases hs : site' = site
  · subst site'
    simp [lastFile]
  · simp [lastFile, hs, Ne.symm hs]

/-- A verdict that is read off the last robots file: what the worker does then is backed by it. -/
theorem remembers_afterRobots {before : List (Effect κ)} {s : Fetcher κ}
    (h : Remembers web before s) {call : FetchCall} {now at' : ℤ} {site : String}
    {lines : List String} (k : κ) (hurl : web.robotsUrl call.url = .ok site)
    (hlast : lastFile site before = some (lines, at')) (hage : now - at' < robotsTtl) :
    let r := afterRobots s k call now (web.canFetch lines call.url)
    Remembers web (before ++ r.2) r.1 ∧
      ∀ ys a, ys ++ [a] <+: r.2 → Backed web (before ++ ys) a := by
  have hverdict : ∀ allowed, web.canFetch lines call.url = .ok allowed →
      Says web (before ++ []) call now allowed := fun allowed hv =>
    ⟨site, lines, at', hurl, by rw [List.append_nil, hlast], hage, hv⟩
  cases hv : web.canFetch lines call.url with
  | error message =>
    refine ⟨remembers_moveTo web h (fun _ => rfl) (fun _ _ _ hp => by cases hp), fun ys a hy => ?_⟩
    obtain ⟨rfl, rfl⟩ := concat_prefix_singleton hy
    intro hskip
    cases hskip
  | ok allowed =>
    cases allowed with
    | true =>
      refine ⟨remembers_moveTo web h (fun _ => rfl) (fun _ _ _ hp => by cases hp),
        fun ys a hy => ?_⟩
      obtain ⟨rfl, rfl⟩ := concat_prefix_singleton hy
      exact ⟨hverdict true hv, rfl⟩
    | false =>
      refine ⟨remembers_moveTo web h (fun _ => rfl) (fun _ _ _ hp => by cases hp),
        fun ys a hy => ?_⟩
      obtain ⟨rfl, rfl⟩ := concat_prefix_singleton hy
      exact fun _ => ⟨now, hverdict false hv⟩

inductive Outcome (call : FetchCall) : FetchResult → Prop
  | page {r : FetchResult} (text : String) (hhtml : r.html = some text)
    (hhash : r.contentHash = some (web.sha256Hex text))
    (hnew : given call.prevHash ≠ some (web.sha256Hex text)) (hstatus : r.statusCode < 400)
    (hskip : r.skipped = false ∧ r.skipReason = none) (herror : r.error = none) :
    Outcome call r
  | skip {r : FetchResult} (hhtml : r.html = none) (hskip : r.skipped = true)
    (hreason : r.skipReason = some "not_modified" ∨ r.skipReason = some "content_unchanged" ∨
      r.skipReason = some "robots_disallowed") (herror : r.error = none) : Outcome call r
  | error {r : FetchResult} (hhtml : r.html = none)
    (hskip : r.skipped = false ∧ r.skipReason = none) (herror : r.error.isSome) : Outcome call r

theorem pageResult_outcome (call : FetchCall) (resp : Response) (elapsedMs : ℤ) :
    Outcome web call (pageResult web call resp elapsedMs) ∧
      (pageResult web call resp elapsedMs).skipReason ≠ some "robots_disallowed" := by
  rw [pageResult]
  split_ifs with h304 h429 h400 hsame
  · exact ⟨.skip rfl rfl (Or.inl rfl) rfl, by simp⟩
  · exact ⟨.error rfl ⟨rfl, rfl⟩ rfl, by simp⟩
  · exact ⟨.error rfl ⟨rfl, rfl⟩ rfl, by simp⟩
  · exact ⟨.skip rfl rfl (Or.inr (Or.inl rfl)) rfl, by simp⟩
  · exact ⟨.page resp.text rfl rfl hsame (not_le.1 h400) ⟨rfl, rfl⟩ rfl, by simp⟩

theorem arrivalResult_outcome (call : FetchCall) (arrival : Arrival) :
    Outcome web call (arrivalResult web call arrival) ∧
      (arrivalResult web call arrival).skipReason ≠ some "robots_disallowed" := by
  cases arrival with
  | response resp elapsedMs => exact pageResult_outcome web call resp elapsedMs
  | timeout => exact ⟨.error rfl ⟨rfl, rfl⟩ rfl, by simp [arrivalResult, failed]⟩
  | raised message => exact ⟨.error rfl ⟨rfl, rfl⟩ rfl, by simp [arrivalResult, failed]⟩

theorem stretch_backed {before : List (Effect κ)} {s : Fetcher κ} {e : Event κ}
    {r : Fetcher κ × List (Effect κ)} (hs : Remembers web before s) (h : Stretch web s e r) :
    Remembers web (before ++ r.2) r.1 ∧
      ∀ ys a, ys ++ [a] <+: r.2 → Backed web (before ++ ys) a := by
  cases h with
  | nothing =>
    rw [List.append_nil]
    exact ⟨hs, fun ys a hy => absurd (List.prefix_nil.1 hy) (by simp)⟩
  | badAddress =>
    refine ⟨⟨fun site => ?_, hs.waiting⟩, fun ys a hy => ?_⟩
    · rw [lastFile_append]
      exact hs.cache site
    · obtain ⟨rfl, rfl⟩ := concat_prefix_singleton hy
      intro hskip
      cases hskip
  | askRobots hk hurl hfresh =>
    refine ⟨remembers_moveTo web hs (fun _ => rfl) fun _ _ _ hp => ?_, fun ys a hy => ?_⟩
    · cases hp
      exact hurl
    · obtain ⟨rfl, rfl⟩ := concat_prefix_singleton hy
      intro lines at' hlast
      rw [List.append_nil, ← hs.cache] at hlast
      exact freshLines_none hfresh hlast
  | cached hk hurl hfresh =>
    obtain ⟨at', hget, hage⟩ := freshLines_some hfresh
    exact remembers_afterRobots web hs _ hurl (by rw [← hs.cache, hget]) hage
  | @robots k call site now arrived hk =>
    have hfile := remembers_file web hs site (arrived.getD []) now
    have hlast : lastFile site (before ++ [.robotsFile site (arrived.getD []) now]) =
        some (arrived.getD [], now) := by simp [lastFile]
    have hage : now - now < robotsTtl := by simp [robotsTtl]
    obtain ⟨hnext, hbacked⟩ := remembers_afterRobots web hfile k (hs.waiting k call site now hk)
      hlast hage
    rw [List.append_assoc] at hnext
    refine ⟨hnext, fun ys a hy => ?_⟩
    rcases concat_prefix_append (l := [_]) hy with hy | ⟨zs, rfl, hz⟩
    · obtain ⟨rfl, rfl⟩ := concat_prefix_singleton hy
      trivial
    · rw [← List.append_assoc]
      exact hbacked zs a hz
  | @page k call arrival hk =>
    refine ⟨remembers_moveTo web hs (fun _ => rfl) (fun _ _ _ hp => by cases hp), fun ys a hy => ?_⟩
    obtain ⟨rfl, rfl⟩ := concat_prefix_singleton hy
    exact fun hskip => absurd hskip (arrivalResult_outcome web call arrival).2

def acmeWeb : Web where
  robotsUrl := fun _ => .ok "https://acme.io/robots.txt"
  canFetch := fun lines _ => .ok (lines = [])
  sha256Hex := fun _ => "2689367b205c16ce32ed4200942b8b8b1e262dfc70d9bc9fbc77c49699a4f1df"

def begun (k : κ) (s : Fetcher κ) : Event κ → List FetchCall
  | .start j call _ => if j = k ∧ s.phase k = .idle then [call] else []
  | _ => []

def Phase.call : Phase → List FetchCall
  | .idle => []
  | .robots call _ _ => [call]
  | .page call => [call]

def answers (k : κ) (l : List (Effect κ)) : List (FetchCall × FetchResult) :=
  l.filterMap fun
    | .result j call r => if j = k then some (call, r) else none
    | _ => none

theorem answers_append (k : κ) (l l' : List (Effect κ)) :
    answers k (l ++ l') = answers k l ++ answers k l' := List.filterMap_append

/-- In one stretch, what a worker had in hand and what it begins is what it answers and what it
has in hand afterwards. -/
theorem afterRobots_answers (s : Fetcher κ) (j k : κ) (call : FetchCall) (now : ℤ)
    (v : Except String Bool) :
    ((answers k (afterRobots s j call now v).2).map Prod.fst) ++
        ((afterRobots s j call now v).1.phase k).call =
      if j = k then [call] else (s.phase k).call := by
  by_cases hjk : j = k
  · subst j
    rcases v with message | (_ | _) <;> simp [afterRobots, answers, Phase.call]
  · have hkj : k ≠ j := Ne.symm hjk
    rcases v with message | (_ | _) <;>
      simp [afterRobots, answers, hjk, moveTo_phase_other s hkj]

theorem stretch_answers {s : Fetcher κ} {e : Event κ} {r : Fetcher κ × List (Effect κ)} (k : κ)
    (h : Stretch web s e r) :
    (s.phase k).call ++ begun k s e = (answers k r.2).map Prod.fst ++ (r.1.phase k).call := by
  cases h with
  | nothing e hbusy =>
    have hnone : begun k s e = [] := by
      cases e with
      | start j call now =>
        rw [begun, if_neg]
        rintro ⟨rfl, hidle⟩
        exact hbusy j call now rfl hidle
      | robotsArrived => rfl
      | pageArrived => rfl
    rw [hnone, List.append_nil]
    rfl
  | @badAddress j call now message hj hurl =>
    by_cases hjk : j = k
    · subst j
      simp [begun, answers, hj, Phase.call]
    · simp [begun, answers, hjk]
  | @askRobots j call now site hj hurl hfresh =>
    by_cases hjk : j = k
    · subst j
      simp [begun, answers, hj, Phase.call]
    · simp [begun, answers, hjk, moveTo_phase_other s (Ne.symm hjk)]
  | @cached j call now site lines hj hurl hfresh =>
    rw [afterRobots_answers]
    by_cases hjk : j = k
    · subst j
      simp [begun, hj, Phase.call]
    · simp [begun, hjk]
  | @robots j call site now arrived hj =>
    have hfile : ∀ l : List (Effect κ),
        answers k (.robotsFile site (arrived.getD []) now :: l) = answers k l := fun _ => rfl
    rw [hfile, afterRobots_answers]
    by_cases hjk : j = k
    · subst j
      simp [begun, hj, Phase.call]
    · simp [begun, hjk]
  | @page j call arrival hj =>
    by_cases hjk : j = k
    · subst j
      simp [begun, answers, hj, Phase.call]
    · simp [begun, answers, hjk, moveTo_phase_other s (Ne.symm hjk)]

theorem done_concat (es : List (Event κ)) (e : Event κ) :
    done web (es ++ [e]) = done web es ++ effects web (runTrace (next web) .start es) e :=
  emitted_concat _ _ es e

theorem begun_answered (es : List (Event κ)) (k : κ) :
    emitted (begun k) (next web) .start es =
      (answers k (done web es)).map Prod.fst ++ ((runTrace (next web) .start es).phase k).call := by
  induction es using List.reverseRecOn with
  | nil => rfl
  | append_singleton es e ih =>
    have hstep := stretch_answers web k (step_stretch web (runTrace (next web) .start es) e)
    rw [emitted_concat, ih, List.append_assoc, hstep, done_concat, answers_append,
      List.map_append, List.append_assoc, runTrace_concat]
    rfl

def Answer (call : FetchCall) (r : FetchResult) : Prop := r.url = call.url ∧ Outcome web call r

def AnswersAll (l : List (Effect κ)) : Prop :=
  ∀ k call r, Effect.result k call r ∈ l → Answer web call r

theorem failed_answer (call : FetchCall) (message : String) :
    Answer web call (failed call message) :=
  ⟨rfl, .error rfl ⟨rfl, rfl⟩ rfl⟩

theorem arrivalResult_answer (call : FetchCall) (arrival : Arrival) :
    Answer web call (arrivalResult web call arrival) := by
  refine ⟨?_, (arrivalResult_outcome web call arrival).1⟩
  cases arrival with
  | response resp elapsedMs =>
    rw [arrivalResult, pageResult]
    split_ifs <;> rfl
  | timeout => rfl
  | raised => rfl

theorem afterRobots_answersAll (s : Fetcher κ) (k : κ) (call : FetchCall) (now : ℤ)
    (v : Except String Bool) : AnswersAll web (afterRobots s k call now v).2 := by
  intro j c r hr
  rcases v with message | (_ | _)
  · cases List.mem_singleton.1 hr
    exact failed_answer web call _
  · cases List.mem_singleton.1 hr
    exact ⟨rfl, .skip rfl rfl (Or.inr (Or.inr rfl)) rfl⟩
  · cases List.mem_singleton.1 hr

theorem stretch_answersAll {s : Fetcher κ} {e : Event κ} {r : Fetcher κ × List (Effect κ)}
    (h : Stretch web s e r) : AnswersAll web r.2 := by
  intro j c a ha
  cases h with
  | nothing => cases ha
  | badAddress =>
    cases List.mem_singleton.1 ha
    exact failed_answer web _ _
  | askRobots => cases List.mem_singleton.1 ha
  | cached => exact afterRobots_answersAll web _ _ _ _ _ j c a ha
  | robots =>
    rcases List.mem_cons.1 ha with ha | ha
    · cases ha
    · exact afterRobots_answersAll web _ _ _ _ _ j c a ha
  | page =>
    cases List.mem_singleton.1 ha
    exact arrivalResult_answer web _ _

omit [DecidableEq κ] in
theorem mem_answers [DecidableEq κ] {k : κ} {l : List (Effect κ)} {p : FetchCall × FetchResult}
    (h : p ∈ answers k l) : Effect.result k p.1 p.2 ∈ l := by
  obtain ⟨a, ha, hp⟩ := List.mem_filterMap.1 h
  cases a with
  | result j call r =>
    by_cases hj : j = k
    · subst j
      simp only [if_pos, Option.some.injEq] at hp
      subst p
      exact ha
    · simp [hj] at hp
  | robotsRequest => cases hp
  | robotsFile => cases hp
  | pageRequest => cases hp

/-- Every call that a worker begins is answered once, in the order in which they were begun, or is
the one the worker still has in hand; each answer is about the address that was asked for, and is a
new page with the hash of its text, or a skip with its reason, or an error, and only one of them. -/
theorem calls_answered (es : List (Event κ)) (k : κ) :
    emitted (begun k) (next web) .start es =
        (answers k (done web es)).map Prod.fst ++ ((runTrace (next web) .start es).phase k).call ∧
      ∀ p ∈ answers k (done web es), Answer web p.1 p.2 := by
  refine ⟨begun_answered web es k, fun p hp => ?_⟩
  obtain ⟨xs, e, -, ha⟩ := mem_emitted (mem_answers hp)
  exact stretch_answersAll web (step_stretch web _ e) k p.1 p.2 ha

/-! ### One call after the other -/

/-- A call begins only when no other is under way. -/
def Alone (s : Fetcher κ) : Event κ → Prop
  | .start _ _ _ => ∀ j, s.phase j = .idle
  | _ => True

def requestStamps (site : String) (l : List (Effect κ)) : List ℤ :=
  l.filterMap fun
    | .robotsRequest _ s now => if s = site then some now else none
    | _ => none

def Spaced (t t' : ℤ) : Prop := t + robotsTtl ≤ t'

/-- While at most one call is under way: the requests so far for one site are spaced, and none is
later than the request under way for it or, when there is none, than the stamp in the cache. -/
structure OneByOne (before : List (Effect κ)) (s : Fetcher κ) : Prop where
  spaced : ∀ site, (requestStamps site before).Pairwise Spaced
  alone : ∀ j k, s.phase j ≠ .idle → s.phase k ≠ .idle → j = k
  asked : ∀ k call site now, s.phase k = .robots call site now →
    ∀ t ∈ requestStamps site before, t ≤ now
  stored : ∀ site, (∀ k call now, s.phase k ≠ .robots call site now) →
    ∀ t ∈ requestStamps site before,
      ∃ lines at', s.robotsCache.get? site = some (lines, at') ∧ t ≤ at'

omit [DecidableEq κ] in
theorem requestStamps_append (site : String) (before l : List (Effect κ)) :
    requestStamps site (before ++ l) = requestStamps site before ++ requestStamps site l :=
  List.filterMap_append

theorem requestStamps_afterRobots (s : Fetcher κ) (k : κ) (call : FetchCall) (now : ℤ)
    (v : Except String Bool) (site : String) :
    requestStamps site (afterRobots s k call now v).2 = [] := by
  rcases v with message | (_ | _) <;> rfl

def NoneAsked (s : Fetcher κ) : Prop := ∀ k call site now, s.phase k ≠ .robots call site now

theorem oneByOne_settled {before l : List (Effect κ)} {s s' : Fetcher κ} {k : κ} {p : Phase}
    (hspaced : ∀ site, (requestStamps site before).Pairwise Spaced)
    (hidle : ∀ j, j ≠ k → s.phase j = .idle) (hp : ∀ call site now, p ≠ .robots call site now)
    (hl : ∀ site, requestStamps site l = [])
    (hstored : ∀ site, ∀ t ∈ requestStamps site before,
      ∃ lines at', s'.robotsCache.get? site = some (lines, at') ∧ t ≤ at')
    (hphase : s'.phase = (s.moveTo k p).phase) : OneByOne (before ++ l) s' := by
  have hstamps : ∀ site, requestStamps site (before ++ l) = requestStamps site before := by
    intro site
    rw [requestStamps_append, hl, List.append_nil]
  have hother : ∀ j, j ≠ k → s'.phase j = .idle := by
    intro j hj
    rw [hphase, moveTo_phase_other s hj, hidle j hj]
  have hself : s'.phase k = p := by rw [hphase, moveTo_phase_self]
  have hnone : NoneAsked s' := by
    intro j call site now hj
    by_cases hjk : j = k
    · subst j
      exact hp call site now (hself.symm.trans hj)
    · rw [hother j hjk] at hj
      cases hj
  constructor
  · intro site
    rw [hstamps]
    exact hspaced site
  · intro i j hi hj
    have hik : i = k := by_contra fun h => hi (hother i h)
    have hjk : j = k := by_contra fun h => hj (hother j h)
    rw [hik, hjk]
  · exact fun j call site now hj => absurd hj (hnone j call site now)
  · intro site _ t ht
    rw [hstamps] at ht
    exact hstored site t ht

theorem oneByOne_afterRobots {before : List (Effect κ)} {s : Fetcher κ} {k : κ}
    (hspaced : ∀ site, (requestStamps site before).Pairwise Spaced)
    (hidle : ∀ j, j ≠ k → s.phase j = .idle)
    (hstored : ∀ site, ∀ t ∈ requestStamps site before,
      ∃ lines at', s.robotsCache.get? site = some (lines, at') ∧ t ≤ at')
    (call : FetchCall) (now : ℤ) (v : Except String Bool) :
    OneByOne (before ++ (afterRobots s k call now v).2) (afterRobots s k call now v).1 := by
  have hcache : ∀ site, ∀ t ∈ requestStamps site before, ∃ lines at',
      (afterRobots s k call now v).1.robotsCache.get? site = some (lines, at') ∧ t ≤ at' := by
    rw [afterRobots_robotsCache]
    exact hstored
  have hl := requestStamps_afterRobots s k call now v
  rcases v with message | (_ | _)
  · exact oneByOne_settled (p := .idle) hspaced hidle (fun _ _ _ h => by cases h) hl hcache rfl
  · exact oneByOne_settled (p := .idle) hspaced hidle (fun _ _ _ h => by cases h) hl hcache rfl
  · exact oneByOne_settled (p := .page call) hspaced hidle (fun _ _ _ h => by cases h) hl hcache rfl

theorem oneByOne_asked {before : List (Effect κ)} {s : Fetcher κ} (hs : OneByOne before s)
    (hidle : ∀ j, s.phase j = .idle) (k : κ) (call : FetchCall) {site : String} {now : ℤ}
    (hfresh : freshLines s site now = none) :
    OneByOne (before ++ [.robotsRequest k site now]) (s.moveTo k (.robots call site now)) := by
  have hnone : NoneAsked s := fun j c st t hj => by
    rw [hidle j] at hj
    cases hj
  have hold : ∀ t ∈ requestStamps site before, Spaced t now := by
    intro t ht
    obtain ⟨lines, at', hget, hle⟩ := hs.stored site (fun j c t' => hnone j c site t') t ht
    have hage := freshLines_none hfresh hget
    simp only [Spaced]
    omega
  have hother : ∀ j, j ≠ k → (s.moveTo k (.robots call site now)).phase j = .idle := by
    intro j hj
    rw [moveTo_phase_other s hj, hidle j]
  have hsame : requestStamps site (before ++ [.robotsRequest k site now]) =
      requestStamps site before ++ [now] := by
    rw [requestStamps_append]
    simp [requestStamps]
  have hdiff : ∀ site', site' ≠ site →
      requestStamps site' (before ++ [.robotsRequest k site now]) = requestStamps site' before := by
    intro site' hne
    rw [requestStamps_append]
    simp [requestStamps, Ne.symm hne]
  constructor
  · intro site'
    by_cases hsite : site' = site
    · subst site'
      rw [hsame, List.pairwise_append]
      refine ⟨hs.spaced site, List.pairwise_singleton _ _, fun t ht u hu => ?_⟩
      rw [List.mem_singleton.1 hu]
      exact hold t ht
    · rw [hdiff site' hsite]
      exact hs.spaced site'
  · intro i j hi hj
    have hik : i = k := by_contra fun h => hi (hother i h)
    have hjk : j = k := by_contra fun h => hj (hother j h)
    rw [hik, hjk]
  · intro j c site' now' hj t ht
    by_cases hjk : j = k
    · subst j
      rw [moveTo_phase_self] at hj
      cases hj
      rw [hsame, List.mem_append, List.mem_singleton] at ht
      rcases ht with ht | rfl
      · have hspace : t + 3600 ≤ now := hold t ht
        omega
      · exact le_refl t
    · rw [hother j hjk] at hj
      cases hj
  · intro site' hfree t ht
    have hne : site' ≠ site := by
      rintro rfl
      exact hfree k call now (moveTo_phase_self s k _)
    rw [hdiff site' hne] at ht
    exact hs.stored site' (fun j c t' => hnone j c site' t') t ht

theorem stretch_oneByOne {before : List (Effect κ)} {s : Fetcher κ} {e : Event κ}
    {r : Fetcher κ × List (Effect κ)} (hs : OneByOne before s) (he : Alone s e)
    (h : Stretch web s e r) : OneByOne (before ++ r.2) r.1 := by
  cases h with
  | nothing =>
    rw [List.append_nil]
    exact hs
  | @badAddress k call now message hk hurl =>
    have hstamps : ∀ site, requestStamps site
        (before ++ [.result k call (failed call (raisedText message))]) =
          requestStamps site before := by
      intro site
      rw [requestStamps_append]
      exact List.append_nil _
    refine ⟨fun site => ?_, hs.alone, fun j c site t hj => ?_, fun site hfree => ?_⟩
    · rw [hstamps]
      exact hs.spaced site
    · rw [hstamps]
      exact hs.asked j c site t hj
    · rw [hstamps]
      exact hs.stored site hfree
  | @askRobots k call now site hk hurl hfresh => exact oneByOne_asked hs he k call hfresh
  | @cached k call now site lines hk hurl hfresh =>
    refine oneByOne_afterRobots hs.spaced (fun j _ => he j) (fun site t ht => ?_) call now _
    refine hs.stored site (fun j c t' hj => ?_) t ht
    rw [he j] at hj
    cases hj
  | @robots k call site now arrived hk =>
    have hidle : ∀ j, j ≠ k → s.phase j = .idle := by
      intro j hj
      by_contra hbusy
      exact hj (hs.alone j k hbusy (by rw [hk]; simp))
    have hfile : before ++ (Effect.robotsFile site (arrived.getD []) now ::
        (afterRobots { s with robotsCache := s.robotsCache.set site (arrived.getD [], now) } k call
          now (web.canFetch (arrived.getD []) call.url)).2) =
        (before ++ [.robotsFile site (arrived.getD []) now]) ++
          (afterRobots { s with robotsCache := s.robotsCache.set site (arrived.getD [], now) } k
            call now (web.canFetch (arrived.getD []) call.url)).2 := by
      rw [List.append_assoc]
      rfl
    have hstamps : ∀ site', requestStamps site'
        (before ++ [.robotsFile site (arrived.getD []) now]) = requestStamps site' before := by
      intro site'
      rw [requestStamps_append]
      exact List.append_nil _
    dsimp only
    rw [hfile]
    refine oneByOne_afterRobots (s := ⟨s.robotsCache.set site (arrived.getD [], now), s.phase⟩)
      (fun site' => ?_) hidle (fun site' t ht => ?_) call now _
    · rw [hstamps]
      exact hs.spaced site'
    · rw [hstamps] at ht
      by_cases hsite : site' = site
      · subst site'
        exact ⟨_, now, Dict.get?_set_self _ _ _, hs.asked k call site now hk t ht⟩
      · rw [Dict.get?_set_other _ hsite]
        refine hs.stored site' (fun j c t' hj => ?_) t ht
        by_cases hjk : j = k
        · subst j
          rw [hk] at hj
          cases hj
          exact hsite rfl
        · rw [hidle j hjk] at hj
          cases hj
  | @page k call arrival hk =>
    have hidle : ∀ j, j ≠ k → s.phase j = .idle := by
      intro j hj
      by_contra hbusy
      exact hj (hs.alone j k hbusy (by rw [hk]; simp))
    refine oneByOne_settled (p := .idle) hs.spaced hidle (fun _ _ _ h => by cases h)
      (fun _ => rfl) (fun site t ht => ?_) rfl
    refine hs.stored site (fun j c t' hj => ?_) t ht
    by_cases hjk : j = k
    · subst j
      rw [hk] at hj
      cases hj
    · rw [hidle j hjk] at hj
      cases hj

/-- When calls are made one after the other, however the clock jumps and whatever answers: a site's
robots file is asked for at most once in every hour of the clock. -/
theorem requests_spaced (es : List (Event κ)) (site : String)
    (h : ValidTrace Alone (next web) .start es) :
    (requestStamps site (done web es)).Pairwise Spaced := by
  have hstart : OneByOne [] (Fetcher.start : Fetcher κ) := by
    refine ⟨fun _ => List.Pairwise.nil, fun j k hj => absurd rfl hj, fun k c st t hk => ?_,
      fun st _ t ht => ?_⟩
    · cases hk
    · cases ht
  have hstep : ∀ before (s : Fetcher κ) (e : Event κ), OneByOne before s → Alone s e →
      OneByOne (before ++ effects web s e) (next web s e) ∧
        ∀ ys a, ys ++ [a] <+: effects web s e → True :=
    fun before s e hs he =>
      ⟨stretch_oneByOne web hs he (step_stretch web s e), fun _ _ _ => trivial⟩
  exact (emitted_after (Q := fun _ _ => True) hstart hstep h).1.spaced site

theorem requests_spaced_acme :
    (requestStamps "https://acme.io/robots.txt" (done acmeWeb
      [.start () ⟨"https://acme.io/trust", none, none⟩ 5, .robotsArrived () none,
        .pageArrived () .timeout, .start () ⟨"https://acme.io/trust", none, none⟩ 3605])).Pairwise
      Spaced :=
  requests_spaced acmeWeb _ _
    ⟨fun _ => rfl, trivial, trivial, fun j => by cases j; decide, trivial⟩

end TrustCopilot.PageFetches
