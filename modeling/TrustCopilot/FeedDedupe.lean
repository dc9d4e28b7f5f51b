import TrustCopilot.Library.FirstByKey
import Mathlib.Data.Finset.Insert

/-! The feed ingest: items read off a feed, and the batches of them deduplicated against one set
of hashes. SHA-256 and the feed parser are left abstract. -/
namespace TrustCopilot.FeedDedupe

open TrustCopilot.FirstByKey

structure FeedItem where
  guid : String
  title : String
  url : String
  summary : Option String := none
  publishedAt : Option ℤ := none
  sourceFeedUrl : String := ""
  domain : String := ""
  contentHash : String := ""
  deriving DecidableEq, Repr

/-- An entry as the feed parser gives it; every key may be missing. `τ` is a parsed time. -/
structure FeedEntry (τ : Type) where
  id : Option String := none
  link : Option String := none
  title : Option String := none
  summary : Option String := none
  publishedParsed : Option τ := none
  updatedParsed : Option τ := none

section Fetch

variable {τ : Type} (sha256Hex : String → String) (timestamp : τ → Option ℤ)

def joinedText (title url : String) : String := title ++ "|" ++ url

def itemHash (title url : String) : String := sha256Hex (joinedText title url)

/-- The first of the two times that converts. -/
def parseDate (entry : FeedEntry τ) : Option ℤ :=
  (entry.publishedParsed.bind timestamp).or (entry.updatedParsed.bind timestamp)

/-- `a or b` on strings that may be missing. -/
def orElse (a b : Option String) : Option String :=
  match a with
  | some s => if s = "" then b else some s
  | none => b

def feedItem (feedUrl domain : String) (entry : FeedEntry τ) : Option FeedItem :=
  let guid := ((orElse entry.id entry.link).getD "")
  let title := entry.title.getD ""
  let url := entry.link.getD ""
  let summary := entry.summary.getD ""
  if guid = "" ∧ url = "" then none
  else some {
    guid := guid
    title := title
    url := url
    summary := if summary = "" then none else some (String.ofList (summary.toList.take 2000))
    publishedAt := parseDate timestamp entry
    sourceFeedUrl := feedUrl
    domain := domain
    contentHash := itemHash sha256Hex title url }

/-- `response` is the status and the text that the client got, `none` where it raised; `parse` is
the feed parser. -/
def fetchFeed (parse : String → Option (List (FeedEntry τ))) (response : Option (ℕ × String))
    (feedUrl : String) (domain : String := "") : List FeedItem :=
  match response with
  | none => []
  | some (status, text) =>
    if status ≠ 200 then []
    else ((parse text).getD []).filterMap (feedItem sha256Hex timestamp feedUrl domain)

variable {sha256Hex timestamp}

structure Fetched (sha256Hex : String → String) (item : FeedItem) : Prop where
  hashed : item.contentHash = itemHash sha256Hex item.title item.url
  named : item.guid ≠ ""

theorem feedItem_fetched {feedUrl domain : String} {entry : FeedEntry τ} {item : FeedItem}
    (h : feedItem sha256Hex timestamp feedUrl domain entry = some item) :
    Fetched sha256Hex item := by
  simp only [feedItem] at h
  split at h
  · cases h
  · next hkept =>
    cases h
    refine ⟨rfl, ?_⟩
    -- The identifier falls back on the link, so it is empty only if the link is.
    intro hguid
    refine hkept ⟨hguid, ?_⟩
    simp only [orElse] at hguid
    split at hguid
    · next s hs =>
      split at hguid
      · exact hguid
      · next hne => exact absurd hguid hne
    · exact hguid

theorem fetchFeed_fetched {parse : String → Option (List (FeedEntry τ))}
    {response : Option (ℕ × String)} {feedUrl domain : String} {item : FeedItem}
    (h : item ∈ fetchFeed sha256Hex timestamp parse response feedUrl domain) :
    Fetched sha256Hex item := by
  cases response with
  | none => cases h
  | some reply =>
    simp only [fetchFeed] at h
    split at h
    · cases h
    · obtain ⟨entry, -, hentry⟩ := List.mem_filterMap.1 h
      exact feedItem_fetched hentry

end Fetch

/-! ### Deduplication -/

/-- `item.content_hash or item.guid` -/
def dedupeKey (item : FeedItem) : String :=
  if item.contentHash = "" then item.guid else item.contentHash

structure Deduping where
  seenHashes : Finset String
  unique : List FeedItem := []

def keepNew (d : Deduping) (item : FeedItem) : Deduping :=
  if dedupeKey item ∈ d.seenHashes then d
  else ⟨insert (dedupeKey item) d.seenHashes, d.unique ++ [item]⟩

def dedupeItems (newItems : List FeedItem) (seenHashes : Finset String) :
    List FeedItem × Finset String :=
  let d := newItems.foldl keepNew { seenHashes := seenHashes }
  (d.unique, d.seenHashes)

def dedupeBatches : List (List FeedItem) → Finset String → List FeedItem × Finset String
  | [], seen => ([], seen)
  | batch :: batches, seen =>
    let (unique, seen') := dedupeItems batch seen
    let (rest, seen'') := dedupeBatches batches seen'
    (unique ++ rest, seen'')

def emitted (batches : List (List FeedItem)) : List FeedItem := (dedupeBatches batches ∅).1

theorem foldl_keepNew (items : List FeedItem) (d : Deduping) :
    (items.foldl keepNew d).unique = d.unique ++ (dedupeItems items d.seenHashes).1 ∧
      (items.foldl keepNew d).seenHashes = (dedupeItems items d.seenHashes).2 := by
  induction items using List.reverseRecOn with
  | nil => simp [dedupeItems]
  | append_singleton items item ih =>
    obtain ⟨hunique, hseen⟩ := ih
    simp only [dedupeItems, List.foldl_append, List.foldl_cons, List.foldl_nil] at hunique hseen ⊢
    rw [keepNew, keepNew, hseen]
    split
    · exact ⟨hunique, hseen⟩
    · simp [hunique]

theorem dedupeItems_append (xs ys : List FeedItem) (seen : Finset String) :
    dedupeItems (xs ++ ys) seen =
      ((dedupeItems xs seen).1 ++ (dedupeItems ys (dedupeItems xs seen).2).1,
        (dedupeItems ys (dedupeItems xs seen).2).2) := by
  have h := foldl_keepNew ys (xs.foldl keepNew { seenHashes := seen })
  rw [← List.foldl_append] at h
  exact Prod.ext h.1 h.2

/-- The cut into batches does not matter: they are one list of items. -/
theorem dedupeBatches_eq (batches : List (List FeedItem)) (seen : Finset String) :
    dedupeBatches batches seen = dedupeItems batches.flatten seen := by
  induction batches generalizing seen with
  | nil => rfl
  | cons batch batches ih =>
    rw [List.flatten_cons, dedupeItems_append, ← ih]
    rfl

/-- The first item of each key is emitted. -/
theorem dedupeItems_empty (items : List FeedItem) :
    (dedupeItems items ∅).1 = firstByKey dedupeKey items := by
  refine (@foldl_firstByKey _ _ _ dedupeKey _ keepNew Deduping.unique
    (fun d k => k ∈ d.seenHashes) ⟨∅, []⟩ rfl (fun k => Finset.notMem_empty k) ?_ ?_ ?_ items).1
  · intro d item h
    exact if_pos h
  · intro d item h
    rw [keepNew, if_neg h]
  · intro d item k h
    rw [keepNew, if_neg h, Finset.mem_insert, or_comm]

/-! ### What identifies an item -/

/-- Items whose hashes agree have the same joined text. -/
def CollisionFree (sha256Hex : String → String) (items : List FeedItem) : Prop :=
  ∀ x ∈ items, ∀ y ∈ items, itemHash sha256Hex x.title x.url = itemHash sha256Hex y.title y.url →
    joinedText x.title x.url = joinedText y.title y.url

def textKey (item : FeedItem) : String := joinedText item.title item.url

def SameArticle (x y : FeedItem) : Prop := x.title = y.title ∧ x.url = y.url

instance (x y : FeedItem) : Decidable (SameArticle x y) :=
  inferInstanceAs (Decidable (_ ∧ _))

theorem SameArticle.textKey {x y : FeedItem} (h : SameArticle x y) : textKey x = textKey y := by
  rw [FeedDedupe.textKey, FeedDedupe.textKey, h.1, h.2]

def Suppressed (before : List FeedItem) (item : FeedItem) : Prop :=
  (dedupeItems (before ++ [item]) ∅).1 = (dedupeItems before ∅).1

/-- No two emitted items share a guid, or title and link; a suppressed one shares its guid, or
title and link, with an earlier item; and the cut into batches does not matter. -/
structure Deduped (batches : List (List FeedItem)) : Prop where
  guids : (emitted batches).Pairwise fun x y => x.guid = y.guid → x.guid = ""
  articles : (emitted batches).Pairwise fun x y => ¬ SameArticle x y
  suppressed : ∀ before item after, batches.flatten = before ++ item :: after →
    Suppressed before item → ∃ x ∈ before, x.guid = item.guid ∨ SameArticle x item
  cuts : ∀ batches' : List (List FeedItem), batches'.flatten = batches.flatten →
    emitted batches' = emitted batches

/-- The guids tell the items apart as their joined texts do: an item with a new text has another
guid than the earlier items that had new texts, and an item with an old text has the guid, or the
title and the link, of an earlier one. -/
structure Distinguishable (items : List FeedItem) : Prop where
  guids : ∀ p x q y r, items = p ++ x :: (q ++ y :: r) → NewKey textKey p x →
    NewKey textKey (p ++ x :: q) y → x.guid ≠ y.guid
  texts : ∀ p y r, items = p ++ y :: r → ¬ NewKey textKey p y →
    ∃ x ∈ p, x.guid = y.guid ∨ SameArticle x y

section Runs

variable {sha256Hex : String → String} {items : List FeedItem}

theorem dedupeKey_fetched (hsha : ∀ s, sha256Hex s ≠ "") {item : FeedItem}
    (h : Fetched sha256Hex item) : dedupeKey item = sha256Hex (textKey item) := by
  rw [dedupeKey, h.hashed]
  exact if_neg (hsha _)

/-- Among fetched items the joined texts decide: the guids are never read. -/
theorem dedupeKey_eq_iff (hsha : ∀ s, sha256Hex s ≠ "")
    (hfetched : ∀ x ∈ items, Fetched sha256Hex x) (hfree : CollisionFree sha256Hex items)
    {x y : FeedItem} (hx : x ∈ items) (hy : y ∈ items) :
    dedupeKey x = dedupeKey y ↔ textKey x = textKey y := by
  rw [dedupeKey_fetched hsha (hfetched x hx), dedupeKey_fetched hsha (hfetched y hy)]
  constructor
  · exact hfree x hx y hy
  · exact congrArg sha256Hex

theorem newKey_dedupeKey_iff (hsha : ∀ s, sha256Hex s ≠ "")
    (hfetched : ∀ x ∈ items, Fetched sha256Hex x) (hfree : CollisionFree sha256Hex items)
    {p : List FeedItem} {y : FeedItem} (hp : p ⊆ items) (hy : y ∈ items) :
    NewKey dedupeKey p y ↔ NewKey textKey p y :=
  forall₂_congr fun _ hx => not_congr (dedupeKey_eq_iff hsha hfetched hfree (hp hx) hy)

theorem suppressed_iff {before : List FeedItem} {item : FeedItem} :
    Suppressed before item ↔ ¬ NewKey dedupeKey before item := by
  rw [Suppressed, dedupeItems_empty, dedupeItems_empty, firstByKey_concat, newKey_iff, not_not]
  split
  · next h => exact iff_of_true rfl h
  · next h => exact iff_of_false (by simp) h

theorem emitted_eq (batches : List (List FeedItem)) :
    emitted batches = firstByKey dedupeKey batches.flatten := by
  rw [emitted, dedupeBatches_eq, dedupeItems_empty]

/-- Emitted items have different joined texts, so never the same title and link. -/
theorem emitted_articles (hsha : ∀ s, sha256Hex s ≠ "")
    (hfetched : ∀ x ∈ items, Fetched sha256Hex x) :
    (firstByKey dedupeKey items).Pairwise fun x y => ¬ SameArticle x y := by
  rw [firstByKey_pairwise_iff]
  rintro p x q y r rfl - hy hsame
  have hx := hfetched x (by simp)
  have hy' := hfetched y (by simp)
  refine hy x (by simp) ?_
  rw [dedupeKey_fetched hsha hx, dedupeKey_fetched hsha hy', hsame.textKey]

/-- The stream is deduplicated by guid and by title and link exactly where the guids tell its
items apart as the joined texts do. -/
theorem deduped_iff_distinguishable {batches : List (List FeedItem)}
    (hsha : ∀ s, sha256Hex s ≠ "") (hfetched : ∀ x ∈ batches.flatten, Fetched sha256Hex x)
    (hfree : CollisionFree sha256Hex batches.flatten) :
    Deduped batches ↔ Distinguishable batches.flatten := by
  have hnew : ∀ {p : List FeedItem} {y : FeedItem} {r : List FeedItem},
      batches.flatten = p ++ y :: r → (NewKey dedupeKey p y ↔ NewKey textKey p y) := by
    intro p y r h
    refine newKey_dedupeKey_iff hsha hfetched hfree ?_ (by rw [h]; simp)
    rw [h]
    exact List.subset_append_left p (y :: r)
  have hsplit : ∀ {p : List FeedItem} {x : FeedItem} {q : List FeedItem} {y : FeedItem}
      {r : List FeedItem}, batches.flatten = p ++ x :: (q ++ y :: r) →
      batches.flatten = (p ++ x :: q) ++ y :: r := by
    intro p x q y r h
    rw [h]
    simp
  constructor
  · intro h
    have hguids := h.guids
    rw [emitted_eq, firstByKey_pairwise_iff] at hguids
    constructor
    · intro p x q y r hs hx hy hguid
      have hempty := hguids p x q y r hs ((hnew hs).2 hx) ((hnew (hsplit hs)).2 hy) hguid
      exact (hfetched x (by rw [hs]; simp)).named hempty
    · intro p y r hs hy
      exact h.suppressed p y r hs (suppressed_iff.2 (mt (hnew hs).1 hy))
  · intro h
    constructor
    · rw [emitted_eq, firstByKey_pairwise_iff]
      intro p x q y r hs hx hy hguid
      exact absurd hguid
        (h.guids p x q y r hs ((hnew hs).1 hx) ((hnew (hsplit hs)).1 hy))
    · rw [emitted_eq]
      exact emitted_articles hsha hfetched
    · intro p y r hs hy
      exact h.texts p y r hs (mt (hnew hs).2 (suppressed_iff.1 hy))
    · intro batches' hcut
      rw [emitted_eq, emitted_eq, hcut]

/-- Feeds in which an article keeps its title and link under its guid, and no two joined texts
coincide by accident, are told apart. -/
theorem distinguishable_of_stable
    (hguid : ∀ x ∈ items, ∀ y ∈ items, x.guid = y.guid → SameArticle x y)
    (htext : ∀ x ∈ items, ∀ y ∈ items, textKey x = textKey y → SameArticle x y) :
    Distinguishable items := by
  constructor
  · rintro p x q y r rfl - hy he
    exact hy x (by simp) (hguid x (by simp) y (by simp) he).textKey
  · rintro p y r rfl hy
    rw [NewKey] at hy
    push Not at hy
    obtain ⟨x, hx, hxy⟩ := hy
    exact ⟨x, hx, Or.inr (htext x (by simp [hx]) y (by simp) hxy)⟩

end Runs

/-! ### Two feeds -/

def sampleSha (s : String) : String :=
  if s = "Launch|https://a.com/launch" then
    "fd685aa751a1e5ce0fd2ba5cab43e39eef63bed8dbc8db75784effe5eae218ce"
  else if s = "Launch (updated)|https://a.com/launch" then
    "410743855107634bb34dedb3b6ddd547e91c1e38ac4c28f0ca789a195b890303"
  else "a52dd81bfd5e4e66d96b9f598382f6cbf8c5c3897654e6ae9055e03620fcf38e"

def launch : FeedItem where
  guid := "urn:1"
  title := "Launch"
  url := "https://a.com/launch"
  contentHash := "fd685aa751a1e5ce0fd2ba5cab43e39eef63bed8dbc8db75784effe5eae218ce"

example : feedItem sampleSha (fun _ : Unit => none) "" "" {
    id := some "urn:1"
    link := some "https://a.com/launch"
    title := some "Launch" } = some launch := by decide

def launchUpdated : FeedItem where
  guid := "urn:1"
  title := "Launch (updated)"
  url := "https://a.com/launch"
  contentHash := "410743855107634bb34dedb3b6ddd547e91c1e38ac4c28f0ca789a195b890303"

theorem sampleSha_ne_empty (s : String) : sampleSha s ≠ "" := by
  rw [sampleSha]
  split
  · decide
  · split <;> decide

theorem launches_fetched : ∀ x ∈ [[launch], [launchUpdated]].flatten, Fetched sampleSha x := by
  intro x hx
  simp only [List.flatten_cons, List.flatten_nil, List.append_nil, List.singleton_append,
    List.mem_cons, List.not_mem_nil, or_false] at hx
  rcases hx with rfl | rfl
  · exact ⟨by decide, by decide⟩
  · exact ⟨by decide, by decide⟩

theorem launches_collisionFree : CollisionFree sampleSha [[launch], [launchUpdated]].flatten := by
  unfold CollisionFree
  decide

theorem launches_deduped_iff :
    (∀ s, sampleSha s ≠ "") ∧ (∀ x ∈ [[launch], [launchUpdated]].flatten, Fetched sampleSha x) ∧
      CollisionFree sampleSha [[launch], [launchUpdated]].flatten ∧
      (Deduped [[launch], [launchUpdated]] ↔
        Distinguishable [[launch], [launchUpdated]].flatten) :=
  ⟨sampleSha_ne_empty, launches_fetched, launches_collisionFree,
    deduped_iff_distinguishable sampleSha_ne_empty launches_fetched launches_collisionFree⟩

/-- An article whose title is edited is emitted again under the same guid. -/
theorem edited_title_emitted_twice :
    (∀ x ∈ [[launch], [launchUpdated]].flatten, Fetched sampleSha x) ∧
      CollisionFree sampleSha [[launch], [launchUpdated]].flatten ∧
      emitted [[launch], [launchUpdated]] = [launch, launchUpdated] ∧
      ¬ Deduped [[launch], [launchUpdated]] := by
  have hemitted : emitted [[launch], [launchUpdated]] = [launch, launchUpdated] := by decide
  refine ⟨launches_fetched, launches_collisionFree, hemitted, ?_⟩
  intro h
  have hguids := h.guids
  rw [hemitted] at hguids
  have hsame : launch.guid = launchUpdated.guid → launch.guid = "" :=
    (List.pairwise_cons.1 hguids).1 launchUpdated (by simp)
  exact absurd (hsame (by decide)) (by decide)

end TrustCopilot.FeedDedupe
