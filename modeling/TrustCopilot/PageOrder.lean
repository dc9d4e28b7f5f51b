import TrustCopilot.BuyerResolver
import TrustCopilot.Library.FirstByKey

/-! What the order of the pages changes in the buyers resolved from them. A person who is named
on several pages is credited by the first of these. -/
namespace TrustCopilot.PageOrder

open TrustCopilot.BuyerResolver
open TrustCopilot.FirstByKey

structure Credit where
  confidence : ℚ
  role : String
  normalizedRole : String
  deriving DecidableEq, Repr

def creditOf (c : BuyerCandidate) : Credit := ⟨c.confidence, c.role, c.normalizedRole⟩

section Credits

variable (tools : TextTools)

/-- Names differ as people only by more than their case. -/
def person (c : BuyerCandidate) : String := tools.lower c.name

def pageCredits (page : Page) : List BuyerCandidate :=
  (extractFromText tools page).map (boosted page.source)

def people (pages : List Page) : List String := (resolveBuyers tools pages).map (person tools)

/-- The first page of the list that names the person supports the candidate. -/
def CreditedFirst (pages : List Page) (c : BuyerCandidate) : Prop :=
  ∃ before page after, pages = before ++ page :: after ∧ c ∈ pageCredits tools page ∧
    ∀ q ∈ before, ∀ d ∈ pageCredits tools q, person tools d ≠ person tools c

/-- The order of the pages does not matter, and the best page decides. -/
structure OrderFree (pages : List Page) : Prop where
  people : ∀ pages' : List Page, pages'.Perm pages →
    ∀ x, x ∈ people tools pages' ↔ x ∈ people tools pages
  credits : ∀ pages' : List Page, pages'.Perm pages →
    ∀ c ∈ resolveBuyers tools pages, ∀ d ∈ resolveBuyers tools pages',
      person tools c = person tools d → creditOf c = creditOf d
  highest : ∀ c ∈ resolveBuyers tools pages, ∀ page ∈ pages, ∀ d ∈ pageCredits tools page,
    person tools c = person tools d → d.confidence ≤ c.confidence

/-- Two pages that name one person give them the same role and confidence. -/
def PagesAgree (pages : List Page) : Prop :=
  ∀ p ∈ pages, ∀ q ∈ pages, ∀ c ∈ pageCredits tools p, ∀ d ∈ pageCredits tools q,
    person tools c = person tools d → creditOf c = creditOf d

def keep (g : Gathering) (c : BuyerCandidate) : Gathering :=
  if person tools c ∈ g.seen then g else g.add tools.lower c

end Credits

variable {tools : TextTools} {pages : List Page}

theorem addPage_eq (g : Gathering) (page : Page) :
    addPage tools g page = (pageCredits tools page).foldl (keep tools) g := by
  rw [pageCredits, List.foldl_map]
  rfl

theorem pages_eq (pages : List Page) :
    pages.foldl (addPage tools) {} =
      (pages.flatMap (pageCredits tools)).foldl (keep tools) {} := by
  rw [List.foldl_flatMap]
  congr
  funext g page
  exact addPage_eq g page

/-- The loops keep the first candidate for each person. -/
theorem kept (cs : List BuyerCandidate) :
    (cs.foldl (keep tools) {}).candidates = firstByKey (person tools) cs ∧
    ∀ x, x ∈ (cs.foldl (keep tools) {}).seen ↔ x ∈ cs.map (person tools) := by
  let seen (g : Gathering) (x : String) : Prop := x ∈ g.seen
  have hseen : ∀ x, ¬ seen {} x := fun _ => List.not_mem_nil
  refine foldl_firstByKey rfl hseen ?_ ?_ ?_ cs
  · intro g c hc
    exact if_pos hc
  · intro g c hc
    have hstep : keep tools g c = g.add tools.lower c := if_neg hc
    rw [hstep]
    rfl
  · intro g c x hc
    have hstep : keep tools g c = g.add tools.lower c := if_neg hc
    rw [hstep]
    exact List.mem_cons.trans or_comm

theorem mem_resolveBuyers {c : BuyerCandidate} :
    c ∈ resolveBuyers tools pages ↔
      c ∈ firstByKey (person tools) (pages.flatMap (pageCredits tools)) := by
  rw [resolveBuyers, List.mem_insertionSort, pages_eq, (kept _).1]

theorem extractFromText_distinct (page : Page) :
    ((extractFromText tools page).map (person tools)).Nodup := by
  have htitled : Gathered tools.lower (fun _ => True)
      ((tools.titleMatches page.text).foldl
        (addMatch tools titleConfidence page.source page.url) {}) :=
    List.foldlRecOn _ _ (gathered_empty _) fun g hg m _ => addMatch_gathered (fun _ _ => trivial) hg
  have hboth := List.foldlRecOn (tools.structuredMatches page.text)
    (addMatch tools structuredConfidence "structured_data" page.url) htitled
    fun g hg m _ => addMatch_gathered (fun _ _ => trivial) hg
  have hnodup := List.nodup_reverse.2 hboth.distinct
  rw [← hboth.names] at hnodup
  exact hnodup

theorem pageCredits_distinct (page : Page) :
    ((pageCredits tools page).map (person tools)).Nodup := by
  rw [pageCredits, List.map_map]
  exact extractFromText_distinct page

theorem mem_resolveBuyers_iff {c : BuyerCandidate} :
    c ∈ resolveBuyers tools pages ↔ CreditedFirst tools pages c := by
  rw [mem_resolveBuyers, mem_firstByKey_flatMap pageCredits_distinct, CreditedFirst]

theorem mem_people_iff {x : String} :
    x ∈ people tools pages ↔ ∃ page ∈ pages, ∃ d ∈ pageCredits tools page, person tools d = x := by
  rw [people, List.mem_map]
  constructor
  · rintro ⟨c, hc, rfl⟩
    obtain ⟨page, hpage, hcp⟩ := List.mem_flatMap.1 (mem_of_firstByKey (mem_resolveBuyers.1 hc))
    exact ⟨page, hpage, c, hcp, rfl⟩
  · rintro ⟨page, hpage, d, hd, rfl⟩
    obtain ⟨c, hc, hcd⟩ := @firstByKey_covers _ _ _ (person tools) d _
      (List.mem_flatMap.2 ⟨page, hpage, hd⟩)
    exact ⟨c, mem_resolveBuyers.2 hc, hcd⟩

theorem people_perm {pages' : List Page} (h : pages'.Perm pages) (x : String) :
    x ∈ people tools pages' ↔ x ∈ people tools pages := by
  rw [mem_people_iff, mem_people_iff]
  simp only [h.mem_iff]

theorem orderFree_iff : OrderFree tools pages ↔ PagesAgree tools pages := by
  have hfree := @order_free_iff _ Credit _ _ _ (person tools) (pageCredits tools) pages
    pageCredits_distinct creditOf
  simp only [← mem_resolveBuyers] at hfree
  constructor
  · intro h
    exact hfree.1 h.credits
  · intro h
    refine ⟨fun pages' hperm => people_perm hperm, hfree.2 h, fun c hc page hpage d hd hcd => ?_⟩
    obtain ⟨p, hp, hcp⟩ := List.mem_flatMap.1 (mem_of_firstByKey (mem_resolveBuyers.1 hc))
    have hsame := h p hp page hpage c hcp d hd hcd
    exact (congrArg Credit.confidence hsame).ge

/-- The order of the pages does not change who is found. It decides which page a person is
credited by, the first that names them, and so does not matter exactly if the pages agree. -/
theorem first_page_credits (tools : TextTools) (pages : List Page) :
    (∀ pages' : List Page, pages'.Perm pages →
      ∀ x, x ∈ people tools pages' ↔ x ∈ people tools pages) ∧
    (∀ c, c ∈ resolveBuyers tools pages ↔ CreditedFirst tools pages c) ∧
    (OrderFree tools pages ↔ PagesAgree tools pages) :=
  ⟨fun _ hperm => people_perm hperm, fun _ => mem_resolveBuyers_iff, orderFree_iff⟩

def officerText : String := "John Doe - Chief Technology Officer"

def officerTools : TextTools where
  titleMatches text :=
    if text = officerText then [⟨"John Doe", "Chief Technology Officer", officerText⟩] else []
  structuredMatches _ := []
  lower name := name.map Char.toLower
  alnum _ := false

def aboutPage : Page := ⟨officerText, "about", ""⟩

def leadershipPage : Page := ⟨officerText, "leadership", ""⟩

/-- The same line stands on both pages, and the leadership page supports it better. -/
theorem about_page_first :
    ¬ OrderFree officerTools [aboutPage, leadershipPage] ∧
    (resolveBuyers officerTools [aboutPage, leadershipPage]).map BuyerCandidate.confidence =
      [75 / 100] ∧
    (resolveBuyers officerTools [leadershipPage, aboutPage]).map BuyerCandidate.confidence =
      [85 / 100] := by
  have hfirst : (resolveBuyers officerTools [aboutPage, leadershipPage]).map
      BuyerCandidate.confidence = [75 / 100] := by decide +kernel
  have hbest : (85 / 100 : ℚ) ∈ (pageCredits officerTools leadershipPage).map
      BuyerCandidate.confidence := by decide +kernel
  have hnames : ∀ c ∈ resolveBuyers officerTools [aboutPage, leadershipPage],
      ∀ d ∈ pageCredits officerTools leadershipPage,
        person officerTools c = person officerTools d := by decide +kernel
  refine ⟨fun h => ?_, hfirst, by decide +kernel⟩
  obtain ⟨d, hd, hconf⟩ := List.mem_map.1 hbest
  obtain ⟨c, hc, hlow⟩ : ∃ c ∈ resolveBuyers officerTools [aboutPage, leadershipPage],
      c.confidence = 75 / 100 :=
    List.mem_map.1 (by rw [hfirst]; exact List.mem_singleton_self _)
  have hle := h.highest c hc leadershipPage (List.mem_cons_of_mem _ List.mem_cons_self) d hd
    (hnames c hc d hd)
  rw [hconf, hlow] at hle
  exact absurd hle (by decide +kernel)

end TrustCopilot.PageOrder
