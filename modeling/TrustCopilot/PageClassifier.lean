import TrustCopilot.Library.GroupedFold
import TrustCopilot.Library.PyRegex
import TrustCopilot.Library.Ranking
import Mathlib.Data.Prod.Lex
import Mathlib.Data.Rat.Floor

/-! What kind of page was fetched, read off its address, its title and the beginning of its text.
`alnum` says which characters outside ASCII are letters or digits. -/
namespace TrustCopilot.PageClassifier

open TrustCopilot.GroupedFold
open TrustCopilot.OrderedDict
open TrustCopilot.PyRegex
open TrustCopilot.Ranking
open TrustCopilot.RegexSearch

inductive PageType where
  | trustPage
  | securityPage
  | careersPage
  | pressPage
  | teamPage
  | blogPage
  | pricingPage
  | docsPage
  | generic
  deriving DecidableEq, Repr

/-- `PAGE_TYPE_PRIORITY` -/
def PageType.priority : PageType → ℕ
  | .trustPage => 10
  | .securityPage => 9
  | .careersPage => 8
  | .pressPage => 7
  | .teamPage => 6
  | .blogPage => 5
  | .pricingPage => 4
  | .docsPage => 3
  | .generic => 0

inductive Target where
  | url
  | title
  | content
  deriving DecidableEq, Repr

structure PageRule where
  pageType : PageType
  target : Target
  pattern : Regex Char
  ruleId : String

structure ClassificationResult where
  pageType : PageType
  confidence : ℚ
  matchedRules : List String := []
  deriving DecidableEq, Repr

structure Page where
  url : String
  title : String := ""
  textContent : String := ""
  deriving DecidableEq, Repr

section Rules

variable (alnum : Char → Bool)

/-- `/(a|b|…)\b` -/
def pathOf (words : List String) : Regex Char :=
  seqs [ilit "/", alts (words.map ilit), wordBoundary alnum]

def rules : List PageRule := [
  ⟨.trustPage, .url, pathOf alnum ["trust"], "url_trust"⟩,
  ⟨.securityPage, .url, pathOf alnum ["security"], "url_security"⟩,
  ⟨.careersPage, .url, pathOf alnum ["careers", "jobs", "openings", "join"], "url_careers"⟩,
  ⟨.teamPage, .url, pathOf alnum ["team", "about", "people", "leadership"], "url_team"⟩,
  ⟨.pricingPage, .url, pathOf alnum ["pricing"], "url_pricing"⟩,
  ⟨.blogPage, .url, pathOf alnum ["blog", "posts", "articles", "news"], "url_blog"⟩,
  ⟨.pressPage, .url, pathOf alnum ["press", "newsroom", "media"], "url_press"⟩,
  ⟨.docsPage, .url, pathOf alnum ["docs", "documentation", "help", "support", "guides"],
    "url_docs"⟩,
  ⟨.trustPage, .title,
    bounded alnum (seqs [ilit "trust", spaces, opt (alts (["center", "portal", "page"].map ilit))]),
    "title_trust"⟩,
  ⟨.securityPage, .title, bounded alnum (ilit "security"), "title_security"⟩,
  ⟨.careersPage, .title,
    bounded alnum (alts [phrase ["careers"], phrase ["join", "us"], phrase ["open", "positions"]]),
    "title_careers"⟩,
  ⟨.pressPage, .title,
    bounded alnum (alts [phrase ["press"], phrase ["newsroom"], phrase ["in", "the", "news"]]),
    "title_press"⟩,
  ⟨.blogPage, .title, bounded alnum (ilit "blog"), "title_blog"⟩,
  ⟨.trustPage, .content,
    bounded alnum (alts [phrase ["soc", "2"], phrase ["iso", "27001"], phrase ["gdpr"],
      phrase ["hipaa"], phrase ["penetration", "test"]]),
    "content_compliance"⟩,
  ⟨.securityPage, .content,
    bounded alnum (alts [phrase ["vulnerability", "disclosure"], phrase ["bug", "bounty"],
      phrase ["responsible", "disclosure"]]),
    "content_vuln_disc"⟩,
  ⟨.careersPage, .content,
    bounded alnum (alts [seqs [ilit "we", dot, ilit "re", spaces, ilit "hiring"],
      phrase ["join", "our", "team"], phrase ["apply", "now"]]),
    "content_hiring_cta"⟩]

end Rules

def contentLimit : ℕ := 5000

def Page.part (p : Page) : Target → List Char
  | .url => p.url.toList
  | .title => p.title.toList
  | .content => p.textContent.toList.take contentLimit

def hit (p : Page) (rule : PageRule) : Bool := found rule.pattern (p.part rule.target)

/-- `hits.setdefault(page_type, []).append(rule_id)` -/
def collectHits (hitRules : List PageRule) : Dict PageType (List String) :=
  grouped PageRule.pageType (fun _ => []) (fun ids rule => ids ++ [rule.ruleId]) hitRules

def baseConfidence (ruleIds : List String) : ℚ :=
  min (5 / 10 + 15 / 100 * ruleIds.length) (95 / 100)

def standing (e : PageType × List String) : ℕ ×ₗ ℚ := toLex (e.1.priority, baseConfidence e.2)

variable (alnum : Char → Bool)

def classifyPage (p : Page) : ClassificationResult :=
  match ranked standing (collectHits ((rules alnum).filter (hit p))).entries with
  | [] => ⟨.generic, 3 / 10, []⟩
  | best :: _ => ⟨best.1, baseConfidence best.2, best.2⟩

/-! ### What is found -/

variable {alnum : Char → Bool} {p : Page}

theorem foldl_ids (hitRules : List PageRule) (ids : List String) :
    hitRules.foldl (fun ids rule => ids ++ [rule.ruleId]) ids =
      ids ++ hitRules.map PageRule.ruleId := by
  induction hitRules generalizing ids with
  | nil => exact (List.append_nil ids).symm
  | cons rule rest ih => rw [List.foldl_cons, ih, List.map_cons, List.append_assoc]; rfl

theorem mem_entries {hitRules : List PageRule} {t : PageType} {ids : List String} :
    (t, ids) ∈ (collectHits hitRules).entries ↔
      t ∈ hitRules.map PageRule.pageType ∧
        ids = (group PageRule.pageType hitRules t).map PageRule.ruleId := by
  rw [← Dict.get?_eq_some_iff, collectHits, get?_grouped, foldl_ids, List.nil_append]
  split
  · next hnil => simp [group_eq_nil_iff.1 hnil]
  · next hsome =>
    have hmem : t ∈ hitRules.map PageRule.pageType := not_not.1 (mt group_eq_nil_iff.2 hsome)
    rw [Option.some.injEq, eq_comm]
    exact ⟨fun h => ⟨hmem, h⟩, fun h => h.2⟩

theorem rule_types (alnum : Char → Bool) : (rules alnum).map PageRule.pageType =
    [.trustPage, .securityPage, .careersPage, .teamPage, .pricingPage, .blogPage, .pressPage,
      .docsPage, .trustPage, .securityPage, .careersPage, .pressPage, .blogPage, .trustPage,
      .securityPage, .careersPage] := rfl

/-- No type has more than three rules. -/
theorem rules_per_type (alnum : Char → Bool) (t : PageType) :
    (group PageRule.pageType (rules alnum) t).length ≤ 3 := by
  have hcount : (group PageRule.pageType (rules alnum) t).length =
      ((rules alnum).map PageRule.pageType).countP fun u => u = t := by
    rw [List.countP_map, List.countP_eq_length_filter]
    rfl
  rw [hcount, rule_types]
  cases t <;> decide

theorem ids_length (alnum : Char → Bool) (p : Page) (t : PageType) :
    ((group PageRule.pageType ((rules alnum).filter (hit p)) t).map PageRule.ruleId).length ≤ 3 :=
  (List.length_map _).trans_le
    (((List.filter_sublist.filter _).length_le).trans (rules_per_type alnum t))

/-- So the cap on the confidence is never what decides. -/
theorem baseConfidence_eq {ids : List String} (h : ids.length ≤ 3) :
    baseConfidence ids = 1 / 2 + 15 / 100 * ids.length := by
  have hcast : (ids.length : ℚ) ≤ 3 := by exact_mod_cast h
  rw [baseConfidence, min_eq_left]
  · norm_num
  · linarith

theorem rule_not_generic {rule : PageRule} (h : rule ∈ rules alnum) : rule.pageType ≠ .generic := by
  have hmem : rule.pageType ∈ (rules alnum).map PageRule.pageType := List.mem_map_of_mem h
  rw [rule_types] at hmem
  intro hgeneric
  rw [hgeneric] at hmem
  revert hmem
  decide

/-- What is beyond the limit of the text is not looked at. -/
theorem hit_beyond (more : String) (h : contentLimit ≤ p.textContent.length) (rule : PageRule) :
    hit { p with textContent := p.textContent ++ more } rule = hit p rule := by
  rw [hit, hit]
  congr 1
  cases rule.target with
  | url => rfl
  | title => rfl
  | content =>
    rw [Page.part, Page.part, String.toList_append]
    exact List.take_append_of_le_length h

/-- The answer is the generic one, or an entry of the dictionary that no other goes before. -/
theorem classifyPage_cases (alnum : Char → Bool) (p : Page) :
    let hitRules := (rules alnum).filter (hit p)
    (hitRules = [] ∧ classifyPage alnum p = ⟨.generic, 3 / 10, []⟩) ∨
    ∃ t ids, (t, ids) ∈ (collectHits hitRules).entries ∧
      (∀ e ∈ (collectHits hitRules).entries, e.1.priority ≤ t.priority) ∧
      classifyPage alnum p = ⟨t, baseConfidence ids, ids⟩ := by
  intro hitRules
  have hperm := ranked_perm standing (collectHits hitRules).entries
  have hfalls := ranked_pairwise standing (collectHits hitRules).entries
  rw [classifyPage]
  cases hr : ranked standing (collectHits hitRules).entries with
  | nil =>
    rw [hr] at hperm
    refine Or.inl ⟨?_, rfl⟩
    rw [List.eq_nil_iff_forall_not_mem]
    intro rule hrule
    have hentry := mem_entries.2 ⟨List.mem_map_of_mem hrule, rfl⟩
    rw [← hperm.nil_eq] at hentry
    exact absurd hentry List.not_mem_nil
  | cons best rest =>
    rw [hr] at hperm hfalls
    refine Or.inr ⟨best.1, best.2, hperm.mem_iff.1 List.mem_cons_self, fun e he => ?_, rfl⟩
    rcases List.mem_cons.1 (hperm.mem_iff.2 he) with rfl | hrest
    · exact le_refl _
    · have hle : standing e ≤ standing best := (List.pairwise_cons.1 hfalls).1 e hrest
      rcases Prod.Lex.toLex_le_toLex.1 hle with hlt | ⟨heq, -⟩
      · exact hlt.le
      · exact heq.le

/-- The page is of the type of a rule that hits, which goes before those of all other rules that
hit, with the rules that hit for this type and a confidence that says how many they are; it is
generic only if no rule hits, and nothing beyond the first five thousand characters of the text
plays a part. -/
theorem classifyPage_best (alnum : Char → Bool) (p : Page) :
    let r := classifyPage alnum p
    let hitRules := (rules alnum).filter (hit p)
    (∀ rule ∈ hitRules, rule.pageType.priority ≤ r.pageType.priority) ∧
    (hitRules ≠ [] → ∃ rule ∈ hitRules, rule.pageType = r.pageType) ∧
    r.matchedRules = (group PageRule.pageType hitRules r.pageType).map PageRule.ruleId ∧
    (r.pageType = .generic ↔ hitRules = []) ∧
    r.confidence = (if r.pageType = .generic then (3 / 10 : ℚ)
      else 1 / 2 + 15 / 100 * r.matchedRules.length) ∧
    ∀ more, contentLimit ≤ p.textContent.length →
      classifyPage alnum { p with textContent := p.textContent ++ more } = r := by
  intro r hitRules
  have hbeyond : ∀ more, contentLimit ≤ p.textContent.length →
      classifyPage alnum { p with textContent := p.textContent ++ more } = r := by
    intro more hlong
    rw [classifyPage, funext (hit_beyond more hlong)]
    rfl
  rcases classifyPage_cases alnum p with ⟨hnone, hr⟩ | ⟨t, ids, hentry, hbest, hr⟩
  · have hr' : r = ⟨.generic, 3 / 10, []⟩ := hr
    have hnone' : hitRules = [] := hnone
    refine ⟨fun other hother => ?_, fun hsome => absurd hnone' hsome, ?_, ?_, ?_, hbeyond⟩
    · rw [hnone'] at hother
      exact absurd hother List.not_mem_nil
    · rw [hr', hnone']
      rfl
    · rw [hr']
      exact iff_of_true rfl hnone'
    · rw [hr', if_pos rfl]
  · have hr' : r = ⟨t, baseConfidence ids, ids⟩ := hr
    obtain ⟨ht, hids⟩ := mem_entries.1 hentry
    obtain ⟨rule, hrule, htype⟩ := List.mem_map.1 ht
    have hnot : t ≠ .generic := htype ▸ rule_not_generic (List.mem_of_mem_filter hrule)
    have hsome : hitRules ≠ [] := List.ne_nil_of_mem hrule
    have hlen : ids.length ≤ 3 := hids ▸ ids_length alnum p t
    refine ⟨fun other hother => ?_, fun _ => ⟨rule, hrule, ?_⟩, ?_, ?_, ?_, hbeyond⟩
    · rw [hr']
      exact hbest (other.pageType, _) (mem_entries.2 ⟨List.mem_map_of_mem hother, rfl⟩)
    · rw [hr']
      exact htype
    · rw [hr']
      exact hids
    · rw [hr']
      exact iff_of_false hnot hsome
    · rw [hr', if_neg hnot]
      exact baseConfidence_eq hlen

end TrustCopilot.PageClassifier
