import TrustCopilot.SignalFusion
import TrustCopilot.Library.Phrases
import TrustCopilot.Library.PyText
import Mathlib.Data.List.DropRight

/-! The narrative of a fused account, and which phrases stand in its text: what is not in the
company name is in one of the facts that are told. -/
namespace TrustCopilot.AccountNarrative

open TrustCopilot.Phrases
open TrustCopilot.PyText
open TrustCopilot.SignalFusion
open TrustCopilot.TriggerTaxonomy

structure Narrative where
  text : String
  citedEvidenceIds : List String
  groundingFacts : List String
  forbiddenClaims : List String := []
  deriving DecidableEq, Repr

def explanations (entries : List FusedEntry) : List String :=
  entries.filterMap fun e => (getSpec e.signalType).map TriggerSpec.explanation

def explainedIds (entries : List FusedEntry) : List String :=
  (entries.filter fun e => (getSpec e.signalType).isSome).map FusedEntry.signalId

def plural (n : ℕ) : String := if n ≠ 1 then "s" else ""

def timing (whyNowScore : ℚ) : List String :=
  if 7 / 10 ≤ whyNowScore then ["Timing indicators are strong"]
  else if 4 / 10 ≤ whyNowScore then ["Timing indicators are moderate"]
  else []

def however (negativeFacts : List String) : List String :=
  if negativeFacts = [] then []
  else ["However, " ++ toString negativeFacts.length ++ " negative signal" ++
    plural negativeFacts.length ++ " detected: " ++ "; ".intercalate (negativeFacts.take 3)]

def sentences (companyName : String) (facts negativeFacts : List String) (whyNowScore : ℚ) :
    List String :=
  (companyName ++ " shows " ++ toString facts.length ++ " relevant signal" ++
    plural facts.length) :: (facts.take 5 ++ timing whyNowScore ++ however negativeFacts)

def forbidden : List String :=
  ["guaranteed", "definitely", "will certainly", "100%", "we recommend", "you should", "must buy"]

def generateNarrative (fused : FusedAccountState) (companyName : String := "The company") :
    Narrative :=
  let facts := explanations fused.topTriggers
  let negativeFacts := explanations fused.negatives
  if facts = [] then
    { text := companyName ++ " has no actionable signals at this time."
      citedEvidenceIds := []
      groundingFacts := [] }
  else
    { text := " ".intercalate
        ((sentences companyName facts negativeFacts fused.whyNowScore).map (· ++ "."))
      citedEvidenceIds := explainedIds fused.topTriggers ++ explainedIds fused.negatives
      groundingFacts := facts
      forbiddenClaims := forbidden }

def validateNarrative (py : StrLower) (narrative : Narrative) : List String :=
  let lower := py.lower narrative.text
  let violations :=
    (narrative.forbiddenClaims.filter fun claim => isIn (py.lower claim) lower).map fun claim =>
      "Forbidden claim found: '" ++ claim ++ "'"
  if narrative.citedEvidenceIds = [] ∧ isIn "signal" lower then
    violations ++ ["References signals but has no cited evidence IDs"]
  else violations

/-! ### Phrases that the text has from its facts only -/

/-- A change of letters that leaves digits and the marks between phrases as they are. -/
structure LetterMap (f : Char → Char) : Prop where
  blank : f ' ' = ' '
  stop : f '.' = '.'
  colon : f ':' = ':'
  semicolon : f ';' = ';'
  digit : ∀ c, c.isDigit = true → f c = c

theorem letterMap_id : LetterMap id := ⟨rfl, rfl, rfl, rfl, fun _ _ => rfl⟩

theorem letterMap_toLower : LetterMap Char.toLower := by
  refine ⟨rfl, rfl, rfl, rfl, fun c h => ?_⟩
  rcases toLower_cases c with hc | ⟨hupper, -⟩
  · exact hc
  · simp only [Char.isDigit, Bool.and_eq_true, decide_eq_true_eq] at h
    have hhigh : c.toNat ≤ 57 := UInt32.le_iff_toNat_le.1 h.2
    omega

def countWords : List String :=
  ["shows", "relevant", "signal", "signals", "However,", "negative", "detected"]

def lastWord (e : List Char) : List Char := e.rtakeWhile (· ≠ ' ')

structure Telling (f : Char → Char) (e : List Char) : Prop where
  marks : '.' ∉ e ∧ ':' ∉ e ∧ ';' ∉ e
  start : e.head? ≠ some ' '
  timing : ∀ t ∈ ["Timing indicators are strong", "Timing indicators are moderate"],
    ¬ e <:+: t.toList.map f
  words : ∀ w ∈ countWords, ¬ lastWord e <:+: w.toList.map f
  notNumber : ∃ c ∈ lastWord e, c.isDigit = false

instance (f : Char → Char) (e : List Char) : Decidable (Telling f e) :=
  decidable_of_iff (('.' ∉ e ∧ ':' ∉ e ∧ ';' ∉ e) ∧ e.head? ≠ some ' ' ∧
      (∀ t ∈ ["Timing indicators are strong", "Timing indicators are moderate"],
        ¬ e <:+: t.toList.map f) ∧
      (∀ w ∈ countWords, ¬ lastWord e <:+: w.toList.map f) ∧
      (lastWord e).any (fun c => !c.isDigit) = true)
    ⟨fun ⟨marks, start, timing, words, hany⟩ =>
        ⟨marks, start, timing, words, by simpa using hany⟩,
      fun h => ⟨h.marks, h.start, h.timing, h.words, by simpa using h.notNumber⟩⟩

variable {f : Char → Char} {e name : List Char} {facts negativeFacts : List String}
  {whyNowScore : ℚ}

theorem lastWord_eq (e : List Char) : ∃ u, e = u ++ lastWord e := by
  obtain ⟨u, hu⟩ := List.rtakeWhile_suffix (fun c : Char => decide (c ≠ ' ')) e
  exact ⟨u, hu.symm⟩

theorem blank_not_mem_lastWord (e : List Char) : ' ' ∉ lastWord e := fun h => by
  simpa using List.mem_rtakeWhile_imp h

/-- A phrase that is not all in the name has its last word behind it. -/
theorem name_or_lastWord {rest : List Char} (h : e <:+: name ++ ' ' :: rest) :
    e <:+: name ∨ lastWord e <:+: rest := by
  obtain ⟨u, hu⟩ := lastWord_eq e
  rw [hu] at h
  rcases lastWord_of_separated (blank_not_mem_lastWord e) h with hname | hrest
  · rw [← hu] at hname
    exact Or.inl hname
  · exact Or.inr hrest

theorem Telling.lastWord_ne_nil (h : Telling f e) : lastWord e ≠ [] := by
  obtain ⟨c, hc, -⟩ := h.notNumber
  exact List.ne_nil_of_mem hc

theorem Telling.ne_nil (h : Telling f e) : e ≠ [] := by
  rintro rfl
  exact h.lastWord_ne_nil rfl

/-- The digits of a number are no word. -/
theorem Telling.not_number (hf : LetterMap f) (h : Telling f e) (n : ℕ) :
    ¬ lastWord e <:+: (toString n).toList.map f := by
  intro hin
  obtain ⟨c, hc, hdigit⟩ := h.notNumber
  obtain ⟨d, hd, rfl⟩ := List.mem_map.1 (hin.subset hc)
  rw [Nat.toString_eq_ofList_toDigits, String.toList_ofList] at hd
  have hd : d.isDigit = true := Nat.isDigit_of_mem_toDigits (by decide) (by decide) hd
  rw [hf.digit d hd, hd] at hdigit
  cases hdigit

/-- No counting sentence tells the phrase: its words are the fixed ones and a number. -/
theorem Telling.not_words (hf : LetterMap f) (h : Telling f e) {ws : List String}
    (hws : ∀ w ∈ ws, w ∈ countWords ∨ ∃ n : ℕ, w = toString n) :
    ¬ lastWord e <:+: (" ".intercalate ws).toList.map f := by
  intro hin
  have hblank : (" ".toList).map f = [' '] := by
    have hone : " ".toList = [' '] := rfl
    rw [hone, List.map_singleton, hf.blank]
  rw [String.toList_intercalate, map_joined, hblank] at hin
  obtain ⟨p, hp, hin⟩ := infix_joined (s := []) (blank_not_mem_lastWord e) h.lastWord_ne_nil
    (fun b hb => hb) hin
  obtain ⟨l, hl, rfl⟩ := List.mem_map.1 hp
  obtain ⟨w, hw, rfl⟩ := List.mem_map.1 hl
  rcases hws w hw with hfixed | ⟨n, rfl⟩
  · exact h.words w hfixed hin
  · exact h.not_number hf n hin

/-! ### The text -/

def countedSignals (n : ℕ) : List String :=
  ["shows", toString n, "relevant", "signal" ++ plural n]

def countedNegatives (n : ℕ) : List String :=
  ["However,", toString n, "negative", "signal" ++ plural n, "detected"]

def behind (facts negativeFacts : List String) (whyNowScore : ℚ) : String :=
  ". ".intercalate (" ".intercalate (countedSignals facts.length) ::
    (facts.take 5 ++ timing whyNowScore ++ however negativeFacts)) ++ "."

theorem plural_word (n : ℕ) : "signal" ++ plural n ∈ countWords := by
  rw [plural]
  split
  · decide
  · decide

theorem countedSignals_words (n : ℕ) :
    ∀ w ∈ countedSignals n, w ∈ countWords ∨ ∃ k : ℕ, w = toString k := by
  simp only [countedSignals, List.forall_mem_cons, List.not_mem_nil, false_implies, implies_true,
    and_true]
  exact ⟨Or.inl (by decide), Or.inr ⟨n, rfl⟩, Or.inl (by decide), Or.inl (plural_word n)⟩

theorem countedNegatives_words (n : ℕ) :
    ∀ w ∈ countedNegatives n, w ∈ countWords ∨ ∃ k : ℕ, w = toString k := by
  simp only [countedNegatives, List.forall_mem_cons, List.not_mem_nil, false_implies, implies_true,
    and_true]
  exact ⟨Or.inl (by decide), Or.inr ⟨n, rfl⟩, Or.inl (by decide), Or.inl (plural_word n),
    Or.inl (by decide)⟩

theorem text_eq (companyName : String) (facts negativeFacts : List String) (whyNowScore : ℚ) :
    " ".intercalate ((sentences companyName facts negativeFacts whyNowScore).map (· ++ ".")) =
      companyName ++ " " ++ behind facts negativeFacts whyNowScore := by
  have hstops : ((sentences companyName facts negativeFacts whyNowScore).map (· ++ ".")).map
      String.toList =
      ((sentences companyName facts negativeFacts whyNowScore).map String.toList).map
        (· ++ ['.']) := by
    simp only [List.map_map]
    apply List.map_congr_left
    intro s _
    exact String.toList_append
  have hblank : " ".toList = [' '] := rfl
  have hstop : ". ".toList = ['.', ' '] := rfl
  have hhead : (companyName ++ " shows " ++ toString facts.length ++ " relevant signal" ++
      plural facts.length).toList = (companyName.toList ++ [' ']) ++
        (" ".intercalate (countedSignals facts.length)).toList := by
    simp [countedSignals]
  rw [← String.toList_inj, String.toList_intercalate, hstops, hblank,
    joined_stops (by simp [sentences]), sentences, List.map_cons, hhead, joined_append_head]
  simp only [behind, String.toList_append, String.toList_intercalate, List.map_cons,
    List.append_assoc, hblank, hstop]
  rfl

theorem not_timing (h : Telling f e) {t : String} (ht : t ∈ timing whyNowScore) :
    ¬ e <:+: t.toList.map f := by
  apply h.timing
  rw [timing] at ht
  split at ht
  · exact List.mem_cons.2 (Or.inl (List.mem_singleton.1 ht))
  · split at ht
    · exact List.mem_cons_of_mem _ ht
    · cases ht

/-- The sentence on the negatives tells what one of them tells. -/
theorem told_of_however (hf : LetterMap f) (he : Telling f e) {t : String}
    (ht : t ∈ however negativeFacts) (h : e <:+: t.toList.map f) :
    ∃ fact ∈ negativeFacts.take 3, e <:+: fact.toList.map f := by
  obtain ⟨-, hcolon, hsemicolon⟩ := he.marks
  have hskip (b : List Char) : e <:+: ' ' :: b → e <:+: b := infix_of_blank he.ne_nil he.start
  have htext : t.toList = (" ".intercalate (countedNegatives negativeFacts.length)).toList ++
      ':' :: ' ' :: ("; ".intercalate (negativeFacts.take 3)).toList := by
    rw [however] at ht
    split at ht
    · cases ht
    · rw [List.mem_singleton.1 ht]
      simp [countedNegatives]
  have hsep : ("; ".toList).map f = [';', ' '] := by
    have hlist : "; ".toList = [';', ' '] := rfl
    rw [hlist, List.map_cons, List.map_singleton, hf.semicolon, hf.blank]
  rw [htext, List.map_append, List.map_cons, List.map_cons, hf.colon, hf.blank,
    @String.toList_intercalate "; ", map_joined, hsep] at h
  rcases infix_of_separated hcolon h with hcount | hfacts
  · obtain ⟨u, hu⟩ := lastWord_eq e
    have hlast : lastWord e <:+: e := List.IsSuffix.isInfix ⟨u, hu.symm⟩
    exact absurd (hlast.trans hcount) (he.not_words hf (countedNegatives_words _))
  · obtain ⟨p, hp, hin⟩ := infix_joined hsemicolon he.ne_nil hskip (hskip _ hfacts)
    obtain ⟨l, hl, rfl⟩ := List.mem_map.1 hp
    obtain ⟨fact, hfact, rfl⟩ := List.mem_map.1 hl
    exact ⟨fact, hfact, hin⟩

/-- What the name does not have, the text has from one of the facts. -/
theorem told_of_infix (hf : LetterMap f) (he : Telling f e)
    (h : e <:+: name ++ ' ' :: (behind facts negativeFacts whyNowScore).toList.map f) :
    e <:+: name ∨ ∃ fact ∈ facts.take 5 ++ negativeFacts.take 3, e <:+: fact.toList.map f := by
  have hstop := he.marks.1
  have hsep : (". ".toList).map f = ['.', ' '] := by
    have hlist : ". ".toList = ['.', ' '] := rfl
    rw [hlist, List.map_cons, List.map_singleton, hf.stop, hf.blank]
  have hend : (".".toList).map f = ['.'] := by
    have hlist : ".".toList = ['.'] := rfl
    rw [hlist, List.map_singleton, hf.stop]
  rw [behind, String.toList_append, List.map_append, String.toList_intercalate, map_joined, hsep,
    hend, ← List.singleton_append, ← List.append_assoc, ← List.append_assoc, List.map_cons,
    List.map_cons, ← joined_append_head] at h
  rcases infix_of_separated hstop h with h | h
  · obtain ⟨p, hp, hin⟩ := infix_joined hstop he.ne_nil
      (fun b => infix_of_blank he.ne_nil he.start) h
    rcases List.mem_cons.1 hp with rfl | hp
    · -- the last word of the phrase is none of those behind the name
      rw [List.append_assoc, List.singleton_append] at hin
      rcases name_or_lastWord hin with hname | hcount
      · exact Or.inl hname
      · exact absurd hcount (he.not_words hf (countedSignals_words _))
    · right
      obtain ⟨l, hl, rfl⟩ := List.mem_map.1 hp
      obtain ⟨t, ht, rfl⟩ := List.mem_map.1 hl
      rcases List.mem_append.1 ht with ht | ht
      · rcases List.mem_append.1 ht with ht | ht
        · exact ⟨t, List.mem_append_left _ ht, hin⟩
        · exact absurd hin (not_timing he ht)
      · obtain ⟨fact, hfact, hin⟩ := told_of_however hf he ht hin
        exact ⟨fact, List.mem_append_right _ hfact, hin⟩
  · exact absurd (List.infix_nil.1 h) he.ne_nil

/-- The first five facts are told, and the first three of the negatives. -/
theorem behind_tells {fact : String} (h : fact ∈ facts.take 5 ++ negativeFacts.take 3) :
    fact.toList <:+: (behind facts negativeFacts whyNowScore).toList := by
  have hstatement : ∃ t ∈ " ".intercalate (countedSignals facts.length) ::
      (facts.take 5 ++ timing whyNowScore ++ however negativeFacts),
      fact.toList <:+: t.toList := by
    rcases List.mem_append.1 h with h | h
    · exact ⟨fact, List.mem_cons_of_mem _ (List.mem_append_left _ (List.mem_append_left _ h)),
        List.infix_refl _⟩
    · have hne : negativeFacts ≠ [] := by
        rintro rfl
        cases h
      obtain ⟨t, hhowever⟩ : ∃ t, however negativeFacts =
          [t ++ "; ".intercalate (negativeFacts.take 3)] := ⟨_, if_neg hne⟩
      refine ⟨t ++ "; ".intercalate (negativeFacts.take 3),
        List.mem_cons_of_mem _ (List.mem_append_right _ ?_), ?_⟩
      · rw [hhowever]
        exact List.mem_singleton_self _
      · rw [String.toList_append, String.toList_intercalate]
        exact (infix_of_mem_joined (List.mem_map_of_mem h)).trans
          (List.suffix_append _ _).isInfix
  obtain ⟨t, ht, hin⟩ := hstatement
  rw [behind, String.toList_append, String.toList_intercalate]
  exact (hin.trans (infix_of_mem_joined (List.mem_map_of_mem ht))).trans
    (List.prefix_append _ _).isInfix

/-! ### Facts -/

variable {entries : List FusedEntry}

theorem mem_explanations {fact : String} : fact ∈ explanations entries ↔
    ∃ e ∈ entries, ∃ spec, getSpec e.signalType = some spec ∧ spec.explanation = fact := by
  simp only [explanations, List.mem_filterMap, Option.map_eq_some_iff]

theorem explanation_known {fact : String} (h : fact ∈ explanations entries) :
    fact ∈ triggerTaxonomy.map TriggerSpec.explanation := by
  obtain ⟨e, -, spec, hspec, rfl⟩ := mem_explanations.1 h
  exact List.mem_map_of_mem (getSpec_some hspec).1

theorem told_known {others : List FusedEntry} {fact : String} {n k : ℕ}
    (h : fact ∈ (explanations entries).take n ++ (explanations others).take k) :
    fact ∈ triggerTaxonomy.map TriggerSpec.explanation := by
  rcases List.mem_append.1 h with h | h
  · exact explanation_known (List.mem_of_mem_take h)
  · exact explanation_known (List.mem_of_mem_take h)

theorem mem_explainedIds {id : String} : id ∈ explainedIds entries ↔
    ∃ e ∈ entries, (getSpec e.signalType).isSome ∧ e.signalId = id := by
  simp only [explainedIds, List.mem_map, List.mem_filter, and_assoc]

theorem explainedIds_eq_nil : explainedIds entries = [] ↔ explanations entries = [] := by
  rw [explainedIds, explanations, List.map_eq_nil_iff, List.filter_eq_nil_iff,
    List.filterMap_eq_nil_iff]
  simp only [Bool.not_eq_true, Option.isSome_eq_false_iff, Option.isNone_iff_eq_none,
    Option.map_eq_none_iff]

end TrustCopilot.AccountNarrative
