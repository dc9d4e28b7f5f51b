import TrustCopilot.ReplyClassifier

/-! Replies that say "not interested". The rule for interest comes before the rule that knows
the refusal, and its pattern finds the word inside the phrase. -/
namespace TrustCopilot.Refusals

open TrustCopilot.RegexSearch
open TrustCopilot.PyRegex
open TrustCopilot.ReplyClassifier

/-- `re.fullmatch` -/
def fullMatch (r : Regex Char) (m : List Char) : Bool :=
  (ends r ⟨none, m⟩).any fun d => d.rest.isEmpty

def OverrideFree (alnum : Char → Bool) (body : String) : Prop :=
  ∀ rule ∈ overrideRules alnum, found rule.pattern body.toList = false

/-- Whatever the pattern of interest matches between `s` and the rest of `t` is the word
"interested", directly after "not ". -/
def RefusedAt (alnum : Char → Bool) (s t : List Char) : Prop :=
  ∀ d ∈ ends (interestedRule alnum).pattern ⟨s.getLast?, t⟩,
    fullMatch (ilit "interested") (t.take (t.length - d.rest.length)) = true ∧
      fullMatch (ilit "not ") (s.drop (s.length - 4)) = true

def OnlyRefused (alnum : Char → Bool) (body : String) : Prop :=
  ∀ n ∈ List.range (body.toList.length + 1),
    RefusedAt alnum (body.toList.take n) (body.toList.drop n)

instance (alnum : Char → Bool) (body : String) : Decidable (OverrideFree alnum body) :=
  inferInstanceAs (Decidable (∀ _ ∈ _, _))

instance (alnum : Char → Bool) (s t : List Char) : Decidable (RefusedAt alnum s t) :=
  inferInstanceAs (Decidable (∀ _ ∈ _, _))

instance (alnum : Char → Bool) (body : String) : Decidable (OnlyRefused alnum body) :=
  inferInstanceAs (Decidable (∀ _ ∈ _, _))

/-- The reply is neither labelled as interest nor does it open an intake. -/
def NotInterest (r : ClassificationResult) : Prop :=
  r.label ≠ .interested ∧ r.nextAction ≠ .openIntake

instance (r : ClassificationResult) : Decidable (NotInterest r) :=
  inferInstanceAs (Decidable (_ ∧ _))

def interestedWord (alnum : Char → Bool) : Regex Char := bounded alnum (ilit "interested")

variable {alnum : Char → Bool} {body : String}

theorem accepts_of_fullMatch {r : Regex Char} (hr : Plain r) {m : List Char}
    (h : fullMatch r m = true) : Accepts r m := by
  obtain ⟨d, hd, hend⟩ := List.any_eq_true.1 h
  obtain ⟨s, hs, -, hacc⟩ := (mem_ends_iff.1 hd).accepts hr
  have hm : m = s := by
    rw [List.isEmpty_iff.1 hend, List.append_nil] at hs
    exact hs
  rwa [hm]

/-- A reply without an override phrase reads as interest exactly if the pattern of interest is
found in it and no out-of-office phrase is. -/
theorem notInterest_iff (h : OverrideFree alnum body) :
    NotInterest (classifyReply alnum body) ↔
      found (outOfOfficeRule alnum).pattern body.toList = true ∨
        found (interestedRule alnum).pattern body.toList = false := by
  have hover : ((overrideRules alnum).find? fun rule => found rule.pattern body.toList) = none :=
    List.find?_eq_none.2 fun rule hrule => by simp [h rule hrule]
  have hlater : ∀ rule ∈ (classificationRules alnum).drop 2,
      rule.label ≠ .interested ∧ rule.action ≠ .openIntake := by
    intro rule hrule
    simp only [classificationRules, List.drop, List.mem_cons, List.not_mem_nil, or_false] at hrule
    rcases hrule with rfl | rfl | rfl | rfl | rfl <;> exact ⟨by rintro ⟨⟩, by rintro ⟨⟩⟩
  rw [classifyReply, hover, classificationRules, List.find?_cons]
  cases hoffice : found (outOfOfficeRule alnum).pattern body.toList with
  | true => exact iff_of_true ⟨by rintro ⟨⟩, by rintro ⟨⟩⟩ (Or.inl rfl)
  | false =>
    dsimp only
    rw [List.find?_cons]
    cases hinterest : found (interestedRule alnum).pattern body.toList with
    | true =>
      refine iff_of_false (fun hnot => hnot.1 rfl) ?_
      rintro (h | h) <;> cases h
    | false =>
      refine iff_of_true ?_ (Or.inr rfl)
      dsimp only
      split
      · next rule hrule => exact hlater rule (List.mem_of_find?_eq_some hrule)
      · exact ⟨by rintro ⟨⟩, by rintro ⟨⟩⟩

/-- Where only refusals match, the pattern of interest finds the word and nothing else. -/
theorem found_interested_iff (h : OnlyRefused alnum body) :
    found (interestedRule alnum).pattern body.toList = true ↔
      found (interestedWord alnum) body.toList = true := by
  constructor
  · intro hfound
    obtain ⟨s, t, d, hst, hd⟩ := found_iff.1 hfound
    have hrefused : RefusedAt alnum s t := by
      have hn := h s.length (List.mem_range.2 (by rw [hst, List.length_append]; omega))
      rwa [hst, List.take_left, List.drop_left] at hn
    have hword := accepts_of_fullMatch (plain_ilit "interested")
      (hrefused d (mem_ends_iff.2 hd)).1
    -- the boundaries of the match are those of the word
    obtain ⟨c₁, h₁, hd₁⟩ := matches_seq_iff.1 hd
    obtain ⟨c₂, h₂, h₃⟩ := matches_seq_iff.1 hd₁
    have hc₁ := (matches_look_iff.1 h₁).1
    have hc₂ := (matches_look_iff.1 h₃).1
    subst hc₁ hc₂
    obtain ⟨m, hm, hafter⟩ := h₂.span
    have htake : t.take (t.length - d.rest.length) = m := by
      have ht : t = m ++ d.rest := hm
      rw [ht, List.length_append, Nat.add_sub_cancel, List.take_left]
    rw [htake] at hword
    have hmid := hword.matches s.getLast? d.rest
    have hd' : d = ⟨after s.getLast? m, d.rest⟩ := Cursor.ext hafter rfl
    rw [← hd', ← (show t = m ++ d.rest from hm)] at hmid
    exact found_iff.2 ⟨s, t, d, hst, .seq h₁ (.seq hmid h₃)⟩
  · exact found_bounded_mono fun c d hm => .altLeft hm

/-- A reply whose only interest is refused is not read as interest exactly if the word does
not stand in it after all, or it is out of office as well. -/
theorem refusal_notInterest_iff (ho : OverrideFree alnum body) (hr : OnlyRefused alnum body) :
    NotInterest (classifyReply alnum body) ↔
      found (outOfOfficeRule alnum).pattern body.toList = true ∨
        found (interestedWord alnum) body.toList = false := by
  rw [notInterest_iff ho, ← Bool.not_eq_true, found_interested_iff hr, Bool.not_eq_true]

theorem refusal_out_of_office :
    NotInterest (classifyReply (fun _ => false) "On leave. Not interested.") :=
  (refusal_notInterest_iff (by decide +kernel) (by decide +kernel)).2
    (Or.inl (by decide +kernel))

theorem refusal_read_as_interest :
    OverrideFree (fun _ => false) "I am not interested." ∧
    OnlyRefused (fun _ => false) "I am not interested." ∧
    (classifyReply (fun _ => false) "I am not interested.").nextAction = .openIntake ∧
    ¬ NotInterest (classifyReply (fun _ => false) "I am not interested.") := by
  refine ⟨by decide +kernel, by decide +kernel, by decide +kernel, by decide +kernel⟩

end TrustCopilot.Refusals
