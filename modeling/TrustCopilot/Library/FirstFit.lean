import Mathlib.Data.List.Forall2
import Mathlib.Data.List.Induction
import Mathlib.Data.List.Infix
import Mathlib.Data.List.Perm.Basic

/-! First fit: items are handled in order, each is placed into the first slot that it fits at
that moment, and is left over if it fits none. The slots are tried in a fixed order. -/
namespace TrustCopilot.FirstFit

variable {σ S ι : Type*}

structure Placement (σ S ι : Type*) where
  state : σ
  placed : List (S × ι)
  left : List ι

variable (fits : σ → S → ι → Bool) (put : σ → S → ι → σ) (slots : List S)

def place (p : Placement σ S ι) (i : ι) : Placement σ S ι :=
  match slots.find? fun s => fits p.state s i with
  | some s => { p with state := put p.state s i, placed := p.placed ++ [(s, i)] }
  | none => { p with left := p.left ++ [i] }

def firstFit (start : σ) (items : List ι) : Placement σ S ι :=
  items.foldl (place fits put slots) ⟨start, [], []⟩

/-- An item is placed into a slot that it fits, or it is left because it fits none. -/
theorem place_cases (p : Placement σ S ι) (i : ι) :
    (∃ s ∈ slots, fits p.state s i = true ∧
      place fits put slots p i =
        { p with state := put p.state s i, placed := p.placed ++ [(s, i)] }) ∨
    ((∀ s ∈ slots, fits p.state s i = false) ∧
      place fits put slots p i = { p with left := p.left ++ [i] }) := by
  rw [place]
  cases h : slots.find? fun s => fits p.state s i with
  | some s =>
    have hfit := List.find?_some (p := fun s => fits p.state s i) h
    exact Or.inl ⟨s, List.mem_of_find?_eq_some h, hfit, rfl⟩
  | none =>
    refine Or.inr ⟨fun s hs => ?_, rfl⟩
    simpa using List.find?_eq_none.1 h s hs

variable {fits put slots} {start : σ}

theorem firstFit_concat (items : List ι) (i : ι) :
    firstFit fits put slots start (items ++ [i]) =
      place fits put slots (firstFit fits put slots start items) i := by
  simp [firstFit]

theorem firstFit_no_slots (items : List ι) :
    firstFit fits put [] start items = ⟨start, [], items⟩ := by
  induction items using List.reverseRecOn with
  | nil => rfl
  | append_singleton items i ih => rw [firstFit_concat, ih]; rfl

/-- What is placed and what is left make up the items, each in their order. -/
theorem firstFit_splits (items : List ι) :
    ((firstFit fits put slots start items).placed.map Prod.snd).Sublist items ∧
    (firstFit fits put slots start items).left.Sublist items ∧
    ((firstFit fits put slots start items).placed.map Prod.snd ++
      (firstFit fits put slots start items).left).Perm items := by
  induction items using List.reverseRecOn with
  | nil => exact ⟨List.Sublist.refl _, List.Sublist.refl _, List.Perm.refl _⟩
  | append_singleton items i ih =>
    obtain ⟨hplaced, hleft, hperm⟩ := ih
    rw [firstFit_concat]
    rcases place_cases fits put slots
      (firstFit fits put slots start items) i with ⟨s, -, -, h⟩ | ⟨-, h⟩
    · rw [h]
      simp only [List.map_append, List.map_singleton]
      refine ⟨hplaced.append (List.Sublist.refl _), ?_, ?_⟩
      · exact hleft.trans (List.sublist_append_left items [i])
      · have hswap : ∀ xs ys : List ι, (xs ++ [i] ++ ys).Perm (xs ++ ys ++ [i]) := by
          intro xs ys
          simp only [List.append_assoc]
          exact List.Perm.append_left xs List.perm_append_comm
        exact (hswap _ _).trans (hperm.append_right [i])
    · rw [h]
      refine ⟨?_, hleft.append (List.Sublist.refl _), ?_⟩
      · exact hplaced.trans (List.sublist_append_left items [i])
      · rw [← List.append_assoc]
        exact hperm.append_right [i]

/-- A relation between what was placed and the state holds at the end if every placement that
fits keeps it. -/
theorem firstFit_invariant {R : List (S × ι) → σ → Prop} (h0 : R [] start)
    (hstep : ∀ placed st s i, R placed st → s ∈ slots → fits st s i = true →
      R (placed ++ [(s, i)]) (put st s i)) (items : List ι) :
    R (firstFit fits put slots start items).placed
      (firstFit fits put slots start items).state := by
  induction items using List.reverseRecOn with
  | nil => exact h0
  | append_singleton items i ih =>
    rw [firstFit_concat]
    rcases place_cases fits put slots
      (firstFit fits put slots start items) i with ⟨s, hs, hfit, h⟩ | ⟨-, h⟩
    · rw [h]
      exact hstep _ _ s i ih hs hfit
    · rw [h]
      exact ih

/-- Where placing an item never makes room, an item that is left fits no slot at the end. -/
theorem left_fits_nowhere
    (hroom : ∀ st s i s' i', fits (put st s i) s' i' = true → fits st s' i' = true)
    {items : List ι} {i : ι} (hi : i ∈ (firstFit fits put slots start items).left) :
    ∀ s ∈ slots, fits (firstFit fits put slots start items).state s i = false := by
  induction items using List.reverseRecOn with
  | nil => cases hi
  | append_singleton items j ih =>
    rw [firstFit_concat] at hi ⊢
    intro s hs
    rcases place_cases fits put slots
      (firstFit fits put slots start items) j with ⟨t, -, -, h⟩ | ⟨hnone, h⟩
    · rw [h] at hi ⊢
      cases hfit : fits (put (firstFit fits put slots start items).state t j) s i with
      | false => rfl
      | true =>
        have := ih hi s hs
        rw [hroom _ t j s i hfit] at this
        cases this
    · rw [h] at hi ⊢
      rcases List.mem_append.1 hi with hi | hi
      · exact ih hi s hs
      · cases List.mem_singleton.1 hi
        exact hnone s hs

/-- Two runs that count their placements differently place alike as long as they choose the
same slot for every item. -/
theorem firstFit_agrees {put' : σ → S → ι → σ} {items : List ι}
    (h : ∀ xs i, xs ++ [i] <+: items →
      (firstFit fits put slots start xs).placed = (firstFit fits put' slots start xs).placed →
      (slots.find? fun s => fits (firstFit fits put slots start xs).state s i) =
        slots.find? fun s => fits (firstFit fits put' slots start xs).state s i) :
    (firstFit fits put slots start items).placed =
        (firstFit fits put' slots start items).placed ∧
      (firstFit fits put slots start items).left =
        (firstFit fits put' slots start items).left := by
  induction items using List.reverseRecOn with
  | nil => exact ⟨rfl, rfl⟩
  | append_singleton items i ih =>
    obtain ⟨hplaced, hleft⟩ := ih fun xs x hp =>
      h xs x (hp.trans (List.prefix_append items [i]))
    have hslot := h items i List.prefix_rfl hplaced
    simp only [firstFit_concat, place, hslot]
    split
    · exact ⟨by rw [hplaced], hleft⟩
    · exact ⟨hplaced, by rw [hleft]⟩

/-! ### A stricter test

Where some pairs are not allowed, placing by the loose test is the same as placing by the
strict one as long as every slot that fits without being allowed stands behind an allowed one. -/

section Strict

variable {allowed : S → ι → Bool}

variable (fits allowed) in
/-- The test `fits`, of allowed pairs only. -/
def strictly (st : σ) (s : S) (i : ι) : Bool := fits st s i && allowed s i

variable (fits allowed slots) in
/-- Every slot that fits the item without being allowed stands behind one that is allowed. -/
def Shielded (st : σ) (i : ι) : Prop :=
  ∀ before s after, slots = before ++ s :: after → fits st s i = true → allowed s i = false →
    ∃ t ∈ before, fits st t i = true ∧ allowed t i = true

/-- The first slot that fits is allowed, if there is one. -/
theorem shielded_iff {st : σ} {i : ι} :
    Shielded fits slots allowed st i ↔
      ∀ s, slots.find? (fun s => fits st s i) = some s → allowed s i = true := by
  constructor
  · intro h s hs
    obtain ⟨hfit, before, after, hsplit, hbefore⟩ := List.find?_eq_some_iff_append.1 hs
    cases hallowed : allowed s i with
    | true => rfl
    | false =>
      obtain ⟨t, ht, htfit, -⟩ := h before s after hsplit hfit hallowed
      have hnot := hbefore t ht
      rw [htfit] at hnot
      cases hnot
  · intro h before s after hsplit hfit hallowed
    cases hfirst : before.find? fun t => fits st t i with
    | some t =>
      refine ⟨t, List.mem_of_find?_eq_some hfirst, ?_, ?_⟩
      · exact List.find?_some (p := fun t => fits st t i) hfirst
      · apply h t
        rw [hsplit, List.find?_append, hfirst]
        rfl
    | none =>
      have hs : slots.find? (fun t => fits st t i) = some s := by
        rw [hsplit, List.find?_append, hfirst, Option.none_or]
        exact List.find?_cons_of_pos (p := fun t => fits st t i) hfit
      rw [h s hs] at hallowed
      cases hallowed

theorem find?_strictly {st : σ} {i : ι}
    (h : ∀ s, slots.find? (fun s => fits st s i) = some s → allowed s i = true) :
    slots.find? (fun s => strictly fits allowed st s i) = slots.find? fun s => fits st s i := by
  cases hfirst : slots.find? fun s => fits st s i with
  | none =>
    rw [List.find?_eq_none] at hfirst ⊢
    intro s hs hstrict
    exact hfirst s hs (Bool.and_eq_true_iff.1 hstrict).1
  | some s =>
    obtain ⟨hfit, before, after, hsplit, hbefore⟩ := List.find?_eq_some_iff_append.1 hfirst
    refine List.find?_eq_some_iff_append.2 ⟨?_, before, after, hsplit, ?_⟩
    · exact Bool.and_eq_true_iff.2 ⟨hfit, h s hfirst⟩
    · intro t ht
      have hnot : fits st t i = false := by simpa using hbefore t ht
      rw [strictly, hnot]
      rfl

theorem placed_allowed_concat {items : List ι} {i : ι} :
    (∀ a ∈ (firstFit fits put slots start (items ++ [i])).placed, allowed a.1 a.2 = true) ↔
      (∀ a ∈ (firstFit fits put slots start items).placed, allowed a.1 a.2 = true) ∧
        ∀ s, slots.find? (fun s => fits (firstFit fits put slots start items).state s i) =
          some s → allowed s i = true := by
  rw [firstFit_concat, place]
  cases h : slots.find? fun s => fits (firstFit fits put slots start items).state s i with
  | none => simp
  | some s =>
    simp only [List.mem_append, List.mem_singleton, Option.some.injEq]
    constructor
    · intro hall
      refine ⟨fun a ha => hall a (Or.inl ha), ?_⟩
      rintro t rfl
      exact hall (s, i) (Or.inr rfl)
    · rintro ⟨hold, hnew⟩ a (ha | rfl)
      · exact hold a ha
      · exact hnew s rfl

theorem firstFit_strictly {items : List ι}
    (h : ∀ a ∈ (firstFit fits put slots start items).placed, allowed a.1 a.2 = true) :
    firstFit (strictly fits allowed) put slots start items =
      firstFit fits put slots start items := by
  induction items using List.reverseRecOn with
  | nil => rfl
  | append_singleton items i ih =>
    obtain ⟨hold, hnew⟩ := placed_allowed_concat.1 h
    rw [firstFit_concat, firstFit_concat, ih hold, place, place, find?_strictly hnew]

/-- The loose test places allowed pairs only if and only if, on every turn of the strict one,
no slot that fits is ahead of the allowed ones. -/
theorem placed_allowed_iff {items : List ι} :
    (∀ a ∈ (firstFit fits put slots start items).placed, allowed a.1 a.2 = true) ↔
      ∀ xs i, xs ++ [i] <+: items → Shielded fits slots allowed
        (firstFit (strictly fits allowed) put slots start xs).state i := by
  induction items using List.reverseRecOn with
  | nil =>
    constructor
    · intro _ xs i hp
      exact absurd (List.prefix_nil.1 hp) (List.append_ne_nil_of_right_ne_nil xs (by simp))
    · intro _ a ha
      cases ha
  | append_singleton items i ih =>
    rw [placed_allowed_concat]
    constructor
    · rintro ⟨hold, hnew⟩ xs j hp
      rcases List.prefix_concat_iff.1 hp with he | hp
      · obtain ⟨rfl, hj⟩ := List.append_inj' he rfl
        cases hj
        rw [firstFit_strictly hold]
        exact shielded_iff.2 hnew
      · exact ih.1 hold xs j hp
    · intro h
      have hold := ih.2 fun xs j hp => h xs j (hp.trans (List.prefix_append items [i]))
      refine ⟨hold, ?_⟩
      have hturn := h items i List.prefix_rfl
      rw [firstFit_strictly hold] at hturn
      exact shielded_iff.1 hturn

end Strict

/-! ### Two runs side by side -/

section Alike

variable {σ' S' ι' : Type*} {fits' : σ' → S' → ι' → Bool} {put' : σ' → S' → ι' → σ'}
  {slots' : List S'} {start' : σ'} {Rσ : σ → σ' → Prop} {RS : S → S' → Prop} {Rι : ι → ι' → Prop}

variable (Rσ RS Rι) in
/-- Two runs have come to alike states, and have placed alike items into alike slots. -/
structure Alike (p : Placement σ S ι) (p' : Placement σ' S' ι') : Prop where
  state : Rσ p.state p'.state
  placed : List.Forall₂ (fun a a' => RS a.1 a'.1 ∧ Rι a.2 a'.2) p.placed p'.placed

theorem find?_alike {p : S → Bool} {p' : S' → Bool} (hslots : List.Forall₂ RS slots slots')
    (h : ∀ s s', RS s s' → p s = p' s') : Option.Rel RS (slots.find? p) (slots'.find? p') := by
  induction hslots with
  | nil => exact Option.Rel.none
  | @cons s s' slots slots' hs _ ih =>
    rw [List.find?_cons, List.find?_cons, ← h s s' hs]
    cases p s with
    | true => exact Option.Rel.some hs
    | false => exact ih

/-- Tests that judge alike and placements that keep the states alike make alike runs. -/
theorem firstFit_alike (hslots : List.Forall₂ RS slots slots') (hstart : Rσ start start')
    (hfits : ∀ st st' s s' i i', Rσ st st' → RS s s' → Rι i i' → fits st s i = fits' st' s' i')
    (hput : ∀ st st' s s' i i', Rσ st st' → RS s s' → Rι i i' →
      Rσ (put st s i) (put' st' s' i'))
    {items : List ι} {items' : List ι'} (hitems : List.Forall₂ Rι items items') :
    Alike Rσ RS Rι (firstFit fits put slots start items)
      (firstFit fits' put' slots' start' items') := by
  refine List.rel_foldl ?_ ⟨hstart, List.Forall₂.nil⟩ hitems
  intro p p' hp i i' hi
  have hchoice := find?_alike hslots fun s s' hs => hfits _ _ s s' i i' hp.state hs hi
  rw [place, place]
  revert hchoice
  generalize slots.find? (fun s => fits p.state s i) = choice
  generalize slots'.find? (fun s' => fits' p'.state s' i') = choice'
  rintro (⟨hs⟩ | _)
  · exact ⟨hput _ _ _ _ i i' hp.state hs hi, List.rel_append hp.placed
      (List.Forall₂.cons ⟨hs, hi⟩ List.Forall₂.nil)⟩
  · exact ⟨hp.state, hp.placed⟩

end Alike

end TrustCopilot.FirstFit
