import TrustCopilot.Library.PyText
import TrustCopilot.Library.RegexLines
import Mathlib.Data.List.DropRight
import Mathlib.Algebra.Order.Ring.Int

/-! Texts as lists of lines: what a strip of the whole text does to its lines, and what becomes
of them when every line break is written as CR LF. -/
namespace TrustCopilot.TextLines

open TrustCopilot.PyText

variable {t : List Char} {lines : List (List Char)}

/-! ### Stripped texts -/

/-- A text that a strip leaves alone. -/
structure Solid (m : List Char) : Prop where
  front : ∀ x ∈ m.head?, isSpace x = false
  back : ∀ x ∈ m.getLast?, isSpace x = false

theorem stripChars_eq_rdropWhile (t : List Char) :
    stripChars t = (t.dropWhile isSpace).rdropWhile isSpace := rfl

theorem isSpace_lf : isSpace '\n' = true := rfl

theorem blank_lf : ∀ c ∈ ['\n'], isSpace c = true :=
  fun _ hc => List.mem_singleton.1 hc ▸ isSpace_lf

theorem blank_append {a b : List Char} (ha : ∀ c ∈ a, isSpace c = true)
    (hb : ∀ c ∈ b, isSpace c = true) : ∀ c ∈ a ++ b, isSpace c = true :=
  fun c hc => (List.mem_append.1 hc).elim (ha c) (hb c)

theorem rdropWhile_append_blank (t : List Char) {z : List Char}
    (hz : ∀ c ∈ z, isSpace c = true) : (t ++ z).rdropWhile isSpace = t.rdropWhile isSpace := by
  have hz' : ∀ c ∈ z.reverse, isSpace c = true := fun c hc => hz c (List.mem_reverse.1 hc)
  rw [List.rdropWhile, List.reverse_append, List.dropWhile_append_of_pos hz', List.rdropWhile]

theorem rdropWhile_append_ink {z : List Char} (hz : ¬ ∀ c ∈ z, isSpace c = true)
    (t : List Char) : (t ++ z).rdropWhile isSpace = t ++ z.rdropWhile isSpace := by
  have hne : (z.reverse.dropWhile isSpace).isEmpty = false := by
    rw [Bool.eq_false_iff, Ne, List.isEmpty_iff, List.dropWhile_eq_nil_iff]
    exact fun h => hz fun c hc => h c (List.mem_reverse.2 hc)
  rw [List.rdropWhile, List.reverse_append, List.dropWhile_append, hne]
  simp [List.rdropWhile]

theorem stripChars_solid (t : List Char) : Solid (stripChars t) := by
  rw [stripChars_eq_rdropWhile]
  constructor
  · intro x hx
    have hpre : (t.dropWhile isSpace).rdropWhile isSpace <+: t.dropWhile isSpace :=
      List.rdropWhile_prefix isSpace _
    obtain ⟨rest, hrest⟩ := hpre
    rw [Option.mem_def] at hx
    have hhead : (t.dropWhile isSpace).head? = some x := by
      rw [← hrest, List.head?_append, hx, Option.some_or]
    simpa [hhead] using List.head?_dropWhile_not isSpace t
  · intro x hx
    have hne : (t.dropWhile isSpace).rdropWhile isSpace ≠ [] := by
      intro hnil
      rw [hnil] at hx
      cases hx
    have hlast := List.rdropWhile_last_not isSpace _ hne
    rw [List.getLast?_eq_some_getLast hne] at hx
    rw [Option.some.inj hx] at hlast
    simpa using hlast

theorem stripChars_blank {a : List Char} (ha : ∀ c ∈ a, isSpace c = true) : stripChars a = [] := by
  rw [stripChars_eq_rdropWhile, List.dropWhile_eq_nil_iff.2 ha]
  rfl

theorem stripChars_of_solid {a m z : List Char} (ha : ∀ c ∈ a, isSpace c = true)
    (hm : Solid m) (hz : ∀ c ∈ z, isSpace c = true) : stripChars (a ++ (m ++ z)) = m := by
  by_cases hne : m = []
  · subst hne
    exact stripChars_blank (blank_append ha hz)
  · have hx := List.head?_eq_some_head hne
    have hy := List.getLast?_eq_some_getLast hne
    have hz' : ∀ c ∈ z.reverse, isSpace c = true := fun c hc => hz c (List.mem_reverse.1 hc)
    rw [stripChars_around a z hx (hm.front _ hx) hy (hm.back _ hy),
      List.dropWhile_eq_nil_iff.2 ha, List.dropWhile_eq_nil_iff.2 hz']
    simp

theorem stripChars_split (t : List Char) :
    ∃ a z, t = a ++ (stripChars t ++ z) ∧ (∀ c ∈ a, isSpace c = true) ∧
      ∀ c ∈ z, isSpace c = true := by
  refine ⟨t.takeWhile isSpace, (t.dropWhile isSpace).rtakeWhile isSpace, ?_, ?_, ?_⟩
  · rw [stripChars_eq_rdropWhile, List.rdropWhile, List.rtakeWhile, ← List.reverse_append,
      List.takeWhile_append_dropWhile, List.reverse_reverse, List.takeWhile_append_dropWhile]
  · exact fun c hc => List.mem_takeWhile_imp hc
  · exact fun c hc => List.mem_rtakeWhile_imp hc

theorem stripChars_idem (t : List Char) : stripChars (stripChars t) = stripChars t := by
  have h := stripChars_of_solid (a := []) (z := []) (fun _ hc => nomatch hc) (stripChars_solid t)
    fun _ hc => nomatch hc
  rwa [List.append_nil, List.nil_append] at h

theorem length_stripChars_le (t : List Char) : (stripChars t).length ≤ t.length := by
  obtain ⟨a, z, ht, -, -⟩ := stripChars_split t
  have hlen := congrArg List.length ht
  rw [List.length_append, List.length_append] at hlen
  omega

def ink (t : List Char) : ℕ := t.countP fun c => !isSpace c

theorem ink_append (s t : List Char) : ink (s ++ t) = ink s + ink t := List.countP_append

theorem ink_blank {a : List Char} (ha : ∀ c ∈ a, isSpace c = true) : ink a = 0 :=
  List.countP_eq_zero.2 fun c hc => by simp [ha c hc]

theorem ink_stripChars (t : List Char) : ink (stripChars t) = ink t := by
  obtain ⟨a, z, ht, ha, hz⟩ := stripChars_split t
  conv_rhs => rw [ht]
  rw [ink_append, ink_append, ink_blank ha, ink_blank hz, Nat.zero_add, Nat.add_zero]

/-! ### Trimmed lines -/

def isBlank (l : List Char) : Bool := l.all isSpace

/-- The lines from the first one with ink on, without the white space before that ink. -/
def trimFront : List (List Char) → List (List Char)
  | [] => [[]]
  | l :: lines => if isBlank l then trimFront lines else l.dropWhile isSpace :: lines

/-- The lines up to the last one with ink, without the white space behind that ink. -/
def trimBack : List (List Char) → List (List Char)
  | [] => [[]]
  | l :: lines => if lines.all isBlank then [l.rdropWhile isSpace] else l :: trimBack lines

def trimLines (lines : List (List Char)) : List (List Char) := trimBack (trimFront lines)

theorem isBlank_iff {l : List Char} : isBlank l = true ↔ ∀ c ∈ l, isSpace c = true :=
  List.all_eq_true

theorem intercalate_blank_iff :
    (∀ c ∈ ['\n'].intercalate lines, isSpace c = true) ↔ lines.all isBlank = true := by
  induction lines with
  | nil => simp
  | cons l lines ih =>
    by_cases hl : lines = []
    · subst hl
      simp [isBlank]
    · rw [List.intercalate_cons_of_ne_nil hl, List.all_cons, Bool.and_eq_true, isBlank_iff, ← ih]
      constructor
      · intro h
        exact ⟨fun c hc => h c (by simp [hc]), fun c hc => h c (by simp [hc])⟩
      · rintro ⟨hfirst, hrest⟩
        exact blank_append (blank_append hfirst blank_lf) hrest

theorem trimBack_ne_nil (lines : List (List Char)) : trimBack lines ≠ [] := by
  cases lines with
  | nil => exact List.cons_ne_nil _ _
  | cons l lines =>
    rw [trimBack]
    split <;> exact List.cons_ne_nil _ _

theorem intercalate_trimFront (lines : List (List Char)) :
    ['\n'].intercalate (trimFront lines) = (['\n'].intercalate lines).dropWhile isSpace := by
  induction lines with
  | nil => rfl
  | cons l lines ih =>
    rw [trimFront]
    split
    · next hl =>
      rw [isBlank_iff] at hl
      by_cases hnil : lines = []
      · subst hnil
        rw [List.intercalate_singleton, List.dropWhile_eq_nil_iff.2 hl]
        rfl
      · rw [ih, List.intercalate_cons_of_ne_nil hnil,
          List.dropWhile_append_of_pos (blank_append hl blank_lf)]
    · next hl =>
      have hink : (l.dropWhile isSpace).isEmpty = false := by
        rw [Bool.eq_false_iff, Ne, List.isEmpty_iff, List.dropWhile_eq_nil_iff, ← isBlank_iff]
        exact hl
      by_cases hnil : lines = []
      · subst hnil
        rw [List.intercalate_singleton, List.intercalate_singleton]
      · rw [List.intercalate_cons_of_ne_nil hnil, List.intercalate_cons_of_ne_nil hnil,
          List.append_assoc, List.append_assoc, List.dropWhile_append, hink]
        rfl

theorem intercalate_trimBack (lines : List (List Char)) :
    ['\n'].intercalate (trimBack lines) = (['\n'].intercalate lines).rdropWhile isSpace := by
  induction lines with
  | nil => rfl
  | cons l lines ih =>
    rw [trimBack]
    by_cases hnil : lines = []
    · subst hnil
      rw [List.all_nil, if_pos rfl, List.intercalate_singleton, List.intercalate_singleton]
    · rw [List.intercalate_cons_of_ne_nil hnil, List.append_assoc]
      split
      · next hblank =>
        rw [List.intercalate_singleton, rdropWhile_append_blank]
        exact blank_append blank_lf (intercalate_blank_iff.2 hblank)
      · next hink =>
        have hkeep : ¬ ∀ c ∈ ['\n'].intercalate lines, isSpace c = true :=
          fun h => hink (intercalate_blank_iff.1 h)
        rw [List.intercalate_cons_of_ne_nil (trimBack_ne_nil lines), ih, ← List.append_assoc,
          rdropWhile_append_ink hkeep]

theorem intercalate_trimLines (lines : List (List Char)) :
    ['\n'].intercalate (trimLines lines) = stripChars (['\n'].intercalate lines) := by
  rw [trimLines, intercalate_trimBack, intercalate_trimFront, stripChars_eq_rdropWhile]

/-- What the strip of a text uncovers at its ends: the first line with ink on, without the white
space before the ink, and the last one without that behind it. -/
def uncovered (lines : List (List Char)) : List (List Char) :=
  match lines.filter fun l => !isBlank l with
  | [] => []
  | [l] => [stripChars l]
  | l :: m :: rest => [l.dropWhile isSpace, ((m :: rest).getLast (by simp)).rdropWhile isSpace]

theorem trimFront_all_blank (h : ∀ l ∈ lines, isBlank l = true) : trimFront lines = [[]] := by
  induction lines with
  | nil => rfl
  | cons l lines ih =>
    rw [trimFront, if_pos (h l List.mem_cons_self)]
    exact ih fun x hx => h x (List.mem_cons_of_mem l hx)

theorem trimFront_blanks {before : List (List Char)} (h : ∀ l ∈ before, ¬ (!isBlank l) = true)
    {l : List Char} (hl : isBlank l = false) (rest : List (List Char)) :
    trimFront (before ++ l :: rest) = l.dropWhile isSpace :: rest := by
  induction before with
  | nil => rw [List.nil_append, trimFront, hl, if_neg Bool.false_ne_true]
  | cons first before ih =>
    have hfirst : isBlank first = true := by simpa using h first List.mem_cons_self
    rw [List.cons_append, trimFront, if_pos hfirst]
    exact ih fun l hl => h l (List.mem_cons_of_mem first hl)

theorem trimBack_blanks {l : List Char} (hl : isBlank l = false) {after : List (List Char)}
    (h : after.all isBlank = true) (front : List (List Char)) :
    trimBack (front ++ l :: after) = front ++ [l.rdropWhile isSpace] := by
  induction front with
  | nil => rw [List.nil_append, trimBack, if_pos h, List.nil_append]
  | cons first front ih =>
    have hink : ¬ (front ++ l :: after).all isBlank = true := by simp [hl]
    rw [List.cons_append, trimBack, if_neg hink, ih, List.cons_append]

theorem dropWhile_ink {l : List Char} (h : isBlank l = false) :
    isBlank (l.dropWhile isSpace) = false := by
  rw [Bool.eq_false_iff, ne_eq, isBlank_iff] at h ⊢
  intro hall
  apply h
  intro c hc
  rw [← List.takeWhile_append_dropWhile (p := isSpace) (l := l), List.mem_append] at hc
  exact hc.elim List.mem_takeWhile_imp (hall c)

/-- Lines that all have a property keep it when the text is stripped exactly if the lines that the
strip uncovers have it. -/
theorem forall_trimLines_iff {P : List Char → Prop} (hnil : P []) (hlines : ∀ l ∈ lines, P l) :
    (∀ l ∈ trimLines lines, P l) ↔ ∀ l ∈ uncovered lines, P l := by
  rw [uncovered]
  cases hink : lines.filter (fun l => !isBlank l) with
  | nil =>
    have hblank : ∀ l ∈ lines, isBlank l = true := by simpa [List.filter_eq_nil_iff] using hink
    have htrim : trimLines lines = [[]] := by
      rw [trimLines, trimFront_all_blank hblank]
      rfl
    rw [htrim, List.forall_mem_singleton]
    exact iff_of_true hnil nofun
  | cons l inked =>
    obtain ⟨before, rest, hsplit, hbefore, hl, hrest⟩ := List.filter_eq_cons_iff.1 hink
    have hl : isBlank l = false := by simpa using hl
    have hfront : trimFront lines = l.dropWhile isSpace :: rest := by
      rw [hsplit]
      exact trimFront_blanks hbefore hl rest
    have hl' := dropWhile_ink hl
    cases inked with
    | nil =>
      have hblank : rest.all isBlank = true := by
        simpa [List.filter_eq_nil_iff, List.all_eq_true] using hrest
      have htrim : trimLines lines = [stripChars l] := by
        rw [trimLines, hfront]
        exact trimBack_blanks hl' hblank []
      simp only [htrim]
    | cons m inked =>
      obtain ⟨last, hlast⟩ : ∃ last, last = (m :: inked).getLast (by simp) := ⟨_, rfl⟩
      have hends : m :: inked = (m :: inked).dropLast ++ [last] := by
        rw [hlast, List.dropLast_append_getLast]
      rw [hends] at hrest
      obtain ⟨mid, tail, hrestsplit, -, htail⟩ := List.filter_eq_append_iff.1 hrest
      obtain ⟨blanks, after, htailsplit, -, hink', hafter⟩ := List.filter_eq_cons_iff.1 htail
      have hblank : after.all isBlank = true := by
        simpa [List.filter_eq_nil_iff, List.all_eq_true] using hafter
      have htrim : trimLines lines =
          l.dropWhile isSpace :: ((mid ++ blanks) ++ [last.rdropWhile isSpace]) := by
        rw [trimLines, hfront, hrestsplit, htailsplit, ← List.append_assoc, ← List.cons_append,
          trimBack_blanks (by simpa using hink') hblank, List.cons_append]
      have hmid : ∀ x ∈ mid ++ blanks, P x := by
        intro x hx
        apply hlines
        rw [hsplit, hrestsplit, htailsplit]
        simp only [List.mem_append, List.mem_cons] at hx ⊢
        tauto
      rw [htrim, List.forall_mem_cons, List.forall_mem_append, List.forall_mem_singleton]
      simp only [← hlast, List.forall_mem_cons, List.not_mem_nil, false_implies, implies_true,
        and_true]
      exact and_congr_right fun _ => and_iff_right hmid

theorem trimLines_ne_nil (lines : List (List Char)) : trimLines lines ≠ [] := trimBack_ne_nil _

theorem lf_not_mem_trimLines (h : ∀ l ∈ lines, '\n' ∉ l) : ∀ l ∈ trimLines lines, '\n' ∉ l := by
  have hfront : ∀ l ∈ trimFront lines, '\n' ∉ l := by
    intro l hl
    induction lines with
    | nil =>
      rw [List.mem_singleton.1 hl]
      exact List.not_mem_nil
    | cons first lines ih =>
      rw [trimFront] at hl
      split at hl
      · exact ih (fun l hl => h l (List.mem_cons_of_mem first hl)) hl
      · rcases List.mem_cons.1 hl with rfl | hl
        · exact fun hin => h first List.mem_cons_self (List.dropWhile_subset _ hin)
        · exact h l (List.mem_cons_of_mem first hl)
  intro l hl
  rw [trimLines] at hl
  generalize trimFront lines = ls at hfront hl
  induction ls with
  | nil =>
    rw [List.mem_singleton.1 hl]
    exact List.not_mem_nil
  | cons first ls ih =>
    rw [trimBack] at hl
    split at hl
    · rw [List.mem_singleton.1 hl]
      exact fun hin => hfront first List.mem_cons_self ((List.rdropWhile_prefix _ _).subset hin)
    · rcases List.mem_cons.1 hl with rfl | hl
      · exact hfront l List.mem_cons_self
      · exact ih (fun l hl => hfront l (List.mem_cons_of_mem first hl)) hl

theorem splitOn_stripChars (h : ∀ l ∈ lines, '\n' ∉ l) :
    (stripChars (['\n'].intercalate lines)).splitOn '\n' = trimLines lines := by
  rw [← intercalate_trimLines]
  exact List.splitOn_intercalate '\n' (lf_not_mem_trimLines h) (trimLines_ne_nil lines)

theorem length_intercalate_lt {l : List Char} (hl : l ≠ []) (before rest : List (List Char)) :
    (['\n'].intercalate before).length < (['\n'].intercalate (before ++ l :: rest)).length := by
  induction before with
  | nil =>
    obtain ⟨tail, -, htail⟩ := RegexLines.intercalate_line '\n' l rest
    have hpos := List.length_pos_of_ne_nil hl
    rw [List.nil_append, htail, List.length_append, List.intercalate_nil, List.length_nil]
    omega
  | cons first before ih =>
    have hne : before ++ l :: rest ≠ [] := by simp
    rw [List.cons_append, List.intercalate_cons_of_ne_nil hne]
    by_cases hnil : before = []
    · subst hnil
      simp only [List.intercalate_singleton, List.length_append, List.length_singleton]
      omega
    · rw [List.intercalate_cons_of_ne_nil hnil]
      simp only [List.length_append, List.length_singleton]
      omega

/-! ### Line breaks written as CR LF -/

/-- `str.replace` of every LF by CR LF. -/
def toCrlf (t : List Char) : List Char :=
  t.flatMap fun c => if c = '\n' then ['\r', '\n'] else [c]

/-- The lines of the text with CR LF: a carriage return ends each of them but the last. -/
def crlfLines : List (List Char) → List (List Char)
  | [] => []
  | [l] => [l]
  | l :: l' :: lines => (l ++ ['\r']) :: crlfLines (l' :: lines)

theorem toCrlf_append (s t : List Char) : toCrlf (s ++ t) = toCrlf s ++ toCrlf t :=
  List.flatMap_append

theorem toCrlf_line {l : List Char} (h : '\n' ∉ l) : toCrlf l = l := by
  induction l with
  | nil => rfl
  | cons c l ih =>
    have hc : c ≠ '\n' := fun he => h (he ▸ List.mem_cons_self)
    rw [toCrlf, List.flatMap_cons, if_neg hc, List.singleton_append]
    exact congrArg (c :: ·) (ih fun hl => h (List.mem_cons_of_mem c hl))

theorem lf_not_mem_cr {l : List Char} (h : '\n' ∉ l) : '\n' ∉ l ++ ['\r'] := by
  simpa using h

theorem crlfLines_ne_nil (h : lines ≠ []) : crlfLines lines ≠ [] := by
  cases lines with
  | nil => exact absurd rfl h
  | cons l lines => cases lines <;> exact List.cons_ne_nil _ _

theorem intercalate_crlfLines (h : ∀ l ∈ lines, '\n' ∉ l) :
    ['\n'].intercalate (crlfLines lines) = toCrlf (['\n'].intercalate lines) := by
  induction lines with
  | nil => rfl
  | cons l lines ih =>
    have hl := h l List.mem_cons_self
    cases lines with
    | nil => rw [crlfLines, List.intercalate_singleton, toCrlf_line hl]
    | cons l' lines =>
      rw [crlfLines, List.intercalate_cons_of_ne_nil (crlfLines_ne_nil (List.cons_ne_nil _ _)),
        ih fun x hx => h x (List.mem_cons_of_mem l hx), List.intercalate_cons_cons,
        toCrlf_append, toCrlf_append, toCrlf_line hl]
      simp [toCrlf]

theorem lf_not_mem_crlfLines (h : ∀ l ∈ lines, '\n' ∉ l) : ∀ l ∈ crlfLines lines, '\n' ∉ l := by
  induction lines with
  | nil => exact fun l hl => nomatch hl
  | cons first lines ih =>
    cases lines with
    | nil => exact h
    | cons second lines =>
      intro l hl
      rcases List.mem_cons.1 hl with rfl | hl
      · exact lf_not_mem_cr (h first List.mem_cons_self)
      · exact ih (fun x hx => h x (List.mem_cons_of_mem first hx)) l hl

theorem splitOn_toCrlf (t : List Char) :
    (toCrlf t).splitOn '\n' = crlfLines (t.splitOn '\n') := by
  have hl : ∀ l ∈ t.splitOn '\n', '\n' ∉ l := fun l h => sep_not_mem_splitOn h
  have ht : ['\n'].intercalate (t.splitOn '\n') = t := List.intercalate_splitOn '\n'
  conv_lhs => rw [← ht, ← intercalate_crlfLines hl]
  exact List.splitOn_intercalate '\n' (lf_not_mem_crlfLines hl)
    (crlfLines_ne_nil (List.splitOn_ne_nil '\n' t))

theorem crlfLines_append (before : List (List Char)) (h : lines ≠ []) :
    crlfLines (before ++ lines) = before.map (· ++ ['\r']) ++ crlfLines lines := by
  induction before with
  | nil => rfl
  | cons l before ih =>
    obtain ⟨first, rest, hrest⟩ : ∃ first rest, before ++ lines = first :: rest :=
      List.exists_cons_of_ne_nil fun he => h (List.append_eq_nil_iff.1 he).2
    rw [List.cons_append, List.map_cons, List.cons_append, ← ih, hrest, crlfLines]

theorem map_crlf_eq (h : lines ≠ []) :
    ['\n'].intercalate (lines.map (· ++ ['\r'])) =
      ['\n'].intercalate (crlfLines lines) ++ ['\r'] := by
  induction lines with
  | nil => exact absurd rfl h
  | cons l lines ih =>
    cases lines with
    | nil => simp [crlfLines]
    | cons l' lines =>
      rw [crlfLines, List.intercalate_cons_of_ne_nil (crlfLines_ne_nil (List.cons_ne_nil l' _)),
        List.map_cons, List.intercalate_cons_of_ne_nil (by simp), ih (List.cons_ne_nil l' _)]
      simp only [List.append_assoc]

theorem toCrlf_blank {a : List Char} (ha : ∀ c ∈ a, isSpace c = true) :
    ∀ c ∈ toCrlf a, isSpace c = true := by
  intro c hc
  obtain ⟨x, hx, hcx⟩ := List.mem_flatMap.1 hc
  split at hcx
  · rcases List.mem_cons.1 hcx with rfl | hcx
    · rfl
    · rw [List.mem_singleton.1 hcx]
      exact isSpace_lf
  · rw [List.mem_singleton.1 hcx]
    exact ha x hx

theorem toCrlf_solid {m : List Char} (hm : Solid m) : Solid (toCrlf m) := by
  have hkeep : ∀ {x}, isSpace x = false → toCrlf [x] = [x] := by
    intro x hx
    apply toCrlf_line
    intro hin
    rw [← List.mem_singleton.1 hin] at hx
    exact nomatch hx
  rcases List.eq_nil_or_concat m with rfl | ⟨init, y, rfl⟩
  · exact ⟨(fun x hx => nomatch hx), fun x hx => nomatch hx⟩
  · have hy : isSpace y = false := hm.back y (by simp)
    have hlast : toCrlf (init.concat y) = toCrlf init ++ [y] := by
      rw [List.concat_eq_append, toCrlf_append, hkeep hy]
    constructor
    · intro x hx
      rw [hlast] at hx
      cases init with
      | nil =>
        rw [← Option.some.inj hx]
        exact hy
      | cons z init =>
        have hz : isSpace z = false := hm.front z rfl
        have hcons : toCrlf (z :: init) = [z] ++ toCrlf init := by
          rw [← hkeep hz, ← toCrlf_append, List.singleton_append]
        rw [hcons] at hx
        rw [← Option.some.inj hx]
        exact hz
    · intro x hx
      rw [hlast, List.getLast?_concat] at hx
      rw [← Option.some.inj hx]
      exact hy

theorem stripChars_toCrlf (t : List Char) : stripChars (toCrlf t) = toCrlf (stripChars t) := by
  obtain ⟨a, z, ht, ha, hz⟩ := stripChars_split t
  have hparts : toCrlf t = toCrlf a ++ (toCrlf (stripChars t) ++ toCrlf z) := by
    rw [← toCrlf_append, ← toCrlf_append, ← ht]
  rw [hparts]
  exact stripChars_of_solid (toCrlf_blank ha) (toCrlf_solid (stripChars_solid t))
    (toCrlf_blank hz)

theorem ink_toCrlf (t : List Char) : ink (toCrlf t) = ink t := by
  induction t with
  | nil => rfl
  | cons c t ih =>
    have hcons : toCrlf (c :: t) = toCrlf [c] ++ toCrlf t := toCrlf_append [c] t
    have hone : ink (toCrlf [c]) = ink [c] := by
      by_cases hc : c = '\n'
      · rw [hc]
        rfl
      · rw [toCrlf_line]
        exact fun h => hc (List.mem_singleton.1 h).symm
    rw [hcons, ink_append, hone, ih, ← ink_append, List.singleton_append]

theorem ink_intercalate (lines : List (List Char)) :
    ink (['\n'].intercalate lines) = (lines.map ink).sum := by
  induction lines with
  | nil => rfl
  | cons l lines ih =>
    by_cases hnil : lines = []
    · subst hnil
      simp
    · have hbreak : ink ['\n'] = 0 := rfl
      rw [List.intercalate_cons_of_ne_nil hnil, ink_append, ink_append, ih, hbreak, Nat.add_zero,
        List.map_cons, List.sum_cons]

end TrustCopilot.TextLines
