import Mathlib.Data.List.Basic
import Mathlib.Data.List.TakeWhile

/-! Python's string operations on code points, as far as they do not depend on the
interpreter's Unicode case tables. -/
namespace TrustCopilot.PyText

/-- `str.isspace` of one code point. -/
def isSpace (c : Char) : Bool :=
  let n := c.toNat
  (9 ≤ n && n ≤ 13) || (28 ≤ n && n ≤ 32) || n == 0x85 || n == 0xA0 || n == 0x1680 ||
    (0x2000 ≤ n && n ≤ 0x200A) || n == 0x2028 || n == 0x2029 || n == 0x202F ||
    n == 0x205F || n == 0x3000

def stripChars (t : List Char) : List Char :=
  ((t.dropWhile isSpace).reverse.dropWhile isSpace).reverse

def strip (s : String) : String := String.ofList (stripChars s.toList)

/-- `str.split` with a one-character separator. -/
def split (s : String) (sep : Char) : List String :=
  (s.toList.splitOn sep).map String.ofList

/-- `str.split` without a separator: what stands between white space. -/
def words (s : String) : List String :=
  ((s.toList.splitOnP isSpace).filter fun w => !w.isEmpty).map String.ofList

/-- `part in text` on strings. -/
def isIn (part text : String) : Prop := part.toList <:+: text.toList

instance (part text : String) : Decidable (isIn part text) :=
  inferInstanceAs (Decidable (_ <:+: _))

/-- `str.lower` on ASCII text. -/
def asciiLower (s : String) : String := String.ofList (s.toList.map Char.toLower)

def IsAscii (s : String) : Prop := ∀ c ∈ s.toList, c.toNat < 128

instance (s : String) : Decidable (IsAscii s) :=
  List.decidableBAll (fun c : Char => c.toNat < 128) s.toList

theorem isAscii_append {s t : String} (hs : IsAscii s) (ht : IsAscii t) :
    IsAscii (s ++ t) := by
  intro c hc
  rw [String.toList_append] at hc
  rcases List.mem_append.1 hc with hc | hc
  · exact hs c hc
  · exact ht c hc

/-- `str.lower`: it knows the case of ASCII letters, and does not look across a blank. -/
structure StrLower where
  lower : String → String
  ascii : ∀ s, IsAscii s → lower s = asciiLower s
  blank : ∀ s t c, isSpace c = true →
    lower (s ++ String.singleton c ++ t) = lower s ++ String.singleton c ++ lower t

/-- Lowering moves the capitals of ASCII, and no other character. -/
theorem toLower_cases (c : Char) :
    c.toLower = c ∨ (65 ≤ c.toNat ∧ c.toNat ≤ 90) ∧ c.toLower.toNat = c.toNat + 32 := by
  by_cases h : c.val ≥ 'A'.val ∧ c.val ≤ 'Z'.val
  · right
    have hlow : 65 ≤ c.toNat := UInt32.le_iff_toNat_le.1 h.1
    have hhigh : c.toNat ≤ 90 := UInt32.le_iff_toNat_le.1 h.2
    have hval : c.toLower.val = c.val + ('a'.val - 'A'.val) := congrArg Char.val (dif_pos h)
    have hnat : c.toLower.toNat = (c.toNat + 32) % 2 ^ 32 := congrArg UInt32.toNat hval
    exact ⟨⟨hlow, hhigh⟩, by omega⟩
  · left
    exact dif_neg h

theorem toLower_of_isSpace {c : Char} (h : isSpace c = true) : c.toLower = c := by
  rcases toLower_cases c with hc | ⟨hupper, -⟩
  · exact hc
  · simp only [isSpace, Bool.or_eq_true, Bool.and_eq_true, decide_eq_true_eq, beq_iff_eq] at h
    omega

/-- Lowering that leaves all but the ASCII letters alone. -/
def asciiStrLower : StrLower where
  lower := asciiLower
  ascii _ _ := rfl
  blank s t c h := by
    rw [← String.toList_inj]
    simp [asciiLower, toLower_of_isSpace h]

/-- A tag without a colon, a colon and any text: the whole loses neither part. -/
theorem tagged_injective {τ : Type*} {tag : τ → String} (htag : Function.Injective tag)
    (hcolon : ∀ t, ':' ∉ (tag t).toList) :
    Function.Injective fun k : τ × String => tag k.1 ++ ":" ++ k.2 := by
  have hcut : ∀ t (s : List Char),
      ((tag t).toList ++ ':' :: s).takeWhile (· ≠ ':') = (tag t).toList := by
    intro t s
    have hpos : ∀ c ∈ (tag t).toList, decide (c ≠ ':') = true := by
      intro c hc
      simpa using fun h : c = ':' => hcolon t (h ▸ hc)
    rw [List.takeWhile_append_of_pos hpos]
    simp
  rintro ⟨t, s⟩ ⟨t', s'⟩ h
  have hchars : (tag t).toList ++ ':' :: s.toList = (tag t').toList ++ ':' :: s'.toList := by
    have hlists := congrArg String.toList h
    simp only [String.toList_append, List.append_assoc] at hlists
    exact hlists
  have ht : (tag t).toList = (tag t').toList := by
    rw [← hcut t s.toList, ← hcut t' s'.toList, hchars]
  rw [ht] at hchars
  have hs := (List.cons.inj (List.append_cancel_left hchars)).2
  rw [htag (String.toList_inj.1 ht), String.toList_inj.1 hs]

theorem append_ne_empty {s t : String} (h : s ≠ "") : s ++ t ≠ "" := by
  intro he
  rw [← String.toList_inj, String.toList_append] at he
  exact h (String.toList_inj.1 (List.append_eq_nil_iff.1 he).1)

/-- No piece of a split has the separator in it. -/
theorem sep_not_mem_splitOn {sep : Char} {t l : List Char} (h : l ∈ t.splitOn sep) : sep ∉ l := by
  induction t generalizing l with
  | nil =>
    rw [List.splitOn_nil, List.mem_singleton] at h
    rw [h]
    exact List.not_mem_nil
  | cons x t ih =>
    rw [List.splitOn_cons_eq_if_modifyHead] at h
    split at h
    · rcases List.mem_cons.1 h with rfl | h
      · exact List.not_mem_nil
      · exact ih h
    · next hx =>
      cases hs : t.splitOn sep with
      | nil => exact absurd hs (List.splitOn_ne_nil sep t)
      | cons first rest =>
        rw [hs] at h ih
        rcases List.mem_cons.1 h with rfl | h
        · intro hin
          rcases List.mem_cons.1 hin with rfl | hin
          · simp at hx
          · exact ih List.mem_cons_self hin
        · exact ih (List.mem_cons_of_mem first h)

theorem stripChars_append_spaces {s : List Char} (hs : ∀ c ∈ s, isSpace c = true)
    (t : List Char) : stripChars (t ++ s) = stripChars t := by
  unfold stripChars
  by_cases ht : ∀ c ∈ t, isSpace c = true
  · have hts : ∀ c ∈ t ++ s, isSpace c = true := fun c hc =>
      (List.mem_append.1 hc).elim (ht c) (hs c)
    rw [List.dropWhile_eq_nil_iff.2 ht, List.dropWhile_eq_nil_iff.2 hts]
  · have hne : t.dropWhile isSpace ≠ [] := fun h => ht (List.dropWhile_eq_nil_iff.1 h)
    rw [List.dropWhile_append, if_neg (by simpa using hne), List.reverse_append,
      List.dropWhile_append_of_pos]
    intro c hc
    exact hs c (List.mem_reverse.1 hc)

theorem dropWhile_before (s : List Char) {u : List Char} {x : Char} (hx : u.head? = some x)
    (hxs : isSpace x = false) : (s ++ u).dropWhile isSpace = s.dropWhile isSpace ++ u := by
  cases u with
  | nil => cases hx
  | cons y u =>
    cases hx
    have hu : (x :: u).dropWhile isSpace = x :: u :=
      List.dropWhile_cons_of_neg (by simp [hxs])
    rw [List.dropWhile_append, hu]
    split
    · next h => rw [List.isEmpty_iff.1 h, List.nil_append]
    · rfl

/-- A stretch that neither begins nor ends with white space survives the strip. -/
theorem stripChars_around (s t : List Char) {m : List Char} {x y : Char}
    (hx : m.head? = some x) (hxs : isSpace x = false) (hy : m.getLast? = some y)
    (hys : isSpace y = false) :
    stripChars (s ++ (m ++ t)) =
      s.dropWhile isSpace ++ (m ++ (t.reverse.dropWhile isSpace).reverse) := by
  have hfront : (m ++ t).head? = some x := by rw [List.head?_append, hx]; rfl
  have hback : (m.reverse ++ (s.dropWhile isSpace).reverse).head? = some y := by
    rw [List.head?_append, List.head?_reverse, hy]
    rfl
  rw [stripChars, dropWhile_before s hfront hxs, List.reverse_append, List.reverse_append,
    List.append_assoc, dropWhile_before _ hback hys]
  simp

end TrustCopilot.PyText
