import EdgeBundle.Text.Width
import EdgeBundle.Text.Segments
import Mathlib.Data.List.Infix

/-!
# UTF-16

A text as the runtime of the bundle holds it: a list of UTF-16 code units, one for a character of
the basic plane and two for any other. No character starts with the second unit of a pair, so a text
is found among the units of another one only where its characters are.

## Main definitions

* `utf16` and `utf16Width`: the code units of a text and their number.

## Main statements

* `exists_append_of_utf16_eq`: a cut before the first unit of a character is a cut between
  characters.
* `utf16_isPrefix_iff`, `utf16_isSuffix_iff`, `utf16_isInfix_iff`: texts are found where they are.
* `utf16Width_le`: a text has no more units than bytes.
-/

namespace EdgeBundle

/-- The code units of a character. -/
def utf16Char (c : Char) : List Nat :=
  if c.toNat < 0x10000 then [c.toNat]
  else [0xD800 + (c.toNat - 0x10000) / 0x400, 0xDC00 + (c.toNat - 0x10000) % 0x400]

/-- The code units of a text. -/
def utf16 (cs : List Char) : List Nat :=
  cs.flatMap utf16Char

@[simp]
theorem utf16_nil : utf16 [] = [] := rfl

@[simp]
theorem utf16_cons (c : Char) (cs : List Char) : utf16 (c :: cs) = utf16Char c ++ utf16 cs := rfl

@[simp]
theorem utf16_append (as bs : List Char) : utf16 (as ++ bs) = utf16 as ++ utf16 bs :=
  List.flatMap_append

/-! ## Units of characters -/

/-- The unit is the second one of a pair. -/
def IsTrailing (u : Nat) : Prop :=
  0xDC00 ≤ u ∧ u < 0xE000

/-- The units of a character: its code point, which is half of no pair, or the two halves of a
pair. -/
theorem utf16Char_cases (c : Char) :
    (utf16Char c = [c.toNat] ∧ (c.toNat < 0xD800 ∨ 0xE000 ≤ c.toNat)) ∨
    ∃ lead trail, utf16Char c = [lead, trail] ∧ 0xD800 ≤ lead ∧ lead < 0xDC00 ∧
      IsTrailing trail ∧ c.toNat = 0x10000 + (lead - 0xD800) * 0x400 + (trail - 0xDC00) := by
  have hvalid : c.toNat < 0xD800 ∨ 0xDFFF < c.toNat ∧ c.toNat < 0x110000 := c.valid
  by_cases hc : c.toNat < 0x10000
  · exact .inl ⟨if_pos hc, by omega⟩
  · exact .inr ⟨_, _, if_neg hc, by omega, by omega, by rw [IsTrailing]; omega, by omega⟩

theorem utf16Char_ne_nil (c : Char) : utf16Char c ≠ [] := by
  rcases utf16Char_cases c with ⟨hc, -⟩ | ⟨lead, trail, hc, -⟩ <;> simp [hc]

/-- No character starts with the second unit of a pair. -/
theorem not_isTrailing_head_utf16 {u : Nat} {cs : List Char} (h : (utf16 cs).head? = some u) :
    ¬ IsTrailing u := by
  cases cs with
  | nil => cases h
  | cons c cs =>
    rcases utf16Char_cases c with ⟨hc, hsingle⟩ | ⟨lead, trail, hc, hlead⟩ <;>
      rw [utf16_cons, hc] at h <;> cases h <;> rw [IsTrailing] <;> omega

/-- Units tell which character comes first. -/
theorem eq_of_utf16Char_append {c d : Char} {us vs : List Nat}
    (h : utf16Char c ++ us = utf16Char d ++ vs) : c = d ∧ us = vs := by
  rcases utf16Char_cases c with ⟨hc, hsingle⟩ | ⟨lead, trail, hc, hlead, hlead', htrail, hnat⟩ <;>
    rcases utf16Char_cases d with
      ⟨hd, hsingle₁⟩ | ⟨lead₁, trail₁, hd, hlead₁, hlead₁', htrail₁, hnat₁⟩ <;>
    simp only [hc, hd, List.cons_append, List.nil_append, List.cons.injEq] at h
  case inl.inl => exact ⟨Char.toNat_inj.mp h.1, h.2⟩
  -- a code point is half of no pair
  case inl.inr => omega
  case inr.inl => omega
  case inr.inr =>
    obtain ⟨rfl, rfl, hrest⟩ := h
    exact ⟨Char.toNat_inj.mp (hnat.trans hnat₁.symm), hrest⟩

/-! ## Texts among units -/

@[simp]
theorem utf16_eq_nil_iff {cs : List Char} : utf16 cs = [] ↔ cs = [] := by
  cases cs with
  | nil => simp
  | cons c cs => simp [utf16Char_ne_nil]

theorem utf16_isPrefix_iff {s t : List Char} : utf16 s <+: utf16 t ↔ s <+: t := by
  constructor
  · intro h
    induction s generalizing t with
    | nil => exact List.nil_prefix
    | cons c s ih =>
      obtain ⟨rest, hrest⟩ := h
      cases t with
      | nil => simp [utf16Char_ne_nil] at hrest
      | cons d t =>
        rw [utf16_cons, utf16_cons, List.append_assoc] at hrest
        obtain ⟨rfl, htail⟩ := eq_of_utf16Char_append hrest
        rw [List.cons_prefix_cons]
        exact ⟨rfl, ih ⟨rest, htail⟩⟩
  · rintro ⟨rest, rfl⟩
    exact ⟨utf16 rest, (utf16_append s rest).symm⟩

/-- Texts with the same units are the same. -/
theorem utf16_injective {s t : List Char} (h : utf16 s = utf16 t) : s = t := by
  have hst : s <+: t := utf16_isPrefix_iff.mp (h ▸ List.prefix_rfl)
  have hts : t <+: s := utf16_isPrefix_iff.mp (h ▸ List.prefix_rfl)
  exact hst.eq_of_length_le hts.length_le

/-- A cut before the first unit of a character is a cut between characters. -/
theorem exists_append_of_utf16_eq {t : List Char} {before after : List Nat}
    (h : utf16 t = before ++ after) (hafter : ∀ u ∈ after.head?, ¬ IsTrailing u) :
    ∃ s r, t = s ++ r ∧ utf16 s = before ∧ utf16 r = after := by
  induction t generalizing before with
  | nil =>
    obtain ⟨rfl, rfl⟩ := List.append_eq_nil_iff.mp h.symm
    exact ⟨[], [], rfl, rfl, rfl⟩
  | cons c t ih =>
    cases before with
    | nil => exact ⟨[], c :: t, rfl, rfl, h⟩
    | cons u before =>
      rw [utf16_cons] at h
      rcases utf16Char_cases c with ⟨hc, -⟩ | ⟨lead, trail, hc, -, -, htrail, -⟩ <;>
        simp only [hc, List.cons_append, List.nil_append, List.cons.injEq] at h
      case inl =>
        obtain ⟨s, r, rfl, hs, hr⟩ := ih h.2
        exact ⟨c :: s, r, rfl, by rw [utf16_cons, hc, hs, h.1]; rfl, hr⟩
      case inr =>
        cases before with
        -- a cut inside the pair would come before its second unit
        | nil =>
          have hhead : after.head? = some trail := by rw [← List.nil_append after, ← h.2]; rfl
          exact absurd htrail (hafter trail hhead)
        | cons v before =>
          rw [List.cons_append, List.cons.injEq] at h
          obtain ⟨s, r, rfl, hs, hr⟩ := ih h.2.2
          exact ⟨c :: s, r, rfl, by rw [utf16_cons, hc, hs, h.1, h.2.1]; rfl, hr⟩

theorem utf16_isSuffix_iff {s t : List Char} : utf16 s <:+ utf16 t ↔ s <:+ t := by
  constructor
  · rintro ⟨before, hbefore⟩
    obtain ⟨r, s', rfl, -, hs⟩ := exists_append_of_utf16_eq hbefore.symm
      fun u hu => not_isTrailing_head_utf16 hu
    exact ⟨r, by rw [utf16_injective hs]⟩
  · rintro ⟨before, rfl⟩
    exact ⟨utf16 before, (utf16_append before s).symm⟩

theorem utf16_isInfix_iff {s t : List Char} : utf16 s <:+: utf16 t ↔ s <:+: t := by
  constructor
  · rintro ⟨before, after, h⟩
    rcases eq_or_ne s [] with rfl | hs
    · exact ⟨[], t, rfl⟩
    rw [List.append_assoc] at h
    have hhead : (utf16 s ++ after).head? = (utf16 s).head? :=
      List.head?_append_of_ne_nil _ (mt utf16_eq_nil_iff.mp hs)
    obtain ⟨r, rest, rfl, -, hrest⟩ := exists_append_of_utf16_eq h.symm
      fun u hu => not_isTrailing_head_utf16 (hhead ▸ hu)
    have hstarts : s <+: rest := utf16_isPrefix_iff.mp ⟨after, hrest.symm⟩
    exact hstarts.isInfix.trans (List.suffix_append r rest).isInfix
  · rintro ⟨before, after, rfl⟩
    exact ⟨utf16 before, utf16 after, by simp⟩

/-! ## Lengths -/

/-- Number of code units that the characters take in UTF-16. -/
def utf16Width (cs : List Char) : Nat :=
  (utf16 cs).length

theorem length_utf16Char_le (c : Char) : (utf16Char c).length ≤ c.utf8Size := by
  rw [utf16Char]
  split
  next => exact c.utf8Size_pos
  next h =>
    have hval : 0x10000 ≤ c.val.toNat := Nat.not_lt.mp h
    simp only [Char.utf8Size, UInt32.le_iff_toNat_le]
    split_ifs with h1 h2 h3
    · exact absurd h1 (by simp; omega)
    · exact absurd h2 (by simp; omega)
    · exact absurd h3 (by simp; omega)
    · simp

/-- A text has no more units than bytes. -/
theorem utf16Width_le (cs : List Char) : utf16Width cs ≤ utf8Width cs := by
  induction cs with
  | nil => exact Nat.le_refl 0
  | cons c cs ih =>
    have := length_utf16Char_le c
    rw [utf16Width] at ih ⊢
    rw [utf16_cons, List.length_append, utf8Width_cons]
    omega

end EdgeBundle
