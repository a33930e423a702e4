import EdgeBundle.Json
import EdgeBundle.Proofs.Decimal.Shortest

/-!
# Written numbers

The text of a number consists of a sign, digits, a fraction and an exponent. It can be read in one
way only, also where more text follows, and it tells integers from doubles. A double is known from
the value of its text, since that is the value of its shortest decimal.

## Main definitions

* `Numeral`: the parts of a written number.
* `Numeral.Ends`: texts that cannot be taken for more of a number.

## Main statements

* `Numeral.text_append_inj`: a number can be read in one way only.
* `Double.exists_numeral`: the text of a double has the value of its shortest decimal.
* `JsonNumber.toText_append_inj`: different numbers have different texts, none of which starts
  another.
-/

namespace EdgeBundle

/-- A written number. -/
@[ext]
structure Numeral where
  /-- Whether there is a minus sign. -/
  negative : Bool
  /-- The digits in front of the point. -/
  whole : List Char
  /-- The digits after the point, if there is one. -/
  fraction : Option (List Char)
  /-- The number after the `e`, if there is one. -/
  exponent : Option ℤ
  /-- There are digits in front of the point. -/
  whole_ne_nil : whole ≠ []
  /-- In front of the point there are digits only. -/
  whole_digits : ∀ c ∈ whole, c.isDigit = true
  /-- After the point there are digits only. -/
  fraction_digits : ∀ ds ∈ fraction, ∀ c ∈ ds, c.isDigit = true

namespace Numeral

/-- Written form of a sign. -/
def signText (negative : Bool) : List Char :=
  if negative then ['-'] else []

/-- Written form of a fraction. -/
def fractionText : Option (List Char) → List Char
  | none => []
  | some ds => '.' :: ds

/-- Written form of an exponent. -/
def exponentText : Option ℤ → List Char
  | none => []
  | some k => 'e' :: (toString k).toList

/-- Text of a written number. -/
def text (n : Numeral) : List Char :=
  signText n.negative ++ (n.whole ++ (fractionText n.fraction ++ exponentText n.exponent))

/-- Value of a written number without its sign. -/
def value (n : Numeral) : ℚ :=
  (Nat.ofDigitChars 10 (n.whole ++ n.fraction.getD []) 0 : ℕ) *
    10 ^ (n.exponent.getD 0 - ((n.fraction.getD []).length : ℤ))

/-- The text starts with nothing that a number could go on with. -/
def Ends (cs : List Char) : Prop :=
  ∀ c ∈ cs.head?, c.isDigit = false ∧ c ≠ '.' ∧ c ≠ 'e'

/-! ## Reading the parts -/

section Parts

variable {s t a b : List Char}

/-- A run of characters ends where the text goes on with another character. -/
theorem run_append_inj {p : Char → Bool} (hs : ∀ c ∈ s, p c = true) (ht : ∀ c ∈ t, p c = true)
    (ha : ∀ c ∈ a.head?, p c = false) (hb : ∀ c ∈ b.head?, p c = false) (h : s ++ a = t ++ b) :
    s = t ∧ a = b := by
  have hstop : ∀ {cs : List Char}, (∀ c ∈ cs.head?, p c = false) → cs.takeWhile p = [] := by
    intro cs hcs
    cases cs with
    | nil => rfl
    | cons c cs => rw [List.takeWhile_cons, hcs c rfl, if_neg Bool.false_ne_true]
  -- both runs are all that the common text has of such characters
  have hrun := congrArg (List.takeWhile p) h
  rw [List.takeWhile_append_of_pos hs, List.takeWhile_append_of_pos ht, hstop ha, hstop hb,
    List.append_nil, List.append_nil] at hrun
  subst hrun
  exact ⟨rfl, List.append_cancel_left h⟩

theorem Ends.not_digit (h : Ends a) : ∀ c ∈ a.head?, c.isDigit = false :=
  fun c hc => (h c hc).1

theorem ends_nil : Ends [] := by
  intro c hc
  cases hc

theorem ends_cons {c : Char} (hdigit : c.isDigit = false) (hpoint : c ≠ '.') (hexp : c ≠ 'e') :
    Ends (c :: a) := by
  intro c' hc'
  cases hc'
  exact ⟨hdigit, hpoint, hexp⟩

/-- A sign is told from the digits after it. -/
theorem signText_append_inj {n m : Bool} (hs : ∀ c ∈ s.head?, c.isDigit = true)
    (ht : ∀ c ∈ t.head?, c.isDigit = true) (h : signText n ++ s = signText m ++ t) :
    n = m ∧ s = t := by
  have hminus : ('-' : Char).isDigit ≠ true := by decide
  cases n <;> cases m
  · exact ⟨rfl, h⟩
  · obtain rfl : s = '-' :: t := h
    exact absurd (hs '-' rfl) hminus
  · obtain rfl : '-' :: s = t := h
    exact absurd (ht '-' rfl) hminus
  · exact ⟨rfl, List.append_cancel_left h⟩

theorem isDigit_of_mem_replicate {n : ℕ} : ∀ c ∈ List.replicate n '0', c.isDigit = true := by
  intro c hc
  rw [List.eq_of_mem_replicate hc]
  decide

theorem isDigit_of_mem_toDigits {n : ℕ} : ∀ c ∈ Nat.toDigits 10 n, c.isDigit = true :=
  fun _ hc => Nat.isDigit_of_mem_toDigits (by decide) (by decide) hc

theorem head_toDigits_append (n : ℕ) : ∀ c ∈ (Nat.toDigits 10 n ++ a).head?, c.isDigit = true := by
  intro c hc
  rw [List.head?_append_of_ne_nil _ Nat.toDigits_ne_nil] at hc
  exact isDigit_of_mem_toDigits c (List.mem_of_mem_head? hc)

theorem toDigits_append_inj {n m : ℕ} (ha : ∀ c ∈ a.head?, c.isDigit = false)
    (hb : ∀ c ∈ b.head?, c.isDigit = false)
    (h : Nat.toDigits 10 n ++ a = Nat.toDigits 10 m ++ b) : n = m ∧ a = b := by
  obtain ⟨hrun, hrest⟩ :=
    run_append_inj isDigit_of_mem_toDigits isDigit_of_mem_toDigits ha hb h
  have hvalue := congrArg (Nat.ofDigitChars 10 · 0) hrun
  rw [Nat.ofDigitChars_ten_toDigits, Nat.ofDigitChars_ten_toDigits] at hvalue
  exact ⟨hvalue, hrest⟩

theorem toList_toString_int (k : ℤ) :
    (toString k).toList = signText (decide (k < 0)) ++ Nat.toDigits 10 k.natAbs := by
  rw [Int.toString_eq_repr, Int.repr_eq_if]
  split
  next hnonneg =>
    have hsign : decide (k < 0) = false := decide_eq_false (not_lt.mpr hnonneg)
    have habs : k.toNat = k.natAbs := by omega
    rw [hsign, habs, Nat.repr_eq_ofList_toDigits, String.toList_ofList]
    rfl
  next hneg =>
    have hsign : decide (k < 0) = true := decide_eq_true (not_le.mp hneg)
    have habs : (-k).toNat = k.natAbs := by omega
    rw [hsign, habs, Nat.repr_eq_ofList_toDigits, String.toList_append, String.toList_ofList,
      String.toList_ofList]
    rfl

theorem toString_append_inj {k l : ℤ} (ha : ∀ c ∈ a.head?, c.isDigit = false)
    (hb : ∀ c ∈ b.head?, c.isDigit = false)
    (h : (toString k).toList ++ a = (toString l).toList ++ b) : k = l ∧ a = b := by
  rw [toList_toString_int, toList_toString_int, List.append_assoc, List.append_assoc] at h
  obtain ⟨hsign, hdigits⟩ :=
    signText_append_inj (head_toDigits_append _) (head_toDigits_append _) h
  obtain ⟨habs, hrest⟩ := toDigits_append_inj ha hb hdigits
  have hneg : k < 0 ↔ l < 0 := decide_eq_decide.mp hsign
  exact ⟨by omega, hrest⟩

theorem head_exponentText_append (e : Option ℤ) (ha : Ends a) :
    ∀ c ∈ (exponentText e ++ a).head?, c.isDigit = false ∧ c ≠ '.' := by
  intro c hc
  cases e with
  | none => exact ⟨(ha c hc).1, (ha c hc).2.1⟩
  | some k =>
    cases hc
    decide

theorem exponentText_append_inj {e f : Option ℤ} (ha : Ends a) (hb : Ends b)
    (h : exponentText e ++ a = exponentText f ++ b) : e = f ∧ a = b := by
  cases e with
  | none =>
    cases f with
    | none => exact ⟨rfl, h⟩
    | some l =>
      obtain rfl : a = 'e' :: ((toString l).toList ++ b) := h
      exact absurd rfl (ha 'e' rfl).2.2
  | some k =>
    cases f with
    | none =>
      obtain rfl : 'e' :: ((toString k).toList ++ a) = b := h
      exact absurd rfl (hb 'e' rfl).2.2
    | some l =>
      obtain ⟨rfl, hrest⟩ := toString_append_inj ha.not_digit hb.not_digit (List.cons.inj h).2
      exact ⟨rfl, hrest⟩

theorem head_fractionText_append (f : Option (List Char))
    (ha : ∀ c ∈ a.head?, c.isDigit = false ∧ c ≠ '.') :
    ∀ c ∈ (fractionText f ++ a).head?, c.isDigit = false := by
  intro c hc
  cases f with
  | none => exact (ha c hc).1
  | some ds =>
    cases hc
    decide

theorem fractionText_append_inj {f g : Option (List Char)}
    (hf : ∀ ds ∈ f, ∀ c ∈ ds, c.isDigit = true) (hg : ∀ ds ∈ g, ∀ c ∈ ds, c.isDigit = true)
    (ha : ∀ c ∈ a.head?, c.isDigit = false ∧ c ≠ '.')
    (hb : ∀ c ∈ b.head?, c.isDigit = false ∧ c ≠ '.')
    (h : fractionText f ++ a = fractionText g ++ b) : f = g ∧ a = b := by
  cases f with
  | none =>
    cases g with
    | none => exact ⟨rfl, h⟩
    | some ds =>
      obtain rfl : a = '.' :: (ds ++ b) := h
      exact absurd rfl (ha '.' rfl).2
  | some ds =>
    cases g with
    | none =>
      obtain rfl : '.' :: (ds ++ a) = b := h
      exact absurd rfl (hb '.' rfl).2
    | some es =>
      obtain ⟨rfl, hrest⟩ := run_append_inj (hf ds rfl) (hg es rfl) (fun c hc => (ha c hc).1)
        (fun c hc => (hb c hc).1) (List.cons.inj h).2
      exact ⟨rfl, hrest⟩

end Parts

/-- A written number can be read in one way only, as long as the text after it does not go on with
the number. -/
theorem text_append_inj {n m : Numeral} {a b : List Char} (ha : Ends a) (hb : Ends b)
    (h : n.text ++ a = m.text ++ b) : n = m ∧ a = b := by
  have hhead : ∀ (k : Numeral) (cs : List Char),
      ∀ c ∈ (k.whole ++ cs).head?, c.isDigit = true := by
    intro k cs c hc
    rw [List.head?_append_of_ne_nil _ k.whole_ne_nil] at hc
    exact k.whole_digits c (List.mem_of_mem_head? hc)
  -- no part can go on with the first character of what follows it
  have hexp := fun (k : Numeral) {cs} (hcs : Ends cs) => head_exponentText_append k.exponent hcs
  have hfrac := fun (k : Numeral) {cs} (hcs : Ends cs) =>
    head_fractionText_append k.fraction (hexp k hcs)
  simp only [text, List.append_assoc] at h
  obtain ⟨hnegative, h⟩ := signText_append_inj (hhead n _) (hhead m _) h
  obtain ⟨hwhole, h⟩ := run_append_inj n.whole_digits m.whole_digits (hfrac n ha) (hfrac m hb) h
  obtain ⟨hfraction, h⟩ := fractionText_append_inj n.fraction_digits m.fraction_digits
    (hexp n ha) (hexp m hb) h
  obtain ⟨hexponent, h⟩ := exponentText_append_inj ha hb h
  exact ⟨Numeral.ext hnegative hwhole hfraction hexponent, h⟩

end Numeral

namespace Double

/-! ## Doubles -/

/-- Written form of digits with the point after the first one. -/
def scientific : List Char → List Char
  | [] => []
  | [c] => [c]
  | c :: cs => c :: '.' :: cs

/-- Text of a positive decimal. -/
def Decimal.text (x : Decimal) : List Char :=
  let digits := Nat.toDigits 10 x.digits
  let point : ℤ := (digits.length : ℤ) + x.scale
  if 0 ≤ x.scale ∧ point ≤ 16 then
    digits ++ List.replicate x.scale.toNat '0' ++ ['.', '0']
  else if 0 < point ∧ point ≤ 16 then
    digits.take point.toNat ++ '.' :: digits.drop point.toNat
  else if -5 < point ∧ point ≤ 0 then
    '0' :: '.' :: List.replicate (-point).toNat '0' ++ digits
  else
    scientific digits ++ 'e' :: (toString (point - 1)).toList

theorem toList_toText (d : Double) :
    d.toText.toList = Numeral.signText d.negative ++
      if d.mantissa = 0 then ['0', '.', '0'] else d.shortest.text := by
  have hsign : (if d.negative then "-" else "").toList = Numeral.signText d.negative := by
    cases d.negative <;> rfl
  have htext : d.toText = if d.mantissa = 0 then (if d.negative then "-" else "") ++ "0.0"
      else (if d.negative then "-" else "") ++ String.ofList d.shortest.text := rfl
  rw [htext]
  split
  · rw [String.toList_append, hsign]
    rfl
  · rw [String.toList_append, hsign, String.toList_ofList]

/-- The parts of a number make the text of a double with the value. -/
structure Spells (n : Numeral) (cs : List Char) (value : ℚ) : Prop where
  /-- The digits, the fraction and the exponent make the text. -/
  text_eq : n.whole ++ (Numeral.fractionText n.fraction ++ Numeral.exponentText n.exponent) = cs
  /-- They have the value. -/
  value_eq : n.value = value
  /-- The number is not written as an integer. -/
  not_integer : n.fraction ≠ none ∨ n.exponent ≠ none

section Spells

open Numeral

variable (negative : Bool) (x : Decimal)

/-- Zeros after the digits. -/
theorem exists_spells_integral (hscale : 0 ≤ x.scale) :
    ∃ n : Numeral, n.negative = negative ∧ Spells n
      (Nat.toDigits 10 x.digits ++ List.replicate x.scale.toNat '0' ++ ['.', '0']) x.value := by
  refine ⟨⟨negative, Nat.toDigits 10 x.digits ++ List.replicate x.scale.toNat '0', some ['0'], none,
    List.append_ne_nil_of_left_ne_nil Nat.toDigits_ne_nil _,
    List.forall_mem_append.mpr ⟨isDigit_of_mem_toDigits, isDigit_of_mem_replicate⟩, ?_⟩, rfl, rfl,
    ?_, .inl (Option.some_ne_none _)⟩
  · intro ds hds
    cases hds
    exact List.forall_mem_singleton.mpr (by decide)
  · obtain ⟨s, hs⟩ := Int.eq_ofNat_of_zero_le hscale
    have hdigits : Nat.ofDigitChars 10
        (Nat.toDigits 10 x.digits ++ List.replicate s '0' ++ ['0']) 0 =
        10 * (10 ^ s * x.digits) := by
      rw [Nat.ofDigitChars_append, Nat.ofDigitChars_append, Nat.ofDigitChars_ten_toDigits,
        Nat.ofDigitChars_replicate_zero, Nat.ofDigitChars_cons, Nat.ofDigitChars_nil]
      rfl
    simp only [Numeral.value, Decimal.value, hs, Int.toNat_natCast, Option.getD_some,
      Option.getD_none, List.length_singleton, zpow_natCast]
    rw [hdigits]
    push_cast
    norm_num
    ring

/-- The point among the digits. -/
theorem exists_spells_inner (hscale : x.scale < 0)
    (hpoint : 0 < ((Nat.toDigits 10 x.digits).length : ℤ) + x.scale) :
    let point := ((Nat.toDigits 10 x.digits).length : ℤ) + x.scale
    ∃ n : Numeral, n.negative = negative ∧ Spells n
      ((Nat.toDigits 10 x.digits).take point.toNat ++
        '.' :: (Nat.toDigits 10 x.digits).drop point.toNat) x.value := by
  intro point
  have htake : (Nat.toDigits 10 x.digits).take point.toNat ≠ [] := by
    rw [ne_eq, List.take_eq_nil_iff, not_or]
    exact ⟨by omega, Nat.toDigits_ne_nil⟩
  refine ⟨⟨negative, (Nat.toDigits 10 x.digits).take point.toNat,
    some ((Nat.toDigits 10 x.digits).drop point.toNat), none, htake,
    fun c hc => isDigit_of_mem_toDigits c (List.mem_of_mem_take hc), ?_⟩, rfl, ?_,
    ?_, .inl (Option.some_ne_none _)⟩
  · intro ds hds c hc
    cases hds
    exact isDigit_of_mem_toDigits c (List.mem_of_mem_drop hc)
  · rw [Numeral.fractionText, Numeral.exponentText, List.append_nil]
  · have hlength : (0 : ℤ) - (((Nat.toDigits 10 x.digits).length - point.toNat : ℕ) : ℤ) =
        x.scale := by
      omega
    simp only [Numeral.value, Option.getD_some, Option.getD_none, List.take_append_drop,
      Nat.ofDigitChars_ten_toDigits, List.length_drop, hlength]
    rfl

/-- Zeros in front of the digits. -/
theorem exists_spells_small
    (hpoint : ((Nat.toDigits 10 x.digits).length : ℤ) + x.scale ≤ 0) :
    let point := ((Nat.toDigits 10 x.digits).length : ℤ) + x.scale
    ∃ n : Numeral, n.negative = negative ∧ Spells n
      ('0' :: '.' :: List.replicate (-point).toNat '0' ++ Nat.toDigits 10 x.digits) x.value := by
  intro point
  refine ⟨⟨negative, ['0'], some (List.replicate (-point).toNat '0' ++ Nat.toDigits 10 x.digits),
    none, List.cons_ne_nil _ _, List.forall_mem_singleton.mpr (by decide), ?_⟩, rfl, ?_, ?_,
    .inl (Option.some_ne_none _)⟩
  · intro ds hds
    cases hds
    exact List.forall_mem_append.mpr ⟨isDigit_of_mem_replicate, isDigit_of_mem_toDigits⟩
  · rw [Numeral.fractionText, Numeral.exponentText, List.append_nil]
    rfl
  · have hdigits : Nat.ofDigitChars 10
        (['0'] ++ (List.replicate (-point).toNat '0' ++ Nat.toDigits 10 x.digits)) 0 =
        x.digits := by
      rw [Nat.ofDigitChars_append, Nat.ofDigitChars_append, Nat.ofDigitChars_cons,
        Nat.ofDigitChars_nil, Nat.ofDigitChars_replicate_zero]
      exact Nat.ofDigitChars_ten_toDigits
    have hlength : (0 : ℤ) - (((-point).toNat + (Nat.toDigits 10 x.digits).length : ℕ) : ℤ) =
        x.scale := by
      omega
    simp only [Numeral.value, Option.getD_some, Option.getD_none, hdigits, List.length_append,
      List.length_replicate, hlength]
    rfl

/-- One digit in front of the point, and an exponent. -/
theorem exists_spells_scientific :
    let point := ((Nat.toDigits 10 x.digits).length : ℤ) + x.scale
    ∃ n : Numeral, n.negative = negative ∧ Spells n
      (scientific (Nat.toDigits 10 x.digits) ++ 'e' :: (toString (point - 1)).toList) x.value := by
  intro point
  have hvalue : (Nat.ofDigitChars 10 (Nat.toDigits 10 x.digits) 0 : ℚ) *
      10 ^ (point - 1 - ((Nat.toDigits 10 x.digits).length - 1 : ℤ)) = x.value := by
    have hscale : point - 1 - ((Nat.toDigits 10 x.digits).length - 1 : ℤ) = x.scale := by omega
    rw [Nat.ofDigitChars_ten_toDigits, hscale, Decimal.value]
  have hdigits := isDigit_of_mem_toDigits (n := x.digits)
  generalize point - 1 = k at hvalue ⊢
  -- a single digit has no point behind it
  rcases hds : Nat.toDigits 10 x.digits with _ | ⟨c, _ | ⟨c', cs⟩⟩
  · exact absurd hds Nat.toDigits_ne_nil
  · rw [hds] at hdigits hvalue
    refine ⟨⟨negative, [c], none, some k, List.cons_ne_nil _ _, hdigits, ?_⟩, rfl, rfl, ?_,
      .inr (Option.some_ne_none _)⟩
    · intro ds hds
      cases hds
    · simpa [Numeral.value] using hvalue
  · rw [hds] at hdigits hvalue
    refine ⟨⟨negative, [c], some (c' :: cs), some k, List.cons_ne_nil _ _, ?_, ?_⟩, rfl, rfl, ?_,
      .inr (Option.some_ne_none _)⟩
    · exact List.forall_mem_singleton.mpr (hdigits c List.mem_cons_self)
    · intro ds hds c hc
      cases hds
      exact hdigits c (List.mem_cons_of_mem _ hc)
    · simpa [Numeral.value] using hvalue

theorem exists_spells :
    ∃ n : Numeral, n.negative = negative ∧ Spells n x.text x.value := by
  unfold Decimal.text
  dsimp only
  split
  next h => exact exists_spells_integral negative x h.1
  next hintegral =>
    split
    next h => exact exists_spells_inner negative x (by omega) h.1
    next hinner =>
      split
      next h => exact exists_spells_small negative x h.2
      next => exact exists_spells_scientific negative x

end Spells

/-- The text of a double has the value of its shortest decimal. -/
theorem exists_numeral (d : Double) :
    ∃ n : Numeral, d.toText.toList = n.text ∧ n.negative = d.negative ∧
      (n.value = if d.mantissa = 0 then 0 else d.shortest.value) ∧
      (n.fraction ≠ none ∨ n.exponent ≠ none) := by
  rw [toList_toText]
  split
  next hzero =>
    refine ⟨⟨d.negative, ['0'], some ['0'], none, List.cons_ne_nil _ _,
      List.forall_mem_singleton.mpr (by decide), ?_⟩, rfl, rfl, ?_, .inl (Option.some_ne_none _)⟩
    · intro ds hds
      cases hds
      exact List.forall_mem_singleton.mpr (by decide)
    · have hdigits : Nat.ofDigitChars 10 ['0', '0'] 0 = 0 := rfl
      simp [Numeral.value, hdigits]
  next hpos =>
    obtain ⟨n, hnegative, htext, hvalue, hmark⟩ := exists_spells d.negative d.shortest
    refine ⟨n, ?_, hnegative, hvalue, hmark⟩
    rw [Numeral.text, hnegative, htext]

/-- A double is known from its sign and the value of its shortest decimal. -/
theorem eq_of_value_eq {d d' : Double} (hsign : d.negative = d'.negative)
    (h : (if d.mantissa = 0 then 0 else d.shortest.value) =
      if d'.mantissa = 0 then 0 else d'.shortest.value) : d = d' := by
  have hparts : d.mantissa = d'.mantissa ∧ d.exponent = d'.exponent := by
    split at h
    next hzero =>
      split at h
      -- there is one zero, with the exponent of the subnormal numbers
      next hzero' =>
        have hleading : ¬ leadingBit ≤ 0 := by decide
        have hexp := d.normal.resolve_right (hzero ▸ hleading)
        have hexp' := d'.normal.resolve_right (hzero' ▸ hleading)
        exact ⟨hzero.trans hzero'.symm, hexp.trans hexp'.symm⟩
      next hpos' => exact absurd h (roundsFrom_shortest hpos' |>.pos hpos').ne
    next hpos =>
      split at h
      next hzero' => exact absurd h (roundsFrom_shortest hpos |>.pos hpos).ne'
      -- the shortest decimal rounds to both numbers
      next hpos' =>
        have hrounds := roundsFrom_shortest hpos
        rw [h] at hrounds
        exact parts_eq_of_roundsFrom hrounds (roundsFrom_shortest hpos')
  cases d
  cases d'
  simp only [Double.mk.injEq]
  exact ⟨hsign, hparts⟩

end Double

namespace JsonNumber

/-! ## Numbers -/

/-- The parts of an integer. -/
def ofInt (k : ℤ) : Numeral where
  negative := decide (k < 0)
  whole := Nat.toDigits 10 k.natAbs
  fraction := none
  exponent := none
  whole_ne_nil := Nat.toDigits_ne_nil
  whole_digits := Numeral.isDigit_of_mem_toDigits
  fraction_digits := nofun

theorem toList_toString_eq_text (k : ℤ) : (toString k).toList = (ofInt k).text := by
  rw [Numeral.toList_toString_int, Numeral.text, ofInt, Numeral.fractionText, Numeral.exponentText,
    List.append_nil, List.append_nil]

/-- The parts of a number. -/
theorem exists_numeral (n : JsonNumber) : ∃ m : Numeral, n.toText.toList = m.text := by
  cases n with
  | integer k => exact ⟨ofInt k, toList_toString_eq_text k⟩
  | double d =>
    obtain ⟨m, htext, -⟩ := d.exists_numeral
    exact ⟨m, htext⟩

variable {a b : List Char}

/-- An integer is not written as a double. -/
theorem toString_append_ne_toText (k : ℤ) (d : Double) (ha : Numeral.Ends a) (hb : Numeral.Ends b) :
    (toString k).toList ++ a ≠ d.toText.toList ++ b := by
  intro h
  obtain ⟨m, htext, -, -, hmark⟩ := d.exists_numeral
  rw [toList_toString_eq_text, htext] at h
  obtain ⟨rfl, -⟩ := Numeral.text_append_inj ha hb h
  exact hmark.elim (· rfl) (· rfl)

/-- Different numbers have different texts, none of which starts another. -/
theorem toText_append_inj {n m : JsonNumber} (ha : Numeral.Ends a) (hb : Numeral.Ends b)
    (h : n.toText.toList ++ a = m.toText.toList ++ b) : n = m ∧ a = b := by
  cases n with
  | integer k =>
    cases m with
    | integer l =>
      obtain ⟨rfl, hrest⟩ := Numeral.toString_append_inj ha.not_digit hb.not_digit h
      exact ⟨rfl, hrest⟩
    | double d => exact absurd h (toString_append_ne_toText k d ha hb)
  | double d =>
    cases m with
    | integer l => exact absurd h.symm (toString_append_ne_toText l d hb ha)
    | double d' =>
      obtain ⟨n, htext, hsign, hvalue, -⟩ := d.exists_numeral
      obtain ⟨n', htext', hsign', hvalue', -⟩ := d'.exists_numeral
      rw [toText, toText, htext, htext'] at h
      obtain ⟨rfl, hrest⟩ := Numeral.text_append_inj ha hb h
      have heq : d = d' :=
        Double.eq_of_value_eq (hsign.symm.trans hsign') (hvalue.symm.trans hvalue')
      exact ⟨congrArg double heq, hrest⟩

/-- A number starts with a sign or a digit. -/
theorem exists_toText_eq_cons (n : JsonNumber) :
    ∃ c cs, n.toText.toList = c :: cs ∧ (c = '-' ∨ c.isDigit = true) := by
  obtain ⟨m, htext⟩ := n.exists_numeral
  obtain ⟨c, cs, hwhole⟩ := List.exists_cons_of_ne_nil m.whole_ne_nil
  have hdigit := m.whole_digits c (hwhole ▸ List.mem_cons_self)
  rw [htext, Numeral.text, hwhole]
  cases m.negative with
  | true => exact ⟨'-', _, rfl, .inl rfl⟩
  | false => exact ⟨c, _, rfl, .inr hdigit⟩

end JsonNumber

end EdgeBundle
