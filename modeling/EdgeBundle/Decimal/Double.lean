/-!
# Double-precision numbers

A finite number of the IEEE 754 binary64 format as an exact dyadic value, the nearest such number
to a decimal, and the shortest decimal that reads back as a given one. All arithmetic is on
natural numbers.
-/

namespace EdgeBundle

/-- The smallest integer of more than 53 bits. -/
abbrev Double.significandBound : Nat := 0x20000000000000

/-- The integer with the highest of 53 bits alone. -/
abbrev Double.leadingBit : Nat := 0x10000000000000

/-- A finite binary64 number: `mantissa · 2 ^ exponent`, with its sign. -/
structure Double where
  /-- Whether the number carries a minus sign; zero may. -/
  negative : Bool
  /-- Integer significand. -/
  mantissa : Nat
  /-- Exponent of two. -/
  exponent : Int
  /-- The significand has at most 53 bits. -/
  mantissa_lt : mantissa < Double.significandBound
  /-- The exponent is at least that of the subnormal numbers. -/
  minExponent_le : -1074 ≤ exponent
  /-- The exponent is at most that of the largest finite numbers. -/
  exponent_le : exponent ≤ 971
  /-- A number above the subnormal range uses all bits of its significand. -/
  normal : exponent = -1074 ∨ Double.leadingBit ≤ mantissa
  deriving DecidableEq, Repr

namespace Double

/-- Zero with the given sign. -/
def zero (negative : Bool) : Double where
  negative := negative
  mantissa := 0
  exponent := -1074
  mantissa_lt := by decide
  minExponent_le := by decide
  exponent_le := by decide
  normal := .inl rfl

instance : Inhabited Double := ⟨zero false⟩

/-- Builds a number from its parts, if they are in canonical form. -/
def ofParts? (negative : Bool) (mantissa : Nat) (exponent : Int) : Option Double :=
  if h : mantissa < significandBound ∧ -1074 ≤ exponent ∧ exponent ≤ 971 ∧
      (exponent = -1074 ∨ leadingBit ≤ mantissa) then
    some ⟨negative, mantissa, exponent, h.1, h.2.1, h.2.2.1, h.2.2.2⟩
  else none

/-- The integer nearest to `num / den`, an exact half going to the even neighbour. -/
def roundDiv (num den : Nat) : Nat :=
  let q := num / den
  let r := num % den
  if 2 * r > den ∨ (2 * r = den ∧ q % 2 = 1) then q + 1 else q

/-- `base ^ e` as a fraction. -/
def powFraction (base : Nat) (e : Int) : Nat × Nat :=
  if 0 ≤ e then (Nat.pow base e.toNat, 1) else (1, Nat.pow base (-e).toNat)

/-- The number nearest to the positive fraction `num / den`, none if it is out of range. -/
def ofFraction? (negative : Bool) (num den : Nat) : Option Double :=
  let rounded (q : Int) : Nat :=
    let (twos, halves) := powFraction 2 q
    roundDiv (num * halves) (den * twos)
  -- the two logarithms leave the exponent open by one
  let guess : Int := (num.log2 : Int) - (den.log2 : Int) - 52
  let (twos, halves) := powFraction 2 guess
  let exact := if num * halves < leadingBit * (den * twos) then guess - 1 else guess
  let q := max (-1074) exact
  let m := rounded q
  -- rounding up may carry into a 54th bit
  if m = significandBound then ofParts? negative (leadingBit) (q + 1) else ofParts? negative m q

/-- The number nearest to `digits · 10 ^ scale`, none if it is out of range. -/
def ofDecimal? (negative : Bool) (digits : Nat) (scale : Int) : Option Double :=
  if digits = 0 then some (zero negative)
  else
    let magnitude := ((Nat.toDigits 10 digits).length : Int) + scale
    -- far out of range the answer is known without computing the power
    if magnitude > 310 then none
    else if magnitude < -330 then some (zero negative)
    else
      let (tens, tenths) := powFraction 10 scale
      ofFraction? negative (digits * tens) tenths

/-! ## Shortest decimals -/

/-- A positive decimal `digits · 10 ^ scale`. -/
structure Decimal where
  /-- Significant digits. -/
  digits : Nat
  /-- Exponent of ten. -/
  scale : Int
  deriving DecidableEq, Repr

/-- Exponent of the leading decimal digit of the positive fraction `num / den`. -/
def leadingExponent (num den : Nat) : Int :=
  if den ≤ num then ((Nat.toDigits 10 (num / den)).length : Int) - 1
  else
    match (List.range 400).find? fun j => den ≤ num * Nat.pow 10 (j + 1) with
    | some j => -((j : Int) + 1)
    | none => -400

/-- The decimal with the given number of digits that is nearest to the number and reads back as
it, if there is one. The number is measured in quarters of its last place; its rounding interval
includes the ends exactly if the significand is even. -/
def decimalOfLength? (d : Double) (count : Nat) : Option Decimal :=
  let (un, ud) := powFraction 2 (d.exponent - 2)
  let middle := 4 * d.mantissa
  -- below a power of two the next number is only half as far away
  let low := if d.mantissa = leadingBit ∧ d.exponent ≠ -1074 then middle - 1 else middle - 2
  let high := middle + 2
  let scale := leadingExponent (middle * un) ud - (count : Int) + 1
  let (kn, kd) := powFraction 10 scale
  let inside (c : Nat) : Bool :=
    let x := c * kn * ud
    let l := low * un * kd
    let h := high * un * kd
    if d.mantissa % 2 = 0 then l ≤ x && x ≤ h else l < x && x < h
  -- on this grid only the two points around the number can be the nearest
  let below := middle * un * kd / (ud * kn)
  let above := below + 1
  let distance (c : Nat) : Nat :=
    let x := c * kn * ud
    let v := middle * un * kd
    max x v - min x v
  match inside below, inside above with
  | false, false => none
  | true, false => some ⟨below, scale⟩
  | false, true => some ⟨above, scale⟩
  | true, true =>
    if distance above < distance below ∨
        (distance above = distance below ∧ below % 2 = 1) then some ⟨above, scale⟩
    else some ⟨below, scale⟩

/-- Moves trailing zeros of the digits into the scale; `fuel` bounds their number. -/
def Decimal.strip (fuel : Nat) (d : Decimal) : Decimal :=
  match fuel with
  | 0 => d
  | fuel + 1 =>
    if d.digits ≠ 0 ∧ d.digits % 10 = 0 then strip fuel ⟨d.digits / 10, d.scale + 1⟩ else d

/-- The decimal with the fewest digits that reads back as the nonzero number `d`; of those, the
nearest. Seventeen digits always suffice. -/
def shortest (d : Double) : Decimal :=
  let found := (List.range 17).findSome? fun n => d.decimalOfLength? (n + 1)
  (found.getD ⟨0, 0⟩).strip 20

/-- Text of a number. Values whose leading digit stands between 10⁻⁵ and 10¹⁵ are written
positionally and always with a point, others with one digit before the point and an exponent. -/
def toText (d : Double) : String :=
  let sign := if d.negative then "-" else ""
  if d.mantissa = 0 then sign ++ "0.0"
  else
    let short := d.shortest
    let digits := Nat.toDigits 10 short.digits
    let count := digits.length
    let point : Int := (count : Int) + short.scale
    let zeros (n : Nat) : List Char := List.replicate n '0'
    let body : List Char :=
      if 0 ≤ short.scale ∧ point ≤ 16 then digits ++ zeros short.scale.toNat ++ ['.', '0']
      else if 0 < point ∧ point ≤ 16 then
        digits.take point.toNat ++ '.' :: digits.drop point.toNat
      else if -5 < point ∧ point ≤ 0 then '0' :: '.' :: zeros (-point).toNat ++ digits
      else
        let mantissa := match digits with
          | [] => []
          | [c] => [c]
          | c :: cs => c :: '.' :: cs
        mantissa ++ 'e' :: (toString (point - 1)).toList
    sign ++ String.ofList body

end Double

end EdgeBundle
