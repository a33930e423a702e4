import EdgeBundle.Proofs.Decimal.Interval

/-!
# Shortest decimals

The decimals with a given number of digits form a grid, and the number lies between two neighbours
on it. With seventeen digits the grid is finer than the rounding interval is wide, so that one of
the neighbours rounds to the number.

## Main definitions

* `Double.Decimal.value`: the value of a decimal.
* `Double.gridScale`: the place of the last of so many digits.

## Main statements

* `Double.decimalOfLength?_cases`: which neighbour on the grid is taken.
* `Double.isSome_decimalOfLength?_seventeen`: seventeen digits suffice.
* `Double.roundsFrom_shortest`: the shortest decimal rounds to the number.
-/

namespace EdgeBundle.Double

/-! ## Leading digits -/

/-- A fraction that is not too small is at least the power of ten of its leading digit. -/
theorem pow_leadingExponent_le {num den : ℕ} (hden : 0 < den)
    (hrange : ∃ j < 400, den ≤ num * 10 ^ (j + 1)) :
    (10 : ℚ) ^ leadingExponent num den ≤ num / den := by
  have hden' : (0 : ℚ) < den := Nat.cast_pos.mpr hden
  unfold leadingExponent
  split
  next hle =>
    have hdigits : 0 < (Nat.toDigits 10 (num / den)).length := Nat.length_toDigits_pos
    obtain ⟨k, hk⟩ := Nat.exists_eq_succ_of_ne_zero hdigits.ne'
    have hpow : 10 ^ k ≤ num / den := by
      rcases Nat.eq_zero_or_pos k with rfl | hpos
      · exact Nat.div_pos hle hden
      · -- one digit fewer would not do
        by_contra hlt
        have := (Nat.length_toDigits_le_iff (by decide) hpos).mpr (Nat.lt_of_not_le hlt)
        omega
    have hmul : 10 ^ k * den ≤ num := (Nat.le_div_iff_mul_le hden).mp hpow
    rw [hk, Nat.cast_succ, add_sub_cancel_right, zpow_natCast, le_div_iff₀ hden']
    exact_mod_cast hmul
  next hlt =>
    split
    next j hj =>
      have hfound : den ≤ num * 10 ^ (j + 1) := by simpa using List.find?_some hj
      rw [zpow_neg, ← Nat.cast_succ, zpow_natCast, inv_le_iff_one_le_mul₀ (by positivity),
        div_mul_eq_mul_div, one_le_div hden']
      exact_mod_cast hfound
    -- the search does not fail on the range
    next hnone =>
      obtain ⟨j, hj, hle⟩ := hrange
      have hfails := List.find?_eq_none.mp hnone j (List.mem_range.mpr hj)
      exact absurd (decide_eq_true hle) hfails

/-! ## The grid -/

/-- Fractions of naturals are compared by multiplying across. -/
theorem mul_mul_le_mul_mul_iff {a n m b p q : ℕ} (hm : 0 < m) (hq : 0 < q) :
    a * n * q ≤ b * p * m ↔ (a : ℚ) * (n / m) ≤ b * (p / q) := by
  rw [← mul_div_assoc, ← mul_div_assoc,
    div_le_div_iff₀ (Nat.cast_pos.mpr hm) (Nat.cast_pos.mpr hq)]
  exact_mod_cast Iff.rfl

/-- Value of a decimal. -/
def Decimal.value (x : Decimal) : ℚ :=
  x.digits * 10 ^ x.scale

/-- Exponent of ten of the last of so many digits of the number. -/
def gridScale (d : Double) (count : ℕ) : ℤ :=
  leadingExponent (4 * d.mantissa * (powFraction 2 (d.exponent - 2)).1)
    (powFraction 2 (d.exponent - 2)).2 - count + 1

theorem quarter_eq (d : Double) :
    d.quarter = ((powFraction 2 (d.exponent - 2)).1 : ℚ) / (powFraction 2 (d.exponent - 2)).2 := by
  rw [powFraction_div, quarter]
  norm_cast

/-- Whether the number is the nearest to a point of a grid, with all fractions multiplied out. -/
def isInside (d : Double) (scale : ℤ) (c : ℕ) : Bool :=
  let unit := powFraction 2 (d.exponent - 2)
  let step := powFraction 10 scale
  let x := c * step.1 * unit.2
  let l := d.lowEnd * unit.1 * step.2
  let h := d.highEnd * unit.1 * step.2
  if d.mantissa % 2 = 0 then l ≤ x && x ≤ h else l < x && x < h

/-- The point of the grid that is next to the number from below. -/
def gridBelow (d : Double) (count : ℕ) : ℕ :=
  let unit := powFraction 2 (d.exponent - 2)
  let step := powFraction 10 (d.gridScale count)
  4 * d.mantissa * unit.1 * step.2 / (unit.2 * step.1)

theorem isInside_iff (d : Double) (scale : ℤ) (c : ℕ) :
    d.isInside scale c = true ↔ d.RoundsFrom (c * 10 ^ scale) := by
  have hud := powFraction_den_pos 2 (d.exponent - 2) (by decide)
  have hkd := powFraction_den_pos 10 scale (by decide)
  have hpow := powFraction_div 10 scale
  rw [Nat.cast_ofNat] at hpow
  unfold isInside RoundsFrom
  rw [quarter_eq, ← hpow]
  split
  · rw [Bool.and_eq_true, decide_eq_true_iff, decide_eq_true_iff, mul_mul_le_mul_mul_iff hud hkd,
      mul_mul_le_mul_mul_iff hkd hud]
  · rw [Bool.and_eq_true, decide_eq_true_iff, decide_eq_true_iff, ← not_le, ← not_le,
      mul_mul_le_mul_mul_iff hud hkd, mul_mul_le_mul_mul_iff hkd hud, not_le, not_le]

theorem gridBelow_le (d : Double) (count : ℕ) :
    (d.gridBelow count : ℚ) * 10 ^ d.gridScale count ≤ d.magnitude ∧
      d.magnitude < (d.gridBelow count + 1 : ℕ) * 10 ^ d.gridScale count := by
  have hud := powFraction_den_pos 2 (d.exponent - 2) (by decide)
  have hkn := powFraction_num_pos 10 (d.gridScale count) (by decide)
  have hkd := powFraction_den_pos 10 (d.gridScale count) (by decide)
  have hpow := powFraction_div 10 (d.gridScale count)
  rw [Nat.cast_ofNat] at hpow
  have hprod := Nat.mul_pos hud hkn
  unfold magnitude
  rw [quarter_eq, ← hpow, ← not_le, ← mul_mul_le_mul_mul_iff hkd hud,
    ← mul_mul_le_mul_mul_iff hkd hud, not_le, mul_assoc, mul_assoc (_ + 1),
    mul_comm (powFraction 10 _).1]
  exact ⟨Nat.div_mul_le_self _ _, (Nat.div_lt_iff_lt_mul hprod).mp (Nat.lt_succ_self _)⟩

/-- The decimal is chosen by which of the two neighbours round to the number. -/
theorem decimalOfLength?_eq (d : Double) (count : ℕ) :
    ∃ (nearer : Prop) (_ : Decidable nearer), d.decimalOfLength? count =
      match d.isInside (d.gridScale count) (d.gridBelow count),
        d.isInside (d.gridScale count) (d.gridBelow count + 1) with
      | false, false => none
      | true, false => some ⟨d.gridBelow count, d.gridScale count⟩
      | false, true => some ⟨d.gridBelow count + 1, d.gridScale count⟩
      | true, true =>
        if nearer then some ⟨d.gridBelow count + 1, d.gridScale count⟩
        else some ⟨d.gridBelow count, d.gridScale count⟩ :=
  ⟨_, _, rfl⟩

variable {d : Double} {count : ℕ} {x : Decimal}

theorem roundsFrom_of_decimalOfLength? (h : d.decimalOfLength? count = some x) :
    d.RoundsFrom x.value := by
  obtain ⟨nearer, _, heq⟩ := d.decimalOfLength?_eq count
  rw [heq] at h
  unfold Decimal.value
  split at h
  next hbelow habove => cases h
  next hbelow habove =>
    cases h
    exact (d.isInside_iff _ _).mp hbelow
  next hbelow habove =>
    cases h
    exact (d.isInside_iff _ _).mp habove
  next hbelow habove =>
    split at h
    · cases h
      exact (d.isInside_iff _ _).mp habove
    · cases h
      exact (d.isInside_iff _ _).mp hbelow

theorem not_roundsFrom_of_decimalOfLength? (h : d.decimalOfLength? count = none) :
    ¬ d.RoundsFrom (d.gridBelow count * 10 ^ d.gridScale count) ∧
      ¬ d.RoundsFrom ((d.gridBelow count + 1 : ℕ) * 10 ^ d.gridScale count) := by
  obtain ⟨nearer, _, heq⟩ := d.decimalOfLength?_eq count
  rw [heq] at h
  rw [← isInside_iff, ← isInside_iff]
  split at h
  next hbelow habove =>
    rw [hbelow, habove]
    exact ⟨Bool.false_ne_true, Bool.false_ne_true⟩
  next hbelow habove => cases h
  next hbelow habove => cases h
  next hbelow habove => split at h <;> cases h

/-! ## Seventeen digits -/

/-- Between two neighbours that both miss the interval the whole interval has room. -/
theorem width_le_of_decimalOfLength? (h : d.decimalOfLength? count = none) :
    ((d.highEnd : ℚ) - d.lowEnd) * d.quarter ≤ 10 ^ d.gridScale count := by
  obtain ⟨hbelow, habove⟩ := d.gridBelow_le count
  obtain ⟨hnotBelow, hnotAbove⟩ := not_roundsFrom_of_decimalOfLength? h
  obtain ⟨hlow, hhigh⟩ := d.magnitude_mem
  -- the lower neighbour can only miss the interval below its lower end
  have hbelowLow : (d.gridBelow count : ℚ) * 10 ^ d.gridScale count ≤ d.lowEnd * d.quarter := by
    by_contra hlt
    exact hnotBelow (roundsFrom_of_lt (not_le.mp hlt) (hbelow.trans_lt hhigh))
  have hhighAbove :
      d.highEnd * d.quarter ≤ (d.gridBelow count + 1 : ℕ) * 10 ^ d.gridScale count := by
    by_contra hlt
    exact hnotAbove (roundsFrom_of_lt (hlow.trans_lt habove) (not_le.mp hlt))
  push_cast at hhighAbove
  linarith

theorem two_pow_le_ten_pow (n : ℕ) : 2 ^ (3 * n) ≤ 10 ^ n := by
  rw [pow_mul]
  exact Nat.pow_le_pow_left (by decide) n

/-- The last place of the smallest numbers is far above the least power of ten that is tried. -/
theorem powFraction_den_le (hd : d.mantissa ≠ 0) :
    (powFraction 2 (d.exponent - 2)).2 ≤
      4 * d.mantissa * (powFraction 2 (d.exponent - 2)).1 * 10 ^ (358 + 1) := by
  have hexp := d.minExponent_le
  have hden := powFraction_den_le_pow 2 (d.exponent - 2) (by decide) (k := 3 * (358 + 1)) (by omega)
  have hnum : 0 < 4 * d.mantissa * (powFraction 2 (d.exponent - 2)).1 :=
    Nat.mul_pos (by omega) (powFraction_num_pos 2 _ (by decide))
  exact (hden.trans (two_pow_le_ten_pow _)).trans (Nat.le_mul_of_pos_left _ hnum)

theorem pow_gridScale_le (count : ℕ) (hd : d.mantissa ≠ 0) :
    (10 : ℚ) ^ (count : ℤ) * 10 ^ d.gridScale count ≤ 10 * d.magnitude := by
  have hden := powFraction_den_pos 2 (d.exponent - 2) (by decide)
  have hlead := pow_leadingExponent_le hden ⟨358, by decide, powFraction_den_le hd⟩
  have hmagnitude : d.magnitude =
      ((4 * d.mantissa * (powFraction 2 (d.exponent - 2)).1 : ℕ) : ℚ) /
        (powFraction 2 (d.exponent - 2)).2 := by
    rw [magnitude, quarter_eq, Nat.cast_mul _ (powFraction _ _).1, mul_div_assoc]
  have hexp : (count : ℤ) + d.gridScale count =
      1 + leadingExponent (4 * d.mantissa * (powFraction 2 (d.exponent - 2)).1)
        (powFraction 2 (d.exponent - 2)).2 := by
    unfold gridScale
    ring
  rw [hmagnitude, ← zpow_add₀ (by norm_num), hexp, zpow_add₀ (by norm_num), zpow_one]
  exact mul_le_mul_of_nonneg_left hlead (by norm_num)

/-- A grid of seventeen digits has a point in every interval. -/
theorem isSome_decimalOfLength?_seventeen (hd : d.mantissa ≠ 0) :
    (d.decimalOfLength? 17).isSome = true := by
  by_contra hnone
  have hwidth := width_le_of_decimalOfLength? (Option.not_isSome_iff_eq_none.mp hnone)
  have hscale := pow_gridScale_le 17 hd
  have hfine : (10 : ℚ) ^ 16 * ((d.highEnd : ℚ) - d.lowEnd) * d.quarter ≤
      (4 * d.mantissa : ℕ) * d.quarter := by
    unfold magnitude at hscale
    norm_num at hscale ⊢
    linarith
  have hwide : 10 ^ 16 * d.highEnd ≤ 4 * d.mantissa + 10 ^ 16 * d.lowEnd := by
    have hcancel := le_of_mul_le_mul_right hfine d.quarter_pos
    rw [mul_sub, sub_le_iff_le_add] at hcancel
    exact_mod_cast hcancel
  -- the interval is three quarters wide at the lowest significand, and four elsewhere
  have hbound := d.mantissa_lt
  unfold highEnd lowEnd at hwide
  simp only [significandBound, leadingBit] at hbound hwide
  split at hwide <;> omega

/-! ## The shortest decimal -/

theorem Decimal.value_strip (fuel : ℕ) (x : Decimal) : (x.strip fuel).value = x.value := by
  induction fuel generalizing x with
  | zero => rfl
  | succ fuel ih =>
    unfold strip
    split
    next hzeros =>
      have hten : ((x.digits / 10 * 10 : ℕ) : ℚ) = x.digits :=
        congrArg _ (Nat.div_mul_cancel (Nat.dvd_of_mod_eq_zero hzeros.2))
      calc (strip fuel ⟨x.digits / 10, x.scale + 1⟩).value
          = (x.digits / 10 : ℕ) * 10 ^ (x.scale + 1) := ih _
        _ = (x.digits / 10 * 10 : ℕ) * 10 ^ x.scale := by
          rw [zpow_add_one₀ (by norm_num), Nat.cast_mul, Nat.cast_ofNat]
          ring
        _ = x.value := by rw [hten, value]
    next => rfl

/-- The shortest decimal rounds to the number. -/
theorem roundsFrom_shortest (hd : d.mantissa ≠ 0) : d.RoundsFrom d.shortest.value := by
  unfold shortest
  have hsome : ((List.range 17).findSome? fun n => d.decimalOfLength? (n + 1)).isSome = true :=
    List.findSome?_isSome_iff.mpr
      ⟨16, List.mem_range.mpr (by decide), isSome_decimalOfLength?_seventeen hd⟩
  obtain ⟨x, hx⟩ := Option.isSome_iff_exists.mp hsome
  obtain ⟨n, -, hfound⟩ := List.exists_of_findSome?_eq_some hx
  rw [hx]
  dsimp only
  rw [Option.getD_some, Decimal.value_strip]
  exact roundsFrom_of_decimalOfLength? hfound

end EdgeBundle.Double
