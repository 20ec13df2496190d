/-
Module: RelQuery.Proofs.Decimal.Interval
Purpose: The shortest decimal of a magnitude rounds to it: some grid of at most seventeen digits has a point in
  the rounding interval, and dropping zeros at the end of the digits does not move it.
Main exports: Magnitude.Covers, Magnitude.Fits, onGrid?_seventeen, pos_of_covers, covers_shortest
-/
import Mathlib.Algebra.Order.Field.Power
import Mathlib.Tactic.Linarith
import Mathlib.Tactic.Positivity
import RelQuery.Decimal.Shortest

namespace RelQuery.Decimal

/-! ### Ratios -/

/-- The ratio as a number. -/
def Ratio.value (r : Ratio) : ℚ := r.num / r.den

/-- A power with an integer exponent, from its positive and its negative part. -/
theorem pow_toNat_div (b : ℚ) (nonzero : b ≠ 0) (n : Int) : b ^ n.toNat / b ^ (-n).toNat = b ^ n := by
  rw [← zpow_natCast, ← zpow_natCast, ← zpow_sub₀ nonzero, Int.toNat_sub_toNat_neg]

theorem Ratio.value_scale (r : Ratio) (power : Int) : (r.scale power).value = r.value * 10 ^ power := by
  rw [← pow_toNat_div 10 (by norm_num) power]
  simp only [Ratio.value, Ratio.scale, Nat.pow_eq, Nat.cast_mul, Nat.cast_pow, Nat.cast_ofNat]
  exact mul_div_mul_comm ..

theorem Ratio.den_scale_pos {r : Ratio} (positive : 0 < r.den) (power : Int) : 0 < (r.scale power).den :=
  Nat.mul_pos positive (Nat.pow_pos (by decide))

theorem Magnitude.value_quarter (m : Magnitude) : m.quarter.value = 2 ^ (m.exponent - 2) := by
  rw [← pow_toNat_div 2 (by norm_num)]
  simp [Ratio.value, Magnitude.quarter]

theorem Magnitude.den_quarter_pos (m : Magnitude) : 0 < m.quarter.den := Nat.pow_pos (by decide)

section

variable {r : Ratio} (positive : 0 < r.den) (a b : Nat)

include positive

theorem Ratio.mul_num_le_iff : a * r.num ≤ b * r.den ↔ (a : ℚ) * r.value ≤ b := by
  have den : (0 : ℚ) < r.den := by exact_mod_cast positive
  rw [Ratio.value, mul_div_assoc', div_le_iff₀ den]
  exact_mod_cast Iff.rfl

theorem Ratio.mul_num_lt_iff : a * r.num < b * r.den ↔ (a : ℚ) * r.value < b := by
  have den : (0 : ℚ) < r.den := by exact_mod_cast positive
  rw [Ratio.value, mul_div_assoc', div_lt_iff₀ den]
  exact_mod_cast Iff.rfl

theorem Ratio.le_mul_num_iff : b * r.den ≤ a * r.num ↔ (b : ℚ) ≤ a * r.value := by
  simpa using (Ratio.mul_num_lt_iff positive a b).not

theorem Ratio.lt_mul_num_iff : b * r.den < a * r.num ↔ (b : ℚ) < a * r.value := by
  simpa using (Ratio.mul_num_le_iff positive a b).not

end

/-! ### Grids -/

/-- The number lies in the rounding interval of the magnitude. -/
def Magnitude.Covers (m : Magnitude) (q : ℚ) : Prop :=
  if m.interval.closed then m.interval.low * m.quarter.value ≤ q ∧ q ≤ m.interval.high * m.quarter.value
  else m.interval.low * m.quarter.value < q ∧ q < m.interval.high * m.quarter.value

/-- Whether a point of the grid `10 ^ (point - count)` lies in the rounding interval. -/
def Magnitude.inside (m : Magnitude) (point : Int) (count candidate : Nat) : Bool :=
  let unit := m.quarter.scale (count - point)
  let c := candidate * unit.den
  let low := m.interval.low * unit.num
  let high := m.interval.high * unit.num
  if m.interval.closed then low ≤ c && c ≤ high else low < c && c < high

/-- The last point of the grid that is not above the magnitude. -/
def Magnitude.below (m : Magnitude) (point : Int) (count : Nat) : Nat :=
  let unit := m.quarter.scale (count - point)
  m.interval.value * unit.num / unit.den

variable {m : Magnitude} {point : Int} {count : Nat}

/-- A quarter, measured by the distance of the points of a grid. -/
theorem Magnitude.value_scale_quarter (m : Magnitude) (point : Int) (count : Nat) :
    (m.quarter.scale (count - point)).value = m.quarter.value / 10 ^ (point - count) := by
  rw [Ratio.value_scale, ← neg_sub, zpow_neg, div_eq_mul_inv]

theorem inside_iff (candidate : Nat) :
    m.inside point count candidate = true ↔ m.Covers (candidate * 10 ^ (point - count)) := by
  have grid : (0 : ℚ) < 10 ^ (point - count) := by positivity
  have positive := Ratio.den_scale_pos m.den_quarter_pos (count - point)
  simp only [Magnitude.inside, Magnitude.Covers]
  split
  · simp only [Bool.and_eq_true, decide_eq_true_eq, Ratio.mul_num_le_iff positive,
      Ratio.le_mul_num_iff positive, m.value_scale_quarter, mul_div_assoc', div_le_iff₀ grid, le_div_iff₀ grid]
  · simp only [Bool.and_eq_true, decide_eq_true_eq, Ratio.mul_num_lt_iff positive,
      Ratio.lt_mul_num_iff positive, m.value_scale_quarter, mul_div_assoc', div_lt_iff₀ grid, lt_div_iff₀ grid]

/-- The point that is chosen lies inside. None is if both neighbours of the magnitude lie outside. -/
theorem onGrid?_cases (m : Magnitude) (point : Int) (count : Nat) :
    (∃ digits, onGrid? m point count = some digits ∧ m.inside point count digits = true) ∨
      onGrid? m point count = none ∧ m.inside point count (m.below point count) = false ∧
        m.inside point count (m.below point count + 1) = false := by
  fun_cases onGrid? m point count with
  | case1 _ _ _ _ _ _ upper lower => exact .inr ⟨rfl, lower, upper⟩
  | case2 _ _ _ _ _ _ _ lower => exact .inl ⟨_, rfl, lower⟩
  | case3 _ _ _ _ _ _ upper => exact .inl ⟨_, rfl, upper⟩
  -- Both neighbours lie inside, and the nearer one or the even one is chosen.
  | case4 _ _ _ _ _ _ _ lower => exact .inl ⟨_, rfl, lower⟩
  | case5 _ _ _ _ _ _ upper => exact .inl ⟨_, rfl, upper⟩
  | case6 _ _ _ _ _ _ _ lower => exact .inl ⟨_, rfl, lower⟩
  | case7 _ _ _ _ _ _ upper => exact .inl ⟨_, rfl, upper⟩

/-! ### Seventeen digits -/

/-- The magnitude as a number. -/
def Magnitude.value (m : Magnitude) : ℚ := m.interval.value * m.quarter.value

/-- The mantissa has at most 53 bits, and below it the numbers lie closer only if it is the least of 53 bits. -/
structure Magnitude.Fits (m : Magnitude) : Prop where
  positive : 0 < m.mantissa
  bounded : m.mantissa < 2 * leadingBit
  narrow : m.narrowBelow = true → m.mantissa = leadingBit

theorem Magnitude.value_quarter_pos (m : Magnitude) : 0 < m.quarter.value := by
  rw [m.value_quarter]
  positivity

/-- The interval reaches above the magnitude, and at least one quarter below it. -/
theorem Magnitude.interval_around (m : Magnitude) (fits : m.Fits) :
    m.interval.low < m.interval.value ∧ m.interval.value < m.interval.high := by
  have := fits.positive
  simp only [Magnitude.interval]
  split <;> omega

/-- What lies outside is below the lower end or above the upper one. -/
theorem le_low_of_not_covers (fits : m.Fits) {q : ℚ} (outside : ¬m.Covers q) (small : q ≤ m.value) :
    q ≤ m.interval.low * m.quarter.value := by
  have upper : q < m.interval.high * m.quarter.value := by
    refine small.trans_lt (mul_lt_mul_of_pos_right ?_ m.value_quarter_pos)
    exact_mod_cast (m.interval_around fits).2
  by_contra above
  rw [not_le] at above
  refine outside ?_
  rw [Magnitude.Covers]
  split
  · exact ⟨above.le, upper.le⟩
  · exact ⟨above, upper⟩

theorem high_le_of_not_covers (fits : m.Fits) {q : ℚ} (outside : ¬m.Covers q) (great : m.value ≤ q) :
    m.interval.high * m.quarter.value ≤ q := by
  have lower : m.interval.low * m.quarter.value < q := by
    refine (mul_lt_mul_of_pos_right ?_ m.value_quarter_pos).trans_le great
    exact_mod_cast (m.interval_around fits).1
  by_contra under
  rw [not_le] at under
  refine outside ?_
  rw [Magnitude.Covers]
  split
  · exact ⟨lower.le, under.le⟩
  · exact ⟨lower, under⟩

/-- The magnitude lies between its neighbours on a grid. -/
theorem below_le_value (m : Magnitude) (point : Int) (count : Nat) :
    (m.below point count : ℚ) * 10 ^ (point - count) ≤ m.value ∧
      m.value ≤ (m.below point count + 1 : Nat) * 10 ^ (point - count) := by
  have grid : (0 : ℚ) < 10 ^ (point - count) := by positivity
  have positive := Ratio.den_scale_pos m.den_quarter_pos (count - point)
  have lower := (Ratio.le_mul_num_iff positive m.interval.value (m.below point count)).1
    (Nat.div_mul_le_self _ _)
  have upper := (Ratio.mul_num_le_iff positive m.interval.value (m.below point count + 1)).1
    (Nat.lt_mul_of_div_lt (Nat.lt_succ_self _) positive).le
  rw [m.value_scale_quarter, mul_div_assoc'] at lower upper
  exact ⟨(le_div_iff₀ grid).1 lower, (div_le_iff₀ grid).1 upper⟩

/-- A grid without a point in the interval is at least as wide as the interval. -/
theorem width_le_of_onGrid?_eq_none (fits : m.Fits) (missed : onGrid? m point count = none) :
    (m.interval.high - m.interval.low : ℚ) * m.quarter.value ≤ 10 ^ (point - count) := by
  obtain ⟨digits, found, -⟩ | ⟨-, lower, upper⟩ := onGrid?_cases m point count
  · simp [missed] at found
  · obtain ⟨below, above⟩ := below_le_value m point count
    have left := le_low_of_not_covers fits (mt (inside_iff _).2 (by simp [lower])) below
    have right := high_le_of_not_covers fits (mt (inside_iff _).2 (by simp [upper])) above
    push_cast at right
    linarith

theorem digitCount_bounds {n : Nat} (positive : 0 < n) :
    10 ^ (digitCount n - 1) ≤ n ∧ n < 10 ^ digitCount n := by
  have some : 0 < digitCount n := Nat.length_toDigits_pos
  constructor
  · rcases Nat.eq_zero_or_pos (digitCount n - 1) with zero | more
    · rw [zero, pow_zero]
      exact positive
    · by_contra less
      have := (Nat.length_toDigits_le_iff (by decide) more).2 (Nat.lt_of_not_le less)
      rw [digitCount] at this some
      omega
  · exact (Nat.length_toDigits_le_iff (by decide) some).1 le_rfl

/-- A ratio has no more digits before the decimal point than are counted. -/
theorem Ratio.pow_point_le {r : Ratio} (num : 0 < r.num) (den : 0 < r.den) :
    (10 : ℚ) ^ (r.point - 1) ≤ r.value := by
  simp only [Ratio.point]
  split
  · have upper := (digitCount_bounds num).1
    have lower := (digitCount_bounds den).2.le
    have some : 0 < digitCount r.num := Nat.length_toDigits_pos
    have exponent : (digitCount r.num : Int) - digitCount r.den - 1 =
        (digitCount r.num - 1 : Nat) - (digitCount r.den : Nat) := by omega
    rw [exponent, zpow_sub₀ (by norm_num), zpow_natCast, zpow_natCast, Ratio.value]
    have positive : (0 : ℚ) < r.den := by exact_mod_cast den
    gcongr
    · exact_mod_cast upper
    · exact_mod_cast lower
  · rename_i great
    rw [Nat.not_lt] at great
    have positive := Ratio.den_scale_pos den (-((digitCount r.num : Int) - digitCount r.den))
    have one := (Ratio.le_mul_num_iff positive 1 1).1 (by simpa using great)
    rw [Ratio.value_scale, zpow_neg, Nat.cast_one, one_mul, ← div_eq_mul_inv, le_div_iff₀ (by positivity),
      one_mul] at one
    simpa using one

/-- The grid of seventeen digits is finer than the numbers of 53 bits are. -/
theorem onGrid?_seventeen (fits : m.Fits) (lead : (10 : ℚ) ^ (point - 1) ≤ m.value) :
    onGrid? m point 17 ≠ none := by
  intro missed
  have quarter := m.value_quarter_pos
  have wide := width_le_of_onGrid?_eq_none fits missed
  have digits : (10 : ℚ) ^ (point - 1) = 10 ^ 16 * 10 ^ (point - (17 : Nat)) := by
    rw [← zpow_natCast, ← zpow_add₀ (by norm_num)]
    congr 1
    omega
  -- In quarters, the magnitude is at least 10 ^ 16 times as great as its interval is wide.
  have scaled : (10 : ℚ) ^ 16 * ((m.interval.high - m.interval.low) * m.quarter.value) ≤
      m.interval.value * m.quarter.value := by
    rw [digits] at lead
    exact (mul_le_mul_of_nonneg_left wide (by norm_num)).trans lead
  rw [← mul_assoc, mul_le_mul_iff_of_pos_right quarter] at scaled
  have quarters : 10 ^ 16 * m.interval.high ≤ m.interval.value + 10 ^ 16 * m.interval.low := by
    rw [mul_sub, sub_le_iff_le_add] at scaled
    exact_mod_cast scaled
  have positive := fits.positive
  have bounded := fits.bounded
  simp only [Magnitude.interval, leadingBit] at quarters bounded
  split at quarters
  · have least := fits.narrow ‹_›
    simp only [leadingBit] at least
    omega
  · omega

/-- The first grid with a point in the interval is found, and the point lies in it. -/
theorem firstGrid_covers (fits : m.Fits) (lead : (10 : ℚ) ^ (point - 1) ≤ m.value) {fuel count : Nat}
    (begun : count ≤ 17) (enough : 17 < count + fuel) :
    m.Covers ((firstGrid m point fuel count).1 * 10 ^ (point - (firstGrid m point fuel count).2)) := by
  induction fuel generalizing count with
  | zero => omega
  | succ fuel ih =>
      obtain ⟨digits, found, inside⟩ | ⟨missed, -⟩ := onGrid?_cases m point count
      · simp only [firstGrid, found]
        exact (inside_iff digits).1 inside
      · have unfinished : count ≠ 17 := by
          rintro rfl
          exact onGrid?_seventeen fits lead missed
        simp only [firstGrid, missed]
        exact ih (by omega) (by omega)

/-! ### The shortest decimal -/

/-- The decimal as a number. -/
def DecimalForm.value (d : DecimalForm) : ℚ := d.digits * 10 ^ (d.point - digitCount d.digits)

theorem digitCount_mul_ten {n : Nat} (positive : 0 < n) : digitCount (n * 10) = digitCount n + 1 := by
  have digits := Nat.toDigits_append_toDigits (b := 10) (n := n) (d := 0) (by decide) positive (by decide)
  rw [add_zero, mul_comm] at digits
  simp [digitCount, ← digits]

/-- Zeros that are dropped move the decimal point. -/
theorem dropTrailingZeros_spec (fuel : Nat) {digits : Nat} (positive : 0 < digits) :
    ∃ zeros, digits = dropTrailingZeros fuel digits * 10 ^ zeros ∧
      digitCount digits = digitCount (dropTrailingZeros fuel digits) + zeros := by
  induction fuel generalizing digits with
  | zero => exact ⟨0, by simp [dropTrailingZeros], rfl⟩
  | succ fuel ih =>
      rw [dropTrailingZeros]
      split
      · obtain ⟨n, rfl⟩ : ∃ n, digits = n * 10 := ⟨digits / 10, by omega⟩
        have some : 0 < n := by omega
        obtain ⟨zeros, same, count⟩ := ih some
        rw [Nat.mul_div_cancel n (by decide)]
        refine ⟨zeros + 1, ?_, ?_⟩
        · rw [pow_succ, ← mul_assoc, ← same]
        · rw [digitCount_mul_ten some, count, add_assoc]
      · exact ⟨0, by simp, rfl⟩

/-- Nothing that is not positive rounds to a magnitude. -/
theorem pos_of_covers (fits : m.Fits) {q : ℚ} (covers : m.Covers q) : 0 < q := by
  have low : (0 : ℚ) < m.interval.low * m.quarter.value := by
    refine mul_pos ?_ m.value_quarter_pos
    have := fits.positive
    simp only [Magnitude.interval, Nat.cast_pos]
    split <;> omega
  rw [Magnitude.Covers] at covers
  split at covers
  · exact low.trans_le covers.1
  · exact low.trans covers.1

/-- The shortest decimal rounds to the magnitude. -/
theorem covers_shortest (fits : m.Fits) : m.Covers m.shortest.value := by
  have num : 0 < m.interval.value * m.quarter.num := by
    have := fits.positive
    have : 0 < m.quarter.num := Nat.pow_pos (by decide)
    simp only [Magnitude.interval]
    positivity
  have lead := Ratio.pow_point_le (r := ⟨m.interval.value * m.quarter.num, m.quarter.den⟩) num
    m.den_quarter_pos
  have value : Ratio.value ⟨m.interval.value * m.quarter.num, m.quarter.den⟩ = m.value := by
    simp [Ratio.value, Magnitude.value, mul_div_assoc]
  rw [value] at lead
  have covers := firstGrid_covers fits lead (show 1 ≤ 17 by decide) (show 17 < 1 + 17 by decide)
  simp only [Magnitude.shortest, DecimalForm.value]
  generalize Ratio.point _ = point at covers
  generalize firstGrid m point 17 1 = found at covers
  obtain ⟨digits, count⟩ := found
  have positive : 0 < digits := by
    by_contra none
    have := pos_of_covers fits covers
    simp_all
  obtain ⟨zeros, same, counted⟩ := dropTrailingZeros_spec 20 positive
  have moved : (dropTrailingZeros 20 digits : ℚ) *
      10 ^ (point + ((digitCount digits : Int) - count) - digitCount (dropTrailingZeros 20 digits)) =
      digits * 10 ^ (point - count) := by
    have exponent : point + ((digitCount digits : Int) - count) - digitCount (dropTrailingZeros 20 digits) =
        zeros + (point - count) := by
      rw [counted]
      omega
    rw [exponent, zpow_add₀ (by norm_num), zpow_natCast, ← mul_assoc]
    congr 1
    exact_mod_cast same.symm
  rw [moved]
  exact covers

end RelQuery.Decimal
