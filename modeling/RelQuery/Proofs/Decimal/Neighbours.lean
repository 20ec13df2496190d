/-
Module: RelQuery.Proofs.Decimal.Neighbours
Purpose: No number rounds to two magnitudes. The magnitudes are ordered as their bit patterns are, and where the
  rounding interval of one pattern ends, that of the next one begins; the end belongs to at most one of them.
Main exports: Magnitude.ofPattern, pattern_eq_of_covers, fits_ofPattern
-/
import RelQuery.Proofs.Decimal.Interval

namespace RelQuery.Decimal

/-- The magnitude of a bit pattern without its sign. -/
def Magnitude.ofPattern (pattern : Nat) : Magnitude :=
  let field := pattern / leadingBit
  let fraction := pattern % leadingBit
  if field = 0 then ⟨fraction, -1074, false⟩
  else ⟨leadingBit + fraction, (field : Int) - 1075, fraction = 0 && field > 1⟩

/-- The quarter of the last place of a pattern, as a multiple of the least one of all. -/
def quarterOf (pattern : Nat) : Nat := 2 ^ (pattern / leadingBit - 1)

/-- The upper end of the rounding interval of a pattern, in least quarters. -/
def upperEnd (pattern : Nat) : Nat := (Magnitude.ofPattern pattern).interval.high * quarterOf pattern

/-- The lower end of the rounding interval of a pattern, in least quarters. -/
def lowerEnd (pattern : Nat) : Nat := (Magnitude.ofPattern pattern).interval.low * quarterOf pattern

/-! ### Fields -/

section

variable {fraction : Nat} (short : fraction < leadingBit)

include short

theorem ofPattern_subnormal : Magnitude.ofPattern fraction = ⟨fraction, -1074, false⟩ := by
  simp [Magnitude.ofPattern, Nat.div_eq_of_lt short, Nat.mod_eq_of_lt short]

theorem ofPattern_normal (field : Nat) : Magnitude.ofPattern ((field + 1) * leadingBit + fraction) =
    ⟨leadingBit + fraction, (field : Int) - 1074, fraction = 0 && 0 < field⟩ := by
  have split : ((field + 1) * leadingBit + fraction) / leadingBit = field + 1 := by
    rw [mul_comm, Nat.mul_add_div (by decide), Nat.div_eq_of_lt short, add_zero]
  have rest : ((field + 1) * leadingBit + fraction) % leadingBit = fraction := by
    rw [mul_comm, Nat.mul_add_mod, Nat.mod_eq_of_lt short]
  simp [Magnitude.ofPattern, split, rest]
  omega

theorem quarterOf_subnormal : quarterOf fraction = 1 := by
  simp [quarterOf, Nat.div_eq_of_lt short]

theorem quarterOf_normal (field : Nat) : quarterOf ((field + 1) * leadingBit + fraction) = 2 ^ field := by
  rw [quarterOf, mul_comm, Nat.mul_add_div (by decide), Nat.div_eq_of_lt short, add_zero,
    Nat.add_sub_cancel]

end

/-- A pattern is a fraction alone or behind an exponent field. -/
theorem exists_fields (pattern : Nat) : pattern < leadingBit ∨
    ∃ field, ∃ fraction < leadingBit, pattern = (field + 1) * leadingBit + fraction := by
  rcases Nat.lt_or_ge pattern leadingBit with short | long
  · exact .inl short
  · have parts := Nat.div_add_mod' pattern leadingBit
    have field : 0 < pattern / leadingBit := Nat.div_pos long (by decide)
    refine .inr ⟨pattern / leadingBit - 1, pattern % leadingBit, Nat.mod_lt _ (by decide), ?_⟩
    rw [Nat.sub_add_cancel field, parts]

/-! ### Ends of intervals -/

theorem value_quarter_ofPattern (pattern : Nat) :
    (Magnitude.ofPattern pattern).quarter.value = quarterOf pattern * (2 ^ 1076)⁻¹ := by
  have least : (2 : ℚ) ^ (-1076 : Int) = (2 ^ 1076)⁻¹ := zpow_neg 2 1076
  rw [Magnitude.value_quarter]
  obtain short | ⟨field, fraction, short, rfl⟩ := exists_fields pattern
  · rw [ofPattern_subnormal short, quarterOf_subnormal short, ← least, Nat.cast_one, one_mul]
    rfl
  · have exponent : (field : Int) - 1074 - 2 = field + -1076 := by omega
    rw [ofPattern_normal short, quarterOf_normal short, exponent, zpow_add₀ (by decide), least,
      zpow_natCast]
    push_cast
    rfl

/-- Where the interval of a pattern ends, that of the next one begins. -/
theorem lowerEnd_succ (pattern : Nat) : lowerEnd (pattern + 1) = upperEnd pattern := by
  have zero : 0 < leadingBit := by decide
  obtain short | ⟨field, fraction, short, rfl⟩ := exists_fields pattern
  · rcases Nat.lt_or_eq_of_le (Nat.succ_le_of_lt short) with inside | last
    · rw [lowerEnd, upperEnd, ofPattern_subnormal short, ofPattern_subnormal inside,
        quarterOf_subnormal short, quarterOf_subnormal inside]
      simp only [Magnitude.interval, Bool.false_eq_true, if_false]
      omega
    · -- The next pattern is the first one with a leading bit.
      have next : pattern + 1 = (0 + 1) * leadingBit + 0 := by omega
      rw [lowerEnd, upperEnd, ofPattern_subnormal short, quarterOf_subnormal short, next,
        ofPattern_normal zero, quarterOf_normal zero]
      simp only [Magnitude.interval, Nat.lt_irrefl, decide_false, Bool.and_false, Bool.false_eq_true,
        if_false]
      omega
  · rcases Nat.lt_or_eq_of_le (Nat.succ_le_of_lt short) with inside | last
    · have next : (field + 1) * leadingBit + fraction + 1 = (field + 1) * leadingBit + (fraction + 1) :=
        Nat.add_assoc ..
      rw [lowerEnd, upperEnd, next, ofPattern_normal short, quarterOf_normal short,
        ofPattern_normal inside, quarterOf_normal inside]
      simp only [Magnitude.interval, Nat.add_one_ne_zero, decide_false, Bool.false_and,
        Bool.false_eq_true, if_false]
      rw [show 4 * (leadingBit + (fraction + 1)) - 2 = 4 * (leadingBit + fraction) + 2 by omega]
    · -- The last place of the next pattern is twice as great, and its interval narrow below.
      have next : (field + 1) * leadingBit + fraction + 1 = (field + 1 + 1) * leadingBit + 0 := by
        rw [add_assoc, show fraction + 1 = leadingBit from last, Nat.add_mul (field + 1) 1, one_mul, add_zero]
      rw [lowerEnd, upperEnd, next, ofPattern_normal short, quarterOf_normal short, ofPattern_normal zero,
        quarterOf_normal zero, pow_succ, mul_comm (2 ^ field), ← mul_assoc]
      simp only [Magnitude.interval, Nat.succ_pos, decide_true, Bool.and_self, if_true]
      congr 1
      omega

theorem lowerEnd_lt_upperEnd (pattern : Nat) : lowerEnd pattern < upperEnd pattern := by
  refine Nat.mul_lt_mul_of_pos_right ?_ (Nat.pow_pos (by decide))
  simp only [Magnitude.interval]
  omega

theorem upperEnd_strictMono : StrictMono upperEnd :=
  strictMono_nat_of_lt_succ fun pattern => lowerEnd_succ pattern ▸ lowerEnd_lt_upperEnd (pattern + 1)

/-- The ends of an interval belong to it exactly if the pattern is even. -/
theorem closed_ofPattern (pattern : Nat) :
    (Magnitude.ofPattern pattern).interval.closed = decide (pattern % 2 = 0) := by
  have even : leadingBit % 2 = 0 := by decide
  obtain short | ⟨field, fraction, short, rfl⟩ := exists_fields pattern
  · rw [ofPattern_subnormal short]
    rfl
  · rw [ofPattern_normal short]
    simp [Magnitude.interval, Nat.add_mod, Nat.mul_mod, even]

/-! ### Intervals of patterns -/

/-- What rounds to a pattern lies between the ends of its interval, and on an end only if it is even. -/
theorem ends_of_covers {pattern : Nat} {q : ℚ} (covers : (Magnitude.ofPattern pattern).Covers q) :
    lowerEnd pattern * (2 ^ 1076)⁻¹ ≤ q ∧ q ≤ upperEnd pattern * (2 ^ 1076)⁻¹ ∧
      (pattern % 2 = 1 → lowerEnd pattern * (2 ^ 1076)⁻¹ < q ∧ q < upperEnd pattern * (2 ^ 1076)⁻¹) := by
  rw [Magnitude.Covers, value_quarter_ofPattern, closed_ofPattern, ← mul_assoc, ← mul_assoc] at covers
  have lower : ((Magnitude.ofPattern pattern).interval.low : ℚ) * quarterOf pattern = lowerEnd pattern := by
    exact_mod_cast rfl
  have upper : ((Magnitude.ofPattern pattern).interval.high : ℚ) * quarterOf pattern = upperEnd pattern := by
    exact_mod_cast rfl
  rw [lower, upper] at covers
  by_cases even : pattern % 2 = 0
  · rw [if_pos (by simpa using even)] at covers
    exact ⟨covers.1, covers.2, fun odd => by omega⟩
  · rw [if_neg (by simpa using even)] at covers
    exact ⟨covers.1.le, covers.2.le, fun _ => covers⟩

/-- Of two patterns, the lesser one's interval ends before what rounds to the greater one. -/
theorem not_covers_of_lt {a b : Nat} {q : ℚ} (less : a < b) (left : (Magnitude.ofPattern a).Covers q) :
    ¬(Magnitude.ofPattern b).Covers q := by
  intro right
  obtain ⟨c, rfl⟩ := Nat.exists_eq_add_of_lt less
  obtain ⟨-, upper, odd⟩ := ends_of_covers left
  obtain ⟨lower, -, odd'⟩ := ends_of_covers right
  rw [lowerEnd_succ] at lower odd'
  have least : (0 : ℚ) < (2 ^ 1076)⁻¹ := by positivity
  have ends : upperEnd (a + c) ≤ upperEnd a := by
    have := (mul_le_mul_iff_of_pos_right least).1 (lower.trans upper)
    exact_mod_cast this
  obtain rfl : c = 0 := by
    have := upperEnd_strictMono.le_iff_le.1 ends
    omega
  -- The number is where one interval ends and the next one begins, and one of the two patterns is odd.
  rcases Nat.mod_two_eq_zero_or_one a with even | isOdd
  · exact absurd upper (not_le_of_gt (odd' (by omega)).1)
  · exact absurd lower (not_le_of_gt (odd isOdd).2)

/-- No number rounds to two magnitudes. -/
theorem pattern_eq_of_covers {a b : Nat} {q : ℚ} (left : (Magnitude.ofPattern a).Covers q)
    (right : (Magnitude.ofPattern b).Covers q) : a = b := by
  rcases Nat.lt_trichotomy a b with less | same | greater
  · exact absurd right (not_covers_of_lt less left)
  · exact same
  · exact absurd left (not_covers_of_lt greater right)

/-- A pattern other than zero has a mantissa of at most 53 bits. -/
theorem fits_ofPattern {pattern : Nat} (nonzero : 0 < pattern) : (Magnitude.ofPattern pattern).Fits := by
  obtain short | ⟨field, fraction, short, rfl⟩ := exists_fields pattern
  · rw [ofPattern_subnormal short]
    exact ⟨nonzero, by simp only; omega, by simp⟩
  · rw [ofPattern_normal short]
    refine ⟨by simp [leadingBit], by simp only; omega, ?_⟩
    simp only [Bool.and_eq_true, decide_eq_true_eq]
    rintro ⟨rfl, -⟩
    rfl

end RelQuery.Decimal
