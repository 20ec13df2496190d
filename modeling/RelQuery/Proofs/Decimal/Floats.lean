/-
Module: RelQuery.Proofs.Decimal.Floats
Purpose: A floating-point number is its sign and its bit pattern, and its shortest decimal determines the pattern.
Main exports: pattern, isSigned, eq_of_pattern, beq_zero_iff, covers_shortest_of_nonzero, pattern_eq_of_shortest
-/
import Mathlib
import RelQuery.Proofs.Decimal.Neighbours

namespace RelQuery.Decimal

/-- How many bit patterns there are without the sign. -/
def patternCount : Nat := fieldCount * leadingBit

/-- The bit pattern of a number without its sign. -/
def pattern (x : Float) : Nat := x.toBits.toNat % patternCount

/-- Whether a number has the sign bit. -/
def isSigned (x : Float) : Bool := x.toBits ≥ 0x8000000000000000

theorem shortest_eq (x : Float) : shortest x = (Magnitude.ofPattern (pattern x)).shortest := by
  have field : x.toBits.toNat / leadingBit % fieldCount = pattern x / leadingBit := by
    simp only [pattern, patternCount, leadingBit, fieldCount]
    omega
  have fraction : x.toBits.toNat % leadingBit = pattern x % leadingBit := by
    simp only [pattern, patternCount, leadingBit, fieldCount]
    omega
  simp only [shortest, Magnitude.ofFloat, Magnitude.ofPattern, field, fraction]

/-- The bits of a number are its pattern and, above it, the sign. -/
theorem toNat_toBits (x : Float) :
    x.toBits.toNat = pattern x + if isSigned x then patternCount else 0 := by
  have signed : isSigned x = true ↔ patternCount ≤ x.toBits.toNat := by
    simp only [isSigned, decide_eq_true_eq, ge_iff_le, UInt64.le_iff_toNat_le]
    rfl
  have small : x.toBits.toNat < 2 * patternCount := x.toBits.toNat_lt
  by_cases sign : isSigned x = true
  · have great := signed.1 sign
    rw [if_pos sign, pattern, Nat.mod_eq_sub_mod great, Nat.mod_eq_of_lt (by omega)]
    omega
  · have less := Nat.lt_of_not_le (mt signed.2 sign)
    rw [if_neg sign, pattern, Nat.mod_eq_of_lt less, add_zero]

/-- A number is determined by its sign and its pattern. -/
theorem eq_of_pattern {x y : Float} (sign : isSigned x = isSigned y) (same : pattern x = pattern y) :
    x = y := by
  rw [← Float.toBits_inj, ← UInt64.toNat_inj, toNat_toBits, toNat_toBits y, sign, same]

/-- A number equals zero exactly if nothing but its sign is set. -/
theorem beq_zero_iff (x : Float) : (x == 0) = true ↔ pattern x = 0 := by
  have plain : pattern 0 = 0 ∧ isSigned 0 = false := by decide +kernel
  have negative : pattern (-0) = 0 ∧ isSigned (-0) = true := by decide +kernel
  have number : (0 : Float) ≠ Float.nan := Float.beq_self_iff.1 (by decide +kernel)
  have number' : (-0 : Float) ≠ Float.nan := Float.beq_self_iff.1 (by decide +kernel)
  rw [Float.beq_iff_ne_nan_and_eq]
  constructor
  · rintro ⟨-, -, rfl | ⟨rfl, -⟩ | ⟨rfl, -⟩⟩
    · exact plain.1
    · exact plain.1
    · exact negative.1
  · intro zero
    cases sign : isSigned x with
    | false =>
        obtain rfl := eq_of_pattern (sign.trans plain.2.symm) (zero.trans plain.1.symm)
        exact ⟨number, number, .inl rfl⟩
    | true =>
        obtain rfl := eq_of_pattern (sign.trans negative.2.symm) (zero.trans negative.1.symm)
        exact ⟨number', number, .inr (.inr ⟨rfl, rfl⟩)⟩

/-! ### Decimals -/

theorem pattern_pos {x : Float} (nonzero : (x == 0) = false) : 0 < pattern x :=
  Nat.pos_of_ne_zero fun zero => by simp [(beq_zero_iff x).2 zero] at nonzero

/-- The shortest decimal of a number other than zero rounds to its pattern. -/
theorem covers_shortest_of_nonzero {x : Float} (nonzero : (x == 0) = false) :
    (Magnitude.ofPattern (pattern x)).Covers (shortest x).value := by
  rw [shortest_eq]
  exact covers_shortest (fits_ofPattern (pattern_pos nonzero))

/-- The shortest decimal of a number other than zero is not zero. -/
theorem value_shortest_pos {x : Float} (nonzero : (x == 0) = false) : 0 < (shortest x).value :=
  pos_of_covers (fits_ofPattern (pattern_pos nonzero)) (covers_shortest_of_nonzero nonzero)

/-- Numbers other than zero that have the same shortest decimal differ in their signs at most. -/
theorem pattern_eq_of_shortest {x y : Float} (nonzero : (x == 0) = false) (nonzero' : (y == 0) = false)
    (same : (shortest x).value = (shortest y).value) : pattern x = pattern y := by
  have covers := covers_shortest_of_nonzero nonzero
  rw [same] at covers
  exact pattern_eq_of_covers covers (covers_shortest_of_nonzero nonzero')

end RelQuery.Decimal
