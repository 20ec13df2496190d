/-
Module: RelQuery.Proofs.Json.Floats
Purpose: The texts of floating-point numbers. Each is a number of the format that stands for the shortest decimal,
  with a fraction or an exponent; hence different numbers have different texts.
Main exports: NumberText.magnitude, numberText_style, style_text_injective, Number.text_injective
-/
import RelQuery.Proofs.Decimal.Floats
import RelQuery.Proofs.Json.Numbers

namespace RelQuery.Json

open Decimal (Style DecimalForm digitCount positional scientific isSigned)

/-! ### Digits -/

theorem digitsValue_eq (cs : List Char) : digitsValue cs = Nat.ofDigitChars 10 cs 0 := by
  simp only [digitsValue, Nat.ofDigitChars, Nat.mul_comm]

theorem digitsValue_toDigits (n : Nat) : digitsValue (Nat.toDigits 10 n) = n := by
  rw [digitsValue_eq, Nat.ofDigitChars_ten_toDigits]

/-- Zeros before the digits mean nothing. -/
theorem digitsValue_zeros_append (n : Nat) (cs : List Char) :
    digitsValue (List.replicate n '0' ++ cs) = digitsValue cs := by
  induction n with
  | zero => rfl
  | succ n ih =>
      rw [List.replicate_succ, List.cons_append, ← ih]
      rfl

/-- Each zero behind the digits multiplies them by ten. -/
theorem digitsValue_append_zeros (cs : List Char) (n : Nat) :
    digitsValue (cs ++ List.replicate n '0') = digitsValue cs * 10 ^ n := by
  induction n with
  | zero => simp
  | succ n ih =>
      rw [List.replicate_succ', ← List.append_assoc, digitsValue, List.foldl_append, ← digitsValue, ih,
        pow_succ, ← Nat.mul_assoc]
      rfl

/-! ### Parts of a number -/

/-- The number that the parts of a text stand for, without its sign. -/
def NumberText.magnitude (t : NumberText) : ℚ :=
  digitsValue (t.whole ++ t.fraction.getD []) * 10 ^ (t.exponent.getD 0 - (t.fraction.getD []).length)

/-- Digits that may stand before a decimal point: at least one, and no zero before others. -/
structure IsWhole (whole : List Char) : Prop where
  isDigit : ∀ c ∈ whole, c.isDigit = true
  nonempty : whole ≠ []
  plain : ∀ cs, whole = '0' :: cs → cs = []

theorem isWhole_zero : IsWhole ['0'] := ⟨by simp, by simp, by simp⟩

section

variable {digits rest : List Char} (each : ∀ c ∈ digits, c.isDigit = true)
  (ends : ∀ c ∈ rest.head?, c.isDigit = false)

include each ends

theorem takeWhile_digits : (digits ++ rest).takeWhile Char.isDigit = digits := by
  rw [List.takeWhile_append_of_pos each]
  cases rest with
  | nil => simp
  | cons c rest => simp [ends c rfl]

theorem dropWhile_digits : (digits ++ rest).dropWhile Char.isDigit = rest := by
  rw [List.dropWhile_append_of_pos each]
  cases rest with
  | nil => simp
  | cons c rest => simp [ends c rfl]

theorem fractionText_digits (nonempty : digits ≠ []) :
    fractionText ('.' :: (digits ++ rest)) = some (some digits, rest) := by
  simp [fractionText, takeWhile_digits each ends, dropWhile_digits each ends, nonempty]

end

/-- The parts behind the whole digits are read one after the other. -/
theorem unsignedText_whole {whole cs left : List Char} (first : IsWhole whole)
    (ends : ∀ c ∈ cs.head?, c.isDigit = false) (negative : Bool) {fraction : Option (List Char)}
    {exponent : Option Int} (found : fractionText cs = some (fraction, left))
    (found' : exponentText left = some (exponent, [])) :
    unsignedText negative (whole ++ cs) = some (⟨negative, whole, fraction, exponent⟩, []) := by
  simp only [unsignedText, takeWhile_digits first.isDigit ends, dropWhile_digits first.isDigit ends]
  split
  · exact absurd rfl first.nonempty
  · exact absurd (first.plain _ rfl) (by simp)
  · simp [found, found']

/-- The exponent is read from its mark and its digits. -/
theorem exponentText_mark (plusSign : Bool) (exponent : Int) :
    exponentText ((if exponent < 0 then ['e', '-'] else if plusSign then ['e', '+'] else ['e']) ++
      Nat.toDigits 10 exponent.natAbs) = some (some exponent, []) := by
  have each : ∀ c ∈ Nat.toDigits 10 exponent.natAbs, c.isDigit = true := fun _ => isDigit_of_mem_toDigits
  have taken (negative : Bool) : exponentDigits negative (Nat.toDigits 10 exponent.natAbs) =
      some (some (if negative then -(exponent.natAbs : Int) else exponent.natAbs), []) := by
    have nothing : ∀ c ∈ ([] : List Char).head?, c.isDigit = false := by simp
    have whole := takeWhile_digits each nothing
    have left := dropWhile_digits each nothing
    rw [List.append_nil] at whole left
    simp [exponentDigits, whole, left, Nat.toDigits_ne_nil, digitsValue_toDigits]
  have plain : ∀ c ∈ (Nat.toDigits 10 exponent.natAbs).head?, c ≠ '-' ∧ c ≠ '+' := by
    intro c first
    have digit := each c (List.mem_of_head? first)
    constructor <;> rintro rfl <;> revert digit <;> decide
  split
  · have value : -(exponent.natAbs : Int) = exponent := by omega
    exact (taken true).trans (by rw [if_pos rfl, value])
  · have value : (exponent.natAbs : Int) = exponent := by omega
    cases plusSign
    · refine Eq.trans ?_ ((taken false).trans (by rw [if_neg (by decide), value]))
      exact signedExponent_plain plain
    · exact (taken false).trans (by rw [if_neg (by decide), value])

/-! ### Notations -/

/-- Digits of a number other than zero, without zeros before them. -/
structure Significant (digits : List Char) : Prop where
  isDigit : ∀ c ∈ digits, c.isDigit = true
  nonempty : digits ≠ []
  lead : digits.head? ≠ some '0'

theorem significant_toDigits {n : Nat} (positive : 0 < n) : Significant (Nat.toDigits 10 n) :=
  ⟨fun _ => isDigit_of_mem_toDigits, Nat.toDigits_ne_nil, head?_toDigits_ne_zero positive⟩

section

variable {digits : List Char}

theorem Significant.isWhole_append (significant : Significant digits) {others : List Char}
    (each : ∀ c ∈ others, c.isDigit = true) : IsWhole (digits ++ others) := by
  obtain ⟨each', nonempty, lead⟩ := significant
  refine ⟨List.forall_mem_append.2 ⟨each', each⟩, by simp [nonempty], ?_⟩
  rintro cs same
  obtain ⟨d, ds, rfl⟩ := List.exists_cons_of_ne_nil nonempty
  obtain rfl : d = '0' := (List.cons.inj same).1
  exact absurd rfl lead

theorem Significant.isWhole_take (significant : Significant digits) {places : Nat} (some : 0 < places) :
    IsWhole (digits.take places) := by
  obtain ⟨each, nonempty, lead⟩ := significant
  obtain ⟨d, ds, rfl⟩ := List.exists_cons_of_ne_nil nonempty
  obtain ⟨places, rfl⟩ := Nat.exists_eq_add_of_lt some
  have first : Significant [d] := ⟨by simpa using each d List.mem_cons_self, by simp, by simpa using lead⟩
  rw [Nat.zero_add, List.take_succ_cons]
  exact first.isWhole_append fun c member => each c (List.mem_cons_of_mem _ (List.mem_of_mem_take member))

/-- The text stands for a number with these digits and this decimal point, and shows that it is no integer. -/
def StandsFor (negative : Bool) (digits : List Char) (point : Int) (cs : List Char) : Prop :=
  ∃ parts, unsignedText negative cs = some (parts, []) ∧ parts.negative = negative ∧
    parts.magnitude = digitsValue digits * 10 ^ (point - digits.length) ∧
    ¬(parts.fraction = none ∧ parts.exponent = none)

/-- Whole digits and a fraction stand for what all these digits do. -/
theorem standsFor_fraction {whole fraction : List Char} (first : IsWhole whole)
    (each : ∀ c ∈ fraction, c.isDigit = true) (nonempty : fraction ≠ []) (negative : Bool) {point : Int}
    (value : (digitsValue (whole ++ fraction) : ℚ) * 10 ^ (-(fraction.length : Int)) =
      digitsValue digits * 10 ^ (point - digits.length)) :
    StandsFor negative digits point (whole ++ '.' :: fraction) := by
  have nothing : ∀ c ∈ ([] : List Char).head?, c.isDigit = false := by simp
  have found := fractionText_digits each nothing nonempty
  rw [List.append_nil] at found
  refine ⟨_, unsignedText_whole first (by simp) negative found rfl, rfl, ?_, by simp⟩
  rw [← value]
  simp [NumberText.magnitude]

theorem standsFor_positional (significant : Significant digits) (negative : Bool) (point : Int) :
    StandsFor negative digits point (positional digits point) := by
  have zeros (n : Nat) : ∀ c ∈ List.replicate n '0', c.isDigit = true := by
    intro c member
    rw [List.eq_of_mem_replicate member]
    decide
  have nonempty := significant.nonempty
  simp only [positional]
  split
  · refine standsFor_fraction isWhole_zero (List.forall_mem_append.2 ⟨zeros _, significant.isDigit⟩)
      (by simp [nonempty]) negative ?_
    rw [show ['0'] = List.replicate 1 '0' from rfl, digitsValue_zeros_append, digitsValue_zeros_append,
      List.length_append, List.length_replicate]
    congr 2
    omega
  split
  · rw [List.append_assoc, ← List.append_assoc]
    refine standsFor_fraction (significant.isWhole_append (zeros _)) (by simp) (by simp) negative ?_
    have all : digits ++ List.replicate (point.toNat - digits.length) '0' ++ ['0'] =
        digits ++ List.replicate (point.toNat - digits.length + 1) '0' := by
      rw [List.append_assoc, ← List.replicate_succ']
    rw [all, digitsValue_append_zeros, Nat.cast_mul, mul_assoc, Nat.cast_pow, Nat.cast_ofNat,
      ← zpow_natCast, ← zpow_add₀ (by norm_num)]
    congr 2
    simp
    omega
  · refine standsFor_fraction (significant.isWhole_take (by omega))
      (fun c member => significant.isDigit c (List.mem_of_mem_drop member)) (by simp; omega) negative ?_
    rw [List.take_append_drop, List.length_drop]
    congr 2
    omega

/-- In scientific notation there is one whole digit. -/
theorem standsFor_scientific (significant : Significant digits) (negative plusSign : Bool) (point : Int) :
    StandsFor negative digits point (scientific plusSign digits point) := by
  have mark := exponentText_mark plusSign (point - 1)
  have ends : ∀ c ∈ ((if point - 1 < 0 then ['e', '-'] else if plusSign then ['e', '+'] else ['e']) ++
      Nat.toDigits 10 (point - 1).natAbs).head?, c.isDigit = false ∧ c ≠ '.' := by
    split
    · simp
    · cases plusSign <;> simp
  have written : (toString (point - 1).natAbs).toList = Nat.toDigits 10 (point - 1).natAbs := by
    rw [Nat.toString_eq_ofList_toDigits, String.toList_ofList]
  simp only [scientific, written]
  rw [List.append_assoc]
  generalize (if point - 1 < 0 then ['e', '-'] else if plusSign then ['e', '+'] else ['e']) ++
      Nat.toDigits 10 (point - 1).natAbs = exponent at mark ends
  have each := significant.isDigit
  match digits with
  | [] => exact absurd rfl significant.nonempty
  | [d] =>
      have whole := significant.isWhole_take (show 0 < 1 by decide)
      have none : fractionText exponent = some (none, exponent) := by
        cases exponent with
        | nil => rfl
        | cons c cs => simp [fractionText, (ends c rfl).2]
      refine ⟨_, unsignedText_whole whole (fun c first => (ends c first).1) negative none mark, rfl, ?_,
        by simp⟩
      simp [NumberText.magnitude]
  | d :: e :: rest =>
      have whole := significant.isWhole_take (show 0 < 1 by decide)
      have others : ∀ c ∈ e :: rest, c.isDigit = true := fun c member => each c (List.mem_cons_of_mem _ member)
      have found := fractionText_digits others (fun c first => (ends c first).1) (by simp)
      refine ⟨_, unsignedText_whole whole (by simp) negative found mark, rfl, ?_, by simp⟩
      have places : point - 1 - ((e :: rest).length : Int) = point - ((d :: e :: rest).length : Int) := by
        simp
        omega
      simp only [NumberText.magnitude, Option.getD_some, places]
      rfl

/-- Which of the two notations is used does not change what the text stands for. -/
theorem standsFor_notation (style : Style) (significant : Significant digits) (negative : Bool) (point : Int) :
    StandsFor negative digits point
      (if style.leastPoint ≤ point && point ≤ style.greatestPoint then positional digits point
      else scientific style.plusSign digits point) := by
  split
  · exact standsFor_positional significant negative point
  · exact standsFor_scientific significant negative style.plusSign point

end

/-- The sign stands before the digits. -/
theorem numberText_of_standsFor {digits cs : List Char} {negative : Bool} {point : Int}
    (stands : StandsFor negative digits point cs) :
    ∃ parts, numberText ((if negative then ['-'] else []) ++ cs) = some (parts, []) ∧
      parts.negative = negative ∧ parts.magnitude = digitsValue digits * 10 ^ (point - digits.length) ∧
      ¬(parts.fraction = none ∧ parts.exponent = none) := by
  obtain ⟨parts, found, facts⟩ := stands
  refine ⟨parts, ?_, facts⟩
  cases negative with
  | true => exact found
  | false =>
      have plain : cs.head? ≠ some '-' := by
        intro minus
        obtain ⟨others, rfl⟩ := List.head?_eq_some_iff.1 minus
        simp [unsignedText] at found
      exact (numberText_plain plain).trans found

/-! ### Floating-point numbers -/

/-- The magnitude of a number, as its shortest decimal gives it. -/
def shown (x : Float) : ℚ := if x == 0 then 0 else (Decimal.shortest x).value

/-- The text of a number has its sign, stands for its shortest decimal, and shows that it is no integer. -/
theorem numberText_style (style : Style) (x : Float) :
    ∃ parts, numberText (style.text x).toList = some (parts, []) ∧ parts.negative = isSigned x ∧
      parts.magnitude = shown x ∧ ¬(parts.fraction = none ∧ parts.exponent = none) := by
  have sign : (if x.toBits ≥ 0x8000000000000000 then ['-'] else []) =
      if isSigned x then ['-'] else [] := by
    simp [isSigned]
  simp only [Style.text, sign, shown]
  cases zero : x == 0 with
  | true =>
      have stands : StandsFor (isSigned x) ['0'] 1 (['0'] ++ '.' :: ['0']) :=
        standsFor_fraction isWhole_zero (by simp) (by simp) _ (by simp [digitsValue])
      obtain ⟨parts, found, negative, magnitude, shown⟩ := numberText_of_standsFor stands
      refine ⟨parts, by simpa using found, negative, ?_, shown⟩
      rw [magnitude]
      simp [digitsValue]
  | false =>
      have written : (toString (Decimal.shortest x).digits).toList =
          Nat.toDigits 10 (Decimal.shortest x).digits := by
        rw [Nat.toString_eq_ofList_toDigits, String.toList_ofList]
      have positive : 0 < (Decimal.shortest x).digits := Nat.pos_of_ne_zero fun none => by
        have value := Decimal.value_shortest_pos zero
        simp [DecimalForm.value, none] at value
      have significant := significant_toDigits positive
      have stands := standsFor_notation style significant (isSigned x) (Decimal.shortest x).point
      obtain ⟨parts, found, negative, magnitude, shown⟩ := numberText_of_standsFor stands
      refine ⟨parts, by simpa [written] using found, negative, ?_, shown⟩
      rw [magnitude, digitsValue_toDigits]
      rfl

/-- Different floating-point numbers have different texts; so have the zeros of both signs. -/
theorem style_text_injective (style : Style) {x y : Float} (same : style.text x = style.text y) : x = y := by
  obtain ⟨parts, found, sign, magnitude, -⟩ := numberText_style style x
  obtain ⟨parts', found', sign', magnitude', -⟩ := numberText_style style y
  rw [same, found', Option.some.injEq, Prod.mk.injEq] at found
  obtain ⟨rfl, -⟩ := found
  refine Decimal.eq_of_pattern (sign.symm.trans sign') ?_
  have shown := magnitude.symm.trans magnitude'
  cases zero : x == 0 <;> cases zero' : y == 0 <;> simp only [Json.shown, zero, zero'] at shown
  case false.false => exact Decimal.pattern_eq_of_shortest zero zero' shown
  case false.true => exact absurd shown (Decimal.value_shortest_pos zero).ne'
  case true.false => exact absurd shown (Decimal.value_shortest_pos zero').ne
  case true.true => rw [(Decimal.beq_zero_iff x).1 zero, (Decimal.beq_zero_iff y).1 zero']

/-! ### Numbers -/

/-- The number has a JSON form: infinities and what is no number have none. -/
def Number.IsFinite : Number → Prop
  | .int _ => True
  | .float x => x.isFinite = true

instance : DecidablePred Number.IsFinite
  | .int _ => inferInstanceAs (Decidable True)
  | .float x => inferInstanceAs (Decidable (x.isFinite = true))

/-- The text of a number that has a JSON form is a number of the format. -/
theorem Number.IsFinite.numberText {n : Number} (finite : n.IsFinite) :
    ∃ parts, Json.numberText n.text.toList = some (parts, []) := by
  cases n with
  | int n => exact ⟨_, numberText_int n⟩
  | float x =>
      obtain ⟨parts, found, -⟩ := numberText_style floatStyle x
      rw [Number.text, if_pos (show x.isFinite = true from finite)]
      exact ⟨parts, found⟩

/-- No integer has the text of a floating-point number. -/
theorem toString_ne_style_text (n : Int) (style : Style) (x : Float) : toString n ≠ style.text x := by
  intro same
  obtain ⟨parts, found, -, -, noInteger⟩ := numberText_style style x
  rw [← same, numberText_int, Option.some.injEq, Prod.mk.injEq] at found
  obtain ⟨rfl, -⟩ := found
  exact noInteger ⟨rfl, rfl⟩

/-- Different integers have different texts. -/
theorem toString_int_injective {m n : Int} (same : toString m = toString n) : m = n := by
  have parts := numberText_int m
  rw [same, numberText_int, Option.some.injEq, Prod.mk.injEq, NumberText.mk.injEq, decide_eq_decide] at parts
  obtain ⟨⟨sign, digits, -⟩, -⟩ := parts
  have magnitude := congrArg digitsValue digits
  rw [digitsValue_toDigits, digitsValue_toDigits] at magnitude
  omega

/-- Different numbers have different texts. -/
theorem Number.text_injective {m n : Number} (left : m.IsFinite) (right : n.IsFinite)
    (same : m.text = n.text) : m = n := by
  cases m with
  | int i =>
      cases n with
      | int j => rw [toString_int_injective same]
      | float y =>
          rw [Number.text, Number.text, if_pos (show y.isFinite = true from right)] at same
          exact absurd same (toString_ne_style_text i floatStyle y)
  | float x =>
      rw [Number.text, if_pos (show x.isFinite = true from left)] at same
      cases n with
      | int j => exact absurd same.symm (toString_ne_style_text j floatStyle x)
      | float y =>
          rw [Number.text, if_pos (show y.isFinite = true from right)] at same
          rw [style_text_injective floatStyle same]

end RelQuery.Json
