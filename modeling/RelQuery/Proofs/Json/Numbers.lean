/-
Module: RelQuery.Proofs.Json.Numbers
Purpose: Numbers in JSON text. The reader takes the whole of a number's text and nothing of what follows it in
  an array or object. Integers of 64 bits are read back from their texts; floating-point numbers are rounded
  on the way, so that not all of them are.
Main exports: Number.ofText?, Number.ReadsBack, Delimits, numberText_append, readsBack_int
-/
import RelQuery.Json.Printer
import RelQuery.Json.Reader

namespace RelQuery.Json

/-- The number that a text stands for. -/
def Number.ofText? (text : String) : Option Number :=
  match numberText text.toList with
  | some (parts, []) => parts.value?
  | _ => none

/-- The number is read back from its text. -/
def Number.ReadsBack (n : Number) : Prop := Number.ofText? n.text = some n

instance (n : Number) : Decidable n.ReadsBack :=
  inferInstanceAs (Decidable (_ = _))

/-- Seventeen digits do not survive a significand of 64 bits that is divided by a rounded power of ten. -/
example : (Number.float 0.1).ReadsBack ∧ ¬(Number.float 31.245270191439438).ReadsBack := by
  decide +kernel

/-- The text goes on with what may follow a value in an array or object, or ends. -/
def Delimits (rest : List Char) : Prop := ∀ c ∈ rest.head?, c = ',' ∨ c = ']' ∨ c = '\x7d'

theorem delimits_nil : Delimits [] := by
  simp [Delimits]

/-! ### Digits -/

section

variable {rest : List Char}

theorem Delimits.not_isDigit (delimits : Delimits rest) : ∀ c ∈ rest.head?, c.isDigit = false := by
  intro c member
  rcases delimits c member with rfl | rfl | rfl <;> decide

theorem takeWhile_append_of_delimits (delimits : Delimits rest) (cs : List Char) :
    (cs ++ rest).takeWhile Char.isDigit = cs.takeWhile Char.isDigit := by
  induction cs with
  | nil =>
      cases rest with
      | nil => rfl
      | cons c rest => simp [delimits.not_isDigit c rfl]
  | cons c cs ih =>
      rw [List.cons_append, List.takeWhile_cons, List.takeWhile_cons, ih]

theorem dropWhile_append_of_delimits (delimits : Delimits rest) (cs : List Char) :
    (cs ++ rest).dropWhile Char.isDigit = cs.dropWhile Char.isDigit ++ rest := by
  induction cs with
  | nil =>
      cases rest with
      | nil => rfl
      | cons c rest => simp [delimits.not_isDigit c rfl]
  | cons c cs ih =>
      rw [List.cons_append, List.dropWhile_cons, List.dropWhile_cons, ih]
      split <;> rfl

/-! ### Parts of a number -/

/-- What is left of a text, with more behind it. -/
def followedBy {α : Type} (rest : List Char) (read : Option (α × List Char)) : Option (α × List Char) :=
  read.map fun (part, left) => (part, left ++ rest)

theorem fractionText_append (delimits : Delimits rest) (cs : List Char) :
    fractionText (cs ++ rest) = followedBy rest (fractionText cs) := by
  rcases cs with - | ⟨c, cs⟩
  · cases rest with
    | nil => rfl
    | cons c rest =>
        have noPoint : c ≠ '.' := by rcases delimits c rfl with rfl | rfl | rfl <;> decide
        simp [fractionText, followedBy, noPoint]
  · by_cases point : c = '.'
    · subst point
      simp only [fractionText, List.cons_append, takeWhile_append_of_delimits delimits,
        dropWhile_append_of_delimits delimits]
      split <;> rfl
    · simp [fractionText, followedBy, point]

theorem exponentDigits_append (delimits : Delimits rest) (negative : Bool) (cs : List Char) :
    exponentDigits negative (cs ++ rest) = followedBy rest (exponentDigits negative cs) := by
  simp only [exponentDigits, takeWhile_append_of_delimits delimits, dropWhile_append_of_delimits delimits]
  split <;> rfl

/-- The exponent behind its mark. -/
def signedExponent (cs : List Char) : Option (Option Int × List Char) :=
  match cs with
  | '-' :: rest => exponentDigits true rest
  | '+' :: rest => exponentDigits false rest
  | _ => exponentDigits false cs

theorem exponentText_cons (c : Char) (cs : List Char) : exponentText (c :: cs) =
    if c = 'e' ∨ c = 'E' then signedExponent cs else some (none, c :: cs) := rfl

theorem signedExponent_plain {cs : List Char} (plain : ∀ c ∈ cs.head?, c ≠ '-' ∧ c ≠ '+') :
    signedExponent cs = exponentDigits false cs := by
  cases cs with
  | nil => rfl
  | cons c cs => simp [signedExponent, plain c rfl]

theorem signedExponent_append (delimits : Delimits rest) (cs : List Char) :
    signedExponent (cs ++ rest) = followedBy rest (signedExponent cs) := by
  have unsigned : ∀ c ∈ rest.head?, c ≠ '-' ∧ c ≠ '+' := by
    intro c member
    rcases delimits c member with rfl | rfl | rfl <;> decide
  rcases cs with - | ⟨c, cs⟩
  · rw [List.nil_append, signedExponent_plain unsigned]
    exact exponentDigits_append delimits false []
  by_cases minus : c = '-'
  · subst minus
    exact exponentDigits_append delimits true cs
  by_cases plus : c = '+'
  · subst plus
    exact exponentDigits_append delimits false cs
  · rw [signedExponent_plain (by simp [minus, plus]), signedExponent_plain (by simp [minus, plus])]
    exact exponentDigits_append delimits false (c :: cs)

theorem exponentText_append (delimits : Delimits rest) (cs : List Char) :
    exponentText (cs ++ rest) = followedBy rest (exponentText cs) := by
  rcases cs with - | ⟨c, cs⟩
  · cases rest with
    | nil => rfl
    | cons c rest =>
        have noMark : c ≠ 'e' ∧ c ≠ 'E' := by rcases delimits c rfl with rfl | rfl | rfl <;> decide
        rw [List.nil_append, exponentText_cons, if_neg (by simp [noMark])]
        rfl
  · rw [List.cons_append, exponentText_cons, exponentText_cons, signedExponent_append delimits]
    split <;> rfl

/-- The parts of a number behind its sign. -/
def unsignedText (negative : Bool) (cs : List Char) : Option (NumberText × List Char) :=
  let whole := cs.takeWhile Char.isDigit
  match whole with
  | [] => none
  | '0' :: _ :: _ => none
  | _ => do
    let (fraction, rest) ← fractionText (cs.dropWhile Char.isDigit)
    let (exponent, rest) ← exponentText rest
    return (⟨negative, whole, fraction, exponent⟩, rest)

theorem numberText_minus (cs : List Char) : numberText ('-' :: cs) = unsignedText true cs := rfl

theorem numberText_plain {cs : List Char} (plain : cs.head? ≠ some '-') :
    numberText cs = unsignedText false cs := by
  cases cs with
  | nil => rfl
  | cons c cs =>
      have unsigned : c ≠ '-' := by simpa using plain
      simp only [numberText, unsignedText]
      split <;> simp_all

theorem unsignedText_append (delimits : Delimits rest) (negative : Bool) (cs : List Char) :
    unsignedText negative (cs ++ rest) = followedBy rest (unsignedText negative cs) := by
  simp only [unsignedText, takeWhile_append_of_delimits delimits, dropWhile_append_of_delimits delimits,
    fractionText_append delimits]
  split
  · rfl
  · rfl
  · cases fractionText (cs.dropWhile Char.isDigit) with
    | none => rfl
    | some read =>
        obtain ⟨fraction, left⟩ := read
        simp only [followedBy, Option.map_some, Option.bind_eq_bind, Option.bind_some,
          exponentText_append delimits]
        cases exponentText left <;> rfl

/-- A number's text is read to its end and no further. -/
theorem numberText_append (delimits : Delimits rest) (cs : List Char) :
    numberText (cs ++ rest) = followedBy rest (numberText cs) := by
  rcases cs with - | ⟨c, cs⟩
  · have unsigned : rest.head? ≠ some '-' := by
      intro minus
      rcases delimits '-' minus with same | same | same <;> revert same <;> decide
    rw [List.nil_append, numberText_plain unsigned]
    exact unsignedText_append delimits false []
  by_cases minus : c = '-'
  · subst minus
    exact unsignedText_append delimits true cs
  · rw [numberText_plain (by simpa using minus), numberText_plain (by simpa using minus)]
    exact unsignedText_append delimits false (c :: cs)

end

/-- A text that starts like a number starts with a sign or a digit. -/
theorem exists_cons_of_numberText {cs : List Char} {read : NumberText × List Char}
    (found : numberText cs = some read) : ∃ c others, cs = c :: others ∧ (c = '-' ∨ c.isDigit = true) := by
  rcases cs with - | ⟨c, cs⟩
  · contradiction
  refine ⟨c, cs, rfl, ?_⟩
  by_cases minus : c = '-'
  · exact .inl minus
  · right
    rw [numberText_plain (by simpa using minus)] at found
    cases digit : c.isDigit with
    | true => rfl
    | false => simp [unsignedText, digit] at found

/-! ### Integers -/

/-- The decimal digits of a number are digits. -/
theorem isDigit_of_mem_toDigits {n : Nat} {c : Char} (digit : c ∈ Nat.toDigits 10 n) : c.isDigit = true :=
  Nat.isDigit_of_mem_toDigits (by decide) (by decide) digit

/-- The first digit of a number is not zero, unless the number is. -/
theorem head?_toDigits_ne_zero {n : Nat} (positive : 0 < n) : (Nat.toDigits 10 n).head? ≠ some '0' := by
  induction n using Nat.strongRecOn with
  | _ n ih =>
      rw [Nat.toDigits_eq_if (by decide)]
      split
      · rename_i small
        have nonzero : ∀ n < 10, 0 < n → n.digitChar ≠ '0' := by decide
        simpa using nonzero n small positive
      · rename_i great
        have shorter := ih (n / 10) (by omega) (by omega)
        rw [List.head?_append]
        cases digits : (Nat.toDigits 10 (n / 10)).head? with
        | none => exact absurd (List.head?_eq_none_iff.1 digits) Nat.toDigits_ne_nil
        | some c => simpa [digits] using shorter

/-- Decimal digits are the integer part of a number, without any other part. -/
theorem unsignedText_toDigits (negative : Bool) (n : Nat) :
    unsignedText negative (Nat.toDigits 10 n) = some (⟨negative, Nat.toDigits 10 n, none, none⟩, []) := by
  have each : ∀ c ∈ Nat.toDigits 10 n, c.isDigit = true := fun _ => isDigit_of_mem_toDigits
  have whole : (Nat.toDigits 10 n).takeWhile Char.isDigit = Nat.toDigits 10 n := by
    rw [← List.append_nil (Nat.toDigits 10 n), List.takeWhile_append_of_pos each, List.takeWhile_nil]
  have nothing : (Nat.toDigits 10 n).dropWhile Char.isDigit = [] := by
    rw [← List.append_nil (Nat.toDigits 10 n), List.dropWhile_append_of_pos each, List.dropWhile_nil]
  simp only [unsignedText, whole, nothing]
  split
  · rename_i empty
    exact absurd empty Nat.toDigits_ne_nil
  · rename_i leading
    rcases Nat.eq_zero_or_pos n with rfl | positive
    · simp at leading
    · exact absurd (by rw [leading]; rfl) (head?_toDigits_ne_zero positive)
  · rfl

/-- Digits are appended as long as the number fits an unsigned 64-bit word. -/
theorem appendDigits_eq {cs : List Char} {significand : Nat}
    (fits : (Nat.ofDigitChars 10 cs significand : Int) ≤ maxUnsigned) :
    appendDigits significand cs = (Nat.ofDigitChars 10 cs significand, 0) := by
  induction cs generalizing significand with
  | nil => rfl
  | cons c cs ih =>
      rw [Nat.ofDigitChars_cons, Nat.mul_comm] at fits ⊢
      have grows : significand * 10 + (c.toNat - '0'.toNat) ≤
          Nat.ofDigitChars 10 cs (significand * 10 + (c.toNat - '0'.toNat)) := by
        rw [Nat.ofDigitChars_eq_ofDigitChars_zero]
        exact Nat.le_add_right_of_le (Nat.le_mul_of_pos_left _ (Nat.pow_pos (by decide)))
      rw [appendDigits, if_pos (by omega), ih fits]

theorem appendDigits_toDigits {n : Nat} (fits : (n : Int) ≤ maxUnsigned) :
    appendDigits 0 (Nat.toDigits 10 n) = (n, 0) := by
  have same : Nat.ofDigitChars 10 (Nat.toDigits 10 n) 0 = n := Nat.ofDigitChars_ten_toDigits
  rw [appendDigits_eq (by rwa [same]), same]

/-- The text of an integer consists of its sign and its digits. -/
theorem numberText_int (n : Int) : numberText (toString n).toList =
    some (⟨decide (n < 0), Nat.toDigits 10 n.natAbs, none, none⟩, []) := by
  have digits (n : Nat) : n.repr.toList = Nat.toDigits 10 n := by
    rw [← Nat.toString_eq_repr, Nat.toString_eq_ofList_toDigits, String.toList_ofList]
  rw [Int.toString_eq_repr, Int.repr_eq_if]
  split
  · obtain ⟨k, rfl⟩ := Int.eq_ofNat_of_zero_le ‹0 ≤ n›
    have plain : (Nat.toDigits 10 k).head? ≠ some '-' := by
      intro minus
      have digit := isDigit_of_mem_toDigits (List.mem_of_head? minus)
      revert digit
      decide
    rw [Int.toNat_natCast, digits, numberText_plain plain, unsignedText_toDigits]
    simp
  · obtain ⟨k, rfl⟩ : ∃ k : Nat, n = -k := ⟨(-n).toNat, by omega⟩
    have minus : "-".toList = ['-'] := rfl
    rw [Int.neg_neg, Int.toNat_natCast, String.toList_append, digits, minus, List.singleton_append,
      numberText_minus, unsignedText_toDigits]
    simp
    omega

/-- Integers of signed or unsigned 64-bit words are read back from their texts. -/
theorem readsBack_int {n : Int} (low : minSigned ≤ n) (high : n ≤ maxUnsigned) : (Number.int n).ReadsBack := by
  have fits : (n.natAbs : Int) ≤ maxUnsigned := by
    simp only [minSigned, maxUnsigned] at low high ⊢
    omega
  rw [Number.ReadsBack, Number.text, Number.ofText?, numberText_int]
  simp only [NumberText.value?, appendDigits_toDigits fits]
  rcases Int.lt_or_le n 0 with negative | positive
  · have value : -(n.natAbs : Int) = n := by omega
    have some : 0 < n.natAbs := by omega
    rw [decide_eq_true negative, value, if_neg (by decide), if_pos ⟨some, low⟩]
  · have value : (n.natAbs : Int) = n := by omega
    rw [decide_eq_false (Int.not_lt.2 positive), value, if_pos (by decide)]

end RelQuery.Json
