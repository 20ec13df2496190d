/-
Module: RelQuery.Proofs.Json.Strings
Purpose: Strings are written so that they read back: the reader finds each string again behind its opening
  quotation mark. Hence the text of a string determines the string.
Main exports: Json.stringBody_escaped, Json.quoted_append_cancel, Json.quoted_injective
-/
import RelQuery.Json.Printer
import RelQuery.Json.Reader

namespace RelQuery.Json

/-- A hexadecimal digit has the value that it was written for. -/
theorem hexValue?_hexDigit {n : Nat} (small : n < 16) : hexValue? (hexDigit n) = some n := by
  have all : ∀ n, n < 16 → hexValue? (hexDigit n) = some n := by decide
  exact all n small

/-- A control character that has no short escape is read back from its code. -/
theorem codeUnit?_control {c : Char} (control : c.toNat < 0x20) :
    codeUnit? '0' '0' (hexDigit (c.toNat / 16)) (hexDigit (c.toNat % 16)) = some c.toNat := by
  have zero : hexValue? '0' = some 0 := by decide
  rw [codeUnit?, zero, hexValue?_hexDigit (by omega), hexValue?_hexDigit (by omega)]
  simp only [Option.bind_eq_bind, Option.bind_some, Option.pure_def, Option.some.injEq]
  omega

/-- Each character is read back from its form inside a string. -/
theorem stringBody_escapeChar (c : Char) (rest : List Char) :
    stringBody (escapeChar c ++ rest) = pushChar c (stringBody rest) := by
  unfold escapeChar
  split
  · rename_i same
    subst same
    simp [stringBody, escaped?]
  split
  · rename_i same
    subst same
    simp [stringBody, escaped?]
  split
  · rename_i control
    have read : Char.ofNat c.toNat = c := Char.ofNat_toNat c
    split
    · rename_i code
      rw [code] at read
      subst read
      simp [stringBody, escaped?]
    split
    · rename_i code
      rw [code] at read
      subst read
      simp [stringBody, escaped?]
    split
    · rename_i same
      subst same
      simp [stringBody, escaped?]
    split
    · rename_i same
      subst same
      simp [stringBody, escaped?]
    split
    · rename_i same
      subst same
      simp [stringBody, escaped?]
    · have notLow : isLowSurrogate c.toNat = false := by
        simp only [isLowSurrogate, Bool.and_eq_false_iff, decide_eq_false_iff_not]
        omega
      have notHigh : isHighSurrogate c.toNat = false := by
        simp only [isHighSurrogate, Bool.and_eq_false_iff, decide_eq_false_iff_not]
        omega
      simp [stringBody, codeUnit?_control control, notLow, notHigh, read]
  · rename_i notBackslash notControl
    simp [stringBody, notBackslash, notControl]

/-- A string is read back from its text. -/
theorem stringBody_escaped (cs rest : List Char) :
    stringBody (cs.flatMap escapeChar ++ '"' :: rest) = some (cs, rest) := by
  induction cs with
  | nil => simp [stringBody]
  | cons c cs ih =>
      rw [List.flatMap_cons, List.append_assoc, stringBody_escapeChar, ih]
      rfl

/-- A string is told apart from what stands behind it. -/
theorem quoted_append_cancel {s t : String} {cs ds : List Char} (same : quoted s ++ cs = quoted t ++ ds) :
    s = t ∧ cs = ds := by
  have bodies : s.toList.flatMap escapeChar ++ '"' :: cs = t.toList.flatMap escapeChar ++ '"' :: ds := by
    simpa [quoted] using same
  have read := stringBody_escaped s.toList cs
  rw [bodies, stringBody_escaped, Option.some.injEq, Prod.mk.injEq] at read
  exact ⟨String.toList_inj.1 read.1.symm, read.2.symm⟩

/-- Different strings have different texts. -/
theorem quoted_injective {s t : String} (same : quoted s = quoted t) : s = t :=
  (quoted_append_cancel (congrArg (· ++ []) same)).1

end RelQuery.Json
