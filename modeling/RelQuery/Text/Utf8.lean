/-
Module: RelQuery.Text.Utf8
Purpose: Reading bytes as UTF-8 without ever failing. Each longest prefix of a well-formed sequence
  that is not continued becomes one replacement character.
Main exports: decodeUtf8
-/

namespace RelQuery.Text

/-- The character that stands for bytes which are no text. -/
def replacementChar : Char := Char.ofNat 0xFFFD

/-- A multi-byte sequence that is still open: the bits read so far, how many bytes are missing, and the
    interval in which the next byte has to lie. -/
structure OpenSequence where
  bits : Nat
  missing : Nat
  low : Nat
  high : Nat
deriving DecidableEq, Repr, Inhabited

/-- What a byte means at the start of a sequence. -/
inductive LeadByte where
  | single (c : Char)
  | opens (sequence : OpenSequence)
  | invalid
deriving DecidableEq, Repr, Inhabited

/-- Classifies a byte at the start of a sequence. The intervals for the second byte exclude overlong
    forms, surrogates and code points past the last one. -/
def LeadByte.of (byte : UInt8) : LeadByte :=
  let b := byte.toNat
  if b < 0x80 then .single (Char.ofNat b)
  else if b < 0xC2 then .invalid
  else if b < 0xE0 then .opens ⟨b - 0xC0, 1, 0x80, 0xBF⟩
  else if b = 0xE0 then .opens ⟨0, 2, 0xA0, 0xBF⟩
  else if b = 0xED then .opens ⟨0xD, 2, 0x80, 0x9F⟩
  else if b < 0xF0 then .opens ⟨b - 0xE0, 2, 0x80, 0xBF⟩
  else if b = 0xF0 then .opens ⟨0, 3, 0x90, 0xBF⟩
  else if b < 0xF4 then .opens ⟨b - 0xF0, 3, 0x80, 0xBF⟩
  else if b = 0xF4 then .opens ⟨4, 3, 0x80, 0x8F⟩
  else .invalid

/-- Decodes the bytes after an optional open sequence. -/
def decodeFrom : Option OpenSequence → List UInt8 → List Char
  | none, [] => []
  | some _, [] => [replacementChar]
  | state, byte :: bytes =>
    let restart : List Char :=
      match LeadByte.of byte with
      | .single c => c :: decodeFrom none bytes
      | .opens sequence => decodeFrom (some sequence) bytes
      | .invalid => replacementChar :: decodeFrom none bytes
    match state with
    | none => restart
    | some sequence =>
      let b := byte.toNat
      if sequence.low ≤ b ∧ b ≤ sequence.high then
        let bits := sequence.bits * 64 + (b - 0x80)
        if sequence.missing ≤ 1 then Char.ofNat bits :: decodeFrom none bytes
        else decodeFrom (some ⟨bits, sequence.missing - 1, 0x80, 0xBF⟩) bytes
      else replacementChar :: restart

/-- The text of a byte sequence. -/
def decodeUtf8 (bytes : List UInt8) : String :=
  String.ofList (decodeFrom none bytes)

end RelQuery.Text
