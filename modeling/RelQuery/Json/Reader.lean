/-
Module: RelQuery.Json.Reader
Purpose: Reading JSON text. The reader never fails as a whole: it returns what the text says up to the
  point where it stops being JSON. Arrays and objects may be nested 127 deep.
Main exports: Document.read, Json.ofText?
-/
import RelQuery.Json.Document

namespace RelQuery.Json

/-- The four blank characters of the format. -/
def isBlank (c : Char) : Bool := c = ' ' || c = '\n' || c = '\t' || c = '\r'

/-- The text after its leading blanks. -/
def skipBlanks (cs : List Char) : List Char := cs.dropWhile isBlank

/-! ### Strings -/

/-- The value of a hexadecimal digit. -/
def hexValue? (c : Char) : Option Nat :=
  if '0' ≤ c ∧ c ≤ '9' then some (c.toNat - '0'.toNat)
  else if 'a' ≤ c ∧ c ≤ 'f' then some (c.toNat - 'a'.toNat + 10)
  else if 'A' ≤ c ∧ c ≤ 'F' then some (c.toNat - 'A'.toNat + 10)
  else none

/-- The code unit that four hexadecimal digits stand for. -/
def codeUnit? (a b c d : Char) : Option Nat := do
  let a ← hexValue? a
  let b ← hexValue? b
  let c ← hexValue? c
  let d ← hexValue? d
  return ((a * 16 + b) * 16 + c) * 16 + d

/-- The character that a one-letter escape stands for. -/
def escaped? : Char → Option Char
  | '"' => some '"'
  | '\\' => some '\\'
  | '/' => some '/'
  | 'b' => some '\x08'
  | 'f' => some '\x0c'
  | 'n' => some '\n'
  | 'r' => some '\r'
  | 't' => some '\t'
  | _ => none

/-- Whether a code unit opens a surrogate pair. -/
def isHighSurrogate (unit : Nat) : Bool := 0xD800 ≤ unit && unit ≤ 0xDBFF

/-- Whether a code unit closes a surrogate pair. -/
def isLowSurrogate (unit : Nat) : Bool := 0xDC00 ≤ unit && unit ≤ 0xDFFF

/-- Puts a character in front of what the rest of a string says. -/
def pushChar (c : Char) (tail : Option (List Char × List Char)) : Option (List Char × List Char) :=
  tail.map fun (cs, rest) => (c :: cs, rest)

/-- The contents of a string whose opening quotation mark has been read, and the text behind it.
    Control characters and surrogates that form no pair are not allowed. -/
def stringBody : List Char → Option (List Char × List Char)
  | [] => none
  | '"' :: rest => some ([], rest)
  | '\\' :: 'u' :: a :: b :: c :: d :: rest =>
    match codeUnit? a b c d with
    | none => none
    | some unit =>
      if isLowSurrogate unit then none
      else if isHighSurrogate unit then
        match rest with
        | '\\' :: 'u' :: e :: f :: g :: h :: rest =>
          match codeUnit? e f g h with
          | none => none
          | some low =>
            if isLowSurrogate low then
              pushChar (Char.ofNat (0x10000 + (unit - 0xD800) * 0x400 + (low - 0xDC00)))
                (stringBody rest)
            else none
        | _ => none
      else pushChar (Char.ofNat unit) (stringBody rest)
  | '\\' :: c :: rest =>
    match escaped? c with
    | none => none
    | some e => pushChar e (stringBody rest)
  | c :: rest => if c = '\\' ∨ c.toNat < 0x20 then none else pushChar c (stringBody rest)

/-! ### Numbers -/

/-- Appends decimal digits to a number as long as it fits an unsigned 64-bit word, and counts the
    digits that are left over. -/
def appendDigits (significand : Nat) : List Char → Nat × Nat
  | [] => (significand, 0)
  | c :: cs =>
    let next := significand * 10 + (c.toNat - '0'.toNat)
    if (next : Int) ≤ maxUnsigned then appendDigits next cs else (significand, cs.length + 1)

/-- The power of ten nearest to `10 ^ n`. -/
def powerOfTen (n : Nat) : Float := Float.ofScientific 1 false n

/-- Divides by a power of ten, by the greatest finite one at a time, until nothing is left. -/
def divideByPower (x : Float) (n : Nat) : Float :=
  if n ≤ 308 then x / powerOfTen n
  else if x == 0 then x
  else divideByPower (x / powerOfTen 308) (n - 308)
termination_by n

/-- `significand * 10 ^ exponent`, rounded at each step; nothing if the result is not finite. -/
def scaled? (significand : Nat) (exponent : Int) : Option Float :=
  let x := Float.ofNat significand
  if exponent < 0 then some (divideByPower x exponent.natAbs)
  else if significand = 0 then some x
  else if exponent.toNat ≤ 308 then
    let y := x * powerOfTen exponent.toNat
    if y.isFinite then some y else none
  else none

/-- The parts of a number's text: its integer digits, its fraction digits if there is a decimal point,
    and its exponent if there is one. -/
structure NumberText where
  negative : Bool
  whole : List Char
  fraction : Option (List Char)
  exponent : Option Int
deriving DecidableEq, Repr, Inhabited

/-- The integer that decimal digits stand for. -/
def digitsValue (digits : List Char) : Nat :=
  digits.foldl (fun n c => n * 10 + (c.toNat - '0'.toNat)) 0

/-- The fraction part, with at least one digit, if the text goes on with one. -/
def fractionText (cs : List Char) : Option (Option (List Char) × List Char) :=
  match cs with
  | '.' :: rest =>
    let digits := rest.takeWhile Char.isDigit
    if digits.isEmpty then none else some (some digits, rest.dropWhile Char.isDigit)
  | _ => some (none, cs)

/-- The digits of an exponent behind its sign, at least one. -/
def exponentDigits (negative : Bool) (cs : List Char) : Option (Option Int × List Char) :=
  let digits := cs.takeWhile Char.isDigit
  if digits.isEmpty then none
  else
    let value : Int := digitsValue digits
    some (some (if negative then -value else value), cs.dropWhile Char.isDigit)

/-- The exponent part if the text goes on with one. -/
def exponentText (cs : List Char) : Option (Option Int × List Char) :=
  match cs with
  | c :: rest =>
    if c = 'e' ∨ c = 'E' then
      match rest with
      | '-' :: rest => exponentDigits true rest
      | '+' :: rest => exponentDigits false rest
      | _ => exponentDigits false rest
    else some (none, cs)
  | [] => some (none, cs)

/-- The parts of a number. A leading zero stands alone before the decimal point. -/
def numberText (cs : List Char) : Option (NumberText × List Char) := do
  let (negative, cs) := match cs with
    | '-' :: rest => (true, rest)
    | _ => (false, cs)
  let whole := cs.takeWhile Char.isDigit
  match whole with
  | [] => none
  | '0' :: _ :: _ => none
  | _ =>
    let (fraction, rest) ← fractionText (cs.dropWhile Char.isDigit)
    let (exponent, rest) ← exponentText rest
    return (⟨negative, whole, fraction, exponent⟩, rest)

/-- The number that a text stands for. Without point and exponent it is an integer if it fits a signed
    or unsigned 64-bit word and is not the negative zero; everything else is floating point, and it must
    be finite. -/
def NumberText.value? (t : NumberText) : Option Number :=
  let (whole, dropped) := appendDigits 0 t.whole
  let negate (x : Float) : Float := if t.negative then -x else x
  match t.fraction, t.exponent, dropped with
  | none, none, 0 =>
    if !t.negative then some (.int whole)
    else if 0 < whole ∧ minSigned ≤ -(whole : Int) then some (.int (-whole))
    else some (.float (-(Float.ofNat whole)))
  | fraction, exponent, _ =>
    let digits := fraction.getD []
    let (significand, unused) := appendDigits whole digits
    let places : Int := (dropped : Int) - ((digits.length - unused : Nat) : Int)
    (scaled? significand (places + exponent.getD 0)).map fun x => .float (negate x)

/-! ### Values -/

/-- A document together with the text behind it, or without one if it is broken. -/
abbrev Reading (α : Type) := α × Option (List Char)

mutual

/-- Reads a value. `fuel` bounds the number of steps and `depth` the nesting. -/
def readValue (fuel depth : Nat) (cs : List Char) : Reading Document :=
  match fuel with
  | 0 => (.broken, none)
  | fuel + 1 =>
    match skipBlanks cs with
    | 'n' :: 'u' :: 'l' :: 'l' :: rest => (.null, some rest)
    | 't' :: 'r' :: 'u' :: 'e' :: rest => (.bool true, some rest)
    | 'f' :: 'a' :: 'l' :: 's' :: 'e' :: rest => (.bool false, some rest)
    | '"' :: rest =>
      match stringBody rest with
      | some (s, rest) => (.string (String.ofList s), some rest)
      | none => (.broken, none)
    | '[' :: rest =>
      match depth with
      | 0 => (.broken, none)
      | depth + 1 =>
        match skipBlanks rest with
        | ']' :: rest => (.array [], some rest)
        | rest =>
          let (items, rest) := readItems fuel depth rest
          (.array items, rest)
    | '\x7b' :: rest =>
      match depth with
      | 0 => (.broken, none)
      | depth + 1 =>
        match skipBlanks rest with
        | '\x7d' :: rest => (.object [], some rest)
        | rest =>
          let (members, rest) := readMembers fuel depth rest
          (.object members, rest)
    | rest =>
      match numberText rest with
      | none => (.broken, none)
      | some (text, rest) =>
        match text.value? with
        | some n => (.number n, some rest)
        | none => (.broken, none)

/-- Reads items up to the closing bracket. -/
def readItems (fuel depth : Nat) (cs : List Char) : Reading (List Document) :=
  match fuel with
  | 0 => ([.broken], none)
  | fuel + 1 =>
    match readValue fuel depth cs with
    | (item, none) => ([item], none)
    | (item, some rest) =>
      match skipBlanks rest with
      | ',' :: rest =>
        let (items, rest) := readItems fuel depth rest
        (item :: items, rest)
      | ']' :: rest => ([item], some rest)
      | _ => ([item, .broken], none)

/-- Reads members up to the closing brace. -/
def readMembers (fuel depth : Nat) (cs : List Char) : Reading (List (String × Document)) :=
  match fuel with
  | 0 => ([("", .broken)], none)
  | fuel + 1 =>
    match skipBlanks cs with
    | '"' :: rest =>
      match stringBody rest with
      | none => ([("", .broken)], none)
      | some (name, rest) =>
        let name := String.ofList name
        match skipBlanks rest with
        | ':' :: rest =>
          match readValue fuel depth rest with
          | (item, none) => ([(name, item)], none)
          | (item, some rest) =>
            match skipBlanks rest with
            | ',' :: rest =>
              let (members, rest) := readMembers fuel depth rest
              ((name, item) :: members, rest)
            | '\x7d' :: rest => ([(name, item)], some rest)
            | _ => ([(name, item), ("", .broken)], none)
        | _ => ([(name, .broken)], none)
    | _ => ([("", .broken)], none)

end

/-- How deep arrays and objects may be nested. -/
def nestingLimit : Nat := 127

/-- The document at the start of a text, and whether nothing but blanks follows it. -/
def Document.read (text : String) : Document × Bool :=
  let cs := text.toList
  match readValue (2 * cs.length + 2) nestingLimit cs with
  | (document, none) => (document, false)
  | (document, some rest) => (document, (skipBlanks rest).isEmpty)

/-- The value that a text stands for. -/
def ofText? (text : String) : Option Json :=
  match Document.read text with
  | (document, true) => document.toJson?
  | (_, false) => none

end RelQuery.Json
