/-
Module: RelQuery.Json.Printer
Purpose: The compact text of a JSON value. Only the quotation mark, the backslash and the characters
  below the blank are escaped; a floating-point number is written with the fewest digits that read back.
Main exports: Json.chars, Json.text
-/
import RelQuery.Json.Basic
import RelQuery.Decimal.Style

namespace RelQuery.Json

/-- Floating-point numbers are positional from `0.00001` up to sixteen integer digits; a greater one has
    a plus sign in its exponent. -/
def floatStyle : Decimal.Style := ⟨-4, 16, true⟩

/-- The text of a number. One that is not finite has no JSON form and is written as null. -/
def Number.text : Number → String
  | .int n => toString n
  | .float x => if x.isFinite then floatStyle.text x else "null"

/-- A hexadecimal digit in lower case. -/
def hexDigit (n : Nat) : Char :=
  if n < 10 then Char.ofNat ('0'.toNat + n) else Char.ofNat ('a'.toNat + (n - 10))

/-- The form of a character inside a string. -/
def escapeChar (c : Char) : List Char :=
  if c = '"' then ['\\', '"']
  else if c = '\\' then ['\\', '\\']
  else if c.toNat < 0x20 then
    if c.toNat = 0x08 then ['\\', 'b']
    else if c.toNat = 0x0C then ['\\', 'f']
    else if c = '\n' then ['\\', 'n']
    else if c = '\r' then ['\\', 'r']
    else if c = '\t' then ['\\', 't']
    else ['\\', 'u', '0', '0', hexDigit (c.toNat / 16), hexDigit (c.toNat % 16)]
  else [c]

/-- A string between quotation marks. -/
def quoted (s : String) : List Char :=
  '"' :: (s.toList.flatMap escapeChar ++ ['"'])

mutual

/-- The characters of a value. -/
def chars : Json → List Char
  | .null => ['n', 'u', 'l', 'l']
  | .bool true => ['t', 'r', 'u', 'e']
  | .bool false => ['f', 'a', 'l', 's', 'e']
  | .number n => n.text.toList
  | .string s => quoted s
  | .array [] => ['[', ']']
  | .array (item :: items) => '[' :: (item.chars ++ followingItems items)
  | .object [] => ['\x7b', '\x7d']
  | .object ((name, value) :: members) =>
    '\x7b' :: (quoted name ++ ':' :: (value.chars ++ followingMembers members))

/-- The items after the first one, each behind a comma, and the closing bracket. -/
def followingItems : List Json → List Char
  | [] => [']']
  | item :: items => ',' :: (item.chars ++ followingItems items)

/-- The members after the first one, each behind a comma, and the closing brace. -/
def followingMembers : List (String × Json) → List Char
  | [] => ['\x7d']
  | (name, value) :: members =>
    ',' :: (quoted name ++ ':' :: (value.chars ++ followingMembers members))

end

/-- The compact text of a value. -/
def text (value : Json) : String := String.ofList value.chars

end RelQuery.Json
