/-
Module: RelQuery.Toml.Reader
Purpose: Reading TOML 1.0 text. A document is read into its lines first, and these are then put together.
Main exports: Toml.ofText?
-/
import RelQuery.Toml.Basic
import RelQuery.Json.Reader

namespace RelQuery.Toml

open RelQuery.Json (hexValue? digitsValue pushChar)

/-- Something that was read, and the text behind it. -/
abbrev Reading (α : Type) := Option (α × List Char)

/-! ### Blanks, comments and line ends -/

/-- The blanks within a line. -/
def isBlank (c : Char) : Bool := c = ' ' || c = '\t'

/-- The text after its leading blanks. -/
def skipBlanks (cs : List Char) : List Char := cs.dropWhile isBlank

/-- Control characters other than the tabulator; they may stand nowhere. -/
def isControl (c : Char) : Bool := (c.toNat < 0x20 && c != '\t') || c.toNat = 0x7F

/-- The text behind a comment and its line end. -/
def skipComment : List Char → Option (List Char)
  | [] => some []
  | '\n' :: rest => some rest
  | '\r' :: '\n' :: rest => some rest
  | c :: rest => if isControl c then none else skipComment rest

/-- The text behind the rest of a line, which may hold blanks and a comment only. -/
def endLine (cs : List Char) : Option (List Char) :=
  match skipBlanks cs with
  | [] => some []
  | '\n' :: rest => some rest
  | '\r' :: '\n' :: rest => some rest
  | '#' :: rest => skipComment rest
  | _ => none

/-- The text behind blanks, line ends and comments. -/
def skipSpace (inComment : Bool) : List Char → Option (List Char)
  | [] => some []
  | '\n' :: rest => skipSpace false rest
  | '\r' :: '\n' :: rest => skipSpace false rest
  | c :: rest =>
    if inComment then (if isControl c then none else skipSpace true rest)
    else if isBlank c then skipSpace false rest
    else if c = '#' then skipSpace true rest
    else some (c :: rest)

/-! ### Strings -/

/-- The value of a sequence of hexadecimal digits. -/
def hexValue (digits : List Char) : Option Nat :=
  digits.foldlM (fun n c => (hexValue? c).map (n * 16 + ·)) 0

/-- The character with the code point that hexadecimal digits stand for. -/
def charOfHex? (digits : List Char) : Option Char :=
  match hexValue digits with
  | some n => if n < 0xD800 ∨ (0xDFFF < n ∧ n < 0x110000) then some (Char.ofNat n) else none
  | none => none

/-- The character that a one-letter escape stands for. -/
def escaped? : Char → Option Char
  | 'b' => some '\x08'
  | 't' => some '\t'
  | 'n' => some '\n'
  | 'f' => some '\x0c'
  | 'r' => some '\r'
  | '"' => some '"'
  | '\\' => some '\\'
  | _ => none

/-- What an escape stands for, the backslash having been read: a character, and the text behind it. -/
def escape? : List Char → Reading Char
  | 'u' :: a :: b :: c :: d :: rest => (charOfHex? [a, b, c, d]).map (·, rest)
  | 'U' :: a :: b :: c :: d :: e :: f :: g :: h :: rest =>
    (charOfHex? [a, b, c, d, e, f, g, h]).map (·, rest)
  | c :: rest => (escaped? c).map (·, rest)
  | [] => none

/-- The contents of a string in double quotes on one line. `fuel` bounds the number of characters. -/
def basicBody : (fuel : Nat) → List Char → Reading (List Char)
  | 0, _ => none
  | _, [] => none
  | _ + 1, '"' :: rest => some ([], rest)
  | fuel + 1, '\\' :: rest =>
    match escape? rest with
    | some (c, rest) => pushChar c (basicBody fuel rest)
    | none => none
  | fuel + 1, c :: rest => if isControl c then none else pushChar c (basicBody fuel rest)

/-- The contents of a string in single quotes on one line. -/
def literalBody : List Char → Reading (List Char)
  | [] => none
  | '\'' :: rest => some ([], rest)
  | c :: rest => if isControl c then none else pushChar c (literalBody rest)

/-- Whether a line break follows after blanks. -/
def breaksLine (cs : List Char) : Bool :=
  match skipBlanks cs with
  | '\n' :: _ => true
  | '\r' :: '\n' :: _ => true
  | _ => false

/-- The text behind blanks and line ends. -/
def skipBreaks (cs : List Char) : List Char :=
  cs.dropWhile fun c => isBlank c || c = '\n' || c = '\r'

/-- What three closing quotes leave: up to two further quotes belong to the contents. -/
def closingQuotes (quote : Char) : List Char → List Char × List Char
  | a :: b :: rest =>
    if a = quote then if b = quote then ([a, b], rest) else ([a], b :: rest) else ([], a :: b :: rest)
  | [a] => if a = quote then ([a], []) else ([], [a])
  | [] => ([], [])

/-- The contents of a string in three double quotes. A backslash at the end of a line joins the lines. -/
def basicLines : (fuel : Nat) → List Char → Reading (List Char)
  | 0, _ => none
  | _, [] => none
  | _ + 1, '"' :: '"' :: '"' :: rest => some (closingQuotes '"' rest)
  | fuel + 1, '\\' :: rest =>
    if breaksLine rest then basicLines fuel (skipBreaks rest)
    else
      match escape? rest with
      | some (c, rest) => pushChar c (basicLines fuel rest)
      | none => none
  | fuel + 1, '\r' :: '\n' :: rest => pushChar '\r' (pushChar '\n' (basicLines fuel rest))
  | fuel + 1, c :: rest =>
    if isControl c && c != '\n' then none else pushChar c (basicLines fuel rest)

/-- The contents of a string in three single quotes. -/
def literalLines : List Char → Reading (List Char)
  | [] => none
  | '\'' :: '\'' :: '\'' :: rest => some (closingQuotes '\'' rest)
  | '\r' :: '\n' :: rest => pushChar '\r' (pushChar '\n' (literalLines rest))
  | c :: rest => if isControl c && c != '\n' then none else pushChar c (literalLines rest)

/-- The text after a line end that follows at once. -/
def skipFirstBreak : List Char → List Char
  | '\n' :: rest => rest
  | '\r' :: '\n' :: rest => rest
  | cs => cs

/-- A string in any of the four forms. -/
def string? : List Char → Reading String
  | '"' :: '"' :: '"' :: rest =>
    (basicLines (rest.length + 1) (skipFirstBreak rest)).map fun (s, r) => (String.ofList s, r)
  | '\'' :: '\'' :: '\'' :: rest =>
    (literalLines (skipFirstBreak rest)).map fun (s, r) => (String.ofList s, r)
  | '"' :: rest => (basicBody (rest.length + 1) rest).map fun (s, r) => (String.ofList s, r)
  | '\'' :: rest => (literalBody rest).map fun (s, r) => (String.ofList s, r)
  | _ => none

/-! ### Keys -/

/-- The characters of a key without quotes. -/
def isBareChar (c : Char) : Bool := c.isAlphanum || c = '_' || c = '-'

/-- One part of a key. -/
def keyPart? (cs : List Char) : Reading String :=
  match cs with
  | '"' :: rest => (basicBody (rest.length + 1) rest).map fun (s, r) => (String.ofList s, r)
  | '\'' :: rest => (literalBody rest).map fun (s, r) => (String.ofList s, r)
  | _ =>
    match cs.takeWhile isBareChar with
    | [] => none
    | part => some (String.ofList part, cs.dropWhile isBareChar)

/-- A key whose parts are separated by dots, with blanks around them. -/
def key? : (fuel : Nat) → List Char → Reading (List String)
  | 0, _ => none
  | fuel + 1, cs =>
    match keyPart? (skipBlanks cs) with
    | none => none
    | some (part, rest) =>
      match skipBlanks rest with
      | '.' :: rest => (key? fuel rest).map fun (parts, r) => (part :: parts, r)
      | rest => some ([part], rest)

/-! ### Numbers and dates -/

/-- Digits of a class, single underscores between them removed; nothing if they are misplaced. -/
def plainDigits? (isDigit : Char → Bool) : List Char → Option (List Char)
  | [] => none
  | [c] => if isDigit c then some [c] else none
  | c :: '_' :: rest => if isDigit c then (plainDigits? isDigit rest).map (c :: ·) else none
  | c :: rest => if isDigit c then (plainDigits? isDigit rest).map (c :: ·) else none

/-- Decimal digits without a needless leading zero. -/
def decimalDigits? (cs : List Char) : Option (List Char) :=
  match plainDigits? Char.isDigit cs with
  | some ('0' :: _ :: _) => none
  | digits => digits

/-- The value of digits in a base. -/
def valueInBase (base : Nat) (digits : List Char) : Nat :=
  digits.foldl (fun n c => n * base + (hexValue? c).getD 0) 0

/-- Whether a character is a digit of a base up to sixteen. -/
def isDigitOf (base : Nat) (c : Char) : Bool :=
  match hexValue? c with
  | some n => n < base
  | none => false

/-- The least integer that can be written. -/
def minInteger : Int := -170141183460469231731687303715884105728

/-- The greatest integer that can be written. -/
def maxInteger : Int := 340282366920938463463374607431768211455

/-- An integer. Outside the range of 128-bit words it is none. -/
def integer? (cs : List Char) : Option Int :=
  let inBase (base : Nat) (digits : List Char) : Option Int :=
    (plainDigits? (isDigitOf base) digits).map fun ds => (valueInBase base ds : Int)
  let value : Option Int :=
    match cs with
    | '0' :: 'x' :: digits => inBase 16 digits
    | '0' :: 'o' :: digits => inBase 8 digits
    | '0' :: 'b' :: digits => inBase 2 digits
    | '+' :: digits => (decimalDigits? digits).map fun ds => (digitsValue ds : Int)
    | '-' :: digits => (decimalDigits? digits).map fun ds => -(digitsValue ds : Int)
    | digits => (decimalDigits? digits).map fun ds => (digitsValue ds : Int)
  value.filter fun n => minInteger ≤ n && n ≤ maxInteger

/-- Whether the text is an exponent behind its letter. -/
def isExponent : List Char → Bool
  | '+' :: digits => (plainDigits? Char.isDigit digits).isSome
  | '-' :: digits => (plainDigits? Char.isDigit digits).isSome
  | digits => (plainDigits? Char.isDigit digits).isSome

/-- Whether the text is a floating-point number. -/
def isFloat (cs : List Char) : Bool :=
  let unsigned := match cs with
    | '+' :: rest => rest
    | '-' :: rest => rest
    | rest => rest
  if unsigned = ['i', 'n', 'f'] ∨ unsigned = ['n', 'a', 'n'] then true
  else
    let isMark (c : Char) : Bool := c = 'e' || c = 'E'
    let mantissa := unsigned.takeWhile fun c => !isMark c
    let exponent := unsigned.dropWhile fun c => !isMark c
    let whole := mantissa.takeWhile (· != '.')
    let fraction := mantissa.dropWhile (· != '.')
    let wholeFits := (decimalDigits? whole).isSome
    let fractionFits := match fraction with
      | [] => true
      | _ :: digits => (plainDigits? Char.isDigit digits).isSome
    let exponentFits := match exponent with
      | [] => true
      | _ :: rest => isExponent rest
    wholeFits && fractionFits && exponentFits && !(fraction.isEmpty && exponent.isEmpty)

/-- The number that exactly the given decimal digits stand for. -/
def fixedDigits? (cs : List Char) : Option Nat :=
  if cs.all Char.isDigit then some (digitsValue cs) else none

/-- How many days a month has. -/
def daysInMonth (year month : Nat) : Nat :=
  if month = 2 then
    if (year % 4 = 0 ∧ year % 100 ≠ 0) ∨ year % 400 = 0 then 29 else 28
  else if month ∈ [4, 6, 9, 11] then 30
  else 31

/-- The text behind a date. -/
def skipDate? : List Char → Option (List Char)
  | y1 :: y2 :: y3 :: y4 :: '-' :: m1 :: m2 :: '-' :: d1 :: d2 :: rest => do
    let year ← fixedDigits? [y1, y2, y3, y4]
    let month ← fixedDigits? [m1, m2]
    let day ← fixedDigits? [d1, d2]
    if 1 ≤ month ∧ month ≤ 12 ∧ 1 ≤ day ∧ day ≤ daysInMonth year month then some rest else none
  | _ => none

/-- The text behind a time of day. -/
def skipTime? : List Char → Option (List Char)
  | h1 :: h2 :: ':' :: m1 :: m2 :: ':' :: s1 :: s2 :: rest => do
    let hour ← fixedDigits? [h1, h2]
    let minute ← fixedDigits? [m1, m2]
    let second ← fixedDigits? [s1, s2]
    if hour ≤ 23 ∧ minute ≤ 59 ∧ second ≤ 60 then
      match rest with
      | '.' :: fraction =>
        if (fraction.takeWhile Char.isDigit).isEmpty then none
        else some (fraction.dropWhile Char.isDigit)
      | _ => some rest
    else none
  | _ => none

/-- Whether the text is an offset from universal time, or none. -/
def isOffset : List Char → Bool
  | [] => true
  | ['Z'] => true
  | ['z'] => true
  | [sign, h1, h2, ':', m1, m2] =>
    (sign = '+' || sign = '-') &&
      (match fixedDigits? [h1, h2], fixedDigits? [m1, m2] with
        | some hour, some minute => hour ≤ 23 && minute ≤ 59
        | _, _ => false)
  | _ => false

/-- Whether the text is a date, a time, or both. -/
def isDatetime (cs : List Char) : Bool :=
  match skipDate? cs with
  | some [] => true
  | some (separator :: rest) =>
    if separator = 'T' ∨ separator = 't' ∨ separator = ' ' then
      match skipTime? rest with
      | some offset => isOffset offset
      | none => false
    else false
  | none =>
    match skipTime? cs with
    | some rest => rest.isEmpty
    | none => false

/-- The characters of numbers, dates and keywords. -/
def isScalarChar (c : Char) : Bool :=
  c.isAlphanum || c = '_' || c = '-' || c = '+' || c = '.' || c = ':'

/-- The text of a scalar and what follows it. A blank between a date and a time belongs to it. -/
def scalarText (cs : List Char) : List Char × List Char :=
  let text := cs.takeWhile isScalarChar
  match skipDate? text, cs.dropWhile isScalarChar with
  | some [], ' ' :: c :: rest =>
    if c.isDigit then
      (text ++ ' ' :: (c :: rest).takeWhile isScalarChar, (c :: rest).dropWhile isScalarChar)
    else (text, ' ' :: c :: rest)
  | _, rest => (text, rest)

/-- A number, a date or a boolean. -/
def scalar? (cs : List Char) : Reading Toml :=
  let (text, rest) := scalarText cs
  if text = ['t', 'r', 'u', 'e'] then some (.bool true, rest)
  else if text = ['f', 'a', 'l', 's', 'e'] then some (.bool false, rest)
  else
    match integer? text with
    | some n => some (.integer n, rest)
    | none =>
      if isFloat text then some (.float, rest)
      else if isDatetime text then some (.datetime, rest)
      else none

/-! ### Values -/

/-- How deep arrays and inline tables may be nested. -/
def nestingLimit : Nat := 80

mutual

/-- A value. `fuel` bounds the number of steps and `depth` the nesting. -/
def value? (fuel depth : Nat) (cs : List Char) : Reading Toml :=
  match fuel with
  | 0 => none
  | fuel + 1 =>
    match cs with
    | '[' :: rest =>
      match depth with
      | 0 => none
      | depth + 1 => (items? fuel depth rest).map fun (items, r) => (.array items, r)
    | '\x7b' :: rest =>
      match depth with
      | 0 => none
      | depth + 1 =>
        match skipBlanks rest with
        | '\x7d' :: rest => some (.table [], rest)
        | rest =>
          match assignments? fuel depth rest with
          | some (assignments, rest) =>
            (inlineMembers? assignments).map fun members => (.table members, rest)
          | none => none
    | _ =>
      if cs.head? = some '"' ∨ cs.head? = some '\'' then
        (string? cs).map fun (s, r) => (.string s, r)
      else scalar? cs

/-- The items of an array up to its closing bracket. A comma may follow the last one. -/
def items? (fuel depth : Nat) (cs : List Char) : Reading (List Toml) :=
  match fuel with
  | 0 => none
  | fuel + 1 =>
    match skipSpace false cs with
    | none => none
    | some (']' :: rest) => some ([], rest)
    | some rest =>
      match value? fuel depth rest with
      | none => none
      | some (item, rest) =>
        match skipSpace false rest with
        | some (',' :: rest) => (items? fuel depth rest).map fun (items, r) => (item :: items, r)
        | some (']' :: rest) => some ([item], rest)
        | _ => none

/-- The assignments of an inline table up to its closing brace, all on one line. -/
def assignments? (fuel depth : Nat) (cs : List Char) : Reading (List (List String × Toml)) :=
  match fuel with
  | 0 => none
  | fuel + 1 =>
    match key? (cs.length + 1) cs with
    | some (path, '=' :: rest) =>
      match value? fuel depth (skipBlanks rest) with
      | none => none
      | some (value, rest) =>
        match skipBlanks rest with
        | ',' :: rest =>
          (assignments? fuel depth rest).map fun (others, r) => ((path, value) :: others, r)
        | '\x7d' :: rest => some ([(path, value)], rest)
        | _ => none
    | _ => none

end

/-! ### Documents -/

/-- One line and the text behind it, where the text starts neither with a blank nor with a comment. -/
def line? (cs : List Char) : Reading Line :=
  match cs with
  | '[' :: '[' :: rest =>
    match key? (rest.length + 1) rest with
    | some (path, ']' :: ']' :: rest) => (endLine rest).map fun r => (.arrayHeader path, r)
    | _ => none
  | '[' :: rest =>
    match key? (rest.length + 1) rest with
    | some (path, ']' :: rest) => (endLine rest).map fun r => (.header path, r)
    | _ => none
  | _ =>
    match key? (cs.length + 1) cs with
    | some (path, '=' :: rest) =>
      match value? (2 * rest.length + 2) nestingLimit (skipBlanks rest) with
      | some (value, rest) => (endLine rest).map fun r => (.assignment path value, r)
      | none => none
    | _ => none

/-- All lines of a text. -/
def lines? : (fuel : Nat) → List Char → Option (List Line)
  | 0, _ => none
  | fuel + 1, cs =>
    match skipSpace false cs with
    | none => none
    | some [] => some []
    | some rest =>
      match line? rest with
      | none => none
      | some (line, rest) => (lines? fuel rest).map (line :: ·)

/-- The text without a byte order mark. -/
def withoutMark : List Char → List Char
  | c :: rest => if c.toNat = 0xFEFF then rest else c :: rest
  | [] => []

/-- The members of the document that a text stands for. -/
def ofText? (text : String) : Option (List (String × Toml)) :=
  let cs := withoutMark text.toList
  match lines? (cs.length + 1) cs with
  | some lines => ofLines? lines
  | none => none

end RelQuery.Toml
