/-
Module: RelQuery.Decimal.Style
Purpose: Writing the shortest decimal of a finite number as text. A number of middling size is written
  with a decimal point and at least one digit on each side of it, any other with an exponent.
Main exports: Style, Style.text
-/
import RelQuery.Decimal.Shortest

namespace RelQuery.Decimal

/-- How a number is written: with `0.d₁d₂… * 10 ^ point`, positional notation serves for
    `leastPoint ≤ point ≤ greatestPoint`; an exponent that is not negative may carry a plus sign. -/
structure Style where
  leastPoint : Int
  greatestPoint : Int
  plusSign : Bool
deriving DecidableEq, Repr, Inhabited

/-- The digits with a decimal point among, before or after them. -/
def positional (digits : List Char) (point : Int) : List Char :=
  let places := point.toNat
  if point ≤ 0 then '0' :: '.' :: (List.replicate (-point).toNat '0' ++ digits)
  else if digits.length ≤ places then
    digits ++ List.replicate (places - digits.length) '0' ++ ['.', '0']
  else digits.take places ++ '.' :: digits.drop places

/-- The digits with one of them before the decimal point, and an exponent. -/
def scientific (plusSign : Bool) (digits : List Char) (point : Int) : List Char :=
  let exponent := point - 1
  let mark := if exponent < 0 then ['e', '-'] else if plusSign then ['e', '+'] else ['e']
  let lead := match digits with
    | [] => []
    | [d] => [d]
    | d :: rest => d :: '.' :: rest
  lead ++ mark ++ (toString exponent.natAbs).toList

/-- The text of a finite number. -/
def Style.text (style : Style) (x : Float) : String :=
  let sign := if x.toBits ≥ 0x8000000000000000 then ['-'] else []
  if x == 0 then String.ofList (sign ++ ['0', '.', '0'])
  else
    let decimal := shortest x
    let digits := (toString decimal.digits).toList
    let body :=
      if style.leastPoint ≤ decimal.point && decimal.point ≤ style.greatestPoint then
        positional digits decimal.point
      else scientific style.plusSign digits decimal.point
    String.ofList (sign ++ body)

end RelQuery.Decimal
