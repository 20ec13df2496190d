/-
Module: RelQuery.Sql.Literal
Purpose: The scalar values that a statement can hold, and their relation to JSON scalars.
Main exports: Literal, Literal.ofJson?, Literal.toJson
-/
import RelQuery.Json.Basic

namespace RelQuery.Sql

/-- A scalar value. Integers are signed 64-bit integers; a date is written `YYYY-MM-DD` and a timestamp
    `YYYY-MM-DD HH:MM:SS`. -/
inductive Literal where
  | int (value : Int)
  | float (value : Float)
  | text (value : String)
  | bool (value : Bool)
  | date (value : String)
  | timestamp (value : String)
  | null
deriving DecidableEq, Repr, Inhabited

/-- Whether the literal is the null value. -/
def Literal.isNull : Literal → Bool
  | .null => true
  | _ => false

/-- A JSON number as a literal: an integer where it fits a signed 64-bit word, else the nearest
    floating-point number. -/
def Literal.ofNumber : Json.Number → Literal
  | .int n =>
    if Json.minSigned ≤ n ∧ n ≤ Json.maxSigned then .int n
    else if n < 0 then .float (-(Float.ofNat n.natAbs)) else .float (Float.ofNat n.toNat)
  | .float x => .float x

/-- A JSON scalar as a literal. Arrays and objects have no literal form. -/
def Literal.ofJson? : Json → Option Literal
  | .null => some .null
  | .bool b => some (.bool b)
  | .number n => some (.ofNumber n)
  | .string s => some (.text s)
  | .array _ => none
  | .object _ => none

/-- The JSON form of a literal. Dates and timestamps are strings, and a number that is not finite is
    null. -/
def Literal.toJson : Literal → Json
  | .int n => .number (.int n)
  | .float x => if x.isFinite then .number (.float x) else .null
  | .text s => .string s
  | .bool b => .bool b
  | .date s => .string s
  | .timestamp s => .string s
  | .null => .null

end RelQuery.Sql
