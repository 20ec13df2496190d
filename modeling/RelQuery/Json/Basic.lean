/-
Module: RelQuery.Json.Basic
Purpose: JSON values whose objects keep the order of their members. An object is a list of members in
  which no name is meant to occur twice; writing a member replaces the value of an existing one in place
  and appends a new one.
Main exports: Json.Number, Json, Json.Member, Members.set, Members.ofRepeated
-/

namespace RelQuery

/-- A number: an integer kept exactly, or a binary floating-point number. -/
inductive Json.Number where
  | int (value : Int)
  | float (value : Float)
deriving DecidableEq, Repr, Inhabited

/-- A JSON value. -/
inductive Json where
  | null
  | bool (value : Bool)
  | number (value : Json.Number)
  | string (value : String)
  | array (items : List Json)
  | object (members : List (String × Json))
deriving Repr, Inhabited

namespace Json

/-- The members of an object in their order. -/
abbrev Members := List (String × Json)

/-- The integer `value` as a JSON value. -/
abbrev int (value : Int) : Json := .number (.int value)

/-- The value of the first member of that name. -/
def Members.get? (members : Members) (name : String) : Option Json :=
  members.lookup name

/-- The value of a member, where a missing one counts as null. -/
def Members.getD (members : Members) (name : String) : Json :=
  (Members.get? members name).getD .null

/-- Replaces the value of a member where it stands, or appends the member. -/
def Members.set : Members → String → Json → Members
  | [], name, value => [(name, value)]
  | (n, v) :: rest, name, value =>
    if n = name then (n, value) :: rest else (n, v) :: Members.set rest name value

/-- An object from members that may repeat a name: the last value stands at the first place. -/
def Members.ofRepeated (members : Members) : Members :=
  members.foldl (fun object (name, value) => Members.set object name value) []

/-- The greatest integer of a signed 64-bit word. -/
def maxSigned : Int := 9223372036854775807

/-- The least integer of a signed 64-bit word. -/
def minSigned : Int := -9223372036854775808

/-- The greatest integer of an unsigned 64-bit word. -/
def maxUnsigned : Int := 18446744073709551615

/-- The value as a signed 64-bit integer, if it is an integer of that range. -/
def toSigned? : Json → Option Int
  | .number (.int n) => if minSigned ≤ n ∧ n ≤ maxSigned then some n else none
  | _ => none

/-- The value as an unsigned 64-bit integer, if it is an integer of that range. -/
def toUnsigned? : Json → Option UInt64
  | .number (.int n) => if 0 ≤ n ∧ n ≤ maxUnsigned then some n.toNat.toUInt64 else none
  | _ => none

/-- Whether the value is null. -/
def isNull : Json → Bool
  | .null => true
  | _ => false

end Json

end RelQuery
