/-
Module: RelQuery.Toml.Record
Purpose: Reading TOML values as records. A record is a table, whose unknown members are ignored, or an
  array of its fields in their order, which may end early.
Main exports: Toml.fields?, Toml.required, Toml.withDefault, Toml.enumName?
-/
import RelQuery.Toml.Basic

namespace RelQuery.Toml

/-- A value as a string. -/
def asString? : Toml → Option String
  | .string s => some s
  | _ => none

/-- A value as a boolean. -/
def asBool? : Toml → Option Bool
  | .bool b => some b
  | _ => none

/-- A value as an unsigned 64-bit integer. -/
def asUnsigned? : Toml → Option UInt64
  | .integer n => if 0 ≤ n ∧ n ≤ 18446744073709551615 then some n.toNat.toUInt64 else none
  | _ => none

/-- A value as a list whose items all have one form. -/
def asList? {α : Type} (item : Toml → Option α) : Toml → Option (List α)
  | .array items => items.mapM item
  | _ => none

/-- One string or a list of strings. -/
def asStrings? : Toml → Option (List String)
  | .string s => some [s]
  | .array items => items.mapM asString?
  | _ => none

/-- The name of a choice: a string, or a table whose only member has that name and holds nothing. -/
def enumName? : Toml → Option String
  | .string s => some s
  | .table [(name, .table [])] => some name
  | .table [(name, .array [])] => some name
  | _ => none

/-- The fields of a record with the given field names. A date counts as a record that gives none of
them. -/
def fields? (names : List String) : Toml → Option (List (String × Toml))
  | .table members => some members
  | .array items => some (names.zip items)
  | .datetime => some []
  | _ => none

/-- A field that must be present. -/
def required {α : Type} (fields : List (String × Toml)) (name : String) (read : Toml → Option α) :
    Option α :=
  match fields.lookup name with
  | some value => read value
  | none => none

/-- A field that may be missing. -/
def withDefault {α : Type} (fields : List (String × Toml)) (name : String) (default : α)
    (read : Toml → Option α) : Option α :=
  match fields.lookup name with
  | some value => read value
  | none => some default

end RelQuery.Toml
