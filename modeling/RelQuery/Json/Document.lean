/-
Module: RelQuery.Json.Document
Purpose: What a JSON text says, before its objects are made unambiguous: repeated names are kept, and the
  place where a text stops being JSON is a node of its own, so that everything to its left can still be
  inspected in order.
Main exports: Document, Document.toJson?
-/
import RelQuery.Json.Basic

namespace RelQuery.Json

/-- A parsed text. `broken` stands where the text stops being well formed; nothing follows it. -/
inductive Document where
  | null
  | bool (value : Bool)
  | number (value : Number)
  | string (value : String)
  | array (items : List Document)
  | object (members : List (String × Document))
  | broken
deriving Repr, Inhabited

mutual

/-- The value of a document that is well formed throughout. Of a repeated name the last value stands at
    the first place. -/
def Document.toJson? : Document → Option Json
  | .null => some .null
  | .bool b => some (.bool b)
  | .number n => some (.number n)
  | .string s => some (.string s)
  | .array items => (itemsToJson? items).map .array
  | .object members => (membersToJson? members).map fun ms => .object (Members.ofRepeated ms)
  | .broken => none

/-- The values of all items. -/
def itemsToJson? : List Document → Option (List Json)
  | [] => some []
  | item :: items =>
    match item.toJson?, itemsToJson? items with
    | some value, some values => some (value :: values)
    | _, _ => none

/-- The values of all members under their names. -/
def membersToJson? : List (String × Document) → Option (List (String × Json))
  | [] => some []
  | (name, item) :: members =>
    match item.toJson?, membersToJson? members with
    | some value, some values => some ((name, value) :: values)
    | _, _ => none

end

mutual

/-- A value as the document of its text. -/
def Document.ofJson : Json → Document
  | .null => .null
  | .bool b => .bool b
  | .number n => .number n
  | .string s => .string s
  | .array items => .array (itemsOfJson items)
  | .object members => .object (membersOfJson members)

/-- The documents of a list of values. -/
def itemsOfJson : List Json → List Document
  | [] => []
  | value :: values => Document.ofJson value :: itemsOfJson values

/-- The documents of a list of members. -/
def membersOfJson : List (String × Json) → List (String × Document)
  | [] => []
  | (name, value) :: members => (name, Document.ofJson value) :: membersOfJson members

end

end RelQuery.Json
