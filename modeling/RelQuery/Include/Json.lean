/-
Module: RelQuery.Include.Json
Purpose: Include trees in JSON: an object whose members are relations, repeated names being kept. A value
  is a boolean or the options of the include, as an object or as an array in their order. Documents are
  judged from left to right, so that a faulty filter is reported although the text breaks off later.
Main exports: Include.treeOfDocument, Include.treeOfText
-/
import RelQuery.Include.Basic
import RelQuery.Filter.Json
import RelQuery.Json.Reader

namespace RelQuery

namespace Include

open Json (Document)

/-- The options that an include may have. -/
def optionNames : List String := ["columns", "filter", "include", "lazy"]

/-- Whether the members are known options without repetition. -/
def areOptions (names : List String) : Bool := names.all (· ∈ optionNames) && names.Nodup

/-- A document as a list of strings. -/
def stringsOf : List Document → Except TextFault (List String)
  | [] => .ok []
  | .string s :: items => (stringsOf items).map (s :: ·)
  | _ :: _ => .error .shape

/-- The columns option; null counts as missing. -/
def columnsOf : Document → Except TextFault (Option (List String))
  | .null => .ok none
  | .array items => (stringsOf items).map some
  | _ => .error .shape

/-- The lazy option; null counts as missing. -/
def lazyOf : Document → Except TextFault (Option Bool)
  | .null => .ok none
  | .bool b => .ok (some b)
  | _ => .error .shape

/-- The filter option as a JSON value; null counts as missing. -/
def filterValueOf (document : Document) : Except TextFault (Option Json) :=
  match document with
  | .null => .ok none
  | document =>
    match document.toJson? with
    | some value => .ok (some value)
    | none => .error .shape

/-- The filter of an include, read once its other options are known to be sound. -/
def filterOf (value : Option Json) : Except TextFault (Option Filter) :=
  match value with
  | none => .ok none
  | some value =>
    match Filter.ofJson value with
    | .ok filter => .ok (some filter)
    | .error issue => .error (.filter issue)

/-- Any fault inside the options of an include is a fault of its shape. -/
def asShape {α : Type} : Except TextFault α → Except TextFault α
  | .ok a => .ok a
  | .error _ => .error .shape

/-- An option by name, null where it is missing. -/
def option (members : List (String × Document)) (name : String) : Document :=
  (members.lookup name).getD .null

/-- An include from its options, the nested includes being read already. -/
def withOptions (relation : String) (columns filter lazy : Document)
    (includes : Except TextFault (List Include)) : Except TextFault Include := do
  let columns ← columnsOf columns
  let filterValue ← filterValueOf filter
  let includes ← asShape includes
  let lazy ← lazyOf lazy
  let filter ← filterOf filterValue
  return ⟨relation, columns, filter, lazy, includes⟩

mutual

/-- The include of one member, or none where it is switched off. -/
def ofDocument (relation : String) : Document → Except TextFault (Option Include)
  | .bool true => .ok (some (plain relation))
  | .bool false => .ok none
  | .object members =>
    if areOptions (members.map Prod.fst) then
      (withOptions relation (option members "columns") (option members "filter")
        (option members "lazy") (nestedOf members)).map some
    else .error .shape
  | .array [] => .ok (some (plain relation))
  | .array [columns] => (withOptions relation columns .null .null (.ok [])).map some
  | .array [columns, filter] => (withOptions relation columns filter .null (.ok [])).map some
  | .array [columns, filter, includes] =>
    (withOptions relation columns filter .null (nestedTree includes)).map some
  | .array [columns, filter, includes, lazy] =>
    (withOptions relation columns filter lazy (nestedTree includes)).map some
  | _ => .error .shape

/-- The nested includes among the options of an include. -/
def nestedOf : List (String × Document) → Except TextFault (List Include)
  | [] => .ok []
  | (name, document) :: members =>
    if name = "include" then nestedTree document else nestedOf members

/-- The tree under an include; null counts as missing. -/
def nestedTree : Document → Except TextFault (List Include)
  | .null => .ok []
  | .object members => treeOfMembers members
  | _ => .error .shape

/-- The includes of the members of a tree, in order. -/
def treeOfMembers : List (String × Document) → Except TextFault (List Include)
  | [] => .ok []
  | (relation, document) :: members => do
    let first ← ofDocument relation document
    let others ← treeOfMembers members
    return first.toList ++ others

end

/-- The include tree of a document, which must be an object. -/
def treeOfDocument : Document → Except TextFault (List Include)
  | .object members => treeOfMembers members
  | _ => .error .shape

/-- The include tree of a text. -/
def treeOfText (text : String) : Except QueryError (List Include) :=
  let (document, complete) := Document.read text
  match treeOfDocument document with
  | .error fault => .error (.invalidQuery (.malformedInclude fault))
  | .ok tree =>
    if complete then .ok tree else .error (.invalidQuery (.malformedInclude .shape))

end Include

end RelQuery
