/-
Module: RelQuery.Filter.Json
Purpose: Filters in JSON. A bare scalar asks for equality and null for a missing value; an object with a
  relation operator filters a relation, one with field operators alone filters a column, and any other is
  kept as a relation filter without conditions, to be judged where the table is known.
Main exports: Filter.ofJson
-/
import RelQuery.Filter.Basic
import RelQuery.Error
import RelQuery.Path

namespace RelQuery

open Sql (Literal Comparison)

namespace Filter

/-- The operators on columns. -/
def fieldOperators : List String :=
  ["equals", "not", "gt", "gte", "lt", "lte", "in", "notIn", "contains", "startsWith", "endsWith",
    "isNull"]

/-- The operators on relations. -/
def relationOperators : List String := ["some", "none", "every", "isEmpty", "isNotEmpty"]

/-- The path to an item of a list. -/
def itemPath (path : String) (index : Nat) : String := path ++ "[" ++ toString index ++ "]"

/-- A fault at a path, where the empty path is the root. -/
def issue (path : String) (fault : FilterFault) : FilterIssue :=
  ⟨if path.isEmpty then "<root>" else path, fault⟩

/-- A failure at a path. -/
def fail {α : Type} (path : String) (fault : FilterFault) : Except FilterIssue α :=
  .error (issue path fault)

/-- A JSON scalar as a literal. -/
def scalar (path : String) (value : Json) : Except FilterIssue Literal :=
  match Literal.ofJson? value with
  | some literal => .ok literal
  | none => fail path .notAScalar

/-- A JSON array of scalars as literals. -/
def scalars (path : String) : Json → Except FilterIssue (List Literal)
  | .array items => items.mapM (scalar path)
  | _ => fail path .notAList

/-- The boolean operand of an operator. -/
def boolean (path operator : String) : Json → Except FilterIssue Bool
  | .bool b => .ok b
  | _ => fail path (.notABoolean operator)

/-- The text operand of an operator. -/
def string (path operator : String) : Json → Except FilterIssue String
  | .string s => .ok s
  | _ => fail path (.notAString operator)

/-- The condition of a field operator other than `not`. -/
def fieldFilter (column path operator : String) (value : Json) : Except FilterIssue Filter :=
  let compare (comparison : Comparison) : Except FilterIssue Filter :=
    (scalar path value).map fun literal => .field column (.compare comparison literal)
  let holds (position : TextPosition) : Except FilterIssue Filter :=
    (string path operator value).map fun text => .field column (.holds position text)
  match operator with
  | "equals" => (scalar path value).map (Filter.eq column)
  | "gt" => compare .gt
  | "gte" => compare .ge
  | "lt" => compare .lt
  | "lte" => compare .le
  | "in" => (scalars path value).map fun values => .field column (.isIn values false)
  | "notIn" => (scalars path value).map fun values => .field column (.isIn values true)
  | "contains" => holds .anywhere
  | "startsWith" => holds .start
  | "endsWith" => holds .finish
  | "isNull" => (boolean path operator value).map fun flag => .field column (.isNull flag)
  | _ => fail path (.unknownOperator operator)

/-- The conditions of the field operators of a column, in order. An object under `not` is the negation
    of the operators in it. -/
def fieldFilters (column path : String) : List (String × Json) → Except FilterIssue (List Filter)
  | [] => .ok []
  | (operator, value) :: rest => do
    let first ←
      if operator = "not" then
        match value with
        | .object inner => (fieldFilters column path inner).map fun parts => .not (ofParts parts)
        | .null => .ok (.field column (.isNull false))
        | value => (scalar path value).map fun literal => .field column (.compare .ne literal)
      else fieldFilter column path operator value
    let others ← fieldFilters column path rest
    return first :: others

/-- What a connective makes of the filters under it. -/
def connective? : String → Option (List Filter → Filter)
  | "AND" => some .all
  | "OR" => some .any
  | "NOT" => some fun parts => .not (ofParts parts)
  | _ => none

mutual

/-- The filter of a JSON value, which must be an object. -/
def ofJsonAt (path : String) : Json → Except FilterIssue Filter
  | .object members => (entries path members).map ofParts
  | _ => fail path .notAnObject

/-- The filters of the members of an object, in order. -/
def entries (path : String) : List (String × Json) → Except FilterIssue (List Filter)
  | [] => .ok []
  | (key, value) :: rest => do
    let first ← entry path key value
    let others ← entries path rest
    return first ++ others

/-- The filters of one member. A connective takes one object or a list of objects. -/
def entry (path key : String) : Json → Except FilterIssue (List Filter)
  | .object members =>
    let here := joinPath path key
    match connective? key with
    | some combine => (entries here members).map fun parts => [combine [ofParts parts]]
    | none =>
      if members.any fun (name, _) => name ∈ relationOperators then
        (relationConditions here .empty members).map fun conditions => [.relation key conditions]
      else if !members.isEmpty && members.all fun (name, _) => name ∈ fieldOperators then
        fieldFilters key here members
      else .ok [.relation key .empty]
  | .array values =>
    let here := joinPath path key
    match connective? key with
    | some combine => (items here 0 values).map fun parts => [combine parts]
    | none => fail here .bareArray
  | value =>
    let here := joinPath path key
    match connective? key with
    | some _ => fail here .notFilters
    | none => (scalar here value).map fun literal => [.eq key literal]

/-- The filters of a list, whose first item has the given index. -/
def items (path : String) (index : Nat) : List Json → Except FilterIssue (List Filter)
  | [] => .ok []
  | value :: values => do
    let first ← ofJsonAt (itemPath path index) value
    let others ← items path (index + 1) values
    return first :: others

/-- The given conditions with those of the relation operators of an object. -/
def relationConditions (path : String) (conditions : RelationFilter) :
    List (String × Json) → Except FilterIssue RelationFilter
  | [] => .ok conditions
  | (operator, value) :: rest =>
    match operator with
    | "some" => do
      let part ← ofJsonAt path value
      relationConditions path { conditions with someRow := some part } rest
    | "none" => do
      let part ← ofJsonAt path value
      relationConditions path { conditions with noRow := some part } rest
    | "every" => do
      let part ← ofJsonAt path value
      relationConditions path { conditions with everyRow := some part } rest
    | "isEmpty" => do
      let flag ← boolean path operator value
      relationConditions path { conditions with isEmpty := some flag } rest
    | "isNotEmpty" => do
      let flag ← boolean path operator value
      relationConditions path { conditions with isNotEmpty := some flag } rest
    | _ => fail path (.mixedOperator operator)

end

/-- The filter of a JSON value. -/
def ofJson (value : Json) : Except FilterIssue Filter := ofJsonAt "" value

end Filter

end RelQuery
