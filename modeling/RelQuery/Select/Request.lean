/-
Module: RelQuery.Select.Request
Purpose: Query requests in JSON. A request and an ordering are objects with known members that may each
  stand once, or arrays of their fields in order. Documents are judged from left to right, so that a
  faulty filter of an include is reported although the text breaks off later.
Main exports: Request, Request.ofDocument, Request.ofText, Request.selection
-/
import RelQuery.Include.Json
import RelQuery.Select.Basic

namespace RelQuery

open Json (Document)
open Sql (Direction NullsOrder)

/-- A request, its filter still being a JSON value. -/
structure Request where
  table : String
  select : Option (List String)
  filter : Option Json
  includes : List Include
  order : List OrderTerm
  limit : Option UInt64
  offset : Option UInt64

namespace Request

/-- Reads fields in order into a record. A field must be known and may stand once. -/
def readFields {α : Type} (names : List String) (read : α → String → Document → Except TextFault α) :
    (seen : List String) → α → List (String × Document) → Except TextFault α
  | _, record, [] => .ok record
  | seen, record, (name, document) :: fields =>
    if name ∈ names ∧ name ∉ seen then
      match read record name document with
      | .ok record => readFields names read (name :: seen) record fields
      | .error fault => .error fault
    else .error .shape

/-- Reads a record whose first field must be present, from an object or from an array. -/
def readRecord {α : Type} (names : List String) (start : α)
    (read : α → String → Document → Except TextFault α) : Document → Except TextFault α
  | .object members =>
    match readFields names read [] start members with
    | .ok record =>
      match names with
      | [] => .ok record
      | name :: _ => if (members.lookup name).isSome then .ok record else .error .shape
    | .error fault => .error fault
  | .array items =>
    match readFields names read [] start (names.zip items) with
    | .ok record =>
      if items.isEmpty ∨ names.length < items.length then .error .shape else .ok record
    | .error fault => .error fault
  | _ => .error .shape

/-- A string. -/
def stringOf : Document → Except TextFault String
  | .string s => .ok s
  | _ => .error .shape

/-- The name of a choice: a string, or an object whose only member has that name and is null. -/
def choiceOf : Document → Except TextFault String
  | .string s => .ok s
  | .object [(name, .null)] => .ok name
  | _ => .error .shape

/-- An unsigned 64-bit integer; null counts as missing. -/
def countOf : Document → Except TextFault (Option UInt64)
  | .null => .ok none
  | .number n =>
    match (Json.number n).toUnsigned? with
    | some count => .ok (some count)
    | none => .error .shape
  | _ => .error .shape

/-- A choice by its name. -/
def namedChoice {α : Type} (ofName? : String → Option α) (document : Document) : Except TextFault α := do
  match ofName? (← choiceOf document) with
  | some choice => return choice
  | none => throw .shape

/-- The direction of an ordering. -/
def directionOf (document : Document) : Except TextFault Direction :=
  namedChoice Direction.ofName? document

/-- The place of nulls in an ordering; null counts as missing. -/
def nullsOf : Document → Except TextFault (Option NullsOrder)
  | .null => .ok none
  | document => (namedChoice NullsOrder.ofName? document).map some

/-- The fields of an ordering. -/
def orderFields : List String := ["path", "dir", "nulls"]

/-- Reads a field of an ordering. -/
def readOrderField (term : OrderTerm) (name : String) (document : Document) :
    Except TextFault OrderTerm :=
  match name with
  | "path" => (stringOf document).map fun path => { term with path := path }
  | "dir" => (directionOf document).map fun direction => { term with direction := direction }
  | "nulls" => (nullsOf document).map fun nulls => { term with nulls := nulls }
  | _ => .error .shape

/-- An ordering, ascending unless it says otherwise. -/
def orderTermOf (document : Document) : Except TextFault OrderTerm :=
  readRecord orderFields ⟨"", .asc, none⟩ readOrderField document

/-- A list of orderings. -/
def orderOf : Document → Except TextFault (List OrderTerm)
  | .array items => items.mapM orderTermOf
  | _ => .error .shape

/-- The fields of a request. -/
def fields : List String := ["table", "select", "where", "include", "orderBy", "limit", "offset"]

/-- Reads a field of a request. -/
def readField (request : Request) (name : String) (document : Document) : Except TextFault Request :=
  match name with
  | "table" => (stringOf document).map fun table => { request with table := table }
  | "select" => (Include.columnsOf document).map fun columns => { request with select := columns }
  | "where" => (Include.filterValueOf document).map fun filter => { request with filter := filter }
  | "include" => (Include.treeOfDocument document).map fun tree => { request with includes := tree }
  | "orderBy" => (orderOf document).map fun order => { request with order := order }
  | "limit" => (countOf document).map fun limit => { request with limit := limit }
  | "offset" => (countOf document).map fun offset => { request with offset := offset }
  | _ => .error .shape

/-- The request of a document. -/
def ofDocument (document : Document) : Except TextFault Request :=
  readRecord fields ⟨"", none, none, [], [], none, none⟩ readField document

/-- The request of a text. -/
def ofText (text : String) : Except QueryError Request :=
  let (document, complete) := Document.read text
  match ofDocument document with
  | .error fault => .error (.invalidQuery (.malformedRequest fault))
  | .ok request =>
    if complete then .ok request else .error (.invalidQuery (.malformedRequest .shape))

/-- The selection that a request asks for. Its table must exist, and its filter must be one. -/
def selection (registry : Registry) (request : Request) : Except QueryError Selection := do
  let table ← registry.table request.table
  let filters ← match request.filter with
    | none => .ok []
    | some value =>
      match Filter.ofJson value with
      | .ok filter => .ok [filter]
      | .error issue => .error (.invalidFilter issue)
  return ⟨table, request.select, filters, request.includes, request.order, request.limit,
    request.offset⟩

end Request

end RelQuery
