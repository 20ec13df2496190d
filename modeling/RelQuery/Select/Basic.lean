/-
Module: RelQuery.Select.Basic
Purpose: Selections: what is asked of one root table. Nothing in a selection has been checked but that the
  table exists.
Main exports: OrderTerm, Selection, Selection.of
-/
import RelQuery.Include.Basic
import RelQuery.Schema.Registry
import RelQuery.Sql.Query
import RelQuery.Path

namespace RelQuery

open Sql (Direction NullsOrder)

/-- An ordering by a column of the root or of a related table. -/
structure OrderTerm where
  path : String
  direction : Direction
  nulls : Option NullsOrder
deriving DecidableEq, Repr, Inhabited

/-- The relations on the path of an ordering. -/
def OrderTerm.relations (term : OrderTerm) : List String := (splitPath term.path).dropLast

/-- The column at the end of the path of an ordering. -/
def OrderTerm.column (term : OrderTerm) : String := (splitPath term.path).getLastD ""

/-- What is asked of a root table. -/
structure Selection where
  table : Table
  columns : Option (List String)
  /-- All of these must hold. -/
  filters : List Filter
  includes : List Include
  order : List OrderTerm
  /-- How many roots are returned at most. -/
  limit : Option UInt64
  /-- How many roots are skipped. -/
  offset : Option UInt64

namespace Selection

/-- All columns of all rows of a table. -/
def ofTable (table : Table) : Selection := ⟨table, none, [], [], [], none, none⟩

/-- All columns of all rows of the table of that name. -/
def of (registry : Registry) (name : String) : Except QueryError Selection :=
  (registry.table name).map ofTable

/-- The selection with one more filter. -/
def filter (selection : Selection) (filter : Filter) : Selection :=
  { selection with filters := selection.filters ++ [filter] }

/-- The selection with further includes. -/
def withIncludes (selection : Selection) (tree : List Include) : Selection :=
  { selection with includes := selection.includes ++ tree }

/-- The selection with a further ordering. -/
def orderBy (selection : Selection) (term : OrderTerm) : Selection :=
  { selection with order := selection.order ++ [term] }

/-- Whether only a part of the roots is asked for. -/
def isPaged (selection : Selection) : Bool := selection.limit.isSome || selection.offset.isSome

end Selection

end RelQuery
