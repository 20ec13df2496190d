/-
Module: RelQuery.Plan.Resolve
Purpose: From a tree of includes to the joins of a statement and the plan of its rows. Joins stand in depth
  first order as requested; a filter on an include narrows the join of its target, so that no row is lost.
Main exports: LazyLoad.describe, selectColumns, Attachment, Resolution, resolve
-/
import RelQuery.Plan.Basic
import RelQuery.Filter.Predicate

namespace RelQuery

open Sql

/-- The batched load of a relation. Its keys must have a single column. -/
def LazyLoad.describe (relation : Relation) (keys : RelationKeys) (request : Include) (path : String) :
    Except QueryError LazyLoad :=
  let load (parentColumn : String) (link : LazyLink) : LazyLoad :=
    ⟨relation.name, path, relation.kind, keys.target.name, parentColumn, link, request.columns,
      request.filter, request.includes⟩
  match keys with
  | .direct _ [(targetColumn, parentColumn)] => .ok (load parentColumn (.direct targetColumn))
  | .pivot pivot _ [(sourceColumn, parentColumn)] [(targetKey, targetColumn)] =>
    .ok (load parentColumn (.pivot pivot.name sourceColumn targetColumn targetKey))
  | _ => .error (.invalidQuery (.compositeLazyKey path))

/-- A column of a table, for a plan. -/
def planColumn (table : Table) (name : String) : Except QueryError PlanColumn :=
  match table.column? name with
  | some column => .ok ⟨column.name, column.type⟩
  | none => .error (.unknownColumn table.name name)

/-- The columns to be selected: all of them if none are requested, else the requested ones behind those
    of the primary key that are not among them. -/
def selectColumns (table : Table) (requested : Option (List String)) :
    Except QueryError (List PlanColumn) :=
  let names := match requested with
    | none => table.columns.map Column.name
    | some columns => (table.primaryKey.filter fun key => !(key ∈ columns)) ++ columns
  names.mapM (planColumn table)

/-- The columns with one more, unless it is among them. -/
def ensureColumn (table : Table) (name : String) (columns : List PlanColumn) :
    Except QueryError (List PlanColumn) :=
  if columns.any fun column => column.name == name then .ok columns
  else (planColumn table name).map fun column => columns ++ [column]

/-- What hangs off an occurrence so far, and the joins and names of the statement. -/
structure Attachment where
  columns : List PlanColumn
  includes : List IncludeNode
  lazy : List LazyLoad
  joins : List Join
  names : Names

/-- The projection of an occurrence to which everything is attached. -/
def Attachment.projection (attached : Attachment) (table : Table) (label outputPath : String) :
    Projection :=
  ⟨table.name, label, outputPath, table.primaryKey, attached.columns, attached.includes,
    attached.lazy⟩

/-- Whether a request for a relation defers it. -/
def Include.isLazy (request : Include) (relation : Relation) : Bool := request.lazy.getD relation.lazy

/-- The predicate of the filter on an include. -/
def includeCondition (registry : Registry) (reached : Reach) (path : String) (filter : Option Filter) :
    Except QueryError (Option Expr × Names) :=
  match filter with
  | none => .ok (none, reached.names)
  | some filter => filter.correlated registry reached.target reached.label path reached.names

mutual

/-- Attaches a requested relation to an occurrence of a table. `outputPath` is that of the occurrence and
    `here` leads to the relation. -/
def attach (registry : Registry) (table : Table) (label outputPath here : String)
    (attached : Attachment) : Include → Except QueryError Attachment
  | ⟨name, columns, filter, lazy, includes⟩ => do
    let (relation, keys) ← registry.relation table name
    if Include.isLazy ⟨name, columns, filter, lazy, includes⟩ relation then
      let load ← LazyLoad.describe relation keys ⟨name, columns, filter, lazy, includes⟩ here
      let columns ← ensureColumn table load.parentColumn attached.columns
      return { attached with columns := columns, lazy := attached.lazy ++ [load] }
    else
      let reached := reach attached.names label relation.name keys
      let (condition, names) ← includeCondition registry reached here filter
      let outputPath := extendOutputPath outputPath name
      let selected ← selectColumns reached.target columns
      let inner ← attachAll registry reached.target reached.label outputPath here []
        ⟨selected, [], [], attached.joins ++ reached.joins condition, names⟩ includes
      let node := ⟨name, relation.kind, inner.projection reached.target reached.label outputPath⟩
      return { attached with
        includes := attached.includes ++ [node]
        joins := inner.joins
        names := inner.names }

/-- Attaches requested relations in order. None may be requested twice; `seen` holds those that have
    been. -/
def attachAll (registry : Registry) (table : Table) (label outputPath path : String)
    (seen : List String) (attached : Attachment) : List Include → Except QueryError Attachment
  | [] => .ok attached
  | request :: requests =>
    let here := joinPath path request.relation
    if request.relation ∈ seen then .error (.duplicateInclude here)
    else do
      let attached ← attach registry table label outputPath here attached request
      attachAll registry table label outputPath path (request.relation :: seen) attached requests

end

/-- The joins and the plan of a tree of includes, and the names reserved so far. -/
structure Resolution where
  joins : List Join
  plan : Projection
  names : Names

/-- Resolves a tree of includes on an occurrence of a table. -/
def resolve (registry : Registry) (root : Table) (label : String) (columns : Option (List String))
    (tree : List Include) (names : Names) : Except QueryError Resolution := do
  let selected ← selectColumns root columns
  let attached ← attachAll registry root label "" "" [] ⟨selected, [], [], [], names⟩ tree
  return ⟨attached.joins, attached.projection root label "", attached.names⟩

end RelQuery
