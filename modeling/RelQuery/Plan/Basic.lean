/-
Module: RelQuery.Plan.Basic
Purpose: Plans: which columns a statement selects from each table occurrence, and how its flat rows map
  back to nested objects. Relations that are loaded by statements of their own are recorded beside those
  that are joined.
Main exports: PlanColumn, LazyLink, LazyLoad, Projection, IncludeNode, Projection.outputName,
  Projection.selectItems, Projection.find?, Projection.isToOnePath
-/
import RelQuery.Include.Basic
import RelQuery.Schema.Table
import RelQuery.Sql.Query

namespace RelQuery

open Sql

/-- A selected column and its type. -/
structure PlanColumn where
  name : String
  type : ColumnType
deriving DecidableEq, Repr, Inhabited

/-- How the rows of a batch are matched to the rows that they belong to. -/
inductive LazyLink where
  /-- A column of the target holds the key. -/
  | direct (targetColumn : String)
  /-- A pivot table maps keys of the source to values of a target column. -/
  | pivot (table sourceColumn targetColumn targetKey : String)
deriving DecidableEq, Repr, Inhabited

/-- A relation that is loaded by statements of its own. -/
structure LazyLoad where
  relation : String
  path : String
  kind : RelationKind
  target : String
  /-- The column of the source whose value is the key. -/
  parentColumn : String
  link : LazyLink
  columns : Option (List String)
  filter : Option Filter
  includes : List Include

mutual

/-- What is selected from one table occurrence, and what hangs off it. -/
structure Projection where
  table : String
  /-- The exposed name of the occurrence. -/
  label : String
  /-- What the names of the selected columns begin with; nothing at the root. -/
  outputPath : String
  /-- The columns that identify a row; none if the table has no primary key. -/
  key : List String
  columns : List PlanColumn
  includes : List IncludeNode
  lazy : List LazyLoad

/-- A joined relation. -/
structure IncludeNode where
  relation : String
  kind : RelationKind
  projection : Projection

end

/-- What separates the steps of an output path from each other and from the column. -/
def outputSeparator : String := "__"

/-- An output path with one more step. -/
def extendOutputPath (path step : String) : String :=
  if path.isEmpty then step else path ++ outputSeparator ++ step

namespace Projection

/-- The name under which a column of this occurrence is selected. -/
def outputName (projection : Projection) (column : String) : String :=
  extendOutputPath projection.outputPath column

/-- The items that select the columns of this occurrence itself. -/
def ownItems (projection : Projection) : List SelectItem :=
  projection.columns.map fun column =>
    ⟨Expr.of projection.label column.name, some (projection.outputName column.name)⟩

mutual

/-- The SELECT list of a plan: its own columns, then each joined relation in depth. -/
def selectItems : Projection → List SelectItem
  | ⟨table, label, outputPath, key, columns, includes, lazy⟩ =>
    ownItems ⟨table, label, outputPath, key, columns, includes, lazy⟩ ++ selectItemsOfNodes includes

/-- The SELECT lists of joined relations. -/
def selectItemsOfNodes : List IncludeNode → List SelectItem
  | [] => []
  | ⟨_, _, projection⟩ :: nodes => projection.selectItems ++ selectItemsOfNodes nodes

end

mutual

/-- Whether a joined relation, at any depth, may multiply the rows. -/
def hasToMany : Projection → Bool
  | ⟨_, _, _, _, _, includes, _⟩ => anyToMany includes

/-- Whether one of the joined relations or one below them may multiply the rows. -/
def anyToMany : List IncludeNode → Bool
  | [] => false
  | ⟨_, kind, projection⟩ :: nodes => kind.isToMany || projection.hasToMany || anyToMany nodes

end

mutual

/-- Whether a relation below this occurrence is loaded by statements of its own. -/
def hasLazy : Projection → Bool
  | ⟨_, _, _, _, _, includes, lazy⟩ => !lazy.isEmpty || anyLazy includes

/-- Whether one of the joined relations has such a relation below it. -/
def anyLazy : List IncludeNode → Bool
  | [] => false
  | ⟨_, _, projection⟩ :: nodes => projection.hasLazy || anyLazy nodes

end

/-- The joined relation of that name. -/
def node? (projection : Projection) (relation : String) : Option IncludeNode :=
  projection.includes.find? fun node => node.relation == relation

/-- The projection that a path of joined relations leads to. -/
def find? (projection : Projection) : List String → Option Projection
  | [] => some projection
  | relation :: path =>
    match projection.node? relation with
    | some node => node.projection.find? path
    | none => none

/-- Whether each step of a path is a joined relation that reaches at most one row. -/
def isToOnePath (projection : Projection) : List String → Bool
  | [] => true
  | relation :: path =>
    match projection.node? relation with
    | some node => !node.kind.isToMany && node.projection.isToOnePath path
    | none => false

end Projection

end RelQuery
