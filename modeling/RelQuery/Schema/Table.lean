/-
Module: RelQuery.Schema.Table
Purpose: Definitions of tables: their columns, primary keys and relations. A relation names its target;
  whether that table exists is a matter of the registry.
Main exports: ColumnType, Column, RelationKind, Pivot, Relation, Table
-/

namespace RelQuery

/-- The types of columns. They matter only where values are read. -/
inductive ColumnType where
  | int | float | text | bool | date | timestamp | json
deriving DecidableEq, Repr, Inhabited

/-- All types of columns. -/
def ColumnType.all : List ColumnType := [.int, .float, .text, .bool, .date, .timestamp, .json]

/-- The name of a type in definitions. -/
def ColumnType.name : ColumnType → String
  | .int => "int"
  | .float => "float"
  | .text => "text"
  | .bool => "bool"
  | .date => "date"
  | .timestamp => "timestamp"
  | .json => "json"

/-- The type of that name. -/
def ColumnType.ofName? (name : String) : Option ColumnType :=
  ColumnType.all.find? fun type => type.name == name

/-- A column. -/
structure Column where
  name : String
  type : ColumnType
  nullable : Bool
  /-- The default value as SQL text. -/
  default : Option String
  unique : Bool
  /-- The table and the column that a foreign key points at. -/
  references : Option (String × String)
deriving DecidableEq, Repr, Inhabited

/-- How the rows of two tables belong together. -/
inductive RelationKind where
  /-- The source holds the foreign key. -/
  | belongsTo
  /-- Any number of target rows hold a foreign key. -/
  | hasMany
  /-- At most one target row holds a foreign key. -/
  | hasOne
  /-- A pivot table holds the keys of both sides. -/
  | belongsToMany
deriving DecidableEq, Repr, Inhabited

/-- All kinds of relations. -/
def RelationKind.all : List RelationKind := [.belongsTo, .hasMany, .hasOne, .belongsToMany]

/-- The name of a kind in definitions. -/
def RelationKind.name : RelationKind → String
  | .belongsTo => "belongs_to"
  | .hasMany => "has_many"
  | .hasOne => "has_one"
  | .belongsToMany => "belongs_to_many"

/-- The kind of that name. -/
def RelationKind.ofName? (name : String) : Option RelationKind :=
  RelationKind.all.find? fun kind => kind.name == name

/-- Whether a source row may have several target rows. -/
def RelationKind.isToMany : RelationKind → Bool
  | .belongsTo => false
  | .hasMany => true
  | .hasOne => false
  | .belongsToMany => true

/-- A pivot table and its columns for the keys of the source and of the target. -/
structure Pivot where
  table : String
  sourceKey : List String
  targetKey : List String
deriving DecidableEq, Repr, Inhabited

/-- A relation from the table that declares it to a target. -/
structure Relation where
  name : String
  kind : RelationKind
  target : String
  /-- The foreign key, on the side that holds it. -/
  foreignKey : List String
  /-- The columns that the foreign key points at; without any, the primary key. -/
  references : List String
  pivot : Option Pivot
  /-- Whether the relation is loaded by a statement of its own unless a request says otherwise. -/
  lazy : Bool
deriving DecidableEq, Repr, Inhabited

/-- A table. -/
structure Table where
  name : String
  schema : Option String
  columns : List Column
  relations : List Relation
  primaryKey : List String
deriving DecidableEq, Repr, Inhabited

/-- Replaces the column of the same name where it stands, or appends the column. -/
def addColumn : List Column → Column → List Column
  | [], column => [column]
  | c :: cs, column => if c.name = column.name then column :: cs else c :: addColumn cs column

namespace Table

/-- The column of that name. -/
def column? (table : Table) (name : String) : Option Column :=
  table.columns.find? fun column => column.name == name

/-- Whether the table has a column of that name. -/
def hasColumn (table : Table) (name : String) : Bool := (table.column? name).isSome

/-- The relation of that name. -/
def relation? (table : Table) (name : String) : Option Relation :=
  table.relations.find? fun relation => relation.name == name

end Table

end RelQuery
