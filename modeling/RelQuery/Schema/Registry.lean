/-
Module: RelQuery.Schema.Registry
Purpose: The tables that queries range over, in the order of their registration, and the columns by which
  a relation links two of them.
Main exports: Registry, Registry.register, RelationKeys, Registry.relationKeys, Registry.relation,
  Registry.validate
-/
import RelQuery.Schema.Table
import RelQuery.Error

namespace RelQuery

/-- The registered tables. Their names are distinct. -/
structure Registry where
  tables : List Table
deriving Repr, Inhabited

/-- Pairs of columns that are compared, left column first. -/
abbrev KeyPairs := List (String × String)

/-- How the rows of a target are reached from those of a source. -/
inductive RelationKeys where
  /-- Pairs of a target column and a source column. -/
  | direct (target : Table) (pairs : KeyPairs)
  /-- Pairs of a pivot column and a source column, and pairs of a target column and a pivot column. -/
  | pivot (pivot target : Table) (sourcePairs targetPairs : KeyPairs)
deriving DecidableEq, Repr, Inhabited

/-- The target of a relation. -/
def RelationKeys.target : RelationKeys → Table
  | .direct target _ => target
  | .pivot _ target _ _ => target

/-- The first relation whose name an earlier one has already. -/
def repeatedRelation? (seen : List String) : List Relation → Option String
  | [] => none
  | relation :: relations =>
    if relation.name ∈ seen then some relation.name
    else repeatedRelation? (relation.name :: seen) relations

namespace Registry

/-- The registry without tables. -/
def empty : Registry := ⟨[]⟩

/-- The table of that name. -/
def get? (registry : Registry) (name : String) : Option Table :=
  registry.tables.find? fun table => table.name == name

/-- Adds a table whose name is new and whose relations have distinct names. -/
def register (registry : Registry) (table : Table) : Except SchemaError Registry :=
  match registry.get? table.name with
  | some _ => .error (.duplicateTable table.name)
  | none =>
    match repeatedRelation? [] table.relations with
    | some relation => .error (.duplicateRelation table.name relation)
    | none => .ok ⟨registry.tables ++ [table]⟩

/-- Adds tables in their order. -/
def registerAll (registry : Registry) (tables : List Table) : Except SchemaError Registry :=
  tables.foldlM register registry

/-- The table of that name, for a query. -/
def table (registry : Registry) (name : String) : Except QueryError Table :=
  match registry.get? name with
  | some table => .ok table
  | none => .error (.unknownTable name)

/-! ### Keys of relations -/

/-- The given columns, or the primary key of a table where none are given. -/
def keyOrPrimary (explicit : List String) (table : Table) (source : String) (relation : Relation) :
    Except SchemaError (List String) :=
  if !explicit.isEmpty then .ok explicit
  else if table.primaryKey.isEmpty then
    .error (.invalidRelation source relation.name (.noPrimaryKey table.name))
  else .ok table.primaryKey

/-- The columns of two keys in pairs. Both keys must have the same number of columns, and at least
    one. -/
def pairKeys (left right : List String) (source : String) (relation : Relation) :
    Except SchemaError KeyPairs :=
  if left.isEmpty ∨ left.length ≠ right.length then
    .error (.invalidRelation source relation.name (.keyCount left.length right.length))
  else .ok (left.zip right)

/-- The table that a relation needs. -/
def linkedTable (registry : Registry) (source : String) (relation : Relation) (name : String) :
    Except SchemaError Table :=
  match registry.get? name with
  | some table => .ok table
  | none => .error (.unknownTarget source relation.name name)

/-- The target of a relation and the columns by which it is linked. -/
def relationKeys (registry : Registry) (source : Table) (relation : Relation) :
    Except SchemaError RelationKeys := do
  let target ← registry.linkedTable source.name relation relation.target
  match relation.kind with
  | .belongsTo =>
    let referenced ← keyOrPrimary relation.references target source.name relation
    let pairs ← pairKeys referenced relation.foreignKey source.name relation
    return .direct target pairs
  | .hasOne | .hasMany =>
    let referenced ← keyOrPrimary relation.references source source.name relation
    let pairs ← pairKeys relation.foreignKey referenced source.name relation
    return .direct target pairs
  | .belongsToMany =>
    match relation.pivot with
    | none => .error (.invalidRelation source.name relation.name .noPivot)
    | some pivot =>
      let pivotTable ← registry.linkedTable source.name relation pivot.table
      let sourceKey ← keyOrPrimary [] source source.name relation
      let targetKey ← keyOrPrimary relation.references target source.name relation
      let sourcePairs ← pairKeys pivot.sourceKey sourceKey source.name relation
      let targetPairs ← pairKeys targetKey pivot.targetKey source.name relation
      return .pivot pivotTable target sourcePairs targetPairs

/-- The relation of that name and its keys. -/
def relation (registry : Registry) (source : Table) (name : String) :
    Except QueryError (Relation × RelationKeys) :=
  match source.relation? name with
  | none => .error (.unknownRelation source.name name)
  | some relation =>
    match registry.relationKeys source relation with
    | .ok keys => .ok (relation, keys)
    | .error error => .error (.schema error)

/-! ### Validation -/

/-- Checks that a table has a column. -/
def checkColumn (context : String) (table : Table) (column : String) : Except SchemaError Unit :=
  if table.hasColumn column then .ok ()
  else .error (.unknownKeyColumn context table.name column)

/-- Checks the columns of key pairs, pair by pair, left before right. -/
def checkPairs (context : String) (left right : Table) (pairs : KeyPairs) : Except SchemaError Unit :=
  pairs.forM fun (l, r) => do
    checkColumn context left l
    checkColumn context right r

/-- Checks a relation: its keys can be determined, and their columns exist. -/
def checkRelation (registry : Registry) (source : Table) (relation : Relation) :
    Except SchemaError Unit := do
  let context := source.name ++ "." ++ relation.name
  match ← registry.relationKeys source relation with
  | .direct target pairs => checkPairs context target source pairs
  | .pivot pivot target sourcePairs targetPairs =>
    checkPairs context pivot source sourcePairs
    checkPairs context target pivot targetPairs

/-- Checks a table: its primary key first, then its relations. -/
def checkTable (registry : Registry) (table : Table) : Except SchemaError Unit := do
  table.primaryKey.forM (checkColumn (table.name ++ ".primary_key") table)
  table.relations.forM (registry.checkRelation table)

/-- Checks that all keys and targets that the tables mention exist. -/
def validate (registry : Registry) : Except SchemaError Unit :=
  registry.tables.forM registry.checkTable

end Registry

end RelQuery
