/-
Module: RelQuery.Schema.Toml
Purpose: Table definitions in TOML. A key is one column name or a list of them, and all but the names of
  things and the kinds of relations may be left out.
Main exports: Registry.ofToml
-/
import RelQuery.Schema.Registry
import RelQuery.Toml.Reader
import RelQuery.Toml.Record

namespace RelQuery

open Toml (asString? asBool? asList? asStrings? enumName? fields? required withDefault)

/-- Whether a load strategy of that name is the lazy one. -/
def lazyOfName? : String → Option Bool
  | "eager" => some false
  | "lazy" => some true
  | _ => none

/-- The table and column of a foreign key. -/
def columnRefOfToml? (value : Toml) : Option (String × String) := do
  let fields ← fields? ["table", "column"] value
  let table ← required fields "table" asString?
  let column ← required fields "column" asString?
  return (table, column)

/-- A column. -/
def Column.ofToml? (value : Toml) : Option Column := do
  let fields ← fields? ["name", "type", "nullable", "default", "unique", "references"] value
  let name ← required fields "name" asString?
  let type ← withDefault fields "type" .text fun v => do ColumnType.ofName? (← enumName? v)
  let nullable ← withDefault fields "nullable" false asBool?
  let default ← withDefault fields "default" none fun v => some <$> asString? v
  let unique ← withDefault fields "unique" false asBool?
  let references ← withDefault fields "references" none fun v => some <$> columnRefOfToml? v
  return ⟨name, type, nullable, default, unique, references⟩

/-- A pivot table, whose keys must be given. -/
def Pivot.ofToml? (value : Toml) : Option Pivot := do
  let fields ← fields? ["table", "source_key", "target_key"] value
  let table ← required fields "table" asString?
  let sourceKey ← required fields "source_key" asStrings?
  let targetKey ← required fields "target_key" asStrings?
  return ⟨table, sourceKey, targetKey⟩

/-- A relation. -/
def Relation.ofToml? (value : Toml) : Option Relation := do
  let fields ←
    fields? ["name", "kind", "target", "foreign_key", "references", "pivot", "load"] value
  let name ← required fields "name" asString?
  let kind ← required fields "kind" fun v => do RelationKind.ofName? (← enumName? v)
  let target ← required fields "target" asString?
  let foreignKey ← withDefault fields "foreign_key" [] asStrings?
  let references ← withDefault fields "references" [] asStrings?
  let pivot ← withDefault fields "pivot" none fun v => some <$> Pivot.ofToml? v
  let lazy ← withDefault fields "load" false fun v => do lazyOfName? (← enumName? v)
  return ⟨name, kind, target, foreignKey, references, pivot, lazy⟩

/-- A table. A column that is given twice is defined by the last of them, at the place of the first. -/
def Table.ofToml? (value : Toml) : Option Table := do
  let fields ← fields? ["name", "schema", "primary_key", "columns", "relations"] value
  let name ← required fields "name" asString?
  let schema ← withDefault fields "schema" none fun v => some <$> asString? v
  let primaryKey ← withDefault fields "primary_key" [] asStrings?
  let columns ← withDefault fields "columns" [] (asList? Column.ofToml?)
  let relations ← withDefault fields "relations" [] (asList? Relation.ofToml?)
  return ⟨name, schema, columns.foldl addColumn [], relations, primaryKey⟩

/-- The tables of a schema text. -/
def tablesOfText? (text : String) : Option (List Table) := do
  let members ← Toml.ofText? text
  withDefault members "tables" [] (asList? Table.ofToml?)

/-- The registry of a schema text. Its tables are registered in order, then all are checked. -/
def Registry.ofToml (text : String) : Except SchemaError Registry :=
  match tablesOfText? text with
  | none => .error .malformed
  | some tables => do
    let registry ← Registry.empty.registerAll tables
    registry.validate
    return registry

end RelQuery
