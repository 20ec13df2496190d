/-
Module: RelQuery.Proofs.Select.Sound
Purpose: What a validated registry guarantees for every statement over one of its tables: building it does
  not fail for the definitions of tables, and every column that it refers to exists in the one item that
  exposes the qualifier.
Main exports: TableRef.HasColumn, Catalogue.ofColumns, Selection.sound_of_validate
-/
import RelQuery.Proofs.Select.Failures
import RelQuery.Proofs.Select.References

namespace RelQuery

open Sql

/-- The item has a column of that name: a stored table by its definition, a derived one because its query
    selects it. -/
def Sql.TableRef.HasColumn (registry : Registry) : TableRef → String → Prop
  | ⟨.stored schema name, _⟩, column =>
    ∃ table, registry.get? name = some table ∧ table.schema = schema ∧ table.hasColumn column = true
  | ⟨.derived query, _⟩, column => ∃ item ∈ query.select, item.label.getD item.expr.columnName = column

section

variable {registry : Registry} {table : Table}

theorem hasColumn_occurrence (found : registry.table table.name = .ok table) (label : String)
    {column : String} (known : table.hasColumn column = true) :
    (occurrence table label).HasColumn registry column :=
  ⟨table, Registry.get?_of_table found, rfl, known⟩

/-- Key columns that exist are offered under any name. -/
theorem KeyPairs.Known.offered {left right : Table} {pairs : KeyPairs}
    (foundLeft : registry.table left.name = .ok left) (foundRight : registry.table right.name = .ok right)
    (known : KeyPairs.Known left right pairs) :
    KeyPairs.Offered (TableRef.HasColumn registry) left right pairs := by
  intro pair member label
  obtain ⟨first, second⟩ := known pair member
  exact ⟨hasColumn_occurrence foundLeft label first, hasColumn_occurrence foundRight label second⟩

/-- In a validated registry, statements range over tables that are found under their names, and their
    items offer the columns that exist. -/
def Catalogue.ofColumns (valid : registry.validate = .ok ()) : Catalogue registry where
  Ranges := fun table => registry.table table.name = .ok table
  Offers := TableRef.HasColumn registry
  column := fun label found known => hasColumn_occurrence found label known
  key := by
    intro table column label found inKey
    have registered := Registry.mem_of_get? (Registry.get?_of_table found)
    exact hasColumn_occurrence found label (Registry.hasColumn_of_validate valid registered column inKey)
  target := fun _ found => (Registry.table_of_relation found).1
  keys := by
    intro table name relation keys found related
    have registered := Registry.mem_of_get? (Registry.get?_of_table found)
    have known := Registry.known_of_relation valid registered related
    obtain ⟨target, through⟩ := Registry.table_of_relation related
    cases keys with
    | direct target pairs => exact KeyPairs.Known.offered target found known
    | pivot middle target sourcePairs targetPairs =>
        have pivot := through middle _ _ _ rfl
        exact ⟨KeyPairs.Known.offered pivot found known.1, KeyPairs.Known.offered target pivot known.2⟩
  output := by
    intro query label item column member named
    exact ⟨item, member, by rw [named, Option.getD_some]⟩

end

/-- In a validated registry, no statement over one of its tables fails for the definitions of tables, and
    every qualifier in a statement is that of exactly one item, which has every column it is used with. -/
theorem Selection.sound_of_validate (registry : Registry) (selection : Selection)
    (valid : registry.validate = .ok ()) (found : registry.table selection.table.name = .ok selection.table) :
    (∀ error, selection.build registry ≠ .error (.schema error)) ∧
    (∀ error, selection.countQuery registry ≠ .error (.schema error)) ∧
    ∀ q, (∃ plan, selection.build registry = .ok ⟨q, plan⟩) ∨ selection.countQuery registry = .ok q →
      ∀ reference ∈ q.references [], ∃ item ∈ reference.items,
        item.exposedName = reference.qualifier ∧
        (∀ other ∈ q.occurrences, other.exposedName = reference.qualifier → other = item) ∧
        ∀ column ∈ reference.column, item.HasColumn registry column := by
  have registered := Registry.mem_of_get? (Registry.get?_of_table found)
  refine ⟨avoids_build valid registered, avoids_countQuery valid registered, ?_⟩
  intro q made reference member
  have nodup : (q.occurrences.map TableRef.exposedName).Nodup := by
    rcases made with ⟨plan, build⟩ | count
    · obtain ⟨names', occupies⟩ := occupies_build build
      exact occupies.nodup
    · obtain ⟨names', occupies⟩ := occupies_countQuery count
      exact occupies.nodup
  have resolves : reference.Resolves (TableRef.HasColumn registry) := by
    rcases made with ⟨plan, build⟩ | count
    · exact resolve_build (Catalogue.ofColumns valid) found build reference member
    · exact resolve_countQuery (Catalogue.ofColumns valid) found count reference member
  obtain ⟨item, usable, exposes, columns⟩ := resolves
  refine ⟨item, usable, exposes, ?_, columns⟩
  intro other listed same
  exact List.inj_on_of_nodup_map nodup listed (Query.items_subset member usable) (same.trans exposes.symm)

/-- The sample registry is valid, so the statement of a page of posts is sound. -/
theorem Blog.sound_pageByAda :
    ∃ built, Blog.pageByAda.build registry = .ok built ∧
      ∀ reference ∈ built.query.references [], ∃ item ∈ reference.items,
        item.exposedName = reference.qualifier ∧
        (∀ other ∈ built.query.occurrences, other.exposedName = reference.qualifier → other = item) ∧
        ∀ column ∈ reference.column, item.HasColumn registry column := by
  have found : ((Blog.pageByAda.build registry).map fun built =>
      (built.query.references []).length).toOption = some 30 := by decide +kernel
  obtain ⟨built, build, -⟩ := exists_of_toOption_map found
  obtain ⟨-, -, resolves⟩ := Selection.sound_of_validate registry Blog.pageByAda (by decide) rfl
  exact ⟨built, build, resolves built.query (.inl ⟨built.plan, build⟩)⟩

end RelQuery
