/-
Module: RelQuery.Proofs.Schema.Validated
Purpose: What validation guarantees: primary keys and the keys of relations consist of columns, and the
  tables that a relation needs are found under their names.
Main exports: Registry.hasColumn_of_validate, RelationKeys.Known, Registry.known_of_relation,
  Registry.table_of_relation
-/
import RelQuery.Proofs.Schema.Keys

namespace RelQuery

/-- A check of all items of a list checks each. -/
theorem forM_eq_ok {ε α : Type} {f : α → Except ε Unit} {as : List α} (checked : as.forM f = .ok ()) :
    ∀ a ∈ as, f a = .ok () := by
  induction as with
  | nil => simp
  | cons a as ih =>
      have chained : (f a >>= fun _ => as.forM f) = .ok () := checked
      obtain ⟨⟨⟩, first, rest⟩ := Except.bind_eq_ok.1 chained
      intro other member
      rcases List.mem_cons.1 member with rfl | member
      · exact first
      · exact ih rest other member

/-- The pairs consist of columns of two tables. -/
def KeyPairs.Known (left right : Table) (pairs : KeyPairs) : Prop :=
  ∀ pair ∈ pairs, left.hasColumn pair.1 = true ∧ right.hasColumn pair.2 = true

/-- The keys of a relation consist of columns. -/
def RelationKeys.Known (source : Table) : RelationKeys → Prop
  | .direct target pairs => KeyPairs.Known target source pairs
  | .pivot middle target sourcePairs targetPairs =>
    KeyPairs.Known middle source sourcePairs ∧ KeyPairs.Known target middle targetPairs

namespace Registry

variable {registry : Registry} {table : Table}

theorem checkColumn_eq_ok {context column : String} (checked : checkColumn context table column = .ok ()) :
    table.hasColumn column = true := by
  unfold checkColumn at checked
  split at checked
  · assumption
  · contradiction

theorem checkPairs_eq_ok {context : String} {left right : Table} {pairs : KeyPairs}
    (checked : checkPairs context left right pairs = .ok ()) :
    KeyPairs.Known left right pairs := by
  intro pair member
  have each := forM_eq_ok checked pair member
  obtain ⟨⟨⟩, first, second⟩ := Except.bind_eq_ok.1 each
  exact ⟨checkColumn_eq_ok first, checkColumn_eq_ok second⟩

/-- In a validated registry the primary keys consist of columns. -/
theorem hasColumn_of_validate (valid : registry.validate = .ok ())
    (registered : table ∈ registry.tables) : ∀ key ∈ table.primaryKey, table.hasColumn key = true := by
  intro key member
  have checked := forM_eq_ok valid table registered
  obtain ⟨⟨⟩, keysChecked, -⟩ := Except.bind_eq_ok.1 checked
  exact checkColumn_eq_ok (forM_eq_ok keysChecked key member)

/-- In a validated registry the keys of relations consist of columns. -/
theorem known_of_relation {name : String} {relation : Relation} {keys : RelationKeys}
    (valid : registry.validate = .ok ()) (registered : table ∈ registry.tables)
    (found : registry.relation table name = .ok (relation, keys)) : keys.Known table := by
  have checked := forM_eq_ok valid table registered
  obtain ⟨⟨⟩, -, relationsChecked⟩ := Except.bind_eq_ok.1 checked
  have checks := forM_eq_ok relationsChecked relation (mem_relations_of_relation found)
  simp only [checkRelation, (relation_eq_ok found).2] at checks
  cases keys with
  | direct target pairs => exact checkPairs_eq_ok checks
  | pivot pivot target sourcePairs targetPairs =>
      change (checkPairs _ pivot table sourcePairs >>= fun _ => checkPairs _ target pivot targetPairs) =
        .ok () at checks
      obtain ⟨⟨⟩, first, second⟩ := Except.bind_eq_ok.1 checks
      exact ⟨checkPairs_eq_ok first, checkPairs_eq_ok second⟩

/-- A table that was found is found under its own name. -/
theorem table_of_get? {name : String} (found : registry.get? name = some table) :
    registry.table table.name = .ok table := by
  have named : table.name = name := by simpa using List.find?_some found
  rw [Registry.table, named, found]

theorem get?_of_table {name : String} (found : registry.table name = .ok table) :
    registry.get? name = some table := by
  unfold Registry.table at found
  split at found
  · rename_i stored registered
    obtain rfl := Except.ok.inj found
    exact registered
  · contradiction

/-- The target of a relation is found under its name, and so is the pivot table. -/
theorem table_of_relation {name : String} {relation : Relation} {keys : RelationKeys}
    (found : registry.relation table name = .ok (relation, keys)) :
    registry.table keys.target.name = .ok keys.target ∧
      ∀ pivot target sourcePairs targetPairs, keys = .pivot pivot target sourcePairs targetPairs →
        registry.table pivot.name = .ok pivot := by
  rcases relationKeys_cases (relation_eq_ok found).2 with
    ⟨-, target, pairs, rfl, -, registered⟩ |
      ⟨-, pivot, target, sourcePairs, targetPairs, rfl, -, -, registered, through, middle⟩
  · exact ⟨table_of_get? registered, by simp⟩
  · refine ⟨table_of_get? registered, ?_⟩
    rintro _ _ _ _ ⟨⟩
    exact table_of_get? middle

end Registry

end RelQuery
