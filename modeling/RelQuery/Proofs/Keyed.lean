/-
Module: RelQuery.Proofs.Keyed
Purpose: Tables whose rows are told apart by the primary key.
Main exports: Database.Keyed, Database.Keyed.eq_of_compare, Database.Keyed.nodup
-/
import Mathlib.Data.List.Pairwise
import RelQuery.Proofs.Link

namespace RelQuery

open Sql

variable {V : Type}

/-- The rows of a table are told apart by its primary key, of which no part is missing. -/
structure Sql.Database.Keyed (db : Database V) (table : Table) : Prop where
  hasKey : table.primaryKey ≠ []
  present : ∀ row ∈ db.rowsOf table, ∀ column ∈ table.primaryKey,
    db.engine.isNull (db.engine.read row column) = false
  unique : (db.rowsOf table).Pairwise fun a b => ∃ column ∈ table.primaryKey,
    db.engine.compare .eq (db.engine.read a column) (db.engine.read b column) ≠ .yes

namespace Sql.Database.Keyed

variable {db : Database V} {table : Table}

/-- Rows whose keys are equal are the same. -/
theorem eq_of_compare (keyed : db.Keyed table) {a b : Record V} (storedA : a ∈ db.rowsOf table)
    (storedB : b ∈ db.rowsOf table)
    (equal : ∀ column ∈ table.primaryKey,
      db.engine.compare .eq (db.engine.read a column) (db.engine.read b column) = .yes) : a = b := by
  by_contra different
  have together : (db.rowsOf table).Pairwise fun x y =>
      ¬((x = a ∧ y = b) ∨ (x = b ∧ y = a)) := by
    refine keyed.unique.imp ?_
    rintro x y ⟨column, member, unequal⟩ (⟨rfl, rfl⟩ | ⟨rfl, rfl⟩)
    · exact unequal (equal column member)
    · rw [db.engine.compare_comm] at unequal
      exact unequal (equal column member)
  have symmetric : Std.Symm fun x y => ¬((x = a ∧ y = b) ∨ (x = b ∧ y = a)) :=
    ⟨fun _ _ apart same => apart (same.symm.imp And.symm And.symm)⟩
  exact together.forall storedA storedB different (.inl ⟨rfl, rfl⟩)

/-- A table with a key does not repeat a row. -/
theorem nodup (keyed : db.Keyed table) : (db.rowsOf table).Nodup := by
  refine keyed.unique.imp_of_mem ?_
  rintro a b stored - ⟨column, member, unequal⟩ rfl
  exact unequal (db.engine.compare_self _ (keyed.present a stored column member))

end Sql.Database.Keyed

end RelQuery
