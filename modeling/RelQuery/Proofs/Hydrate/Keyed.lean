/-
Module: RelQuery.Proofs.Hydrate.Keyed
Purpose: The text of a primary key tells the rows of a table apart, so that grouping by it finds each row
  once, in the order in which the rows are first seen.
Main exports: Rendering.keyText, Database.Keyed.keyText_injective, keysOf_firstSeen, exists_order_of_keys
-/
import RelQuery.Proofs.Hydrate.Nest
import RelQuery.Proofs.Json.Delimited
import RelQuery.Proofs.Plan.Depicts

namespace RelQuery

open Sql

variable {V : Type}

/-! ### Groups in order -/

section

variable {ρ : Type} {key : ρ → Option String}

theorem keysOf_cons_none {row : ρ} {rows : List ρ} (missing : key row = none) :
    keysOf key (row :: rows) = keysOf key rows := by
  simp [keysOf, missing]

theorem keysOf_cons_some {row : ρ} (rows : List ρ) {k : String} (found : key row = some k) :
    ∃ others, (keysOf key (row :: rows)) = k :: others ∧ others.Sublist (keysOf key rows) ∧ k ∉ others := by
  refine ⟨(keysOf key rows).filter fun other => !other == k, ?_, List.filter_sublist, by simp⟩
  simp only [keysOf, List.filterMap_cons, found, List.eraseDups_cons, eraseDups_filter]

/-- The keys of sorted rows are sorted by their first rows: some row of an earlier key stands before all
    rows of a later one. -/
theorem keysOf_firstSeen {before : ρ → ρ → Prop} {rows : List ρ} (sorted : rows.Pairwise before) :
    (keysOf key rows).Pairwise fun j k =>
      ∃ row ∈ rows, key row = some j ∧ ∀ other ∈ rows, key other = some k → before row other := by
  induction rows with
  | nil => simp [keysOf]
  | cons row rows ih =>
      obtain ⟨first, sorted⟩ := List.pairwise_cons.1 sorted
      cases found : key row with
      | none =>
          rw [keysOf_cons_none found]
          refine (ih sorted).imp ?_
          rintro j k ⟨witness, member, keyed, earlier⟩
          refine ⟨witness, List.mem_cons_of_mem _ member, keyed, ?_⟩
          simpa [found] using earlier
      | some i =>
          obtain ⟨others, split, sub, fresh⟩ := keysOf_cons_some rows found
          rw [split, List.pairwise_cons]
          constructor
          · intro k member
            refine ⟨row, List.mem_cons_self, found, fun other inside keyed => ?_⟩
            rcases List.mem_cons.1 inside with rfl | inside
            · obtain rfl : i = k := by simpa [found] using keyed
              exact absurd member fresh
            · exact first other inside
          · refine ((ih sorted).sublist sub).imp_of_mem ?_
            rintro j k - member ⟨witness, inside, keyed, earlier⟩
            refine ⟨witness, List.mem_cons_of_mem _ inside, keyed, fun other inside keyed => ?_⟩
            rcases List.mem_cons.1 inside with rfl | inside
            · obtain rfl : i = k := by simpa [found] using keyed
              exact absurd member fresh
            · exact earlier other inside keyed

end

/-- Items that have different keys can be put into the order of their keys. -/
theorem exists_order_of_keys {α : Type} {key : α → Option String} {keys : List String} {items : List α}
    (distinctKeys : keys.Nodup) (distinct : items.Nodup)
    (injective : ∀ a ∈ items, ∀ b ∈ items, key a = key b → a = b)
    (known : ∀ k ∈ keys, ∃ a ∈ items, key a = some k)
    (complete : ∀ a ∈ items, ∃ k ∈ keys, key a = some k) :
    ∃ order : List α, order.Perm items ∧ List.Forall₂ (fun a k => key a = some k) order keys := by
  have chosen : ∃ order : List α, (∀ a ∈ order, a ∈ items) ∧
      List.Forall₂ (fun a k => key a = some k) order keys := by
    clear distinctKeys complete
    induction keys with
    | nil => exact ⟨[], by simp, .nil⟩
    | cons k keys ih =>
        obtain ⟨known, others⟩ := List.forall_mem_cons.1 known
        obtain ⟨a, member, keyed⟩ := known
        obtain ⟨order, inside, matched⟩ := ih others
        exact ⟨a :: order, List.forall_mem_cons.2 ⟨member, inside⟩, .cons keyed matched⟩
  obtain ⟨order, inside, matched⟩ := chosen
  have mapped : order.map key = keys.map some :=
    List.forall₂_eq_eq_eq ▸ (List.forall₂_map_left_iff.2 (List.forall₂_map_right_iff.2 matched))
  have distinctOrder : order.Nodup := by
    refine List.Nodup.of_map key ?_
    rw [mapped]
    exact distinctKeys.map fun _ _ => Option.some.inj
  refine ⟨order, (List.perm_ext_iff_of_nodup distinctOrder distinct).2 fun a => ?_, matched⟩
  refine ⟨inside a, fun member => ?_⟩
  obtain ⟨k, listed, keyed⟩ := complete a member
  have found : some k ∈ order.map key := mapped ▸ List.mem_map_of_mem listed
  obtain ⟨b, ordered, same⟩ := List.mem_map.1 found
  rwa [injective a member b (inside b ordered) (keyed.trans same.symm)]

/-! ### Keys of records -/

section

variable {engine : Engine V} (render : Rendering engine)

/-- The text of some columns of a record; nothing if all of them are missing. -/
def Rendering.keyText (key : List String) (record : Record V) : Option String :=
  let values := key.map fun column => render.toJson (engine.read record column)
  if values.all Json.isNull then none else some (Json.array values).text

/-- An absent record has no key. -/
theorem keyText_absent {key : List String} {record : Record V} (absent : engine.IsAbsent record) :
    render.keyText key record = none := by
  simp [Rendering.keyText, render.isNull_toJson, absent.isNull]

end

namespace Sql.Database.Keyed

variable {db : Database V} {table : Table} (render : Rendering db.engine)

/-- A stored row has a key. -/
theorem keyText_isSome (keyed : db.Keyed table) {row : Record V} (stored : row ∈ db.rowsOf table) :
    (render.keyText table.primaryKey row).isSome = true := by
  obtain ⟨column, columns, split⟩ := List.exists_cons_of_ne_nil keyed.hasKey
  have present := keyed.present row stored column (by simp [split])
  simp [Rendering.keyText, split, render.isNull_toJson, present]

/-- Rows with the same key have equal values in its columns. -/
theorem compare_of_keyText (keyed : db.Keyed table) {a b : Record V} (storedA : a ∈ db.rowsOf table)
    (storedB : b ∈ db.rowsOf table)
    (same : render.keyText table.primaryKey a = render.keyText table.primaryKey b) :
    ∀ column ∈ table.primaryKey,
      db.engine.compare .eq (db.engine.read a column) (db.engine.read b column) = .yes := by
  intro column member
  have text := same
  have someA := keyed.keyText_isSome render storedA
  have someB := keyed.keyText_isSome render storedB
  simp only [Rendering.keyText] at text someA someB
  split at someA
  · simp at someA
  split at someB
  · simp at someB
  rw [if_neg (by assumption), if_neg (by assumption), Option.some.injEq] at text
  have texts := Json.text_array_injective (by simp) text
  simp only [List.map_map, List.map_inj_left, Function.comp_apply] at texts
  exact render.faithful _ _ (keyed.present a storedA column member) (texts column member)

/-- The key tells rows apart. -/
theorem keyText_injective (keyed : db.Keyed table) {a b : Record V} (storedA : a ∈ db.rowsOf table)
    (storedB : b ∈ db.rowsOf table)
    (same : render.keyText table.primaryKey a = render.keyText table.primaryKey b) : a = b :=
  keyed.eq_of_compare storedA storedB (keyed.compare_of_keyText render storedA storedB same)

end Sql.Database.Keyed

end RelQuery
