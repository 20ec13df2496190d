/-
Module: RelQuery.Proofs.Hydrate.RowKeys
Purpose: Rows have the same key exactly if they have the same values in the columns that identify an occurrence.
  So no two entities are merged, whatever their keys hold, and none is divided.
Main exports: rowKey_eq_none_iff, rowKey_of_present, rowKey_inj
-/
import RelQuery.Hydrate
import RelQuery.Proofs.Json.Injective

namespace RelQuery

variable {projection : Projection} {a b : Row}

/-- An occurrence is absent from a row exactly if all values that identify it are null. -/
theorem rowKey_eq_none_iff {row : Row} :
    rowKey projection row = none ↔ ∀ column ∈ projection.identity, projection.cell row column = .null := by
  simp [rowKey, Json.isNull_iff]

/-- The key of an occurrence that is present is the text of the values that identify it. -/
theorem rowKey_of_present {row : Row} (present : rowKey projection row ≠ none) :
    rowKey projection row = some (Json.array (projection.identity.map (projection.cell row))).text := by
  rw [rowKey] at present ⊢
  split at present
  · contradiction
  · rw [if_neg (by assumption)]

/-- Rows have the same key exactly if the values that identify the occurrence, those of the primary key or of
    all selected columns of a table without one, are the same in each position. They are compared as they are
    written: objects with the order of their members, and a zero with its sign. What is no finite number has
    no JSON form, so that no row holds it. -/
theorem rowKey_inj {names : List String}
    (identify : names = if projection.key = [] then projection.columns.map PlanColumn.name else projection.key)
    (left : ∀ column ∈ names, (projection.cell a column).IsFinite)
    (right : ∀ column ∈ names, (projection.cell b column).IsFinite) :
    rowKey projection a = rowKey projection b ↔
      ∀ column ∈ names, projection.cell a column = projection.cell b column := by
  have identity : projection.identity = names := by
    rw [identify, Projection.identity]
    simp only [List.isEmpty_iff]
  rw [← identity] at left right ⊢
  constructor
  · intro same
    by_cases absent : rowKey projection a = none
    · intro column member
      rw [rowKey_eq_none_iff.1 absent column member,
        rowKey_eq_none_iff.1 (same.symm.trans absent) column member]
    · have texts := same
      rw [rowKey_of_present absent, rowKey_of_present (same ▸ absent), Option.some.injEq,
        Json.text_inj (Json.isFinite_array.2 (List.forall_mem_map.2 left))
          (Json.isFinite_array.2 (List.forall_mem_map.2 right)), Json.array.injEq] at texts
      exact List.map_inj_left.1 texts
  · intro same
    rw [rowKey, rowKey, List.map_congr_left same]

/-- Shelves, told apart by the room, the mark and the size. -/
def shelves : Projection where
  table := "shelves"
  label := "shelves"
  outputPath := "shelf"
  key := ["room", "mark", "size"]
  columns := []
  includes := []
  lazy := []

/-- The same of a table without primary key. -/
def looseShelves : Projection :=
  { shelves with key := [], columns := [⟨"room", .text⟩, ⟨"mark", .text⟩, ⟨"size", .json⟩] }

/-- A row of a shelf. -/
def shelfRow (room mark : String) : Row :=
  [("shelf__room", .string room), ("shelf__mark", .string mark),
    ("shelf__size", .array [.number (.float 0.5), .object [("high", .int 2)]])]

/-- Without escapes, both keys would read `["a","b","c",…]`. -/
theorem rowKey_quoted :
    let names := ["room", "mark", "size"]
    let quotedRoom := shelfRow "a\",\"b" "c"
    let quotedMark := shelfRow "a" "b\",\"c"
    names = shelves.key ∧ looseShelves.key = [] ∧ names = looseShelves.columns.map PlanColumn.name ∧
      (∀ column ∈ names, (shelves.cell quotedRoom column).IsFinite) ∧
      (∀ column ∈ names, (shelves.cell quotedMark column).IsFinite) ∧
      (rowKey shelves quotedRoom = rowKey shelves quotedMark ↔
        ∀ column ∈ names, shelves.cell quotedRoom column = shelves.cell quotedMark column) ∧
      rowKey shelves quotedRoom ≠ rowKey shelves quotedMark ∧
      rowKey looseShelves quotedRoom ≠ rowKey looseShelves quotedMark := by
  intro names quotedRoom quotedMark
  have left : ∀ column ∈ names, (shelves.cell quotedRoom column).IsFinite := by decide +kernel
  have right : ∀ column ∈ names, (shelves.cell quotedMark column).IsFinite := by decide +kernel
  have keys := @rowKey_inj shelves _ _ names rfl left right
  have looseKeys := @rowKey_inj looseShelves _ _ names rfl left right
  have rooms : ¬ Json.string "a\",\"b" = Json.string "a" := fun same =>
    absurd (Json.string.inj same) (by decide)
  refine ⟨rfl, rfl, rfl, left, right, keys, fun same => ?_, fun same => ?_⟩
  · exact rooms (keys.1 same "room" (by decide))
  · exact rooms (looseKeys.1 same "room" (by decide))

end RelQuery
