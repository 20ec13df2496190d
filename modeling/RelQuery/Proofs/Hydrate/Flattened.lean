/-
Module: RelQuery.Proofs.Hydrate.Flattened
Purpose: Hydrating undoes what left joins do to nested objects. Flattening an object writes it into flat
  rows, one for each way to choose a related object of each joined relation, with nulls in place of those
  that are not there; the rows of a whole forest are hydrated to the forest again.
Main exports: Projection.flatten, Projection.Shapes, cell_flatten, seenAlike_flatten, hydrate_flatten
-/
import Mathlib.Data.List.Induction
import RelQuery.Proofs.Hydrate.FirstSeen
import RelQuery.Proofs.Hydrate.Objects

namespace RelQuery

open Json (Members)

/-! ### Flattening -/

/-- The members of an object; other values have none. -/
def Json.members : Json → Members
  | .object members => members
  | _ => []

/-- The related objects that stand in the field of a relation: those of an array, or the only one. -/
def Json.related : Json → List Json
  | .array items => items
  | .null => []
  | value => [value]

mutual

/-- The cells of an occurrence and of those below it where a left join finds no row: nulls throughout. -/
def Projection.absentRow : Projection → Row
  | ⟨_, _, outputPath, _, columns, includes, _⟩ =>
    columns.map (fun column => (extendOutputPath outputPath column.name, .null)) ++ absentRowOf includes

/-- The cells of joined relations where left joins find no rows. -/
def absentRowOf : List IncludeNode → Row
  | [] => []
  | ⟨_, _, child⟩ :: nodes => child.absentRow ++ absentRowOf nodes

end

/-- The rows that related objects make: those of each object, or one without any. -/
def relatedRows (flatten : Json → List Row) (absent : Row) : List Json → List Row
  | [] => [absent]
  | objects => objects.flatMap flatten

/-- The cells of the columns of an object. -/
def Projection.ownCells (projection : Projection) (object : Json) : Row :=
  projection.columns.map fun column =>
    (projection.outputName column.name, Members.getD object.members column.name)

mutual

/-- The rows that left joins make of an object: its columns beside each combination of the rows of its
    relations, in which the last relation changes first. -/
def Projection.flatten : Projection → Json → List Row
  | ⟨table, label, outputPath, key, columns, includes, lazy⟩, object =>
    let occurrence : Projection := ⟨table, label, outputPath, key, columns, includes, lazy⟩
    (flattenRelations includes object).map (occurrence.ownCells object ++ ·)

/-- The combinations of the rows of joined relations. -/
def flattenRelations : List IncludeNode → Json → List Row
  | [], _ => [[]]
  | ⟨relation, _, child⟩ :: nodes, object =>
    (relatedRows child.flatten child.absentRow (Members.getD object.members relation).related).flatMap
      fun block => (flattenRelations nodes object).map (block ++ ·)

end

/-! ### Objects of a plan -/

/-- The values of an object by which it is told apart from others. Columns that are not selected have
    none. -/
def Projection.keyOf (projection : Projection) (object : Json) : List Json :=
  projection.identity.map fun column =>
    if column ∈ projection.columns.map PlanColumn.name then Members.getD object.members column else .null

/-- Objects whose keys are told apart by their texts. -/
def Projection.DistinctKeys (projection : Projection) (objects : List Json) : Prop :=
  (objects.map fun object => (projection.keyOf object).map Json.text).Nodup

mutual

/-- The objects that a plan shapes: they have a field for each column and for each joined relation, in
    this order, values in the form of their types, a key that is not null throughout, and related objects
    of the same kind. -/
def Projection.Shapes : Projection → Json → Prop
  | ⟨table, label, outputPath, key, columns, includes, lazy⟩, object =>
    let occurrence : Projection := ⟨table, label, outputPath, key, columns, includes, lazy⟩
    (∃ members, object = .object members ∧
      members.map Prod.fst =
        (columns.map PlanColumn.name ++ includes.map IncludeNode.relation).eraseDups) ∧
    (∀ column ∈ columns,
      coerce column.type (Members.getD object.members column.name) =
        Members.getD object.members column.name) ∧
    (∃ value ∈ occurrence.keyOf object, value.isNull = false) ∧
    shapesRelations includes object

/-- The fields of joined relations: an array of objects with distinct keys, or an object or null. -/
def shapesRelations : List IncludeNode → Json → Prop
  | [], _ => True
  | ⟨relation, kind, child⟩ :: nodes, object =>
    (if kind.isToMany then
      ∃ items, Members.getD object.members relation = .array items ∧
        (∀ item ∈ items, child.Shapes item) ∧ child.DistinctKeys items
    else
      Members.getD object.members relation = .null ∨
        child.Shapes (Members.getD object.members relation)) ∧
    shapesRelations nodes object

end

/-- The objects that a plan shapes, told apart by their keys. -/
def Projection.ShapesAll (projection : Projection) (forest : List Json) : Prop :=
  (∀ object ∈ forest, projection.Shapes object) ∧ projection.DistinctKeys forest

/-! ### Names -/

theorem extendOutputPath_injective {path a b : String}
    (same : extendOutputPath path a = extendOutputPath path b) : a = b := by
  unfold extendOutputPath at same
  split at same
  · exact same
  · exact (String.append_right_inj _).1 same

mutual

/-- An absent occurrence has cells under the names of its plan, -/
theorem names_absentRow : ∀ projection : Projection,
    projection.absentRow.map Prod.fst ⊆ projection.outputNames
  | ⟨table, label, outputPath, key, columns, includes, lazy⟩ => by
      rw [Projection.absentRow, Projection.outputNames_eq, List.map_append]
      refine List.append_subset.2 ⟨?_, ?_⟩
      · refine List.Subset.trans ?_ (List.subset_append_left _ _)
        intro name member
        obtain ⟨cell, inside, rfl⟩ := List.mem_map.1 member
        obtain ⟨column, selected, rfl⟩ := List.mem_map.1 inside
        exact List.mem_map_of_mem (List.mem_append_left _ (List.mem_map_of_mem selected))
      · exact List.Subset.trans (names_absentRowOf includes) (List.subset_append_right _ _)

theorem names_absentRowOf : ∀ nodes : List IncludeNode,
    (absentRowOf nodes).map Prod.fst ⊆ outputNamesOf nodes
  | [] => List.Subset.refl _
  | ⟨relation, kind, child⟩ :: nodes => by
      rw [absentRowOf, outputNamesOf, List.map_append]
      refine List.append_subset.2 ⟨?_, ?_⟩
      · exact List.Subset.trans (names_absentRow child) (List.subset_append_left _ _)
      · exact List.Subset.trans (names_absentRowOf nodes) (List.subset_append_right _ _)

end

mutual

/-- all of them null. -/
theorem value_absentRow : ∀ projection : Projection, ∀ cell ∈ projection.absentRow, cell.2 = .null
  | ⟨table, label, outputPath, key, columns, includes, lazy⟩ => by
      intro cell member
      rw [Projection.absentRow, List.mem_append] at member
      rcases member with own | below
      · obtain ⟨column, -, rfl⟩ := List.mem_map.1 own
        rfl
      · exact value_absentRowOf includes cell below

theorem value_absentRowOf : ∀ nodes : List IncludeNode, ∀ cell ∈ absentRowOf nodes, cell.2 = .null
  | [] => by simp [absentRowOf]
  | ⟨relation, kind, child⟩ :: nodes => by
      intro cell member
      rw [absentRowOf, List.mem_append] at member
      rcases member with first | later
      · exact value_absentRow child cell first
      · exact value_absentRowOf nodes cell later

end

section

variable {flatten : Json → List Row} {absent : Row}

/-- Related rows are an absent one or rows of a related object. -/
theorem mem_relatedRows {objects : List Json} {row : Row}
    (member : row ∈ relatedRows flatten absent objects) :
    row = absent ∨ ∃ object ∈ objects, row ∈ flatten object := by
  cases objects with
  | nil => exact .inl (List.mem_singleton.1 member)
  | cons object objects => exact .inr (List.mem_flatMap.1 member)

theorem relatedRows_ne_nil (inhabited : ∀ object, flatten object ≠ []) (objects : List Json) :
    relatedRows flatten absent objects ≠ [] := by
  cases objects with
  | nil => exact List.cons_ne_nil _ _
  | cons object objects =>
      intro empty
      exact inhabited object (List.append_eq_nil_iff.1 empty).1

end

mutual

/-- The rows of an object have cells under the names of its plan. -/
theorem names_flatten : ∀ (projection : Projection) (object : Json), ∀ row ∈ projection.flatten object,
    row.map Prod.fst ⊆ projection.outputNames
  | ⟨table, label, outputPath, key, columns, includes, lazy⟩, object => by
      intro row member
      rw [Projection.flatten] at member
      obtain ⟨rest, inside, rfl⟩ := List.mem_map.1 member
      rw [Projection.outputNames_eq, List.map_append]
      refine List.append_subset.2 ⟨?_, ?_⟩
      · refine List.Subset.trans ?_ (List.subset_append_left _ _)
        intro name listed
        obtain ⟨cell, own, rfl⟩ := List.mem_map.1 listed
        obtain ⟨column, selected, rfl⟩ := List.mem_map.1 own
        exact List.mem_map_of_mem (List.mem_append_left _ (List.mem_map_of_mem selected))
      · exact List.Subset.trans (names_flattenRelations includes object rest inside)
          (List.subset_append_right _ _)

theorem names_flattenRelations : ∀ (nodes : List IncludeNode) (object : Json),
    ∀ row ∈ flattenRelations nodes object, row.map Prod.fst ⊆ outputNamesOf nodes
  | [], object => by
      intro row member
      rw [List.mem_singleton.1 member]
      exact List.Subset.refl _
  | ⟨relation, kind, child⟩ :: nodes, object => by
      intro row member
      rw [flattenRelations] at member
      obtain ⟨block, related, inside⟩ := List.mem_flatMap.1 member
      obtain ⟨rest, others, rfl⟩ := List.mem_map.1 inside
      rw [outputNamesOf, List.map_append]
      refine List.append_subset.2 ⟨?_, ?_⟩
      · refine List.Subset.trans ?_ (List.subset_append_left _ _)
        rcases mem_relatedRows related with rfl | ⟨item, -, flat⟩
        · exact names_absentRow child
        · exact names_flatten child item block flat
      · exact List.Subset.trans (names_flattenRelations nodes object rest others)
          (List.subset_append_right _ _)

end

mutual

/-- Each object makes a row. -/
theorem flatten_ne_nil : ∀ (projection : Projection) (object : Json), projection.flatten object ≠ []
  | ⟨table, label, outputPath, key, columns, includes, lazy⟩, object => by
      rw [Projection.flatten]
      exact fun empty => flattenRelations_ne_nil includes object (List.map_eq_nil_iff.1 empty)

theorem flattenRelations_ne_nil : ∀ (nodes : List IncludeNode) (object : Json),
    flattenRelations nodes object ≠ []
  | [], _ => List.cons_ne_nil _ _
  | ⟨relation, kind, child⟩ :: nodes, object => by
      rw [flattenRelations]
      intro empty
      have inhabited : relatedRows child.flatten child.absentRow
          (Members.getD object.members relation).related ≠ [] := relatedRows_ne_nil (flatten_ne_nil child) _
      obtain ⟨block, member⟩ := List.exists_mem_of_ne_nil _ inhabited
      have none := List.flatMap_eq_nil_iff.1 empty block member
      exact flattenRelations_ne_nil nodes object (List.map_eq_nil_iff.1 none)

end

/-! ### Cells -/

/-- An absent occurrence has no key. -/
theorem rowKey_absentRow (projection : Projection) : rowKey projection projection.absentRow = none := by
  have null : ∀ name, Members.getD projection.absentRow name = .null := by
    intro name
    rw [Members.getD, Members.get?]
    cases found : projection.absentRow.lookup name with
    | none => rfl
    | some value =>
        obtain ⟨before, after, split, -⟩ := List.lookup_eq_some_iff.1 found
        exact value_absentRow projection (name, value) (by rw [split]; simp)
  simp [rowKey, Projection.cell, null, Json.isNull]

section

variable {projection : Projection} {object : Json} {row : Row} {column : String}

/-- The cell of a selected column holds the field of the column. -/
theorem getD_ownCells (selected : column ∈ projection.columns.map PlanColumn.name) :
    Members.getD (projection.ownCells object) (projection.outputName column) =
      Members.getD object.members column := by
  rw [Projection.ownCells]
  generalize projection.columns = columns at selected
  induction columns with
  | nil => contradiction
  | cons first columns ih =>
      simp only [List.map_cons, Members.getD, Members.get?, List.lookup_cons] at ih ⊢
      by_cases same : column = first.name
      · simp [same]
      · have apart : (projection.outputName column == projection.outputName first.name) = false := by
          refine beq_false_of_ne fun clash => same (extendOutputPath_injective clash)
        rw [apart]
        exact ih (by simpa [same] using selected)

/-- No other column has a cell. -/
theorem not_mem_ownCells (unselected : column ∉ projection.columns.map PlanColumn.name) :
    projection.outputName column ∉ (projection.ownCells object).map Prod.fst := by
  intro member
  obtain ⟨cell, own, same⟩ := List.mem_map.1 member
  obtain ⟨known, selected, rfl⟩ := List.mem_map.1 own
  exact unselected (extendOutputPath_injective same ▸ List.mem_map_of_mem selected)

variable (distinct : projection.outputNames.Nodup) (flat : row ∈ projection.flatten object)

include distinct flat

/-- What an occurrence reads of the rows of its object. -/
theorem cell_flatten (read : column ∈ projection.readColumns) :
    projection.cell row column =
      if column ∈ projection.columns.map PlanColumn.name then Members.getD object.members column
      else .null := by
  obtain ⟨table, label, outputPath, key, columns, includes, lazy⟩ := projection
  rw [Projection.flatten] at flat
  obtain ⟨rest, inside, rfl⟩ := List.mem_map.1 flat
  rw [Projection.outputNames_eq, List.nodup_append'] at distinct
  have elsewhere : extendOutputPath outputPath column ∉ rest.map Prod.fst := fun below =>
    distinct.2.2 (List.mem_map_of_mem read) (names_flattenRelations includes object rest inside below)
  rw [Projection.cell]
  split
  · rename_i selected
    exact (getD_append_of_not_mem_right elsewhere).trans (getD_ownCells selected)
  · rename_i unselected
    refine (getD_append_of_not_mem_left (not_mem_ownCells unselected)).trans ?_
    have absent : rest.lookup (extendOutputPath outputPath column) = none := by
      refine List.lookup_eq_none_iff.2 fun cell member => ?_
      have apart : extendOutputPath outputPath column ≠ cell.1 := fun same =>
        elsewhere (same ▸ List.mem_map_of_mem member)
      simpa using apart
    rw [Members.getD, Members.get?, Projection.outputName, absent, Option.getD_none]

/-- The rows of an object have its key. -/
theorem rowKey_flatten (present : ∃ value ∈ projection.keyOf object, value.isNull = false) :
    rowKey projection row = some (Json.array (projection.keyOf object)).text := by
  have values : projection.identity.map (projection.cell row) = projection.keyOf object :=
    List.map_congr_left fun column member =>
      cell_flatten distinct flat (Projection.identity_subset member)
  have inhabited : (projection.keyOf object).all Json.isNull = false := by
    obtain ⟨value, member, present⟩ := present
    exact List.all_eq_false.2 ⟨value, member, by simp [present]⟩
  simp only [rowKey, values, inhabited, Bool.false_eq_true, if_false]

end

/-! ### Products -/

/-- The rows of the related objects of a joined relation. -/
def IncludeNode.rowsOf (node : IncludeNode) (object : Json) : List Row :=
  relatedRows node.projection.flatten node.projection.absentRow
    (Members.getD object.members node.relation).related

theorem flattenRelations_cons (node : IncludeNode) (nodes : List IncludeNode) (object : Json) :
    flattenRelations (node :: nodes) object =
      (node.rowsOf object).flatMap fun block => (flattenRelations nodes object).map (block ++ ·) := by
  obtain ⟨relation, kind, child⟩ := node
  rw [flattenRelations, IncludeNode.rowsOf]

theorem names_rowsOf (node : IncludeNode) (object : Json) :
    ∀ row ∈ node.rowsOf object, row.map Prod.fst ⊆ node.projection.outputNames := by
  intro row member
  rcases mem_relatedRows member with rfl | ⟨item, -, flat⟩
  · exact names_absentRow node.projection
  · exact names_flatten node.projection item row flat

/-- Combinations of rows show the rows of each joined relation, as if there were no other. -/
theorem seenAlike_flattenRelations (object : Json) {nodes : List IncludeNode}
    (distinct : (outputNamesOf nodes).Nodup) : ∀ node ∈ nodes,
      SeenAlike node.projection.outputNames (flattenRelations nodes object) (node.rowsOf object) := by
  induction nodes with
  | nil => simp
  | cons first nodes ih =>
      obtain ⟨apartFirst, apartRest, disjoint⟩ := List.nodup_append'.1 (show
        (first.projection.outputNames ++ outputNamesOf nodes).Nodup by
          obtain ⟨relation, kind, child⟩ := first
          rwa [outputNamesOf] at distinct)
      intro node member
      rw [flattenRelations_cons]
      rcases List.mem_cons.1 member with rfl | later
      · refine SeenAlike.product_left (flattenRelations_ne_nil nodes object) ?_
        intro rest inside name here there
        exact disjoint here (names_flattenRelations nodes object rest inside there)
      · refine SeenAlike.trans ?_ (ih apartRest node later)
        refine SeenAlike.product_right (relatedRows_ne_nil (flatten_ne_nil _) _) ?_
        intro block inside name there here
        exact disjoint (names_rowsOf first object block inside here) (outputNames_subset later there)

/-- So do the rows of the whole object. -/
theorem seenAlike_flatten {projection : Projection} (distinct : projection.outputNames.Nodup)
    (object : Json) : ∀ node ∈ projection.includes,
      SeenAlike node.projection.outputNames (projection.flatten object) (node.rowsOf object) := by
  intro node member
  obtain ⟨table, label, outputPath, key, columns, includes, lazy⟩ := projection
  rw [Projection.outputNames_eq, List.nodup_append'] at distinct
  obtain ⟨-, apart, disjoint⟩ := distinct
  rw [Projection.flatten]
  refine SeenAlike.trans (SeenAlike.map _ ?_) (seenAlike_flattenRelations object apart node member)
  intro row _ name there
  refine getD_append_of_not_mem_left fun own => ?_
  obtain ⟨cell, listed, rfl⟩ := List.mem_map.1 own
  obtain ⟨column, selected, rfl⟩ := List.mem_map.1 listed
  exact disjoint (List.mem_map_of_mem (List.mem_append_left _ (List.mem_map_of_mem selected)))
    (outputNames_subset member there)

/-! ### Groups -/

section

variable {ρ α : Type} {key : ρ → Option String} {rowsOf : α → List ρ} {keyOf : α → String}
  {items : List α}

/-- Where the rows of each item have a key of its own, grouping finds the items again, -/
theorem keysOf_flatMap (inhabited : ∀ item ∈ items, rowsOf item ≠ [])
    (keyed : ∀ item ∈ items, ∀ row ∈ rowsOf item, key row = some (keyOf item))
    (distinct : (items.map keyOf).Nodup) : keysOf key (items.flatMap rowsOf) = items.map keyOf := by
  have each : ∀ item ∈ items, ((rowsOf item).filterMap key).eraseDups = [keyOf item].eraseDups := by
    intro item member
    have same : (rowsOf item).filterMap key = (rowsOf item).flatMap fun _ => [keyOf item] := by
      rw [List.filterMap_eq_flatMap_toList]
      exact List.flatMap_congr fun row inside => by rw [keyed item member row inside, Option.toList_some]
    rw [same, eraseDups_flatMap_const (inhabited item member)]
  rw [keysOf, List.filterMap_flatMap, eraseDups_flatMap_congr each, ← List.map_eq_flatMap,
    eraseDups_of_nodup distinct]

/-- and for each of them its rows. -/
theorem rowsOfKey_flatMap (keyed : ∀ item ∈ items, ∀ row ∈ rowsOf item, key row = some (keyOf item))
    (distinct : (items.map keyOf).Nodup) :
    ∀ item ∈ items, rowsOfKey key (items.flatMap rowsOf) (keyOf item) = rowsOf item := by
  induction items with
  | nil => simp
  | cons first items ih =>
      obtain ⟨keyedFirst, keyedRest⟩ := List.forall_mem_cons.1 keyed
      obtain ⟨fresh, distinct⟩ := List.nodup_cons.1 distinct
      intro item member
      rw [List.flatMap_cons, rowsOfKey, List.filter_append]
      rcases List.mem_cons.1 member with rfl | later
      · have all : (rowsOf item).filter (fun row => key row == some (keyOf item)) = rowsOf item :=
          List.filter_eq_self.2 fun row inside => by simp [keyedFirst row inside]
        have none : (items.flatMap rowsOf).filter (fun row => key row == some (keyOf item)) = [] := by
          refine List.filter_eq_nil_iff.2 fun row inside => ?_
          obtain ⟨other, listed, inside⟩ := List.mem_flatMap.1 inside
          have apart : keyOf other ≠ keyOf item := fun same => fresh (same ▸ List.mem_map_of_mem listed)
          simpa [keyedRest other listed row inside] using apart
        rw [all, none, List.append_nil]
      · have none : (rowsOf first).filter (fun row => key row == some (keyOf item)) = [] := by
          refine List.filter_eq_nil_iff.2 fun row inside => ?_
          have apart : keyOf first ≠ keyOf item := fun same => fresh (same ▸ List.mem_map_of_mem later)
          simpa [keyedFirst row inside] using apart
        rw [none, List.nil_append]
        exact ih keyedRest distinct item later

end

/-- Objects that are told apart by the texts of their keys are told apart as their rows are. -/
theorem Projection.DistinctKeys.nodup {projection : Projection} {objects : List Json}
    (distinct : projection.DistinctKeys objects) :
    (objects.map fun object => (Json.array (projection.keyOf object)).text).Nodup := by
  rw [Projection.DistinctKeys, List.Nodup, List.pairwise_map] at distinct
  rw [List.Nodup, List.pairwise_map]
  refine distinct.imp fun apart same => apart ?_
  exact Json.text_array_injective (by simp [Projection.keyOf]) same

/-! ### Fields -/

/-- Writing fields under some names, with a value that depends on the name, writes each of them once. -/
theorem foldl_set_names (value : String → Json) (names : List String) :
    names.foldl (fun fields name => Members.set fields name (value name)) [] =
      names.eraseDups.map fun name => (name, value name) := by
  have set_old : ∀ (known : List String) (name : String), name ∈ known →
      Members.set (known.map fun name => (name, value name)) name (value name) =
        known.map fun name => (name, value name) := by
    intro known name member
    induction known with
    | nil => contradiction
    | cons first known ih =>
        rw [List.map_cons, Members.set]
        by_cases same : first = name
        · rw [if_pos same, same]
        · rw [if_neg same, ih (by simpa [Ne.symm same] using member)]
  induction names using List.reverseRecOn with
  | nil => simp
  | append_singleton names name ih =>
      rw [List.foldl_append, ih, List.foldl_cons, List.foldl_nil, List.eraseDups_append, List.removeAll]
      by_cases old : name ∈ names
      · simp [old, set_old _ _ (List.mem_eraseDups.2 old)]
      · rw [set_of_not_mem (by simpa using old)]
        simp [old, List.eraseDups_cons]

/-- An object with distinct names consists of what is found under these. -/
theorem eq_map_getD {members : Members} (distinct : (members.map Prod.fst).Nodup) :
    (members.map Prod.fst).map (fun name => (name, Members.getD members name)) = members := by
  rw [List.map_map]
  refine (List.map_congr_left fun member inside => ?_).trans (List.map_id members)
  rw [Function.comp_apply, getD_of_mem distinct inside, id]

/-! ### Hydrating flattened objects -/

/-- The fields of an object before those of its relations are the ones that it has for the columns. -/
theorem ownFields_flatten {projection : Projection} {object : Json} {row : Row}
    (eager : projection.hasLazy = false) (distinct : projection.outputNames.Nodup)
    (flat : row ∈ projection.flatten object) (shapes : projection.Shapes object) :
    ownFields projection row = (projection.columns.map PlanColumn.name).foldl
      (fun fields name => Members.set fields name (Members.getD object.members name)) [] := by
  have cells : ∀ column ∈ projection.readColumns, _ := fun column => cell_flatten distinct flat
  obtain ⟨table, label, outputPath, key, columns, includes, lazy⟩ := projection
  simp only [Projection.hasLazy, Bool.or_eq_false_iff, Bool.not_eq_false', List.isEmpty_iff] at eager
  rw [Projection.Shapes] at shapes
  obtain ⟨-, coerced, -⟩ := shapes
  rw [ownFields, eager.1, List.foldl_nil, List.foldl_map]
  refine List.foldl_ext _ _ _ fun fields column member => ?_
  have selected : column.name ∈ columns.map PlanColumn.name := List.mem_map_of_mem member
  rw [← eager.1, cells column.name (List.mem_append_left _ selected), if_pos selected,
    coerced column member]

section

variable {child : Projection} {item : Json}

/-- The key of a shaped object is not null throughout. -/
theorem Projection.Shapes.present (shapes : child.Shapes item) :
    ∃ value ∈ child.keyOf item, value.isNull = false := by
  cases child
  rw [Projection.Shapes] at shapes
  exact shapes.2.2.1

/-- Shaped objects are objects. -/
theorem Projection.Shapes.related (shapes : child.Shapes item) : item.related = [item] := by
  cases child
  rw [Projection.Shapes] at shapes
  obtain ⟨⟨members, rfl, -⟩, -⟩ := shapes
  rfl

variable {rows : List Row} {relation : String} {kind : RelationKind} {object : Json}
  (distinct : child.outputNames.Nodup)
  (each : ∀ item, child.Shapes item → (Cell.nest child (child.flatten item)).value child = item)

include distinct each

/-- The rows of objects with distinct keys are grouped to these objects. -/
theorem values_flatMap {items : List Json} (shapes : child.ShapesAll items) :
    (keysOf (rowKey child) (items.flatMap child.flatten)).map (fun k =>
      (Cell.nest child (rowsOfKey (rowKey child) (items.flatMap child.flatten) k)).value child) = items := by
  have keyed : ∀ item ∈ items, ∀ row ∈ child.flatten item,
      rowKey child row = some (Json.array (child.keyOf item)).text := fun item member row flat =>
    rowKey_flatten distinct flat (shapes.1 item member).present
  have apart := shapes.2.nodup
  rw [keysOf_flatMap (fun item _ => flatten_ne_nil child item) keyed apart, List.map_map]
  refine (List.map_congr_left fun item member => ?_).trans (List.map_id items)
  rw [Function.comp_apply, rowsOfKey_flatMap keyed apart item member, each item (shapes.1 item member), id]

/-- The rows of a joined relation are nested to what stands in its field. -/
theorem joinedValue_rowsOf (shapes : shapesRelations [⟨relation, kind, child⟩] object) :
    joinedValue kind child (IncludeNode.rowsOf ⟨relation, kind, child⟩ object) =
      Members.getD object.members relation := by
  simp only [shapesRelations, and_true] at shapes
  rw [joinedValue]
  cases many : kind.isToMany with
  | true =>
      simp only [many, if_true] at shapes ⊢
      obtain ⟨items, held, shaped, apart⟩ := shapes
      rw [IncludeNode.rowsOf, held, Json.related]
      congr 1
      cases items with
      | nil => simp [relatedRows, keysOf, rowKey_absentRow]
      | cons item items => exact values_flatMap distinct each ⟨shaped, apart⟩
  | false =>
      simp only [many, Bool.false_eq_true, if_false] at shapes ⊢
      rcases shapes with null | shaped
      · have made : IncludeNode.rowsOf ⟨relation, kind, child⟩ object = [child.absentRow] := by
          rw [IncludeNode.rowsOf, null, Json.related, relatedRows]
        simp [made, presentRows, rowKey_absentRow, null]
      · have made : IncludeNode.rowsOf ⟨relation, kind, child⟩ object =
            child.flatten (Members.getD object.members relation) := by
          rw [IncludeNode.rowsOf, shaped.related, relatedRows]
          · simp
          · simp
        have present : presentRows child (child.flatten (Members.getD object.members relation)) =
            child.flatten (Members.getD object.members relation) :=
          List.filter_eq_self.2 fun row flat => by rw [rowKey_flatten distinct flat shaped.present]; rfl
        have inhabited : (child.flatten (Members.getD object.members relation)).isEmpty = false := by
          simpa using flatten_ne_nil child _
        rw [made, present, inhabited, if_neg Bool.false_ne_true, each _ shaped]

end

mutual

/-- The rows of an object are nested to the object. -/
theorem value_nest_flatten : ∀ (projection : Projection) (object : Json), projection.hasLazy = false →
    projection.outputNames.Nodup → projection.Shapes object →
      (Cell.nest projection (projection.flatten object)).value projection = object
  | ⟨table, label, outputPath, key, columns, includes, lazy⟩, object, eager, distinct, shapes => by
      have alike := seenAlike_flatten distinct object
      have own : ownFields ⟨table, label, outputPath, key, columns, includes, lazy⟩
          ((Projection.flatten ⟨table, label, outputPath, key, columns, includes, lazy⟩ object).headD []) =
          (columns.map PlanColumn.name).foldl
            (fun fields name => Members.set fields name (Members.getD object.members name)) [] := by
        refine ownFields_flatten eager distinct ?_ shapes
        rw [List.headD_eq_head?_getD, List.head?_eq_some_head (flatten_ne_nil _ object), Option.getD_some]
        exact List.head_mem _
      rw [Projection.outputNames_eq, List.nodup_append'] at distinct
      simp only [Projection.hasLazy, Bool.or_eq_false_iff] at eager
      rw [Projection.Shapes] at shapes
      obtain ⟨⟨members, rfl, names⟩, -, -, related⟩ := shapes
      rw [Cell.nest, Cell.value, own, slotsOver_nest_rowsOf includes _ _ _ eager.2 distinct.2.1 related alike,
        ← List.foldl_append, foldl_set_names, ← names]
      exact congrArg Json.object (eq_map_getD (names ▸ nodup_eraseDups _))

/-- The slots of joined relations are filled with what stands in the fields of the relations. -/
theorem slotsOver_nest_rowsOf : ∀ (nodes : List IncludeNode) (object : Json) (rows : List Row)
    (fields : Members), Projection.anyLazy nodes = false → (outputNamesOf nodes).Nodup →
      shapesRelations nodes object →
      (∀ node ∈ nodes, SeenAlike node.projection.outputNames rows (node.rowsOf object)) →
      slotsOver nodes fields (Slot.nestEach nodes rows) =
        (nodes.map IncludeNode.relation).foldl
          (fun fields name => Members.set fields name (Members.getD object.members name)) fields
  | [], object, rows, fields, _, _, _, _ => rfl
  | ⟨relation, kind, child⟩ :: nodes, object, rows, fields, eager, distinct, shapes, alike => by
      simp only [Projection.anyLazy, Bool.or_eq_false_iff] at eager
      rw [outputNamesOf, List.nodup_append'] at distinct
      rw [shapesRelations] at shapes
      obtain ⟨first, others⟩ := List.forall_mem_cons.1 alike
      have value : joinedValue kind child rows = Members.getD object.members relation :=
        (SeenAlike.joinedValue_eq eager.1 first).trans (joinedValue_rowsOf distinct.1
          (fun item shaped => value_nest_flatten child item eager.1 distinct.1 shaped)
          (by rw [shapesRelations]; exact ⟨shapes.1, trivial⟩))
      rw [slotsOver_nestEach_cons, value, List.map_cons, List.foldl_cons]
      exact slotsOver_nest_rowsOf nodes object rows _ eager.2 distinct.2.1 shapes.2 others

end

/-- Hydrating the rows of objects that a plan shapes yields these objects again. -/
theorem hydrate_flatten {plan : Projection} {forest : List Json} (eager : plan.hasLazy = false)
    (distinct : plan.outputNames.Nodup) (shaped : plan.ShapesAll forest) :
    hydrate plan (forest.flatMap plan.flatten) = forest := by
  rw [hydrate_eq_nest]
  exact values_flatMap distinct (fun object shapes => value_nest_flatten plan object eager distinct shapes)
    shaped

namespace Blog

/-- Authors with their posts, and of each post the tags and the author with all posts. -/
def bookshelf : Projection :=
  ⟨"authors", "authors", "", ["id"], [⟨"id", .int⟩, ⟨"name", .text⟩],
    [⟨"posts", .hasMany, "posts", "posts", "posts", ["id"], [⟨"id", .int⟩, ⟨"title", .text⟩],
      [⟨"tags", .belongsToMany, "tags", "posts_tags", "posts__tags", ["id"],
          [⟨"id", .int⟩, ⟨"name", .text⟩], [], []⟩,
        ⟨"author", .belongsTo, "authors", "posts_author", "posts__author", ["id"], [⟨"id", .int⟩],
          [⟨"posts", .hasMany, "posts", "posts_author_posts", "posts__author__posts", ["id"],
            [⟨"id", .int⟩], [], []⟩], []⟩], []⟩], []⟩

/-- Ada, whose posts share a tag and come in descending order, and Bo, who has none. -/
def shelved : List Json :=
  let tag (id : Int) (name : String) : Json := .object [("id", .int id), ("name", .string name)]
  let posts : Json := .array [.object [("id", .int 2)], .object [("id", .int 1)]]
  let ada : Json := .object [("id", .int 1), ("posts", posts)]
  [.object [("id", .int 1), ("name", .string "Ada"), ("posts", .array
      [.object [("id", .int 2), ("title", .string "Two"), ("tags", .array [tag 2 "sql"]), ("author", .null)],
        .object [("id", .int 1), ("title", .string "One"), ("tags", .array [tag 2 "sql", tag 1 "lean"]),
          ("author", ada)]])],
    .object [("id", .int 2), ("name", .string "Bo"), ("posts", .array [])]]

theorem shapesAll_shelved : bookshelf.ShapesAll shelved := by
  have apart : (Json.int 1).text ≠ (Json.int 2).text := by decide +kernel
  simp [Projection.ShapesAll, bookshelf, shelved, Projection.Shapes, shapesRelations, Members.getD,
    Members.get?, Json.members, RelationKind.isToMany, coerce, Projection.keyOf, Projection.identity,
    Json.isNull, List.eraseDups_cons, List.lookup_cons, Projection.DistinctKeys, apart, apart.symm]

/-- The shelf makes six rows. -/
theorem hydrate_bookshelf : (shelved.flatMap bookshelf.flatten).length = 6 ∧
    hydrate bookshelf (shelved.flatMap bookshelf.flatten) = shelved :=
  ⟨by decide +kernel, hydrate_flatten (by decide) (by decide) shapesAll_shelved⟩

end Blog

end RelQuery
