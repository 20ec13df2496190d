/-
Module: RelQuery.Proofs.Select.Roots
Purpose: Includes attach rows to the roots of a selection and never change which roots there are. With its
  includes or without them, a statement ranges over the rows of the root that satisfy the filters; the
  joins of includes may repeat a root, but they neither drop nor invent one.
Main exports: Selection.bare, BuiltQuery.rootRows, Selection.mem_rootRows,
  Assembly.Parts.columnValues_record, Selection.read_rootRows, Selection.includes_keep_roots
-/
import RelQuery.Proofs.Select.Counted

namespace RelQuery

open Sql

variable {V : Type}

/-- The selection without its includes. -/
def Selection.bare (selection : Selection) : Selection := { selection with includes := [] }

/-- The rows of the root that the rows of an answer were made of, in the order of the answer. -/
def BuiltQuery.rootRows (db : Database V) (built : BuiltQuery) : List (Record V) :=
  (built.query.ordered db []).map fun scope => scope.get built.plan.label

/-- The values of columns in a record. -/
def columnValues (engine : Engine V) (columns : List PlanColumn) (record : Record V) : List V :=
  columns.map fun column => engine.read record column.name

section

variable {db : Database V} {registry : Registry} {selection : Selection} {built : BuiltQuery}

/-- The roots of a statement without a page are the rows that satisfy the filters. -/
theorem Selection.mem_rootRows (build : selection.unpaged.build registry = .ok built) (root : Record V) :
    root ∈ built.rootRows db ↔ root ∈ selection.roots db registry := by
  obtain ⟨assembly, items, assembled, -, planned, unpaged, -, -⟩ := Selection.build_eq_ok build
  obtain ⟨parts⟩ := Selection.nonempty_parts db assembled
  have made : built.query = assembly.statement items := unpaged rfl
  have labelled : built.plan.label = parts.label := by rw [planned, parts.plan_eq]
  rw [BuiltQuery.rootRows, made, labelled, List.mem_map]
  simp only [Assembly.mem_ordered_statement]
  exact parts.exists_matching_iff

/-- In the selected columns, a row of the statement shows the root of its scope. -/
theorem Assembly.Parts.columnValues_record {includes : List Include} {names : Names} {assembly : Assembly}
    (parts : assembly.Parts db registry selection includes names) {columns : List PlanColumn}
    (chosen : selectColumns selection.table selection.columns = .ok columns) (outer scope : Scope V) :
    columnValues db.engine columns (SelectItem.record db outer scope [] assembly.plan.selectItems) =
      columnValues db.engine columns (scope.get parts.label) := by
  obtain rfl : columns = parts.selected := Except.ok.inj (chosen.symm.trans parts.chosen)
  obtain ⟨named, hasColumn⟩ := names_of_mapM_planColumn parts.chosen
  have known : ∀ column ∈ parts.selected, selection.table.hasColumn column.name = true :=
    fun column member => hasColumn _ (named ▸ List.mem_map_of_mem member)
  obtain ⟨kept, -, -⟩ := ensureColumns_eq_ok parts.completed known
  -- The columns of the root stand first, so that no column of a relation hides one of them.
  refine List.map_congr_left fun column member => ?_
  rw [parts.plan_eq, Projection.selectItems, Projection.ownItems]
  exact read_record_columns (List.mem_map_of_mem (kept member))

/-- In the selected columns, each row of the answer shows the root that it was made of. -/
theorem Selection.read_rootRows (db : Database V) (build : selection.unpaged.build registry = .ok built)
    {columns : List PlanColumn} (chosen : selectColumns selection.table selection.columns = .ok columns) :
    (built.query.answer db []).rows.map (columnValues db.engine columns) =
      (built.rootRows db).map (columnValues db.engine columns) := by
  obtain ⟨assembly, items, assembled, ordered, planned, unpaged, -, -⟩ := Selection.build_eq_ok build
  obtain ⟨parts⟩ := Selection.nonempty_parts db assembled
  have made : built.query = assembly.statement items := unpaged rfl
  have labelled : built.plan.label = parts.label := by rw [planned, parts.plan_eq]
  rw [BuiltQuery.rootRows, made, labelled, parts.answer_statement ordered, List.map_map, List.map_map]
  exact List.map_congr_left fun scope _ => parts.columnValues_record chosen [] scope

end

/-- A statement with includes ranges over the same roots as the one without them: over the same stored
    rows, and over the same values of the selected columns. -/
theorem Selection.includes_keep_roots (db : Database V) (registry : Registry) (selection : Selection)
    (full bare : BuiltQuery) (build : selection.unpaged.build registry = .ok full)
    (buildBare : selection.bare.unpaged.build registry = .ok bare) :
    (∀ root, root ∈ full.rootRows db ↔ root ∈ bare.rootRows db) ∧
      ∃ columns, selectColumns selection.table selection.columns = .ok columns ∧
        (full.query.answer db []).rows.map (columnValues db.engine columns) =
          (full.rootRows db).map (columnValues db.engine columns) ∧
        (bare.query.answer db []).rows.map (columnValues db.engine columns) =
          (bare.rootRows db).map (columnValues db.engine columns) ∧
        ∀ values, values ∈ (full.query.answer db []).rows.map (columnValues db.engine columns) ↔
          values ∈ (bare.query.answer db []).rows.map (columnValues db.engine columns) := by
  have same : ∀ root, root ∈ full.rootRows db ↔ root ∈ bare.rootRows db := fun root =>
    (Selection.mem_rootRows build root).trans (Selection.mem_rootRows buildBare root).symm
  obtain ⟨assembly, -, assembled, -⟩ := Selection.build_eq_ok build
  obtain ⟨parts⟩ := Selection.nonempty_parts db assembled
  have shown := Selection.read_rootRows db build parts.chosen
  have shownBare := Selection.read_rootRows db buildBare parts.chosen
  refine ⟨same, parts.selected, parts.chosen, shown, shownBare, fun values => ?_⟩
  rw [shown, shownBare, List.mem_map, List.mem_map]
  simp only [same]

/-- The posts with an author of a name that nobody bears, the author's posts, and all tags. -/
def Blog.postsByNobody : Selection :=
  { Selection.ofTable Blog.posts with
    columns := some ["title"]
    includes := [⟨"author", none, some (.eq "name" (.text "Nobody")), none, [⟨"posts", none, none, none, []⟩]⟩,
      ⟨"tags", none, none, none, []⟩] }

/-- All three posts are there, one of them twice for its tags, though no author is found. -/
theorem Blog.roots_postsByNobody :
    ∃ full bare, Blog.postsByNobody.unpaged.build registry = .ok full ∧
      Blog.postsByNobody.bare.unpaged.build registry = .ok bare ∧
      (full.query.answer database []).rows.length = 4 ∧ (bare.query.answer database []).rows.length = 3 ∧
      ∀ root, root ∈ full.rootRows database ↔ root ∈ bare.rootRows database := by
  have rows : ((Blog.postsByNobody.unpaged.build registry).map fun built =>
      (built.query.matching database []).length).toOption = some 4 := by decide +kernel
  have bareRows : ((Blog.postsByNobody.bare.unpaged.build registry).map fun built =>
      (built.query.matching database []).length).toOption = some 3 := by decide +kernel
  obtain ⟨full, build, four⟩ := exists_of_toOption_map rows
  obtain ⟨bare, buildBare, three⟩ := exists_of_toOption_map bareRows
  obtain ⟨same, columns, chosen, shown, shownBare, -⟩ := Selection.includes_keep_roots database registry
    Blog.postsByNobody full bare build buildBare
  have length : ∀ built : BuiltQuery, (built.query.answer database []).rows.map
      (columnValues database.engine columns) = (built.rootRows database).map
        (columnValues database.engine columns) →
      (built.query.answer database []).rows.length = (built.query.matching database []).length := by
    intro built same
    have lengths := congrArg List.length same
    rw [List.length_map, List.length_map, BuiltQuery.rootRows, List.length_map] at lengths
    rw [lengths, (built.query.ordered_perm database []).length_eq]
  exact ⟨full, bare, build, buildBare, (length full shown).trans four, (length bare shownBare).trans three,
    same⟩

end RelQuery
