/-
Module: RelQuery.Proofs.Select.Supplied
Purpose: A built statement supplies what its rows are nested by. Its SELECT list goes through the occurrences
  of the plan in depth first order, the records of its answer bear the names of that list, and nesting looks
  at no other name: keys and the columns that deferred relations are loaded by are always selected.
Main exports: Projection.selectedNames, Projection.readNames, hydrate_eq_of_sameCells,
  Projection.Supplied, Selection.supplies_of_build
-/
import RelQuery.Proofs.Hydrate.FirstSeen
import RelQuery.Proofs.Plan.DepthFirst
import RelQuery.Proofs.Select.OutputNames
import RelQuery.Proofs.Sql.Bracketed

namespace RelQuery

open Sql
open Json (Members)

variable {V : Type}

/-! ### Names -/

/-- The names under which a plan selects columns, in depth first order. -/
def Projection.selectedNames (plan : Projection) : List String :=
  plan.depthFirst.flatMap fun occurrence =>
    occurrence.columns.map fun column => occurrence.outputName column.name

/-- The names that are looked up in a row when it is nested by a plan. -/
def Projection.readNames (plan : Projection) : List String :=
  plan.depthFirst.flatMap fun occurrence => occurrence.cellsRead.map occurrence.outputName

/-- The aliases of the SELECT list are these names. -/
theorem Projection.names_selectItems (plan : Projection) :
    plan.selectItems.map SelectItem.label = plan.selectedNames.map some := by
  rw [selectItems_eq, selectedNames, List.map_flatMap, List.map_flatMap]
  simp only [ownItems, List.map_map, Function.comp_def]

/-! ### Lookups -/

/-- Two rows look the same at an occurrence. -/
def Projection.SeesAlike (a b : Row) (occurrence : Projection) : Prop :=
  ∀ column ∈ occurrence.cellsRead, occurrence.cell a column = occurrence.cell b column

section

variable {a b : Row}

/-- Rows with the same cells under the names that are looked up look the same everywhere. -/
theorem seesAlike_of_sameCells {plan : Projection} (same : SameCells plan.readNames a b) :
    ∀ occurrence ∈ plan.depthFirst, occurrence.SeesAlike a b := by
  intro occurrence member column read
  apply same
  exact List.mem_flatMap.2 ⟨occurrence, member, List.mem_map_of_mem read⟩

namespace Projection.SeesAlike

variable {occurrence : Projection} (alike : occurrence.SeesAlike a b)

include alike

theorem rowKey_eq : rowKey occurrence a = rowKey occurrence b := by
  have values : occurrence.identity.map (occurrence.cell a) = occurrence.identity.map (occurrence.cell b) := by
    apply List.map_congr_left
    intro column member
    exact alike column (List.mem_append_left _ (List.mem_append_left _ member))
  rw [rowKey, rowKey, values]

theorem ownFields_eq : ownFields occurrence a = ownFields occurrence b := by
  have columns : ∀ column ∈ occurrence.columns,
      occurrence.cell a column.name = occurrence.cell b column.name := by
    intro column member
    exact alike _ (List.mem_append_left _ (List.mem_append_right _ (List.mem_map_of_mem member)))
  have parents : ∀ load ∈ occurrence.lazy,
      occurrence.cell a load.parentColumn = occurrence.cell b load.parentColumn := by
    intro load member
    exact alike _ (List.mem_append_right _ (List.mem_map_of_mem member))
  rw [ownFields, ownFields]
  have fields : ∀ fields : Members,
      occurrence.columns.foldl (fun fields column =>
        Members.set fields column.name (coerce column.type (occurrence.cell a column.name))) fields =
      occurrence.columns.foldl (fun fields column =>
        Members.set fields column.name (coerce column.type (occurrence.cell b column.name))) fields := by
    intro fields
    apply List.foldl_ext
    intro fields column member
    rw [columns column member]
  rw [fields]
  apply List.foldl_ext
  intro fields load member
  rw [parents load member]

theorem start_eq : Cell.start occurrence a = Cell.start occurrence b := by
  rw [Cell.start, Cell.start, alike.ownFields_eq]

end Projection.SeesAlike

mutual

/-- A row is merged like one that looks the same at all occurrences of the plan, -/
theorem merge_eq_of_seesAlike : ∀ plan : Projection,
    (∀ occurrence ∈ plan.depthFirst, occurrence.SeesAlike a b) →
      ∀ cell, merge a plan cell = merge b plan cell
  | ⟨table, label, outputPath, key, columns, includes, lazy⟩, alike, .mk fields slots => by
      rw [Projection.depthFirst, List.forall_mem_cons] at alike
      rw [merge, merge, mergeSlots_eq_of_seesAlike includes alike.2 slots]

/-- and so it is into the slots of joined relations. -/
theorem mergeSlots_eq_of_seesAlike : ∀ nodes : List IncludeNode,
    (∀ occurrence ∈ Projection.depthFirstOfNodes nodes, occurrence.SeesAlike a b) →
      ∀ slots, mergeSlots a nodes slots = mergeSlots b nodes slots
  | [], _, _ => rfl
  | ⟨_, _, _⟩ :: _, _, [] => rfl
  | ⟨relation, kind, child⟩ :: nodes, alike, slot :: slots => by
      rw [Projection.depthFirstOfNodes, List.forall_mem_append] at alike
      have here := alike.1 child child.self_mem_depthFirst
      have below := merge_eq_of_seesAlike child alike.1
      have others := mergeSlots_eq_of_seesAlike nodes alike.2 slots
      simp only [mergeSlots, here.rowKey_eq, here.start_eq, below, others]

end

theorem addRow_eq_of_seesAlike {plan : Projection}
    (alike : ∀ occurrence ∈ plan.depthFirst, occurrence.SeesAlike a b) (roots : List (String × Cell)) :
    addRow plan roots a = addRow plan roots b := by
  have here := alike plan plan.self_mem_depthFirst
  simp only [addRow, here.rowKey_eq, here.start_eq, merge_eq_of_seesAlike plan alike]

end

/-- Rows are nested by their cells under the names that are looked up. -/
theorem hydrate_eq_of_sameCells {plan : Projection} {rows rows' : List Row}
    (same : List.Forall₂ (SameCells plan.readNames) rows rows') : hydrate plan rows = hydrate plan rows' := by
  have merged : ∀ roots, rows.foldl (addRow plan) roots = rows'.foldl (addRow plan) roots := by
    induction same with
    | nil => intro roots; rfl
    | cons first rest ih =>
        intro roots
        rw [List.foldl_cons, List.foldl_cons, ih, addRow_eq_of_seesAlike (seesAlike_of_sameCells first)]
  rw [hydrate, hydrate, merged]

/-! ### Records -/

/-- Each record of an answer that keeps duplicates is an output row of the SELECT list. -/
theorem Sql.Query.exists_record {db : Database V} {outer : Scope V} {q : Query} (keeps : q.distinct = false)
    {record : Record V} (answered : record ∈ (q.answer db outer).rows) :
    ∃ scope group, record = SelectItem.record db outer scope group q.select := by
  rw [Query.rows_answer] at answered
  have inside := (window_sublist _ _ _).subset answered
  rw [Query.records, keeps, if_neg Bool.false_ne_true] at inside
  obtain ⟨⟨scope, group⟩, -, made⟩ := List.mem_map.1 inside
  exact ⟨scope, group, made.symm⟩

/-- An output row of a plan bears the names that are selected. -/
theorem Projection.names_record (plan : Projection) (db : Database V) (outer scope : Scope V)
    (group : List (Scope V)) :
    (SelectItem.record db outer scope group plan.selectItems).map Prod.fst = plan.selectedNames := by
  have named : ∀ items : List SelectItem,
      (∀ item ∈ items, ∃ label column name, item = ⟨Expr.of label column, some name⟩) →
        ((SelectItem.record db outer scope group items).map Prod.fst).map some = items.map SelectItem.label := by
    intro items columns
    induction items with
    | nil => rfl
    | cons item items ih =>
        obtain ⟨⟨label, column, name, rfl⟩, others⟩ := List.forall_mem_cons.1 columns
        rw [List.map_cons, ← ih others]
        rfl
  have aliased := named plan.selectItems (exists_of_mem_selectItems plan)
  rw [names_selectItems] at aliased
  exact List.map_injective_iff.2 (fun _ _ same => Option.some.inj same) aliased

/-! ### Built statements -/

/-- The table occurrences of the FROM and JOIN items of a statement. -/
def Sql.Query.items (q : Query) : List TableRef := q.source.toList ++ q.joins.map Join.table

/-- A statement over some items supplies an occurrence: it stands for a registered table among the items,
    shows columns of this table with their types, and the columns that its rows are told apart by and those
    that deferred relations are loaded by are among them. -/
structure Projection.Supplied (registry : Registry) (items : List TableRef) (occurrence : Projection)
    (table : Table) : Prop where
  registered : registry.get? occurrence.table = some table
  exposed : ∃ item ∈ items, item.source = .stored table.schema table.name ∧ item.exposedName = occurrence.label
  typed : ∀ column ∈ occurrence.columns, ∃ declared, table.column? column.name = some declared ∧
    declared.type = column.type
  keyed : occurrence.key = table.primaryKey
  keySelected : ∀ key ∈ occurrence.key, key ∈ occurrence.columns.map PlanColumn.name
  parentsSelected : ∀ load ∈ occurrence.lazy, load.parentColumn ∈ occurrence.columns.map PlanColumn.name

section

variable {registry : Registry} {selection : Selection} {built : BuiltQuery}

/-- In a validated registry an occurrence of an exposed table is supplied. -/
theorem Projection.Shows.supplied {items : List TableRef} {occurrence : Projection}
    (valid : registry.validate = .ok ()) (shows : occurrence.Shows registry items) :
    ∃ table, occurrence.Supplied registry items table := by
  obtain ⟨table, registered, represents, exposed⟩ := shows
  refine ⟨table, registered, ⟨_, exposed, rfl, exposedName_occurrence _ _⟩, ?_, represents.keyed, ?_,
    represents.parents⟩
  · intro column selected
    have planned := represents.planned column selected
    unfold planColumn at planned
    split at planned
    · rename_i declared known
      exact ⟨declared, known, congrArg PlanColumn.type (Except.ok.inj planned)⟩
    · contradiction
  · rw [represents.keyed]
    exact represents.keySelected (Registry.hasColumn_of_validate valid (Registry.mem_of_get? registered))

/-- A built statement joins what its assembly joins, and neither drops duplicates nor selects anything but
    what the plan shows. -/
theorem Selection.pieces_of_build (build : selection.build registry = .ok built) :
    ∃ (assembly : Assembly) (pieces : assembly.Pieces registry selection selection.includes .empty),
      built.plan = assembly.plan ∧ built.query.distinct = false ∧
        built.query.items =
          occurrence selection.table pieces.label :: (pieces.joins ++ pieces.filterJoins).map Join.table := by
  obtain ⟨assembly, items, assembled, -, planned, plain, restricts, cut⟩ := Selection.build_eq_ok build
  obtain ⟨pieces⟩ := Selection.nonempty_pieces assembled
  refine ⟨assembly, pieces, planned, ?_⟩
  cases paged : selection.isPaged with
  | false =>
      rw [plain paged, Assembly.statement, pieces.query_eq]
      exact ⟨rfl, rfl⟩
  | true =>
      cases many : assembly.plan.hasToMany with
      | false =>
          rw [cut paged many, Assembly.statement, pieces.query_eq]
          exact ⟨rfl, rfl⟩
      | true =>
          obtain ⟨condition, -, made⟩ := restricts paged many
          rw [made, Assembly.statement, pieces.query_eq]
          exact ⟨rfl, rfl⟩

/-- All occurrences of a built plan show tables that the statement joins. -/
theorem Selection.shows_of_build (registered : registry.get? selection.table.name = some selection.table)
    (build : selection.build registry = .ok built) :
    built.plan.Throughout (Projection.Shows registry built.query.items) := by
  obtain ⟨assembly, pieces, planned, -, items⟩ := Selection.pieces_of_build build
  rw [planned, items, pieces.plan_eq]
  apply Projection.Throughout.intro
  · exact ⟨_, registered, pieces.attaches.represents pieces.chosen pieces.completed, List.mem_cons_self⟩
  · intro node joined
    apply (pieces.attaches.shows node joined).mono
    intro occurrence shows
    apply shows.mono
    rw [List.map_append]
    exact List.subset_cons_of_subset _ (List.subset_append_left _ _)

end

/-- SELECT list, plan and nesting agree. A built statement selects, in the depth first order of its plan, one
    item for each column of each occurrence; all occurrences are supplied; every record of an answer bears
    exactly the names of the SELECT list; and nesting depends on nothing but the values under names that are
    among them. -/
theorem Selection.supplies_of_build (db : Database V) (registry : Registry) (selection : Selection)
    (built : BuiltQuery) (valid : registry.validate = .ok ())
    (registered : registry.get? selection.table.name = some selection.table)
    (build : selection.build registry = .ok built) :
    (built.query.select = built.plan.depthFirst.flatMap fun occurrence =>
      occurrence.columns.map fun column =>
        ⟨Expr.of occurrence.label column.name, some (occurrence.outputName column.name)⟩) ∧
    (∀ occurrence ∈ built.plan.depthFirst,
      ∃ table, occurrence.Supplied registry built.query.items table) ∧
    (∀ outer : Scope V, ∀ record ∈ (built.query.answer db outer).rows,
      record.map Prod.fst = built.plan.selectedNames) ∧
    built.plan.readNames ⊆ built.plan.selectedNames ∧
    ∀ rows rows', List.Forall₂ (SameCells built.plan.readNames) rows rows' →
      hydrate built.plan rows = hydrate built.plan rows' := by
  have shows := (Selection.shows_of_build registered build).mem
  refine ⟨?_, ?_, ?_, ?_, ?_⟩
  · rw [Selection.select_of_build build, Projection.selectItems_eq]
    rfl
  · intro occurrence member
    exact (shows occurrence member).supplied valid
  · intro outer record answered
    obtain ⟨-, -, -, keeps, -⟩ := Selection.pieces_of_build build
    obtain ⟨scope, group, rfl⟩ := Query.exists_record keeps answered
    rw [Selection.select_of_build build, Projection.names_record]
  · intro name read
    obtain ⟨occurrence, member, inside⟩ := List.mem_flatMap.1 read
    obtain ⟨column, looked, rfl⟩ := List.mem_map.1 inside
    obtain ⟨table, known, represents, -⟩ := shows occurrence member
    have keyKnown := Registry.hasColumn_of_validate valid (Registry.mem_of_get? known)
    obtain ⟨selected, shown, rfl⟩ := List.mem_map.1 (represents.cellsRead_subset keyKnown looked)
    exact List.mem_flatMap.2 ⟨occurrence, member, List.mem_map.2 ⟨selected, shown, rfl⟩⟩
  · intro rows rows' same
    exact hydrate_eq_of_sameCells same

namespace Blog

/-- The titles of the posts, their authors to be loaded later and the keys of their tags. -/
def titles : Selection :=
  { Selection.ofTable posts with
    columns := some ["title"]
    includes := [⟨"author", none, none, some true, []⟩, ⟨"tags", some [], none, none, []⟩] }

/-- The key of a post and that of its author are selected unasked. -/
theorem supplies_titles : ∃ built, titles.build registry = .ok built ∧
    (∀ record ∈ (built.query.answer database []).rows,
      record.map Prod.fst = ["id", "title", "author_id", "tags__id"]) ∧
    ∀ name ∈ built.plan.readNames, name ∈ ["id", "title", "author_id", "tags__id"] := by
  obtain ⟨built, build, names⟩ : ∃ built, titles.build registry = .ok built ∧
      built.plan.selectedNames = ["id", "title", "author_id", "tags__id"] := ⟨_, rfl, rfl⟩
  obtain ⟨-, -, records, reads, -⟩ :=
    Selection.supplies_of_build database registry titles built validated rfl build
  rw [← names]
  exact ⟨built, build, records [], fun name read => reads read⟩

end Blog

end RelQuery
