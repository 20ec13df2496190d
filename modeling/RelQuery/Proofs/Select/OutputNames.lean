/-
Module: RelQuery.Proofs.Select.OutputNames
Purpose: The names of the columns of an answer. Such a name is made of the relations that lead to an
  occurrence and of a column, and these can be told from the name as long as no relation's name with the
  separator behind it begins that of a column or of another relation beside it.
Main exports: Projection.Separated, Registry.NamesSeparated, qualified_injective, mem_selectItems,
  Selection.names_tell_occurrences
-/
import RelQuery.Proofs.Plan.Occurrences
import RelQuery.Proofs.Select.Built
import RelQuery.Proofs.Select.Names

namespace RelQuery

open Sql

/-! ### Paths in names -/

/-- What the names of the columns below a relation begin with. -/
def opening (relation : String) : List Char := (relation ++ outputSeparator).toList

/-- The name of a column that a path of relations leads to. -/
def qualified : (path : List String) → (column : String) → String
  | [], column => column
  | step :: path, column => step ++ outputSeparator ++ qualified path column

theorem opening_begins (step rest : String) : opening step <+: (step ++ outputSeparator ++ rest).toList := by
  have split : (step ++ outputSeparator ++ rest).toList = opening step ++ rest.toList := String.toList_append
  rw [split]
  exact List.prefix_append _ _

theorem extendOutputPath_of_ne {path : String} (named : path ≠ "") (step : String) :
    extendOutputPath path step = path ++ outputSeparator ++ step := by
  rw [extendOutputPath, if_neg (by simpa using named)]

/-- Below a path that is not empty the steps and the column follow it. -/
theorem extend_foldl_of_ne {base : String} (named : base ≠ "") (path : List String) (column : String) :
    extendOutputPath (path.foldl extendOutputPath base) column =
      base ++ outputSeparator ++ qualified path column := by
  induction path generalizing base with
  | nil => exact extendOutputPath_of_ne named column
  | cons step path ih =>
      have longer : base ++ outputSeparator ++ step ≠ "" := by
        simp [outputSeparator]
      rw [List.foldl_cons, extendOutputPath_of_ne named, ih longer, qualified]
      simp only [String.append_assoc]

/-- The relations of an occurrence can be told from its columns and from each other by what the names below
    them begin with. -/
structure Projection.Separated (occurrence : Projection) : Prop where
  columns : ∀ node ∈ occurrence.includes, ∀ column ∈ occurrence.columns,
    ¬ opening node.relation <+: column.name.toList
  relations : ∀ node ∈ occurrence.includes, ∀ other ∈ occurrence.includes,
    opening node.relation <+: opening other.relation → node.relation = other.relation

namespace Projection

section

variable {plan occurrence occurrence' : Projection} {path path' : List String} {column column' : PlanColumn}

/-- A column of an occurrence has no name of one below. -/
theorem Separated.ne_qualified {node : IncludeNode} (separated : plan.Separated)
    (joined : node ∈ plan.includes) (selected : column ∈ plan.columns) (rest : String) :
    column.name ≠ node.relation ++ outputSeparator ++ rest := by
  intro same
  apply separated.columns node joined column selected
  rw [same]
  exact opening_begins _ _

/-- Names below two relations of an occurrence differ. -/
theorem Separated.relation_eq {node node' : IncludeNode} (separated : plan.Separated)
    (joined : node ∈ plan.includes) (joined' : node' ∈ plan.includes) {rest rest' : String}
    (same : node.relation ++ outputSeparator ++ rest = node'.relation ++ outputSeparator ++ rest') :
    node.relation = node'.relation := by
  have first := opening_begins node.relation rest
  rw [same] at first
  rcases List.prefix_or_prefix_of_prefix first (opening_begins node'.relation rest') with shorter | longer
  · exact separated.relations node joined node' joined' shorter
  · exact (separated.relations node' joined' node joined longer).symm

/-- The path and the column can be told from a qualified name. -/
theorem qualified_injective (separated : plan.Throughout Separated)
    (found : plan.find? path = some occurrence) (found' : plan.find? path' = some occurrence')
    (selected : column ∈ occurrence.columns) (selected' : column' ∈ occurrence'.columns)
    (same : qualified path column.name = qualified path' column'.name) :
    path = path' ∧ column.name = column'.name := by
  induction path generalizing plan path' with
  | nil =>
      obtain rfl := Option.some.inj found
      cases path' with
      | nil => exact ⟨rfl, same⟩
      | cons step' path' =>
          obtain ⟨node, -, joined, rfl, -⟩ := exists_of_find?_cons found'
          exact absurd same (separated.here.ne_qualified joined selected _)
  | cons step path ih =>
      obtain ⟨node, first, joined, rfl, further⟩ := exists_of_find?_cons found
      cases path' with
      | nil =>
          obtain rfl := Option.some.inj found'
          exact absurd same.symm (separated.here.ne_qualified joined selected' _)
      | cons step' path' =>
          obtain ⟨node', first', joined', rfl, further'⟩ := exists_of_find?_cons found'
          -- The first relations are the same, and so are the nodes behind them.
          have together := separated.here.relation_eq joined joined' same
          rw [together, first', Option.some.injEq] at first
          subst first
          obtain ⟨rfl, alike⟩ := ih (separated.joined _ joined) further further'
            ((String.append_right_inj _).1 same)
          exact ⟨rfl, alike⟩

end

section

variable {tables : List Table} {plan occurrence : Projection} {path : List String}

/-- The output path of an occurrence is made of the relations that lead to it. -/
theorem outputPath_of_find?
    (represents : plan.Throughout fun occurrence => ∃ table ∈ tables, occurrence.Represents table)
    (found : plan.find? path = some occurrence) :
    occurrence.outputPath = path.foldl extendOutputPath plan.outputPath := by
  induction path generalizing plan with
  | nil =>
      obtain rfl := Option.some.inj found
      rfl
  | cons step path ih =>
      obtain ⟨node, -, joined, rfl, further⟩ := exists_of_find?_cons found
      obtain ⟨table, -, represented⟩ := represents.here
      rw [ih (represents.joined node joined) further, represented.extended node joined]
      rfl

/-- The columns of an occurrence are named after the path to it, as far as that has a name. -/
theorem outputName_eq_qualified
    (represents : plan.Throughout fun occurrence => ∃ table ∈ tables, occurrence.Represents table)
    (root : plan.outputPath = "") (named : ∀ node ∈ plan.includes, node.relation ≠ "")
    (found : plan.find? path = some occurrence) (column : String) :
    occurrence.outputName column = qualified path column := by
  rw [outputName, outputPath_of_find? represents found, root]
  cases path with
  | nil => rfl
  | cons step path =>
      obtain ⟨node, -, joined, rfl, -⟩ := exists_of_find?_cons found
      exact extend_foldl_of_ne (named node joined) path column

end

/-! ### The SELECT list -/

section

variable {plan : Projection} {item : SelectItem}

theorem mem_selectItemsOfNodes {nodes : List IncludeNode} :
    item ∈ selectItemsOfNodes nodes ↔ ∃ node ∈ nodes, item ∈ node.projection.selectItems := by
  induction nodes with
  | nil => simp [selectItemsOfNodes]
  | cons node nodes ih =>
      obtain ⟨relation, kind, child⟩ := node
      rw [selectItemsOfNodes, List.mem_append, ih]
      simp

/-- A plan selects the columns of the occurrences that its paths lead to. -/
theorem mem_selectItems (distinct : plan.Distinct) : item ∈ plan.selectItems ↔
    ∃ path occurrence, plan.find? path = some occurrence ∧ item ∈ occurrence.ownItems := by
  induction plan using Projection.induction with
  | occurrence table label outputPath key columns includes lazy ih =>
      obtain ⟨names, below⟩ := distinct
      have unique := (List.nodup_append'.1 names).2.1
      rw [selectItems, List.mem_append, mem_selectItemsOfNodes]
      constructor
      · rintro (own | ⟨node, joined, inside⟩)
        · exact ⟨[], _, rfl, own⟩
        · obtain ⟨path, occurrence, found, own⟩ := (ih node joined (below node joined)).1 inside
          refine ⟨node.relation :: path, occurrence, ?_, own⟩
          rw [find?_cons, node?, find?_name_eq_some unique joined]
          exact found
      · rintro ⟨path, occurrence, found, own⟩
        cases path with
        | nil =>
            obtain rfl := Option.some.inj found
            exact .inl own
        | cons step path =>
            obtain ⟨node, -, joined, -, further⟩ := exists_of_find?_cons found
            exact .inr ⟨node, joined, (ih node joined (below node joined)).2 ⟨path, occurrence, further, own⟩⟩

end

end Projection

/-! ### Built statements -/

section

variable {registry : Registry} {selection : Selection} {built : BuiltQuery}

theorem Selection.select_of_build (build : selection.build registry = .ok built) :
    built.query.select = built.plan.selectItems := by
  obtain ⟨assembly, items, -, -, planned, plain, restricts, cut⟩ := Selection.build_eq_ok build
  rw [planned]
  cases paged : selection.isPaged with
  | false => rw [plain paged, Assembly.statement]
  | true =>
      cases many : assembly.plan.hasToMany with
      | false => rw [cut paged many, Assembly.statement]
      | true =>
          obtain ⟨condition, -, made⟩ := restricts paged many
          rw [made, Query.filter, Assembly.statement]

/-- A built plan represents the table of the selection, -/
theorem Selection.root_of_build (build : selection.build registry = .ok built) :
    built.plan.outputPath = "" ∧ built.plan.Represents selection.table := by
  obtain ⟨assembly, -, assembled, -, planned, -⟩ := Selection.build_eq_ok build
  obtain ⟨pieces⟩ := Selection.nonempty_pieces assembled
  rw [planned, pieces.plan_eq]
  exact ⟨rfl, pieces.attaches.represents pieces.chosen pieces.completed⟩

/-- and the occurrences below it represent registered ones. -/
theorem Selection.represents_of_build (build : selection.build registry = .ok built) :
    built.plan.Distinct ∧ built.plan.Throughout fun occurrence =>
      ∃ table ∈ selection.table :: registry.tables, occurrence.Represents table := by
  obtain ⟨-, root⟩ := Selection.root_of_build build
  obtain ⟨assembly, -, assembled, -, planned, -⟩ := Selection.build_eq_ok build
  obtain ⟨pieces⟩ := Selection.nonempty_pieces assembled
  obtain ⟨relations, below⟩ := pieces.attaches.distinct
  rw [planned, pieces.plan_eq] at root ⊢
  refine ⟨.intro relations below, .intro ⟨_, List.mem_cons_self, root⟩ ?_⟩
  intro node joined
  apply (pieces.attaches.throughout node joined).mono
  rintro occurrence ⟨table, registered, represents⟩
  exact ⟨table, List.mem_cons_of_mem _ registered, represents⟩

variable {V : Type} {path path' : List String} {occurrence occurrence' : Projection}
  {column column' : PlanColumn} (build : selection.build registry = .ok built)
  (named : ∀ node ∈ built.plan.includes, node.relation ≠ "")
  (separated : built.plan.Throughout Projection.Separated)

include build named separated

/-- The path to an occurrence and the column can be told from an output name. -/
theorem Selection.outputName_injective (found : built.plan.find? path = some occurrence)
    (found' : built.plan.find? path' = some occurrence') (selected : column ∈ occurrence.columns)
    (selected' : column' ∈ occurrence'.columns)
    (same : occurrence.outputName column.name = occurrence'.outputName column'.name) :
    path = path' ∧ column.name = column'.name := by
  obtain ⟨root, -⟩ := Selection.root_of_build build
  obtain ⟨-, represents⟩ := Selection.represents_of_build build
  rw [Projection.outputName_eq_qualified represents root named found,
    Projection.outputName_eq_qualified represents root named found'] at same
  exact Projection.qualified_injective separated found found' selected selected' same

/-- What the hydrator reads of an occurrence in a row of an answer is the value of the record that stands for
    the occurrence. -/
theorem Selection.cell_of_build (db : Database V) (render : Rendering db.engine)
    (found : built.plan.find? path = some occurrence) (selected : column ∈ occurrence.columns)
    (scope : Scope V) :
    occurrence.cell (render.row built.query.select scope) column.name =
      render.toJson (db.engine.read (scope.get occurrence.label) column.name) := by
  obtain ⟨distinct, -⟩ := Selection.represents_of_build build
  rw [Selection.select_of_build build]
  apply Rendering.getD_row (exists_of_mem_selectItems built.plan)
  · apply (Projection.mem_selectItems distinct).2
    exact ⟨path, occurrence, found, List.mem_map_of_mem selected⟩
  · intro label name inside
    obtain ⟨path', occurrence', found', own⟩ := (Projection.mem_selectItems distinct).1 inside
    obtain ⟨column', selected', same⟩ := List.mem_map.1 own
    obtain ⟨expr, name'⟩ := SelectItem.mk.inj same
    obtain ⟨rfl, alike⟩ := Selection.outputName_injective build named separated found' found selected' selected
      (Option.some.inj name')
    obtain rfl := Option.some.inj (found'.symm.trans found)
    rw [alike] at expr
    obtain ⟨qualifier, rfl⟩ := Expr.column.inj expr
    exact ⟨(Option.some.inj qualifier).symm, rfl⟩

end

/-- The columns whose cells are read of an occurrence in a row: those that rows are told apart by, those of
    its fields, and those that deferred relations are loaded by. -/
def Projection.cellsRead (occurrence : Projection) : List String :=
  occurrence.identity ++ occurrence.columns.map PlanColumn.name ++
    occurrence.lazy.map LazyLoad.parentColumn

/-- Only selected columns are read. -/
theorem Projection.Represents.cellsRead_subset {occurrence : Projection} {table : Table}
    (represents : occurrence.Represents table)
    (keyKnown : ∀ key ∈ table.primaryKey, table.hasColumn key = true) :
    occurrence.cellsRead ⊆ occurrence.columns.map PlanColumn.name := by
  rw [Projection.cellsRead, List.append_subset, List.append_subset]
  refine ⟨⟨?_, List.Subset.refl _⟩, ?_⟩
  · rw [Projection.identity]
    split
    · exact List.Subset.refl _
    · rw [represents.keyed]
      exact represents.keySelected keyKnown
  · intro name member
    obtain ⟨load, deferred, rfl⟩ := List.mem_map.1 member
    exact represents.parents load deferred

/-- The statement of a selection selects the columns of the occurrences of its plan, each under a name of its
    own, and whatever is read of an occurrence in a row of the answer is a value of the record that stands for
    this occurrence: provided that no name of a joined relation with the separator behind it begins that of a
    selected column or of another joined relation beside it. -/
theorem Selection.names_tell_occurrences {V : Type} (db : Database V) (render : Rendering db.engine)
    (registry : Registry) (selection : Selection) (built : BuiltQuery)
    (valid : registry.validate = .ok ()) (registered : selection.table ∈ registry.tables)
    (build : selection.build registry = .ok built)
    (named : ∀ node ∈ built.plan.includes, node.relation ≠ "")
    (separated : built.plan.Throughout Projection.Separated) :
    (∀ item, item ∈ built.query.select ↔ ∃ path occurrence, built.plan.find? path = some occurrence ∧
      ∃ column ∈ occurrence.columns,
        item = ⟨Expr.of occurrence.label column.name, some (occurrence.outputName column.name)⟩) ∧
    (∀ path occurrence path' occurrence', built.plan.find? path = some occurrence →
      built.plan.find? path' = some occurrence' → ∀ column ∈ occurrence.columns,
        ∀ column' ∈ occurrence'.columns,
          occurrence.outputName column.name = occurrence'.outputName column'.name →
            path = path' ∧ column.name = column'.name) ∧
    ∀ path occurrence, built.plan.find? path = some occurrence → ∀ column ∈ occurrence.cellsRead,
      ∀ scope : Scope V, occurrence.cell (render.row built.query.select scope) column =
        render.toJson (db.engine.read (scope.get occurrence.label) column) := by
  obtain ⟨distinct, represents⟩ := Selection.represents_of_build build
  refine ⟨?_, ?_, ?_⟩
  · intro item
    rw [Selection.select_of_build build, Projection.mem_selectItems distinct]
    simp only [Projection.ownItems, List.mem_map, eq_comm]
  · intro path occurrence path' occurrence' found found' column selected column' selected' same
    exact Selection.outputName_injective build named separated found found' selected selected' same
  · intro path occurrence found column read scope
    obtain ⟨table, known, represented⟩ := (represents.find? found).here
    have keyKnown : ∀ key ∈ table.primaryKey, table.hasColumn key = true := by
      apply Registry.hasColumn_of_validate valid
      rcases List.mem_cons.1 known with rfl | member
      · exact registered
      · exact member
    obtain ⟨selected, member, rfl⟩ := List.mem_map.1 (represented.cellsRead_subset keyKnown read)
    exact Selection.cell_of_build build named separated db render found member scope

/-! ### Registries -/

/-- No relation's name with the separator behind it begins that of a column or of another relation of its
    table. -/
def Registry.NamesSeparated (registry : Registry) : Prop :=
  ∀ table ∈ registry.tables, ∀ relation ∈ table.relations,
    (∀ column ∈ table.columns, ¬ opening relation.name <+: column.name.toList) ∧
      ∀ other ∈ table.relations, opening relation.name <+: opening other.name → relation.name = other.name

/-- An occurrence of such a table is separated, whatever is selected and joined. -/
theorem Projection.Represents.separated {registry : Registry} {occurrence : Projection} {table : Table}
    (represents : occurrence.Represents table) (apart : registry.NamesSeparated)
    (registered : table ∈ registry.tables) : occurrence.Separated := by
  constructor
  · intro node joined column selected
    obtain ⟨relation, declared, same⟩ := represents.declared node joined
    obtain ⟨known, member, named⟩ := represents.planned.exists_column selected
    rw [← same, ← named]
    exact (apart table registered relation declared).1 known member
  · intro node joined other joined'
    obtain ⟨relation, declared, same⟩ := represents.declared node joined
    obtain ⟨relation', declared', same'⟩ := represents.declared other joined'
    rw [← same, ← same']
    exact (apart table registered relation declared).2 relation' declared'

/-- So are all occurrences of a built plan. -/
theorem Selection.separated_of_build {registry : Registry} {selection : Selection} {built : BuiltQuery}
    (apart : registry.NamesSeparated) (registered : selection.table ∈ registry.tables)
    (build : selection.build registry = .ok built) : built.plan.Throughout Projection.Separated := by
  apply (Selection.represents_of_build build).2.mono
  rintro occurrence ⟨table, known, represents⟩
  apply represents.separated apart
  rcases List.mem_cons.1 known with rfl | member
  · exact registered
  · exact member

namespace Blog

/-- The posts with their authors, whose posts come with them, and with their tags. -/
def postsOfAuthors : Selection :=
  { Selection.ofTable posts with
    includes := [⟨"author", none, none, none, [⟨"posts", none, none, none, []⟩]⟩,
      ⟨"tags", none, none, none, []⟩] }

theorem namesSeparated : registry.NamesSeparated := by
  simp only [Registry.NamesSeparated]
  decide

/-- The posts of an author are told from the post that the author is shown with. -/
theorem read_postsOfAuthors :
    ∃ built occurrence, postsOfAuthors.build registry = .ok built ∧
      (∀ node ∈ built.plan.includes, node.relation ≠ "") ∧ built.plan.Throughout Projection.Separated ∧
      built.plan.find? ["author", "posts"] = some occurrence ∧
      occurrence.outputName "id" = "author__posts__id" ∧ occurrence.label = "posts_2" ∧
      ∀ scope : Scope Scalar,
        occurrence.cell (@Rendering.row _ database Scalar.rendering built.query.select scope) "id" =
          Scalar.rendering.toJson (database.engine.read (scope.get "posts_2") "id") := by
  obtain ⟨built, occurrence, build, named, found, output, label, read⟩ : ∃ built occurrence,
      postsOfAuthors.build registry = .ok built ∧ (∀ node ∈ built.plan.includes, node.relation ≠ "") ∧
        built.plan.find? ["author", "posts"] = some occurrence ∧
        occurrence.outputName "id" = "author__posts__id" ∧ occurrence.label = "posts_2" ∧
        "id" ∈ occurrence.cellsRead :=
    ⟨_, _, rfl, by decide +kernel, rfl, rfl, rfl, by decide +kernel⟩
  have registered : postsOfAuthors.table ∈ registry.tables := by decide
  have separated := Selection.separated_of_build namesSeparated registered build
  obtain ⟨-, -, reads⟩ := Selection.names_tell_occurrences database Scalar.rendering registry postsOfAuthors
    built validated registered build named separated
  refine ⟨built, occurrence, build, named, separated, found, output, label, ?_⟩
  intro scope
  rw [reads _ occurrence found "id" read scope, label]

/-- Posts with a column whose name is that of a column of their author, as that is selected. -/
def syndicated : Table :=
  { posts with
    columns := [column "id" .int, column "author__id" .int, column "author_id" .int]
    relations := [⟨"author", .belongsTo, "authors", ["author_id"], [], none, false⟩] }

/-- The registry with these posts. -/
def syndicatedRegistry : Registry := ⟨[syndicated, { authors with relations := [] }]⟩

/-- Two columns have one name, and a post that has no author is shown with one. -/
theorem sameName_syndicated : syndicatedRegistry.validate = .ok () ∧
    ∃ built author,
      { Selection.ofTable syndicated with includes := [⟨"author", none, none, none, []⟩] }.build
        syndicatedRegistry = .ok built ∧
      built.plan.find? ["author"] = some author ∧
      built.plan.columns.map PlanColumn.name = ["id", "author__id", "author_id"] ∧
      author.columns.map PlanColumn.name = ["id", "name"] ∧
      built.plan.outputName "author__id" = author.outputName "id" ∧
      hydrate built.plan
          [[("id", .int 1), ("author__id", .int 7), ("author_id", .null), ("author__name", .null)]] =
        [.object [("id", .int 1), ("author__id", .int 7), ("author_id", .null),
          ("author", .object [("id", .int 7), ("name", .null)])]] := by
  refine ⟨rfl, _, _, rfl, rfl, rfl, rfl, rfl, ?_⟩
  rfl

end Blog

end RelQuery
