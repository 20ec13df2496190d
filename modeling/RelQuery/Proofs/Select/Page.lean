/-
Module: RelQuery.Proofs.Select.Page
Purpose: Pages of roots. Where relations multiply rows, the page is cut from a statement of its own that
  has one row for each root, sorted by the orderings and the whole key. The statement with the page keeps
  exactly the rows whose root lies on it.
Main exports: Assembly.keysQuery, Assembly.Parts.matching_roots, Assembly.Parts.ordered_roots,
  truth_inKeys, Selection.build_page
-/
import RelQuery.Proofs.Hydrate.Blog
import RelQuery.Proofs.Plan.ToOne
import RelQuery.Proofs.Select.Built

namespace RelQuery

open Sql

variable {V : Type}

/-! ### One row for each root -/

/-- Items that each make at most one kept item, as they are accepted themselves, are kept by themselves. -/
theorem map_filter_flatMap {α β : Type} {make : α → List β} {keep : β → Bool} {accept : α → Bool}
    {back : β → α} {items : List α}
    (each : ∀ a ∈ items, ((make a).filter keep).map back = if accept a then [a] else []) :
    ((items.flatMap make).filter keep).map back = items.filter accept := by
  induction items with
  | nil => rfl
  | cons a items ih =>
      obtain ⟨first, others⟩ := List.forall_mem_cons.1 each
      rw [List.flatMap_cons, List.filter_append, List.map_append, first, ih others, List.filter_cons]
      cases accept a <;> rfl

section

variable {db : Database V} {registry : Registry} {selection : Selection} {includes : List Include}
  {names : Names} {assembly : Assembly} (parts : assembly.Parts db registry selection includes names)

include parts

/-- Where no relation multiplies rows, each row of the root that satisfies the filters matches once. -/
theorem Assembly.Parts.matching_roots (toOne : Projection.anyToMany parts.nodes = false)
    (unique : db.LinksToOne registry) (registered : selection.table ∈ registry.tables) (outer : Scope V) :
    (assembly.query.matching db outer).map (fun scope => scope.get parts.label) =
      selection.roots db registry := by
  rw [Query.matching, parts.scopes_joined]
  refine map_filter_flatMap fun root stored => ?_
  have held : db.Holds selection.table (Scope.get ((parts.label, root) :: outer) parts.label) := by
    rw [Scope.get_cons_self]
    exact .inl stored
  obtain ⟨extended, only₁⟩ := List.length_eq_one_iff.1
    (parts.attaches.single parts.label_mem_rooted toOne unique registered held)
  have first : extended ∈ Join.extensions db parts.joins ((parts.label, root) :: outer) := by simp [only₁]
  have kept : extended.get parts.label = root := by
    rw [(parts.attaches.reserved db).get_eq first parts.label_mem_rooted, Scope.get_cons_self]
  obtain ⟨scope, only₂⟩ := List.length_eq_one_iff.1
    (parts.lowered.single unique registered extended (by rw [kept]; exact .inl stored))
  have second : scope ∈ Join.extensions db parts.filterJoins extended := by simp [only₂]
  have same : scope.get parts.label = root := (parts.get_label first second).2
  have accepted : (conditionTruth db scope assembly.query.condition == .yes) =
      (selection.meaning db registry root == .yes) := by
    have survives := parts.lowered.survives extended
    rw [only₂, kept] at survives
    rw [Bool.eq_iff_iff, beq_iff_eq, beq_iff_eq, parts.condition_eq]
    simpa using survives
  rw [extensions_append, only₁, List.flatMap_singleton, only₂, List.filter_singleton, accepted]
  cases selection.meaning db registry root == .yes
  · rfl
  · simp [same]

/-- The path of an ordering leads to the root itself exactly if it has no relations. -/
theorem Assembly.Parts.label_eq_iff {steps : List String} {reached : Projection}
    (found : assembly.plan.find? steps = some reached) : reached.label = parts.label ↔ steps = [] := by
  rw [parts.plan_eq] at found
  cases steps with
  | nil =>
      obtain rfl := Option.some.inj found
      simp
  | cons name steps =>
      simp only [Projection.find?, Projection.node?] at found
      split at found
      · rename_i node inNode
        have fresh := parts.attaches.label_fresh db inNode found
        refine ⟨fun same => ?_, by simp⟩
        exact absurd (same ▸ parts.label_mem_rooted) fresh
      · contradiction

/-- The items for the remaining key are those of the columns that no ordering names. -/
theorem Assembly.Parts.withKeyOrder_eq {items : List OrderItem}
    (ordered : selection.orderItems registry assembly.plan = .ok items) :
    Selection.withKeyOrder parts.label items selection.table.primaryKey = items ++
      selection.remainingKey.map fun column => ⟨Expr.of parts.label column, some .asc, none⟩ := by
  rw [RelQuery.withKeyOrder_eq, Selection.remainingKey]
  congr 3
  refine List.filter_congr fun column _ => congrArg Bool.not ?_
  have made := orderItems_eq_ok ordered
  generalize selection.order = terms at made
  clear ordered
  induction made with
  | nil => rfl
  | @cons term item terms items first rest ih =>
      obtain ⟨reached, found, rfl⟩ := first
      have label : (reached.label == parts.label) = term.relations.isEmpty := by
        rw [Bool.eq_iff_iff, beq_iff_eq, parts.label_eq_iff found, List.isEmpty_iff]
      rw [List.any_cons, List.any_cons, ih]
      simp [Expr.of, Expr.isColumn, label]

/-- The order of the keys statement sorts its scopes like the keys of the page sort the roots. -/
theorem Assembly.Parts.sortsLike_withKeyOrder {items : List OrderItem}
    (ordered : selection.orderItems registry assembly.plan = .ok items) {scope : Scope V}
    (like : List.Forall₂ (SortsLike db scope (scope.get parts.label)) (selection.orderKeys db registry)
      items) :
    List.Forall₂ (SortsLike db scope (scope.get parts.label)) (selection.pageKeys db registry)
      (Selection.withKeyOrder parts.label items selection.table.primaryKey) := by
  rw [parts.withKeyOrder_eq ordered, Selection.pageKeys]
  refine List.rel_append like ?_
  rw [List.forall₂_map_left_iff, List.forall₂_map_right_iff, List.forall₂_same]
  intro column _
  exact ⟨rfl, rfl, rfl⟩

end

/-- The statement for the root keys of a page. -/
def Assembly.keysQuery (assembly : Assembly) (selection : Selection) (items : List OrderItem) : Query :=
  { assembly.query with
    select := selection.table.primaryKey.map fun column =>
      ⟨Expr.of assembly.plan.label column, some column⟩
    orderBy := Selection.withKeyOrder assembly.plan.label items selection.table.primaryKey
    limit := selection.limit
    offset := selection.offset }

/-- The primary key of a row as a record of its own. -/
def Table.keyRecord (engine : Engine V) (table : Table) (row : Record V) : Record V :=
  table.primaryKey.map fun column => (column, engine.read row column)

section

variable {db : Database V} {registry : Registry} {selection : Selection} {includes : List Include}
  {names : Names} {assembly : Assembly} (parts : assembly.Parts db registry selection includes names)

include parts

/-- Behind the keys statement, the roots stand in the order of the page. -/
theorem Assembly.Parts.ordered_roots {items : List OrderItem}
    (keyed : db.Keyed selection.table) (toOne : Projection.anyToMany parts.nodes = false)
    (unique : db.LinksToOne registry) (registered : selection.table ∈ registry.tables)
    (ordered : selection.orderItems registry assembly.plan = .ok items) (outer : Scope V)
    (like : ∀ scope ∈ assembly.query.matching db outer,
      List.Forall₂ (SortsLike db scope (scope.get parts.label)) (selection.orderKeys db registry) items) :
    ((assembly.keysQuery selection items).ordered db outer).map (fun scope => scope.get parts.label) =
      (selection.roots db registry).mergeSort
        (sortsByKeys db.engine (selection.pageKeys db registry)) := by
  have labelled : assembly.plan.label = parts.label := by rw [parts.plan_eq]
  have perm := (assembly.keysQuery selection items).ordered_perm db outer
  have permRoots : (((assembly.keysQuery selection items).ordered db outer).map fun scope =>
      scope.get parts.label).Perm (selection.roots db registry) := by
    rw [← parts.matching_roots toOne unique registered outer]
    exact perm.map _
  have sorted : (((assembly.keysQuery selection items).ordered db outer).map fun scope =>
      scope.get parts.label).Pairwise fun a b =>
        sortsByKeys db.engine (selection.pageKeys db registry) a b = true := by
    refine List.pairwise_map.2 (((assembly.keysQuery selection items).ordered_sorted db outer).imp_of_mem ?_)
    intro a b memberA memberB before
    have likeA := parts.sortsLike_withKeyOrder ordered (like a (perm.mem_iff.1 memberA))
    have likeB := parts.sortsLike_withKeyOrder ordered (like b (perm.mem_iff.1 memberB))
    rw [Assembly.keysQuery, labelled, ordersBefore_eq likeA likeB] at before
    exact before
  refine eq_mergeSort_of_sorted permRoots sorted fun a storedA b storedB => ?_
  exact Selection.pageKeys_antisymm keyed (List.mem_of_mem_filter storedA) (List.mem_of_mem_filter storedB)

/-- The keys statement answers with the keys of the page. -/
theorem Assembly.Parts.rows_keysQuery {items : List OrderItem}
    (keyed : db.Keyed selection.table) (toOne : Projection.anyToMany parts.nodes = false)
    (unique : db.LinksToOne registry) (registered : selection.table ∈ registry.tables)
    (ordered : selection.orderItems registry assembly.plan = .ok items) (outer : Scope V)
    (like : ∀ scope ∈ assembly.query.matching db outer,
      List.Forall₂ (SortsLike db scope (scope.get parts.label)) (selection.orderKeys db registry) items) :
    ((assembly.keysQuery selection items).answer db outer).rows =
      (selection.page db registry).map (selection.table.keyRecord db.engine) := by
  have labelled : assembly.plan.label = parts.label := by rw [parts.plan_eq]
  have columns : ∀ item ∈ (assembly.keysQuery selection items).select,
      ∃ label column, item.expr = Expr.of label column := by
    intro item member
    obtain ⟨column, -, rfl⟩ := List.mem_map.1 member
    exact ⟨_, _, rfl⟩
  have sortColumns : ∀ item ∈ (assembly.keysQuery selection items).orderBy,
      ∃ label column, item.expr = Expr.of label column := by
    intro item member
    rw [Assembly.keysQuery, labelled, parts.withKeyOrder_eq ordered] at member
    rcases List.mem_append.1 member with member | member
    · exact exists_of_mem_orderItems ordered item member
    · obtain ⟨column, -, rfl⟩ := List.mem_map.1 member
      exact ⟨_, _, rfl⟩
  have plain : (assembly.keysQuery selection items).IsPlain db.engine := parts.isPlain columns sortColumns
  have record : ∀ scope : Scope V,
      SelectItem.record db outer scope [] (assembly.keysQuery selection items).select =
        selection.table.keyRecord db.engine (scope.get parts.label) := by
    intro scope
    simp only [Assembly.keysQuery, labelled, Table.keyRecord]
    generalize selection.table.primaryKey = key
    induction key with
    | nil => rfl
    | cons column key ih =>
        rw [List.map_cons, List.map_cons, SelectItem.record_cons, ih]
        rfl
  rw [Query.rows_of_isPlain _ _ _ plain]
  simp only [record]
  have mapped := congrArg (List.map (selection.table.keyRecord db.engine))
    (parts.ordered_roots keyed toOne unique registered ordered outer like)
  rw [List.map_map] at mapped
  rw [Selection.page, map_window, ← mapped]
  rfl

end

/-! ### The condition of a page -/

section

variable {db : Database V} {scope : Scope V}

theorem read_keyRecord {engine : Engine V} {table : Table} {row : Record V} {column : String}
    (member : column ∈ table.primaryKey) :
    engine.read (table.keyRecord engine row) column = engine.read row column := by
  rw [Table.keyRecord]
  generalize table.primaryKey = key at member
  induction key with
  | nil => simp at member
  | cons first key ih =>
      by_cases same : column = first
      · simp [Engine.read, same]
      · have others := ih ((List.mem_cons.1 member).resolve_left same)
        have unequal : (column == first) = false := by simpa using same
        rw [← others]
        simp [Engine.read, List.lookup_cons, unequal]

/-- A record has the key of a row exactly if it has that of the row's key record. -/
theorem pairsHold_keyRecord {engine : Engine V} {table : Table} {record row : Record V} :
    pairsHold engine record (table.keyRecord engine row)
        (table.primaryKey.map fun column => (column, column)) =
      pairsHold engine record row (table.primaryKey.map fun column => (column, column)) := by
  rw [Bool.eq_iff_iff, pairsHold, pairsHold, List.all_eq_true, List.all_eq_true, List.forall_mem_map,
    List.forall_mem_map]
  refine forall_congr' fun column => forall_congr' fun member => ?_
  simp only [read_keyRecord member]

/-- The statement that reads one derived table. -/
def Sql.Query.over (query : Query) (name : String) (select : List SelectItem) (condition : Option Expr) :
    Query :=
  { Query.empty with select, condition, source := some (TableRef.derived query name) }

/-- The scopes of a statement that reads one derived table. -/
theorem mem_matching_over {query : Query} {name : String} {select : List SelectItem}
    {condition : Option Expr} {inner : Scope V} :
    inner ∈ (query.over name select condition).matching db scope ↔
      ∃ row ∈ (query.answer db scope).rows, inner = (name, row) :: scope ∧
        conditionTruth db inner condition = .yes := by
  simp only [Query.over, Query.matching, Query.joined, Query.empty, TableRef.start_some, TableRef.derived,
    TableRef.contents_derived, TableRef.exposedName, Join.combineAll_nil, JoinKind.combine,
    List.flatMap_singleton, List.mem_filter, mem_extendMatching, beq_iff_eq, true_and]
  constructor
  · rintro ⟨⟨row, member, rfl⟩, holds⟩
    exact ⟨row, member, rfl, holds⟩
  · rintro ⟨row, member, rfl, holds⟩
    exact ⟨⟨row, member, rfl⟩, holds⟩

theorem isPlain_over {engine : Engine V} {query : Query} {name : String} {item : SelectItem}
    {condition : Option Expr} (single : item.expr.aggregates engine = false) :
    (query.over name [item] condition).IsPlain engine := by
  constructor <;> simp [Query.over, Query.isGrouped, Query.empty, single]

/-- A column among those of a derived table, where its rows are compared with a value. -/
theorem truth_inColumn {keys : Query} {keysName column : String} {value : Expr} :
    ((Expr.inQuery value (keys.over keysName [.plain (Expr.of keysName column)] none) false).truth db scope =
        .yes) ↔
      ∃ row ∈ (keys.answer db scope).rows,
        db.engine.compare .eq (value.eval db scope []) (db.engine.read row column) = .yes := by
  have plain : (keys.over keysName [.plain (Expr.of keysName column)] none).IsPlain db.engine :=
    isPlain_over (by simp [SelectItem.plain, Expr.of, Expr.aggregates])
  have answers := fun record : Record V =>
    @Query.mem_rows_of_isPlain V db scope _ plain rfl rfl record
  simp only [Expr.truth_inQuery, Truth.negatedIf_false, Truth.any_eq_yes, List.mem_map, answers,
    mem_matching_over]
  constructor
  · rintro ⟨_, ⟨_, ⟨row, member, rfl, -⟩, rfl⟩, equal⟩
    exact ⟨row, member, by
      simpa [Query.over, firstValue, SelectItem.plain, Expr.of, Expr.star?] using equal⟩
  · rintro ⟨row, member, equal⟩
    exact ⟨_, ⟨_, ⟨row, member, rfl, rfl⟩, rfl⟩, by
      simpa [Query.over, firstValue, SelectItem.plain, Expr.of, Expr.star?] using equal⟩

/-- The condition of a page holds where some row of the keys statement has the key of the root. -/
theorem truth_inKeys {key : List String} {keys : Query} {keysName rootAlias : String}
    (apart : rootAlias ≠ keysName) :
    ((Selection.inKeys key keys keysName rootAlias).truth db scope = .yes) ↔
      ∃ row ∈ (keys.answer db scope).rows,
        pairsHold db.engine (scope.get rootAlias) row (key.map fun column => (column, column)) = true := by
  unfold Selection.inKeys
  split
  · rename_i column
    refine truth_inColumn.trans (exists_congr fun row => and_congr_right fun _ => ?_)
    simp [pairsHold]
  · have plain : ∀ condition, (keys.over keysName [.plain (Expr.int 1)] condition).IsPlain db.engine :=
      fun condition => isPlain_over (by simp [SelectItem.plain, Expr.int, Expr.aggregates])
    have isEmpty := Query.rows_isEmpty db scope _ (plain (some (keyLink keysName rootAlias
      (key.map fun column => (column, column))))) rfl rfl
    have swapped : ∀ a b : Record V,
        pairsHold db.engine a b (key.map fun column => (column, column)) =
          pairsHold db.engine b a (key.map fun column => (column, column)) := by
      intro a b
      simp only [pairsHold, List.all_map, Function.comp_def, db.engine.compare_comm (db.engine.read a _)]
    have inhabited : ((Expr.existsQuery (keys.over keysName [.plain (Expr.int 1)] (some (keyLink keysName
        rootAlias (key.map fun column => (column, column))))) false).truth db scope = .yes) ↔
          ∃ inner, inner ∈ (keys.over keysName [.plain (Expr.int 1)] (some (keyLink keysName
            rootAlias (key.map fun column => (column, column))))).matching db scope := by
      rw [Expr.truth_existsQuery, isEmpty, Truth.ofBool_eq_yes, beq_false, Bool.not_eq_true',
        List.isEmpty_eq_false_iff_exists_mem]
    refine inhabited.trans ?_
    simp only [mem_matching_over, conditionTruth_some, ← beq_iff_eq (a := Expr.truth _ _ _), truth_keyLink]
    constructor
    · rintro ⟨_, row, member, rfl, equal⟩
      rw [Scope.get_cons_self, Scope.get_cons_of_ne apart] at equal
      exact ⟨row, member, by rw [swapped, equal]⟩
    · rintro ⟨row, member, equal⟩
      refine ⟨_, row, member, rfl, ?_⟩
      rw [Scope.get_cons_self, Scope.get_cons_of_ne apart, swapped, equal]

end

/-! ### Statements with a page -/

section

variable {db : Database V}

/-- Selecting behind one more condition keeps the scopes that meet it. -/
theorem matching_filter {query : Query} {outer : Scope V} {condition : Expr} :
    (query.filter condition).matching db outer =
      (query.matching db outer).filter fun scope => condition.truth db scope == .yes := by
  rw [Query.matching, Query.matching, List.filter_filter]
  refine List.filter_congr fun scope _ => ?_
  rw [Query.filter, conditionTruth_strengthen, Bool.eq_iff_iff]
  simp [and_comm]

/-- What a SELECT list that starts with columns of a row shows under their names is the row's. -/
theorem read_record_columns {outer scope : Scope V} {label column : String} {columns : List PlanColumn}
    {more : List SelectItem} (member : column ∈ columns.map PlanColumn.name) :
    db.engine.read (SelectItem.record db outer scope [] (columns.map (fun column =>
        ⟨Expr.of label column.name, some column.name⟩) ++ more)) column =
      db.engine.read (scope.get label) column := by
  induction columns with
  | nil => simp at member
  | cons first columns ih =>
      by_cases same : column = first.name
      · simp [Engine.read, Expr.of, Expr.star?, same]
      · have others := ih ((List.mem_cons.1 member).resolve_left same)
        have unequal : (column == first.name) = false := by simpa using same
        rw [← others]
        simp [Engine.read, Expr.of, Expr.star?, List.lookup_cons, unequal]

end

/-- The selection without a page. -/
def Selection.unpaged (selection : Selection) : Selection :=
  { selection with limit := none, offset := none }

/-- Whether the key of a record is that of a root on the page. -/
def Selection.onPage (db : Database V) (registry : Registry) (selection : Selection) (record : Record V) :
    Bool :=
  (selection.page db registry).any fun root =>
    pairsHold db.engine record root (selection.table.primaryKey.map fun column => (column, column))

section

variable {registry : Registry} {selection : Selection}

/-- What the condition of a page was made of. -/
theorem Selection.pageCondition_eq_ok {plan : Projection} {names : Names} {condition : Expr}
    (restricted : selection.pageCondition registry plan names = .ok condition) :
    selection.orderAcrossToMany? plan = none ∧ ∃ kept assembly items,
      Selection.toOneIncludes registry selection.table selection.includes = .ok kept ∧
      selection.assemble registry kept names = .ok assembly ∧
      selection.orderItems registry assembly.plan = .ok items ∧
      condition = Selection.inKeys selection.table.primaryKey (assembly.keysQuery selection items)
        (assembly.names.reserve pageKeysName none).1 plan.label := by
  unfold Selection.pageCondition at restricted
  simp only at restricted
  split at restricted
  · contradiction
  · split at restricted
    · contradiction
    · rename_i stays
      simp only [Except.bind_eq_ok, pure, Except.pure, Except.ok.injEq] at restricted
      obtain ⟨kept, keeps, assembly, assembled, items, ordered, rfl⟩ := restricted
      exact ⟨stays, kept, assembly, items, keeps, assembled, ordered, rfl⟩

end

section

variable {db : Database V} {registry : Registry} {selection : Selection} {assembly : Assembly}
  (parts : assembly.Parts db registry selection selection.includes .empty)

include parts

/-- The condition of a page holds of the rows whose root lies on the page. -/
theorem Assembly.Parts.truth_pageCondition {items : List OrderItem} {condition : Expr}
    (keyed : db.Keyed selection.table) (unique : db.LinksToOne registry)
    (registered : selection.table ∈ registry.tables)
    (ordered : selection.orderItems registry assembly.plan = .ok items)
    (restricted : selection.pageCondition registry assembly.plan assembly.names = .ok condition)
    (scope : Scope V) :
    (condition.truth db scope == .yes) = selection.onPage db registry (scope.get parts.label) := by
  obtain ⟨stays, kept, inner, innerItems, keeps, assembled, innerOrdered, rfl⟩ :=
    Selection.pageCondition_eq_ok restricted
  obtain ⟨innerParts⟩ := Selection.nonempty_parts db assembled
  have labelled : assembly.plan.label = parts.label := by rw [parts.plan_eq]
  have toOne : Projection.anyToMany innerParts.nodes = false :=
    innerParts.attaches.anyToMany_eq_false (toOneIncludes_staysToOne keeps)
  have innerToOne : inner.plan.hasToMany = false := by
    rw [innerParts.plan_eq, Projection.hasToMany, toOne]
  -- Paths lead to the same records whether or not other relations are included.
  have sameWay : ∀ term ∈ selection.order, ∀ root : Record V,
      follow db registry selection.table kept term.relations root =
        follow db registry selection.table selection.includes term.relations root := by
    intro term member root
    obtain ⟨item, -, reached, found, -⟩ := exists_of_forall₂ (orderItems_eq_ok ordered) term member
    have onward : assembly.plan.isToOnePath term.relations = true := by
      simpa using List.find?_eq_none.1 stays term member
    cases steps : term.relations with
    | nil => rfl
    | cons name rest =>
        rw [steps, parts.plan_eq] at onward found
        simp only [Projection.isToOnePath, Projection.find?, Projection.node?] at onward found
        split at found
        · rename_i node first
          simp only [first, Bool.and_eq_true, Bool.not_eq_true'] at onward
          exact parts.attaches.follow_toOneIncludes keeps first onward.1 onward.2 found root
        · contradiction
  have innerStays : ∀ term ∈ selection.order, inner.plan.isToOnePath term.relations = true := by
    intro term member
    obtain ⟨item, -, reached, found, -⟩ := exists_of_forall₂ (orderItems_eq_ok innerOrdered) term member
    exact isToOnePath_of_find? innerToOne found
  have rows := innerParts.rows_keysQuery keyed toOne unique registered innerOrdered scope
    fun inside member => innerParts.sortsLike_orderItems unique registered member innerOrdered innerStays
      fun term inOrder => sameWay term inOrder _
  have apart : parts.label ≠ (inner.names.reserve pageKeysName none).1 := by
    intro same
    have known : parts.label ∈ inner.names.exposed := by
      refine innerParts.lowered.reserved.grows ((innerParts.attaches.reserved db).grows ?_)
      have grown := Names.exposed_reserve assembly.names selection.table.name none
      rw [innerParts.reserved] at grown
      rw [grown]
      exact List.mem_append_left _ (parts.lowered.reserved.grows parts.label_mem_attached)
    exact inner.names.reserve_fresh pageKeysName none (same ▸ known)
  rw [labelled, Bool.eq_iff_iff, beq_iff_eq, truth_inKeys apart, rows]
  simp [Selection.onPage, pairsHold_keyRecord]

/-- The selected key columns of a scope's row are those of its root. -/
theorem Assembly.Parts.pairsHold_record {outer scope : Scope V} {root : Record V}
    (keyKnown : ∀ column ∈ selection.table.primaryKey, selection.table.hasColumn column = true) :
    pairsHold db.engine (SelectItem.record db outer scope [] assembly.plan.selectItems) root
        (selection.table.primaryKey.map fun column => (column, column)) =
      pairsHold db.engine (scope.get parts.label) root
        (selection.table.primaryKey.map fun column => (column, column)) := by
  obtain ⟨selected, -, -⟩ := completedColumns_spec keyKnown parts.chosen parts.completed
  have reads : ∀ column ∈ selection.table.primaryKey,
      db.engine.read (SelectItem.record db outer scope [] assembly.plan.selectItems) column =
        db.engine.read (scope.get parts.label) column := by
    intro column member
    rw [parts.plan_eq, Projection.selectItems, Projection.ownItems]
    exact read_record_columns (selected column member)
  rw [Bool.eq_iff_iff, pairsHold, pairsHold, List.all_eq_true, List.all_eq_true, List.forall_mem_map,
    List.forall_mem_map]
  refine forall_congr' fun column => forall_congr' fun member => ?_
  simp only [reads column member]

end

/-- A page holds roots that satisfy the filters, each at most once and no more than the limit. -/
theorem Selection.page_spec {db : Database V} {registry : Registry} {selection : Selection}
    (keyed : db.Keyed selection.table) :
    selection.page db registry ⊆ selection.roots db registry ∧ (selection.page db registry).Nodup ∧
      ∀ limit, selection.limit = some limit → (selection.page db registry).length ≤ limit.toNat := by
  have sorted := List.mergeSort_perm (selection.roots db registry)
    (sortsByKeys db.engine (selection.pageKeys db registry))
  have within := window_sublist selection.limit selection.offset
    ((selection.roots db registry).mergeSort (sortsByKeys db.engine (selection.pageKeys db registry)))
  refine ⟨fun root member => sorted.subset (within.subset member), ?_, ?_⟩
  · exact within.nodup (sorted.nodup_iff.2 (keyed.nodup.filter _))
  · intro limit cut
    rw [Selection.page, cut, window]
    exact List.length_take_le _ _

/-- A selection that asks for a page, where relations multiply rows, is built like the one without page
    and with one more condition. Its answer consists of the rows whose root lies on the page, and of all of
    these. The page is cut from the roots that satisfy the filters, sorted by the orderings and then by the
    remaining columns of the primary key. -/
theorem Selection.build_page (db : Database V) (registry : Registry) (selection : Selection)
    (built : BuiltQuery) (registered : selection.table ∈ registry.tables)
    (build : selection.build registry = .ok built) (paged : selection.isPaged = true)
    (toMany : built.plan.hasToMany = true) (keyed : db.Keyed selection.table)
    (unique : db.LinksToOne registry) :
    ∃ full condition, selection.unpaged.build registry = .ok full ∧ full.plan = built.plan ∧
      built.query = full.query.filter condition ∧
      (built.query.answer db []).rows.Perm
        (((full.query.ordered db []).filter fun scope =>
          selection.onPage db registry (scope.get full.plan.label)).map fun scope =>
            SelectItem.record db [] scope [] full.query.select) ∧
      ((∀ column ∈ selection.table.primaryKey, selection.table.hasColumn column = true) →
        (built.query.answer db []).rows.Perm
          ((full.query.answer db []).rows.filter (selection.onPage db registry))) ∧
      selection.page db registry ⊆ selection.roots db registry ∧ (selection.page db registry).Nodup ∧
      ∀ limit, selection.limit = some limit → (selection.page db registry).length ≤ limit.toNat := by
  obtain ⟨assembly, items, assembled, ordered, planned, -, restricts, -⟩ := Selection.build_eq_ok build
  obtain ⟨parts⟩ := Selection.nonempty_parts db assembled
  obtain ⟨condition, restricted, made⟩ := restricts paged (by rw [← planned]; exact toMany)
  have labelled : assembly.plan.label = parts.label := by rw [parts.plan_eq]
  have onPage := parts.truth_pageCondition keyed unique registered ordered restricted
  have withoutPage : selection.unpaged.build registry =
      .ok ⟨assembly.statement items, assembly.plan⟩ := by
    have sameAssembly : selection.unpaged.assemble registry selection.unpaged.includes .empty =
      .ok assembly := assembled
    have sameItems : selection.unpaged.orderItems registry assembly.plan = .ok items := ordered
    simp only [Selection.build, sameAssembly, sameItems, bind, Except.bind]
    rfl
  have narrowed : ((assembly.statement items).filter condition).matching db [] =
      ((assembly.statement items).matching db []).filter fun scope =>
        selection.onPage db registry (scope.get parts.label) := by
    rw [matching_filter]
    exact List.filter_congr fun scope _ => onPage scope
  have perm : (((assembly.statement items).filter condition).ordered db []).Perm
      (((assembly.statement items).ordered db []).filter fun scope =>
        selection.onPage db registry (scope.get parts.label)) := by
    refine (Query.ordered_perm db [] _).trans (.trans (.of_eq narrowed) ?_)
    exact ((Query.ordered_perm db [] _).filter _).symm
  have answered : (built.query.answer db []).rows =
      (((assembly.statement items).filter condition).ordered db []).map fun scope =>
        SelectItem.record db [] scope [] assembly.plan.selectItems := by
    have plain : ((assembly.statement items).filter condition).IsPlain db.engine :=
      ⟨(parts.isPlain_statement ordered).ungrouped, (parts.isPlain_statement ordered).keepsDuplicates⟩
    have unlimited : ((assembly.statement items).filter condition).limit = none := by
      rw [Query.filter, Assembly.statement, parts.query_eq, Query.empty]
    have started : ((assembly.statement items).filter condition).offset = none := by
      rw [Query.filter, Assembly.statement, parts.query_eq, Query.empty]
    rw [made, Query.rows_of_isPlain _ _ _ plain, unlimited, started, window_none]
    rfl
  have rows : (built.query.answer db []).rows.Perm
      ((((assembly.statement items).ordered db []).filter fun scope =>
        selection.onPage db registry (scope.get parts.label)).map fun scope =>
          SelectItem.record db [] scope [] assembly.plan.selectItems) := by
    rw [answered]
    exact perm.map _
  refine ⟨_, condition, withoutPage, planned.symm, made, ?_, ?_, Selection.page_spec keyed⟩
  · rw [labelled]
    exact rows
  · intro keyKnown
    refine rows.trans (.of_eq ?_)
    rw [parts.answer_statement ordered, List.filter_map]
    congr 1
    refine List.filter_congr fun scope _ => ?_
    simp only [Function.comp_apply, Selection.onPage, parts.pairsHold_record keyKnown]

/-- The first of the posts by title, with its author and its tags. -/
def Blog.firstPage : Selection :=
  { Selection.ofTable Blog.posts with
    includes := [⟨"author", none, none, none, []⟩, ⟨"tags", none, none, none, []⟩]
    order := [⟨"title", .asc, none⟩]
    limit := some 1 }

/-- One post is on the page. -/
theorem Blog.build_firstPage :
    ∃ built full, Blog.firstPage.build registry = .ok built ∧
      Blog.firstPage.unpaged.build registry = .ok full ∧
      (built.query.answer database []).rows.Perm
        ((full.query.answer database []).rows.filter (Blog.firstPage.onPage database registry)) ∧
      (Blog.firstPage.page database registry).length = 1 := by
  obtain ⟨built, build, toMany⟩ : ∃ built, Blog.firstPage.build registry = .ok built ∧
      built.plan.hasToMany = true := ⟨_, rfl, by decide +kernel⟩
  obtain ⟨full, -, unpaged, -, -, -, same, -⟩ := Selection.build_page database registry
    Blog.firstPage built (by decide) build rfl toMany keyed_posts linksToOne
  refine ⟨built, full, build, unpaged, same (by decide), ?_⟩
  have three : (Blog.firstPage.roots database registry).length = 3 := by decide +kernel
  have cut : Blog.firstPage.limit = some 1 ∧ Blog.firstPage.offset = none := ⟨rfl, rfl⟩
  rw [Selection.page, cut.1, cut.2, window, List.length_take, List.length_drop, List.length_mergeSort, three]
  rfl

end RelQuery
