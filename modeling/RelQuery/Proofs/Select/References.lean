/-
Module: RelQuery.Proofs.Select.References
Purpose: Every reference of a statement resolves where it stands: to the items of its own query that are
  in effect there, or to those of an enclosing query. Derived tables resolve by themselves.
Main exports: Attaches.resolve_joins, Attaches.resolve_selectItems, Attaches.reaches,
  Assembly.Pieces.resolve_variant, resolve_build, resolve_countQuery, Selection.wellScoped
-/
import RelQuery.Proofs.Filter.References
import RelQuery.Proofs.Select.Names

namespace RelQuery

open Sql

/-! ### Lists of columns -/

section

variable {offers : TableRef → String → Prop} {items : List TableRef} {table : Table}

theorem resolve_selected {selected : List SelectItem}
    (each : ∀ item ∈ selected, AllResolve offers (item.expr.references items)) :
    AllResolve offers (SelectItem.referencesOfEach items selected) := by
  induction selected with
  | nil => exact allResolve_nil
  | cons item selected ih =>
      obtain ⟨first, others⟩ := List.forall_mem_cons.1 each
      obtain ⟨e, label⟩ := item
      exact allResolve_append.2 ⟨first, ih others⟩

theorem referencesOfEach_selected_append (selected more : List SelectItem) :
    SelectItem.referencesOfEach items (selected ++ more) =
      SelectItem.referencesOfEach items selected ++ SelectItem.referencesOfEach items more := by
  induction selected with
  | nil => rfl
  | cons item selected ih =>
      obtain ⟨e, label⟩ := item
      rw [List.cons_append, SelectItem.referencesOfEach, ih, SelectItem.referencesOfEach, List.append_assoc]

theorem resolve_sorted {sorted : List OrderItem}
    (each : ∀ item ∈ sorted, AllResolve offers (item.expr.references items)) :
    AllResolve offers (OrderItem.referencesOfEach items sorted) := by
  induction sorted with
  | nil => exact allResolve_nil
  | cons item sorted ih =>
      obtain ⟨first, others⟩ := List.forall_mem_cons.1 each
      obtain ⟨e, direction, nulls⟩ := item
      exact allResolve_append.2 ⟨first, ih others⟩

/-- The columns that are shown of a row are columns of its table. -/
theorem hasColumn_of_completed {requested : Option (List String)} {names : List String}
    {selected columns : List PlanColumn} (chosen : selectColumns table requested = .ok selected)
    (completed : ensureColumns table names selected = .ok columns) :
    ∀ column ∈ columns, table.hasColumn column.name = true := by
  have known : ∀ column ∈ selected, table.hasColumn column.name = true := by
    obtain ⟨named, known⟩ := names_of_mapM_planColumn chosen
    intro column member
    exact known _ (named ▸ List.mem_map_of_mem member)
  exact (ensureColumns_eq_ok completed known).2.2

end

section

variable {registry : Registry} (catalogue : Catalogue registry)

/-- The columns of an occurrence itself are selected from it. -/
theorem resolve_ownItems {table : Table} {items : List TableRef} {projection : Projection}
    (ranges : catalogue.Ranges table) (usable : occurrence table projection.label ∈ items)
    (known : ∀ column ∈ projection.columns, table.hasColumn column.name = true) :
    AllResolve catalogue.Offers (SelectItem.referencesOfEach items projection.ownItems) := by
  apply resolve_selected
  intro item member
  obtain ⟨column, inside, rfl⟩ := List.mem_map.1 member
  exact resolve_of usable (catalogue.column _ ranges (known column inside))

/-! ### Includes -/

variable {table : Table} {label outputPath path : String} {names names' : Names} {requests : List Include}
  {nodes : List IncludeNode} {loads : List LazyLoad} {joins : List Join}

/-- The joins of attached includes refer to the occurrence that they are attached to and to each other, in
    their order. -/
theorem Attaches.resolve_joins
    (attaches : Attaches registry table label outputPath path names requests nodes loads joins names') :
    catalogue.Ranges table → ∀ before, occurrence table label ∈ before →
      AllResolve catalogue.Offers (Join.referencesOfEach before joins) := by
  induction attaches with
  | nil =>
      intro ranges before usable
      exact allResolve_nil
  | deferred found lazy described new rest ih => exact ih
  | joined found eager narrowed chosen below completed new rest ihBelow ih =>
      intro ranges before usable
      have target := catalogue.target ranges found
      have narrows := ((includeCondition_emits narrowed).resolving catalogue target).condition
      rw [referencesOfEach_joins_append, referencesOfEach_joins_append, allResolve_append,
        allResolve_append]
      refine ⟨⟨RelQuery.resolve_joins usable (catalogue.keys ranges found) narrows, ?_⟩, ?_⟩
      · exact ihBelow target _ (List.mem_append_right _ target_mem_joins)
      · exact ih ranges _ (List.mem_append_left _ usable)

/-- What is selected from attached includes is selected from their joins. -/
theorem Attaches.resolve_selectItems
    (attaches : Attaches registry table label outputPath path names requests nodes loads joins names') :
    catalogue.Ranges table → ∀ items, joins.map Join.table ⊆ items →
      AllResolve catalogue.Offers
        (SelectItem.referencesOfEach items (Projection.selectItemsOfNodes nodes)) := by
  induction attaches with
  | nil =>
      intro ranges items inside
      exact allResolve_nil
  | deferred found lazy described new rest ih => exact ih
  | joined found eager narrowed chosen below completed new rest ihBelow ih =>
      intro ranges items inside
      have target := catalogue.target ranges found
      rw [List.map_append, List.map_append, List.append_subset, List.append_subset] at inside
      obtain ⟨⟨insideReach, insideBelow⟩, insideRest⟩ := inside
      rw [Projection.selectItemsOfNodes, Projection.selectItems, referencesOfEach_selected_append,
        referencesOfEach_selected_append, allResolve_append, allResolve_append]
      refine ⟨⟨?_, ihBelow target items insideBelow⟩, ih ranges items insideRest⟩
      exact resolve_ownItems catalogue target (insideReach target_mem_joins)
        (hasColumn_of_completed chosen completed)

/-- A path of attached includes leads to the joined occurrence of the table that its relations lead to. -/
theorem Attaches.reaches
    (attaches : Attaches registry table label outputPath path names requests nodes loads joins names')
    {name : String} {steps : List String} {node : IncludeNode} {reached : Projection} {last : Table} :
    catalogue.Ranges table → nodes.find? (fun node => node.relation == name) = some node →
      node.projection.find? steps = some reached →
      Selection.tableAt registry table (name :: steps) = .ok last →
      catalogue.Ranges last ∧ occurrence last reached.label ∈ joins.map Join.table := by
  induction attaches generalizing name steps node with
  | nil =>
      intro ranges inNode
      contradiction
  | deferred found lazy described new rest ih => exact ih
  | joined found eager narrowed chosen below completed new rest ihBelow ih =>
      intro ranges inNode onward leads
      simp only [List.map_append, List.mem_append]
      rw [List.find?_cons] at inNode
      split at inNode
      · rename_i same
        obtain rfl := Option.some.inj inNode
        simp only [beq_iff_eq] at same
        subst same
        simp only [Selection.tableAt, found] at leads
        have target := catalogue.target ranges found
        cases steps with
        | nil =>
            obtain rfl := Option.some.inj onward
            obtain rfl := Except.ok.inj leads
            exact ⟨target, .inl (.inl target_mem_joins)⟩
        | cons step steps =>
            simp only [Projection.find?, Projection.node?] at onward
            split at onward
            · rename_i inner inInner
              obtain ⟨ends, inside⟩ := ihBelow target inInner onward leads
              exact ⟨ends, .inl (.inr inside)⟩
            · contradiction
      · obtain ⟨ends, inside⟩ := ih ranges inNode onward leads
        exact ⟨ends, .inr inside⟩

end

/-! ### Statements -/

section

variable {registry : Registry} {selection : Selection} {includes : List Include} {names : Names}
  {assembly : Assembly} (pieces : assembly.Pieces registry selection includes names)

include pieces

/-- The items of the statement itself. -/
def Assembly.Pieces.items : List TableRef :=
  occurrence selection.table pieces.label :: (pieces.joins ++ pieces.filterJoins).map Join.table

theorem Assembly.Pieces.root_mem_items : occurrence selection.table pieces.label ∈ pieces.items :=
  List.mem_cons_self

/-- The references of the statement, whatever it selects and sorts by. -/
theorem Assembly.Pieces.references_eq {select : List SelectItem} {distinct : Bool} {order : List OrderItem}
    {limit offset : Option UInt64} :
    { assembly.query with select, distinct, orderBy := order, limit, offset : Query }.references [] =
      Join.referencesOfEach [occurrence selection.table pieces.label] (pieces.joins ++ pieces.filterJoins) ++
        SelectItem.referencesOfEach pieces.items select ++
        Expr.referencesOfEach pieces.items pieces.predicates ++
        OrderItem.referencesOfEach pieces.items order := by
  simp [pieces.query_eq, Query.empty, Query.references, TableRef.referencesOfOption, occurrence,
    TableRef.references, Expr.referencesOfEach, Expr.referencesOfOption, Assembly.Pieces.items]

/-- A variant of the statement resolves if what it selects and sorts by does. -/
theorem Assembly.Pieces.resolve_variant (catalogue : Catalogue registry)
    (ranges : catalogue.Ranges selection.table) {select : List SelectItem} {distinct : Bool}
    {order : List OrderItem} {limit offset : Option UInt64}
    (selects : AllResolve catalogue.Offers (SelectItem.referencesOfEach pieces.items select))
    (sorts : AllResolve catalogue.Offers (OrderItem.referencesOfEach pieces.items order)) :
    AllResolve catalogue.Offers
      ({ assembly.query with select, distinct, orderBy := order, limit, offset : Query }.references []) := by
  have filters := pieces.emits.resolving catalogue ranges
  have insideFilters : pieces.filterJoins.map Join.table ⊆ pieces.items := by
    intro item member
    refine List.mem_cons_of_mem _ ?_
    rw [List.map_append]
    exact List.mem_append_right _ member
  rw [pieces.references_eq, allResolve_append, allResolve_append, allResolve_append,
    referencesOfEach_joins_append, allResolve_append]
  refine ⟨⟨⟨⟨?_, ?_⟩, selects⟩, ?_⟩, sorts⟩
  · exact pieces.attaches.resolve_joins catalogue ranges _ (List.mem_singleton_self _)
  · exact filters.ofJoins _ (List.mem_append_left _ (List.mem_singleton_self _))
  · exact filters.ofPredicates _ pieces.root_mem_items insideFilters

/-- The plan selects columns of the items of its statement. -/
theorem Assembly.Pieces.resolve_plan (catalogue : Catalogue registry)
    (ranges : catalogue.Ranges selection.table) :
    AllResolve catalogue.Offers (SelectItem.referencesOfEach pieces.items assembly.plan.selectItems) := by
  have inside : pieces.joins.map Join.table ⊆ pieces.items := by
    intro item member
    refine List.mem_cons_of_mem _ ?_
    rw [List.map_append]
    exact List.mem_append_left _ member
  rw [pieces.plan_eq, Projection.selectItems, referencesOfEach_selected_append, allResolve_append]
  constructor
  · exact resolve_ownItems catalogue ranges pieces.root_mem_items
      (hasColumn_of_completed pieces.chosen pieces.completed)
  · exact pieces.attaches.resolve_selectItems catalogue ranges _ inside

/-- The orderings sort by columns of the items of the statement. -/
theorem Assembly.Pieces.resolve_orderItems (catalogue : Catalogue registry)
    (ranges : catalogue.Ranges selection.table) {items : List OrderItem}
    (ordered : selection.orderItems registry assembly.plan = .ok items) :
    ∀ item ∈ items, AllResolve catalogue.Offers (item.expr.references pieces.items) := by
  intro item member
  obtain ⟨term, -, made⟩ := exists_of_forall₂ (forall₂_of_mapM ordered).flip item member
  simp only [Selection.orderItem, Except.bind_eq_ok] at made
  obtain ⟨last, leads, made⟩ := made
  split at made
  · contradiction
  · rename_i known
    split at made
    · rename_i reached found
      obtain rfl := Except.ok.inj made
      have ends : catalogue.Ranges last ∧ occurrence last reached.label ∈ pieces.items := by
        rw [pieces.plan_eq] at found
        cases steps : term.relations with
        | nil =>
            rw [steps] at found leads
            obtain rfl := Option.some.inj found
            obtain rfl := Except.ok.inj leads
            exact ⟨ranges, pieces.root_mem_items⟩
        | cons name steps' =>
            rw [steps] at found leads
            simp only [Projection.find?, Projection.node?] at found
            split at found
            · rename_i node inNode
              obtain ⟨ends, inside⟩ := pieces.attaches.reaches catalogue ranges inNode found leads
              refine ⟨ends, List.mem_cons_of_mem _ ?_⟩
              rw [List.map_append]
              exact List.mem_append_left _ inside
            · contradiction
      exact resolve_of ends.2 (catalogue.column _ ends.1 (by simpa using known))
    · contradiction

end

/-- The condition of a page refers to the root and to a derived table, which resolves by itself. -/
theorem resolve_inKeys {offers : TableRef → String → Prop} {items : List TableRef} {table : Table}
    {key : List String} {keys : Query} {keysName rootAlias : String}
    (usable : occurrence table rootAlias ∈ items)
    (offered : ∀ column ∈ key, offers (occurrence table rootAlias) column)
    (derived : ∀ column ∈ key, offers (TableRef.derived keys keysName) column)
    (inside : AllResolve offers (keys.references [])) :
    AllResolve offers ((Selection.inKeys key keys keysName rootAlias).references items) := by
  have source : AllResolve offers (TableRef.referencesOfOption (some (TableRef.derived keys keysName))) :=
    inside
  have around : occurrence table rootAlias ∈ [TableRef.derived keys keysName] ++ items :=
    List.mem_append_right _ usable
  have own : TableRef.derived keys keysName ∈ [TableRef.derived keys keysName] ++ items :=
    List.mem_cons_self
  unfold Selection.inKeys
  simp only
  split
  · rename_i column
    have compared := resolve_of usable (offered column (List.mem_singleton_self _))
    have selected := resolve_column own rfl (derived column (List.mem_singleton_self _))
    refine allResolve_append.2 ⟨compared, ?_⟩
    simpa [Query.references, Query.empty, Join.referencesOfEach, SelectItem.referencesOfEach,
      SelectItem.plain, Expr.referencesOfOption, Expr.referencesOfEach, OrderItem.referencesOfEach]
      using ⟨source, selected⟩
  · have linked : AllResolve offers ((keyLink keysName rootAlias (key.map fun column =>
        (column, column))).references ([TableRef.derived keys keysName] ++ items)) := by
      refine resolve_link own rfl around (exposedName_occurrence _ _) ?_
      intro pair member
      obtain ⟨column, inKey, rfl⟩ := List.mem_map.1 member
      exact ⟨derived column inKey, offered column inKey⟩
    simpa [Expr.references, Query.references, Query.empty, Join.referencesOfEach,
      SelectItem.referencesOfEach, SelectItem.plain, Expr.int, Expr.referencesOfOption,
      Expr.referencesOfEach, OrderItem.referencesOfEach] using ⟨source, linked⟩

section

variable {registry : Registry} {selection : Selection} (catalogue : Catalogue registry)
  (ranges : catalogue.Ranges selection.table)

include ranges

theorem resolve_pageCondition {plan : Projection} {names : Names} {condition : Expr}
    (restricted : selection.pageCondition registry plan names = .ok condition) {items : List TableRef}
    (usable : occurrence selection.table plan.label ∈ items) :
    AllResolve catalogue.Offers (condition.references items) := by
  obtain ⟨-, kept, assembly, order, -, assembled, ordered, rfl⟩ := Selection.pageCondition_eq_ok restricted
  obtain ⟨pieces⟩ := Selection.nonempty_pieces assembled
  have labelled : assembly.plan.label = pieces.label := by rw [pieces.plan_eq]
  have root : ∀ column ∈ selection.table.primaryKey,
      AllResolve catalogue.Offers ((Expr.of assembly.plan.label column).references pieces.items) := by
    intro column inKey
    rw [labelled]
    exact resolve_of pieces.root_mem_items (catalogue.key _ ranges inKey)
  apply resolve_inKeys usable
  · intro column inKey
    exact catalogue.key _ ranges inKey
  · intro column inKey
    have selected : ⟨Expr.of assembly.plan.label column, some column⟩ ∈
        (assembly.keysQuery selection order).select := List.mem_map.2 ⟨column, inKey, rfl⟩
    exact catalogue.output selected rfl
  · apply pieces.resolve_variant catalogue ranges
    · apply resolve_selected
      intro item member
      obtain ⟨column, inKey, rfl⟩ := List.mem_map.1 member
      exact root column inKey
    · apply resolve_sorted
      intro item member
      rw [withKeyOrder_eq] at member
      rcases List.mem_append.1 member with given | added
      · exact pieces.resolve_orderItems catalogue ranges ordered item given
      · obtain ⟨column, inKey, rfl⟩ := List.mem_map.1 added
        exact root column (List.mem_of_mem_filter (List.mem_eraseDups.1 inKey))

/-- The references of a built statement resolve. -/
theorem resolve_build {built : BuiltQuery} (build : selection.build registry = .ok built) :
    AllResolve catalogue.Offers (built.query.references []) := by
  obtain ⟨assembly, items, assembled, ordered, -, unpaged, cut, limited⟩ := Selection.build_eq_ok build
  obtain ⟨pieces⟩ := Selection.nonempty_pieces assembled
  have selects := pieces.resolve_plan catalogue ranges
  have sorts := resolve_sorted (pieces.resolve_orderItems catalogue ranges ordered)
  cases paged : selection.isPaged with
  | false =>
      rw [unpaged paged]
      exact pieces.resolve_variant catalogue ranges selects sorts
  | true =>
      cases toMany : assembly.plan.hasToMany with
      | false =>
          rw [limited paged toMany]
          exact pieces.resolve_variant catalogue ranges selects sorts
      | true =>
          obtain ⟨condition, restricted, made⟩ := cut paged toMany
          have statement : AllResolve catalogue.Offers ((assembly.statement items).references []) :=
            pieces.resolve_variant catalogue ranges selects sorts
          have labelled : assembly.plan.label = pieces.label := by rw [pieces.plan_eq]
          have own : (assembly.statement items).source.toList ++
              (assembly.statement items).joins.map Join.table ++ [] = pieces.items := by
            simp [Assembly.statement, pieces.query_eq, Assembly.Pieces.items]
          have page := resolve_pageCondition catalogue ranges restricted (labelled ▸ pieces.root_mem_items)
          rw [made]
          intro reference member
          rw [(Query.references_filter [] _ _).mem_iff, own, List.mem_append] at member
          rcases member with member | member
          · exact statement reference member
          · exact page reference member

/-- The references of a counting statement resolve. -/
theorem resolve_countQuery {counting : Query} (count : selection.countQuery registry = .ok counting) :
    AllResolve catalogue.Offers (counting.references []) := by
  obtain ⟨assembly, assembled, made⟩ := Selection.countQuery_eq_ok count
  obtain ⟨pieces⟩ := Selection.nonempty_pieces assembled
  have unsorted : assembly.query.orderBy = [] := by rw [pieces.query_eq, Query.empty]
  have labelled : assembly.plan.label = pieces.label := by rw [pieces.plan_eq]
  have sorts : AllResolve catalogue.Offers
      (OrderItem.referencesOfEach pieces.items assembly.query.orderBy) := by
    rw [unsorted]
    exact allResolve_nil
  rcases made with ⟨-, rfl⟩ | ⟨column, single, rfl⟩ | ⟨-, rfl⟩
  · exact pieces.resolve_variant catalogue ranges allResolve_nil sorts
  · have inKey : column ∈ selection.table.primaryKey := by simp [single]
    have counted := resolve_of pieces.root_mem_items (catalogue.key _ ranges inKey)
    apply pieces.resolve_variant catalogue ranges _ sorts
    rw [labelled]
    exact allResolve_append.2 ⟨allResolve_append.2 ⟨counted, allResolve_nil⟩, allResolve_nil⟩
  · have inside : AllResolve catalogue.Offers
        ((assembly.distinctKeys selection.table.primaryKey).references []) := by
      apply pieces.resolve_variant catalogue ranges _ sorts
      apply resolve_selected
      intro item member
      obtain ⟨column, inKey, rfl⟩ := List.mem_map.1 member
      rw [labelled]
      exact resolve_of pieces.root_mem_items (catalogue.key _ ranges inKey)
    simpa [Query.references, Query.empty, TableRef.referencesOfOption, TableRef.derived,
      TableRef.references, Join.referencesOfEach, SelectItem.referencesOfEach, Expr.countRows,
      Expr.references, Expr.referencesOfOption, Expr.referencesOfEach, OrderItem.referencesOfEach]
      using inside

end

/-- All names are known, whatever the schema says of columns. -/
def Catalogue.ofNames (registry : Registry) : Catalogue registry where
  Ranges := fun _ => True
  Offers := fun _ _ => True
  column := fun _ _ _ => trivial
  key := fun _ _ _ => trivial
  target := fun _ _ => trivial
  keys := by
    intro table name relation keys _ _
    cases keys <;> simp [RelationKeys.Offered, KeyPairs.Offered]
  output := fun _ _ => trivial

/-- Built statements and counting statements are well scoped, from left to right: no qualifier is left
    unresolved, and derived tables need nothing around them. -/
theorem Selection.wellScoped (registry : Registry) (selection : Selection) (q : Query)
    (made : (∃ plan, selection.build registry = .ok ⟨q, plan⟩) ∨ selection.countQuery registry = .ok q) :
    q.WellScoped ∧ q.unresolved = [] ∧
      ∀ derived label, ⟨.derived derived, label⟩ ∈ q.occurrences →
        derived.WellScoped ∧ derived.unresolved = [] := by
  have wellScoped : q.WellScoped := by
    intro reference member
    rcases made with ⟨plan, build⟩ | count
    · exact (resolve_build (Catalogue.ofNames registry) trivial build reference member).inScope
    · exact (resolve_countQuery (Catalogue.ofNames registry) trivial count reference member).inScope
  refine ⟨wellScoped, wellScoped.unresolved_eq_nil, ?_⟩
  intro derived label inside
  exact ⟨wellScoped.derived inside, (wellScoped.derived inside).unresolved_eq_nil⟩

/-- Both statements of a page of posts are well scoped. -/
theorem Blog.wellScoped_pageByAda :
    ∃ built counting, Blog.pageByAda.build registry = .ok built ∧
      Blog.pageByAda.countQuery registry = .ok counting ∧
      built.query.WellScoped ∧ built.query.unresolved = [] ∧
      counting.WellScoped ∧ counting.unresolved = [] := by
  have found : ((Blog.pageByAda.build registry).map fun built =>
      (built.query.references []).length).toOption = some 30 := by decide +kernel
  have counted : ((Blog.pageByAda.countQuery registry).map fun counting =>
      (counting.references []).length).toOption = some 5 := by decide +kernel
  obtain ⟨built, build, -⟩ := exists_of_toOption_map found
  obtain ⟨counting, count, -⟩ := exists_of_toOption_map counted
  obtain ⟨page, pageResolved, -⟩ := Selection.wellScoped registry Blog.pageByAda built.query
    (.inl ⟨built.plan, build⟩)
  obtain ⟨total, totalResolved, -⟩ := Selection.wellScoped registry Blog.pageByAda counting (.inr count)
  exact ⟨built, counting, build, count, page, pageResolved, total, totalResolved⟩

end RelQuery
