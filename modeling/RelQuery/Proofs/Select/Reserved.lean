/-
Module: RelQuery.Proofs.Select.Reserved
Purpose: The items of a statement and the reservations that were made for it. What every single reservation
  keeps of the names before it, the names behind it and its item is kept by lowering, by includes and by
  whole statements, so that one induction serves all properties of names.
Main exports: ProposedBy, Accounting, Emits.accounted, Attaches.accounted, Selection.buildNames,
  Selection.countNames, Accounting.build, Accounting.countQuery
-/
import RelQuery.Proofs.Select.Page
import RelQuery.Proofs.Select.Pieces
import RelQuery.Proofs.Sql.Occurrences

namespace RelQuery

open Sql

/-! ### Uses of a relation -/

@[simp] theorem innerOccurrences_occurrence (table : Table) (label : String) :
    (occurrence table label).innerOccurrences = [] := rfl

/-- Key columns hold no queries. -/
@[simp] theorem occurrences_keyLink (left right : String) (pairs : KeyPairs) :
    (keyLink left right pairs).occurrences = [] := by
  cases pairs with
  | nil => rfl
  | cons pair pairs =>
      have compared : ∀ pairs : KeyPairs, Expr.occurrencesOfEach
          (pairs.map fun pair => (Expr.of left pair.1).eq (Expr.of right pair.2)) = [] := by
        intro pairs
        induction pairs with
        | nil => rfl
        | cons pair pairs ih =>
            rw [List.map_cons, Expr.occurrencesOfEach, ih]
            rfl
      refine (Expr.occurrences_foldl_and _ _).trans ?_
      rw [compared]
      rfl

/-- The items that a use of a relation adds, in the order of their reservation. -/
def Reach.tables (reached : Reach) : List TableRef :=
  (reached.pivot.map fun (pivot, pivotAlias, _) => occurrence pivot pivotAlias).toList ++
    [occurrence reached.target reached.label]

section

variable {names : Names} {label name : String} {keys : RelationKeys} {condition : Option Expr}

theorem occurrencesOfEach_joins : Join.occurrencesOfEach ((reach names label name keys).joins condition) =
    (reach names label name keys).tables ++ Expr.occurrencesOfOption condition := by
  cases keys <;> cases condition <;>
    simp [reach, Reach.joins, Reach.tables, Join.left, Join.occurrencesOfEach, Expr.occurrencesOfOption,
      Expr.and, Expr.occurrences]

theorem occurrences_subquery : ((reach names label name keys).subquery condition).occurrences =
    (reach names label name keys).tables ++ Expr.occurrencesOfOption condition := by
  cases keys <;> cases condition <;>
    simp [reach, Reach.subquery, Reach.tables, Query.occurrences, Query.filter, Query.empty, Expr.strengthen,
      TableRef.occurrencesOfOption, Join.occurrencesOfEach, Expr.occurrencesOfOption, Expr.and,
      Expr.occurrences, SelectItem.plain, SelectItem.occurrencesOfEach, Expr.int, Expr.occurrencesOfEach,
      OrderItem.occurrencesOfEach]

end

/-! ### Filters -/

@[simp] theorem occurrencesOfOption_disjunction (es : List Expr) :
    Expr.occurrencesOfOption (disjunction? es) = Expr.occurrencesOfEach es := by
  cases es with
  | nil => rfl
  | cons e es => exact Expr.occurrences_foldl_or e es

@[simp] theorem occurrences_predicate (op : FieldOp) (label column : String) :
    (op.predicate (Expr.of label column)).occurrences = [] := by
  cases op <;>
    simp [FieldOp.predicate, Expr.compare, Expr.of, Expr.occurrences]

/-- The items of a joined relation stand before those of its predicates, which come from further down. -/
theorem perm_append_append {α : Type} (as bs cs ds : List α) :
    ((as ++ bs) ++ (cs ++ ds)).Perm ((as ++ cs) ++ (bs ++ ds)) := by
  rw [List.append_assoc, List.append_assoc]
  refine .append_left as ?_
  rw [← List.append_assoc, ← List.append_assoc]
  exact List.perm_append_comm.append_right ds

/-! ### Accounts of reservations -/

/-- A hint is the name of a relation of one of the tables, or what such a relation calls its pivot. -/
def ProposedBy (tables : List Table) (hint : String) : Prop :=
  ∃ table ∈ tables, ∃ relation ∈ table.relations, hint = relation.name ∨ hint = pivotHint relation.name

/-- A relation of the names before, the names behind and the items in between that may be established
    reservation by reservation. Hints come from the relations of the given tables. -/
structure Accounting (tables : List Table) (R : Names → Names → List TableRef → Prop) : Prop where
  refl (names : Names) : R names names []
  append {names names₁ names' : Names} {items more : List TableRef} (first : R names names₁ items)
    (second : R names₁ names' more) : R names names' (items ++ more)
  /-- Names that are reserved may stay without an item. -/
  subperm {names names' : Names} {items more : List TableRef} (account : R names names' items)
    (fewer : more.Subperm items) : R names names' more
  stored (names : Names) (table : Table) (hint : Option String)
    (proposed : ∀ name, hint = some name → ProposedBy tables name) :
    R names (names.reserve table.name hint).2 [occurrence table (names.reserve table.name hint).1]
  derived (names : Names) (name : String) (query : Query) :
    R names (names.reserve name none).2 [TableRef.derived query (names.reserve name none).1]

section

variable {registry : Registry} {tables : List Table} {R : Names → Names → List TableRef → Prop}
  (accounting : Accounting tables R) (registered : registry.tables ⊆ tables)

include accounting

/-- One use of a relation. -/
theorem Accounting.reach {table : Table} {names : Names} {label name : String} {relation : Relation}
    {keys : RelationKeys} (listed : table ∈ tables)
    (found : registry.relation table name = .ok (relation, keys)) :
    R names (reach names label name keys).names (reach names label name keys).tables := by
  have declared := Registry.mem_relations_of_relation found
  have called := Registry.name_of_relation found
  have target : ∀ hint, some name = some hint → ProposedBy tables hint := by
    rintro hint ⟨⟩
    exact ⟨table, listed, relation, declared, .inl called.symm⟩
  have pivot : ∀ hint, some (pivotHint name) = some hint → ProposedBy tables hint := by
    rintro hint ⟨⟩
    exact ⟨table, listed, relation, declared, .inr (by rw [called])⟩
  clear found
  cases keys with
  | direct => exact accounting.stored _ _ _ target
  | pivot => exact accounting.append (accounting.stored _ _ _ pivot) (accounting.stored _ _ _ target)

include registered

/-- What lowering emits. -/
theorem Emits.accounted {table : Table} {label : String} {joinable : Bool} {names names' : Names}
    {predicates : List Expr} {joins : List Join} (listed : table ∈ tables)
    (emits : Emits registry table label joinable names predicates joins names') :
    R names names' (Join.occurrencesOfEach joins ++ Expr.occurrencesOfEach predicates) := by
  induction emits with
  | nil => exact accounting.refl _
  | append first second ihFirst ihSecond =>
      rw [Join.occurrencesOfEach_append, Expr.occurrencesOfEach_append]
      exact accounting.subperm (accounting.append (ihFirst listed) (ihSecond listed))
        (perm_append_append _ _ _ _).subperm
  | conjunction parts ih => simpa using ih listed
  | disjunction parts ih => simpa using ih listed
  | dropped parts ih => exact accounting.subperm (ih listed) List.nil_subperm
  | never => exact accounting.refl _
  | negation part ih => simpa [Expr.occurrencesOfEach, Expr.occurrences] using ih listed
  | counterExample part ih =>
      simpa [Expr.occurrencesOfEach, Expr.occurrences, RelQuery.counterExample, Expr.eq, Expr.compare,
        Expr.int, Expr.occurrencesOfOption, Expr.occurrencesOfBranches] using ih listed
  | field op known => simpa [Expr.occurrencesOfEach, Join.occurrencesOfEach] using accounting.refl _
  | existsQuery negated found inner ih =>
      have below := ih (registered (Registry.target_mem_of_relation found))
      have together := accounting.append (accounting.reach listed found) below
      simpa [Expr.occurrencesOfEach, Expr.occurrences, Join.occurrencesOfEach, occurrences_subquery]
        using together
  | @joined table label names names' name relation keys predicates joins found joins_ok inner ih =>
      have below := ih (registered (Registry.target_mem_of_relation found))
      have together := accounting.append (accounting.reach listed found) below
      have presence_empty : (presence (reach names label name keys) keys).occurrences = [] := by
        unfold presence
        split <;> rfl
      simpa [Expr.occurrencesOfEach, occurrencesOfEach_joins, presence_empty, Expr.occurrencesOfOption]
        using together

/-- What the attached includes join. -/
theorem Attaches.accounted {table : Table} {label outputPath path : String} {names names' : Names}
    {requests : List Include} {nodes : List IncludeNode} {loads : List LazyLoad} {joins : List Join}
    (listed : table ∈ tables)
    (attaches : Attaches registry table label outputPath path names requests nodes loads joins names') :
    R names names' (Join.occurrencesOfEach joins) := by
  induction attaches with
  | nil => exact accounting.refl _
  | deferred found lazy described new rest ih => exact ih listed
  | joined found eager narrowed chosen below completed new rest ihBelow ih =>
      have target := registered (Registry.target_mem_of_relation found)
      have narrowing := (includeCondition_emits narrowed).accounted accounting registered target
      have reached := accounting.append (accounting.reach listed found) narrowing
      have together := accounting.append (accounting.append reached (ihBelow target)) (ih listed)
      simpa [occurrencesOfEach_joins, Join.occurrencesOfEach] using together

end

/-! ### Statements -/

section

variable {registry : Registry} {selection : Selection} {includes : List Include} {names : Names}
  {assembly : Assembly} (pieces : assembly.Pieces registry selection includes names)

include pieces

/-- The items of the statement, whatever columns it selects and sorts by. -/
theorem Assembly.Pieces.occurrences_eq {select : List SelectItem} {distinct : Bool} {order : List OrderItem}
    {limit offset : Option UInt64} (selects : SelectItem.occurrencesOfEach select = [])
    (sorts : OrderItem.occurrencesOfEach order = []) :
    { assembly.query with select, distinct, orderBy := order, limit, offset : Query }.occurrences =
      occurrence selection.table pieces.label :: (Join.occurrencesOfEach pieces.joins ++
        (Join.occurrencesOfEach pieces.filterJoins ++ Expr.occurrencesOfEach pieces.predicates)) := by
  simp [pieces.query_eq, Query.empty, Query.occurrences, selects, sorts, TableRef.occurrencesOfOption,
    Expr.occurrencesOfEach, Expr.occurrencesOfOption]

/-- The statement with another SELECT list and other orderings, which hold no queries. -/
theorem Assembly.Pieces.accounted {tables : List Table} {R : Names → Names → List TableRef → Prop}
    (accounting : Accounting tables R) (registered : registry.tables ⊆ tables)
    (listed : selection.table ∈ tables) {select : List SelectItem} {distinct : Bool}
    {order : List OrderItem} {limit offset : Option UInt64}
    (selects : SelectItem.occurrencesOfEach select = [])
    (sorts : OrderItem.occurrencesOfEach order = []) :
    R names assembly.names
      { assembly.query with select, distinct, orderBy := order, limit, offset : Query }.occurrences := by
  rw [pieces.occurrences_eq selects sorts]
  have root : R names pieces.rooted [occurrence selection.table pieces.label] := by
    have reserved := accounting.stored names selection.table none (fun name given => nomatch given)
    rwa [pieces.reserved] at reserved
  have joined := pieces.attaches.accounted accounting registered listed
  have filtered := pieces.emits.accounted accounting registered listed
  exact accounting.append root (accounting.append joined filtered)

end

/-- The columns that tell the roots of a page apart are sorted by as columns. -/
theorem exists_of_mem_withKeyOrder {label : String} {key : List String} {items : List OrderItem}
    (columns : ∀ item ∈ items, ∃ label column, item.expr = Expr.of label column) :
    ∀ item ∈ Selection.withKeyOrder label items key, ∃ label column, item.expr = Expr.of label column := by
  intro item member
  rw [withKeyOrder_eq] at member
  rcases List.mem_append.1 member with given | added
  · exact columns item given
  · obtain ⟨column, -, rfl⟩ := List.mem_map.1 added
    exact ⟨_, _, rfl⟩

@[simp] theorem occurrences_inKeys (key : List String) (keys : Query) (keysName rootAlias : String) :
    (Selection.inKeys key keys keysName rootAlias).occurrences =
      TableRef.derived keys keysName :: keys.occurrences := by
  unfold Selection.inKeys
  simp only
  split <;>
    simp [Query.occurrences, Query.empty, TableRef.derived, TableRef.occurrencesOfOption,
      TableRef.innerOccurrences, Join.occurrencesOfEach, SelectItem.plain, SelectItem.occurrencesOfEach,
      Expr.of, Expr.int, Expr.occurrences, Expr.occurrencesOfOption, Expr.occurrencesOfEach,
      OrderItem.occurrencesOfEach]

namespace Selection

/-- The names that have been reserved once the statement of a selection is built. -/
def buildNames (registry : Registry) (selection : Selection) : Except QueryError Names := do
  let assembly ← selection.assemble registry selection.includes .empty
  if selection.isPaged && assembly.plan.hasToMany then
    let includes ← toOneIncludes registry selection.table selection.includes
    let page ← selection.assemble registry includes assembly.names
    return (page.names.reserve pageKeysName none).2
  else return assembly.names

/-- The names that have been reserved once the counting statement of a selection is made. -/
def countNames (registry : Registry) (selection : Selection) : Except QueryError Names := do
  let assembly ← selection.assemble registry [] .empty
  match selection.table.primaryKey with
  | [] | [_] => return assembly.names
  | _ => return (assembly.names.reserve countedName none).2

end Selection

section

variable {registry : Registry} {selection : Selection} {tables : List Table}
  {R : Names → Names → List TableRef → Prop} (accounting : Accounting tables R)
  (registered : registry.tables ⊆ tables) (listed : selection.table ∈ tables)

include accounting registered listed

/-- The derived table of a page and whatever is inside it. -/
theorem Accounting.pageCondition {plan : Projection} {names : Names} {condition : Expr}
    (restricted : selection.pageCondition registry plan names = .ok condition) :
    ∃ kept page, Selection.toOneIncludes registry selection.table selection.includes = .ok kept ∧
      selection.assemble registry kept names = .ok page ∧
      R names (page.names.reserve pageKeysName none).2 condition.occurrences := by
  obtain ⟨-, kept, page, items, keeps, assembled, ordered, rfl⟩ := Selection.pageCondition_eq_ok restricted
  obtain ⟨pieces⟩ := Selection.nonempty_pieces assembled
  refine ⟨kept, page, keeps, assembled, ?_⟩
  have inside : R names page.names (page.keysQuery selection items).occurrences := by
    refine pieces.accounted accounting registered listed (SelectItem.occurrencesOfEach_columns ?_)
      (OrderItem.occurrencesOfEach_columns (exists_of_mem_withKeyOrder (exists_of_mem_orderItems ordered)))
    intro item member
    obtain ⟨column, -, rfl⟩ := List.mem_map.1 member
    exact ⟨_, _, rfl⟩
  have derived := accounting.derived page.names pageKeysName (page.keysQuery selection items)
  refine accounting.subperm (accounting.append inside derived) ?_
  rw [occurrences_inKeys]
  exact (List.perm_append_singleton _ _).symm.subperm

/-- The items of a built statement. -/
theorem Accounting.build {built : BuiltQuery} (build : selection.build registry = .ok built) :
    ∃ names, selection.buildNames registry = .ok names ∧ R .empty names built.query.occurrences := by
  obtain ⟨assembly, items, assembled, ordered, -, unpaged, cut, limited⟩ := Selection.build_eq_ok build
  obtain ⟨pieces⟩ := Selection.nonempty_pieces assembled
  have selects : SelectItem.occurrencesOfEach assembly.plan.selectItems = [] := by
    refine SelectItem.occurrencesOfEach_columns fun item member => ?_
    obtain ⟨label, column, name, rfl⟩ := exists_of_mem_selectItems assembly.plan item member
    exact ⟨label, column, rfl⟩
  have sorts := OrderItem.occurrencesOfEach_columns (exists_of_mem_orderItems ordered)
  cases paged : selection.isPaged with
  | false =>
      refine ⟨assembly.names, by simp [Selection.buildNames, assembled, paged], ?_⟩
      rw [unpaged paged]
      exact pieces.accounted accounting registered listed selects sorts
  | true =>
      cases toMany : assembly.plan.hasToMany with
      | false =>
          refine ⟨assembly.names, ?_, ?_⟩
          · simp [Selection.buildNames, assembled, toMany, bind, Except.bind, pure, Except.pure]
          · rw [limited paged toMany]
            exact pieces.accounted accounting registered listed selects sorts
      | true =>
          obtain ⟨condition, restricted, made⟩ := cut paged toMany
          obtain ⟨kept, page, keeps, cutFrom, inside⟩ :=
            accounting.pageCondition registered listed restricted
          have statement : R .empty assembly.names (assembly.statement items).occurrences :=
            pieces.accounted accounting registered listed selects sorts
          refine ⟨(page.names.reserve pageKeysName none).2, ?_, ?_⟩
          · simp [Selection.buildNames, assembled, paged, toMany, keeps, cutFrom, Except.bind_eq_ok]
          · rw [made]
            exact accounting.subperm (accounting.append statement inside)
              (Query.occurrences_filter _ _).subperm

/-- The items of a counting statement. -/
theorem Accounting.countQuery {counting : Query} (count : selection.countQuery registry = .ok counting) :
    ∃ names, selection.countNames registry = .ok names ∧ R .empty names counting.occurrences := by
  obtain ⟨assembly, assembled, made⟩ := Selection.countQuery_eq_ok count
  obtain ⟨pieces⟩ := Selection.nonempty_pieces assembled
  have sorts : OrderItem.occurrencesOfEach assembly.query.orderBy = [] := by
    rw [pieces.query_eq, Query.empty, OrderItem.occurrencesOfEach]
  rcases made with ⟨keyless, rfl⟩ | ⟨column, single, rfl⟩ | ⟨several, rfl⟩
  · refine ⟨assembly.names, by simp [Selection.countNames, assembled, keyless], ?_⟩
    exact pieces.accounted accounting registered listed rfl sorts
  · refine ⟨assembly.names, by simp [Selection.countNames, assembled, single], ?_⟩
    exact pieces.accounted accounting registered listed rfl sorts
  · have inside : R .empty assembly.names
        (assembly.distinctKeys selection.table.primaryKey).occurrences := by
      refine pieces.accounted accounting registered listed
        (SelectItem.occurrencesOfEach_columns fun item member => ?_) sorts
      obtain ⟨column, -, rfl⟩ := List.mem_map.1 member
      exact ⟨_, _, rfl⟩
    have derived := accounting.derived assembly.names countedName
      (assembly.distinctKeys selection.table.primaryKey)
    refine ⟨(assembly.names.reserve countedName none).2, ?_, ?_⟩
    · rcases key : selection.table.primaryKey with _ | ⟨first, _ | ⟨second, others⟩⟩
      · simp [key] at several
      · simp [key] at several
      · simp [Selection.countNames, assembled, key]
    refine accounting.subperm (accounting.append inside derived) ?_
    refine List.Perm.subperm (.trans (.of_eq ?_) (List.perm_append_singleton _ _).symm)
    simp [Query.occurrences, Query.empty, TableRef.derived, TableRef.occurrencesOfOption,
      TableRef.innerOccurrences, Join.occurrencesOfEach, SelectItem.occurrencesOfEach, Expr.countRows,
      Expr.occurrences, Expr.occurrencesOfOption, Expr.occurrencesOfEach, OrderItem.occurrencesOfEach]

end

end RelQuery
