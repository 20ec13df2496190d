/-
Module: RelQuery.Select.Build
Purpose: The statement of a selection and the plan of its rows. All names of a statement come from one
  sequence of reservations: the root first, then the joins of includes, then whatever the filters need.
  Where joined relations multiply the rows, a page is cut from a statement that selects root keys alone.
Main exports: BuiltQuery, Selection.build, Selection.compile, Selection.countQuery
-/
import RelQuery.Select.Basic
import RelQuery.Plan.Resolve
import RelQuery.Sql.Render

namespace RelQuery

open Sql

/-- A statement and the plan of its rows. -/
structure BuiltQuery where
  query : Query
  plan : Projection

/-- A statement without a SELECT list, its plan, and the names reserved so far. -/
structure Assembly where
  query : Query
  plan : Projection
  names : Names

/-- The name of the derived table that holds the root keys of one page. -/
def pageKeysName : String := "page_keys"

/-- The name of the derived table whose rows are counted. -/
def countedName : String := "counted"

/-- The name of the column that holds a count. -/
def countColumn : String := "count"

/-- Adds the predicates and joins of filters on the root to a query. -/
def addFilters (registry : Registry) (table : Table) (label : String) (query : Query) (names : Names) :
    List Filter → Except QueryError (Query × Names)
  | [] => .ok (query, names)
  | filter :: filters => do
    let translation ← filter.translate registry table label names
    let joined := { query with joins := query.joins ++ translation.joins }
    let narrowed := match translation.predicate with
      | some predicate => joined.filter predicate
      | none => joined
    addFilters registry table label narrowed translation.names filters

namespace Selection

/-- The root, the given includes and the filters of a selection. -/
def assemble (registry : Registry) (selection : Selection) (includes : List Include) (names : Names) :
    Except QueryError Assembly := do
  let (label, names) := names.reserve selection.table.name none
  let resolution ← resolve registry selection.table label selection.columns includes names
  let start := { Query.empty with
    source := some (occurrence selection.table label)
    joins := resolution.joins }
  let (query, names) ←
    addFilters registry selection.table label start resolution.names selection.filters
  return ⟨query, resolution.plan, names⟩

/-- The table that a path of relations leads to. -/
def tableAt (registry : Registry) (table : Table) : List String → Except QueryError Table
  | [] => .ok table
  | relation :: path => do
    let (_, keys) ← registry.relation table relation
    tableAt registry keys.target path

/-- The ORDER BY item of an ordering. The column must exist, and its table must be joined. -/
def orderItem (registry : Registry) (selection : Selection) (plan : Projection) (term : OrderTerm) :
    Except QueryError OrderItem := do
  let table ← tableAt registry selection.table term.relations
  if !table.hasColumn term.column then .error (.unknownColumn table.name term.column)
  else
    match plan.find? term.relations with
    | some projection =>
      .ok ⟨Expr.of projection.label term.column, some term.direction, term.nulls⟩
    | none =>
      .error (.invalidQuery (.orderNotIncluded term.path (".".intercalate term.relations)))

/-- The ORDER BY items of a selection. -/
def orderItems (registry : Registry) (selection : Selection) (plan : Projection) :
    Except QueryError (List OrderItem) :=
  selection.order.mapM (orderItem registry selection plan)

/-! ### Pages of roots -/

mutual

/-- An include without the relations below it that multiply rows or are deferred; nothing if it is such a
    relation itself. -/
def toOneInclude (registry : Registry) (table : Table) : Include → Except QueryError (Option Include)
  | ⟨name, columns, filter, lazy, includes⟩ => do
    let (relation, keys) ← registry.relation table name
    if Include.isLazy ⟨name, columns, filter, lazy, includes⟩ relation || relation.kind.isToMany then
      return none
    else
      let inner ← toOneIncludes registry keys.target includes
      return some ⟨name, columns, filter, lazy, inner⟩

/-- The includes that neither multiply rows nor are deferred, and below them likewise. -/
def toOneIncludes (registry : Registry) (table : Table) : List Include → Except QueryError (List Include)
  | [] => .ok []
  | request :: requests => do
    let first ← toOneInclude registry table request
    let others ← toOneIncludes registry table requests
    return first.toList ++ others

end

/-- The orderings with the remaining columns of the key behind them, which makes the order total. -/
def withKeyOrder (label : String) (order : List OrderItem) : List String → List OrderItem
  | [] => order
  | column :: key =>
    if order.any fun item => item.expr.isColumn label column then withKeyOrder label order key
    else withKeyOrder label (order ++ [⟨Expr.of label column, some .asc, none⟩]) key

/-- The condition that a root belongs to a derived table of keys. -/
def inKeys (key : List String) (keys : Query) (keysName rootAlias : String) : Expr :=
  let source := some (TableRef.derived keys keysName)
  match key with
  | [column] =>
    .inQuery (Expr.of rootAlias column)
      { Query.empty with select := [.plain (Expr.of keysName column)], source := source } false
  | columns =>
    .existsQuery
      { Query.empty with
        select := [.plain (Expr.int 1)]
        source := source
        condition := some (keyLink keysName rootAlias (columns.map fun c => (c, c))) } false

/-- The first ordering that does not stay within relations to one row. -/
def orderAcrossToMany? (selection : Selection) (plan : Projection) : Option OrderTerm :=
  selection.order.find? fun term => !plan.isToOnePath term.relations

/-- The condition that a root lies on the page that a selection asks for. The page is cut from the keys of
    all roots, with nothing joined that multiplies rows. -/
def pageCondition (registry : Registry) (selection : Selection) (plan : Projection) (names : Names) :
    Except QueryError Expr := do
  let key := selection.table.primaryKey
  if key.isEmpty then .error (.missingPrimaryKey selection.table.name)
  else
    match selection.orderAcrossToMany? plan with
    | some term => .error (.invalidQuery (.orderAcrossToMany term.path))
    | none =>
      let includes ← toOneIncludes registry selection.table selection.includes
      let assembly ← selection.assemble registry includes names
      let label := assembly.plan.label
      let order ← selection.orderItems registry assembly.plan
      let keys := { assembly.query with
        select := key.map fun column => ⟨Expr.of label column, some column⟩
        orderBy := withKeyOrder label order key
        limit := selection.limit
        offset := selection.offset }
      let (keysName, _) := assembly.names.reserve pageKeysName none
      return inKeys key keys keysName plan.label

/-- The statement of a selection and the plan of its rows. -/
def build (registry : Registry) (selection : Selection) : Except QueryError BuiltQuery := do
  let assembly ← selection.assemble registry selection.includes .empty
  let order ← selection.orderItems registry assembly.plan
  let query := { assembly.query with select := assembly.plan.selectItems, orderBy := order }
  if !selection.isPaged then return ⟨query, assembly.plan⟩
  else if assembly.plan.hasToMany then
    let condition ← selection.pageCondition registry assembly.plan assembly.names
    return ⟨query.filter condition, assembly.plan⟩
  else return ⟨{ query with limit := selection.limit, offset := selection.offset }, assembly.plan⟩

/-- The compiled statement of a selection. -/
def compile (registry : Registry) (dialect : Dialect) (selection : Selection) :
    Except QueryError Statement := do
  let built ← selection.build registry
  built.query.compile dialect

/-! ### Counting -/

/-- The statement that counts the roots of a selection, whatever is included. A key of several columns is
    counted through the distinct rows of a derived table. -/
def countQuery (registry : Registry) (selection : Selection) : Except QueryError Query := do
  let assembly ← selection.assemble registry [] .empty
  let label := assembly.plan.label
  match selection.table.primaryKey with
  | [] => return { assembly.query with select := [⟨Expr.countRows, some countColumn⟩] }
  | [column] =>
    return { assembly.query with
      select := [⟨Expr.countDistinct (Expr.of label column), some countColumn⟩] }
  | key =>
    let keys := { assembly.query with
      select := key.map fun column => .plain (Expr.of label column)
      distinct := true }
    let (counted, _) := assembly.names.reserve countedName none
    return { Query.empty with
      select := [⟨Expr.countRows, some countColumn⟩]
      source := some (TableRef.derived keys counted) }

end Selection

end RelQuery
