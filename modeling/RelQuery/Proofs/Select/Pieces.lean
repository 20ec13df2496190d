/-
Module: RelQuery.Proofs.Select.Pieces
Purpose: What an assembled statement is put together from, whatever the database: the root, the joins of
  the attached includes, and the joins and predicates that the filters emit.
Main exports: Assembly.Pieces, Selection.nonempty_pieces, Selection.countQuery_eq_ok
-/
import RelQuery.Select.Build
import RelQuery.Proofs.Filter.Emitted
import RelQuery.Proofs.Plan.Attached

namespace RelQuery

open Sql

/-- A condition that is strengthened by all predicates in turn is their conjunction. -/
theorem conjunction?_strengthen (condition : Option Expr) (e : Expr) (es : List Expr) :
    Expr.conjunction? (Expr.strengthen condition e :: es) =
      Expr.conjunction? (condition.toList ++ e :: es) := by
  cases condition <;> rfl

/-- Filters that are added to a statement emit joins behind its own and predicates behind its condition. -/
theorem addFilters_emits {registry : Registry} {table : Table} {label : String} {filters : List Filter}
    {query narrowed : Query} {names names' : Names}
    (added : addFilters registry table label query names filters = .ok (narrowed, names')) :
    ∃ predicates joins, Emits registry table label true names predicates joins names' ∧
      narrowed =
        { query with
          joins := query.joins ++ joins
          condition := Expr.conjunction? (query.condition.toList ++ predicates) } := by
  induction filters generalizing query names with
  | nil =>
      obtain ⟨rfl, rfl⟩ : query = narrowed ∧ names = names' := by simpa [addFilters] using added
      refine ⟨[], [], .nil, ?_⟩
      obtain ⟨select, distinct, source, joins, condition, groupBy, having, orderBy, limit, offset⟩ := query
      cases condition <;> simp [Expr.conjunction?]
  | cons filter filters ih =>
      simp only [addFilters, Except.bind_eq_ok] at added
      obtain ⟨translation, translated, rest⟩ := added
      obtain ⟨predicates, joins, others, shape⟩ := ih rest
      refine ⟨_, _, (filter.emitsWell registry translated).append others, ?_⟩
      rw [shape]
      cases predicate : translation.predicate with
      | none => simp
      | some e =>
          have strengthened := conjunction?_strengthen query.condition e predicates
          simpa [Query.filter] using strengthened

/-- What an assembled statement and its plan are put together from. -/
structure Assembly.Pieces (registry : Registry) (selection : Selection) (includes : List Include)
    (names : Names) (assembly : Assembly) where
  label : String
  /-- The names reserved once the root has one, and once the includes are attached. -/
  rooted : Names
  attached : Names
  selected : List PlanColumn
  columns : List PlanColumn
  nodes : List IncludeNode
  loads : List LazyLoad
  joins : List Join
  filterJoins : List Join
  predicates : List Expr
  reserved : names.reserve selection.table.name none = (label, rooted)
  chosen : selectColumns selection.table selection.columns = .ok selected
  attaches : Attaches registry selection.table label "" "" rooted includes nodes loads joins attached
  completed : ensureColumns selection.table (loads.map LazyLoad.parentColumn) selected = .ok columns
  plan_eq : assembly.plan =
    ⟨selection.table.name, label, "", selection.table.primaryKey, columns, nodes, loads⟩
  emits : Emits registry selection.table label true attached predicates filterJoins assembly.names
  query_eq : assembly.query =
    { Query.empty with
      source := some (occurrence selection.table label)
      joins := joins ++ filterJoins
      condition := Expr.conjunction? predicates }

/-- Every assembled statement is put together from pieces. -/
theorem Selection.nonempty_pieces {registry : Registry} {selection : Selection} {includes : List Include}
    {names : Names} {assembly : Assembly}
    (assembled : selection.assemble registry includes names = .ok assembly) :
    Nonempty (assembly.Pieces registry selection includes names) := by
  simp only [Selection.assemble, Except.bind_eq_ok, pure, Except.pure, Except.ok.injEq, Prod.exists]
    at assembled
  obtain ⟨resolution, resolved, query, names', filtered, rfl⟩ := assembled
  obtain ⟨selected, columns, nodes, loads, chosen, attaches, completed, plan⟩ := resolve_attaches resolved
  obtain ⟨predicates, filterJoins, emits, shape⟩ := addFilters_emits filtered
  exact ⟨{
    label := _, rooted := _, attached := _, selected := selected, columns := columns, nodes := nodes
    loads := loads, joins := resolution.joins, filterJoins := filterJoins, predicates := predicates
    reserved := rfl, chosen := chosen, attaches := attaches, completed := completed, plan_eq := plan
    emits := emits, query_eq := shape }⟩

/-- The statement for the distinct root keys of an assembly. -/
def Assembly.distinctKeys (assembly : Assembly) (key : List String) : Query :=
  { assembly.query with
    select := key.map fun column => .plain (Expr.of assembly.plan.label column)
    distinct := true }

/-- What a counting statement was made of: it counts all rows of a table without a key, the values of a
    key of one column, or the rows of a derived table of keys. -/
theorem Selection.countQuery_eq_ok {registry : Registry} {selection : Selection} {counting : Query}
    (count : selection.countQuery registry = .ok counting) :
    ∃ assembly, selection.assemble registry [] .empty = .ok assembly ∧
      ((selection.table.primaryKey = [] ∧
          counting = { assembly.query with select := [⟨Expr.countRows, some countColumn⟩] }) ∨
        (∃ column, selection.table.primaryKey = [column] ∧ counting =
          { assembly.query with
            select := [⟨Expr.countDistinct (Expr.of assembly.plan.label column), some countColumn⟩] }) ∨
        (2 ≤ selection.table.primaryKey.length ∧ counting =
          { Query.empty with
            select := [⟨Expr.countRows, some countColumn⟩]
            source := some (TableRef.derived (assembly.distinctKeys selection.table.primaryKey)
              (assembly.names.reserve countedName none).1) })) := by
  simp only [Selection.countQuery, Except.bind_eq_ok] at count
  obtain ⟨assembly, assembled, count⟩ := count
  refine ⟨assembly, assembled, ?_⟩
  split at count
  · rename_i keyless
    exact .inl ⟨keyless, (Except.ok.inj count).symm⟩
  · rename_i column single
    exact .inr (.inl ⟨column, single, (Except.ok.inj count).symm⟩)
  · rename_i nonempty several
    refine .inr (.inr ⟨?_, (Except.ok.inj count).symm⟩)
    match key : selection.table.primaryKey with
    | [] => exact absurd key nonempty
    | [column] => exact absurd key (several column)
    | _ :: _ :: _ => simp

end RelQuery
