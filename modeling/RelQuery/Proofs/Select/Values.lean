/-
Module: RelQuery.Proofs.Select.Values
Purpose: The values inside filters never reach the text of a statement. Selections that differ in these
  values alone are rejected with the same error, or compiled to one text with as many parameters; and so
  are their counts.
Main exports: Selection.blank, Selection.build_blank, Selection.countQuery_blank, Selection.sameText_compile
-/
import RelQuery.Proofs.Blog
import RelQuery.Proofs.Plan.Blank
import RelQuery.Select.Build

namespace RelQuery

open Sql

/-! ### Blanking out -/

/-- The selection without the values of its filters. -/
def Selection.blank (selection : Selection) : Selection :=
  { selection with
    filters := Filter.blankEach selection.filters
    includes := Include.blankEach selection.includes }

/-- An assembled statement and what it depends on in its plan, without the values of parameters. -/
def Assembly.blank (assembly : Assembly) : Assembly :=
  ⟨assembly.query.blank, assembly.plan.joined, assembly.names⟩

/-- A built statement and what it depends on in its plan, without the values of parameters. -/
def BuiltQuery.blank (built : BuiltQuery) : BuiltQuery := ⟨built.query.blank, built.plan.joined⟩

/-! ### Queries -/

namespace Sql.Query

/-- The clauses of a blank query are blanked out one by one. -/
theorem blank_eq (q : Query) : q.blank = { q with
    select := SelectItem.blankEach q.select
    source := TableRef.blankOption q.source
    joins := Join.blankEach q.joins
    condition := q.condition.map Expr.blank
    groupBy := Expr.blankEach q.groupBy
    having := q.having.map Expr.blank
    orderBy := OrderItem.blankEach q.orderBy } := by
  cases q
  simp [blank]

/-- Queries that are alike stay so with the same SELECT list. -/
theorem blank_select_congr {q r : Query} (alike : q.blank = r.blank) (select : List SelectItem) :
    ({ q with select } : Query).blank = ({ r with select } : Query).blank := by
  rw [blank_eq, blank_eq, mk.injEq] at alike
  simp [blank_eq, alike]

/-- So they do where the rows are made distinct. -/
theorem blank_distinct_congr {q r : Query} (alike : q.blank = r.blank) (distinct : Bool) :
    ({ q with distinct } : Query).blank = ({ r with distinct } : Query).blank := by
  rw [blank_eq, blank_eq, mk.injEq] at alike
  simp [blank_eq, alike]

/-- So they do in the same order. -/
theorem blank_orderBy_congr {q r : Query} (alike : q.blank = r.blank) (orderBy : List OrderItem) :
    ({ q with orderBy } : Query).blank = ({ r with orderBy } : Query).blank := by
  rw [blank_eq, blank_eq, mk.injEq] at alike
  simp [blank_eq, alike]

/-- So they do on the same page. -/
theorem blank_page_congr {q r : Query} (alike : q.blank = r.blank) (limit offset : Option UInt64) :
    ({ q with limit, offset } : Query).blank = ({ r with limit, offset } : Query).blank := by
  rw [blank_eq, blank_eq, mk.injEq] at alike
  simp [blank_eq, alike]

/-- So they do with joins that are alike. -/
theorem blank_joins_congr {q r : Query} (alike : q.blank = r.blank) {joins others : List Join}
    (same : Join.blankEach joins = Join.blankEach others) :
    ({ q with joins := q.joins ++ joins } : Query).blank =
      ({ r with joins := r.joins ++ others } : Query).blank := by
  rw [blank_eq, blank_eq, mk.injEq] at alike
  simp [blank_eq, alike, same]

/-- So they do with conditions that are alike. -/
theorem blank_filter_congr {q r : Query} (alike : q.blank = r.blank) {condition other : Expr}
    (same : condition.blank = other.blank) : (q.filter condition).blank = (r.filter other).blank := by
  rw [blank_eq, blank_eq, mk.injEq] at alike
  obtain ⟨select, distinct, source, joins, conditions, groupBy, having, orderBy, limit, offset⟩ := alike
  simp only [filter, blank_eq, select, distinct, source, joins, groupBy, having, orderBy, limit, offset]
  cases before : q.condition <;> cases before' : r.condition <;>
    simp_all [Expr.strengthen]

/-- So do queries of their rows. -/
theorem blank_derived_congr {q r : Query} (alike : q.blank = r.blank) (select : List SelectItem)
    (name : String) :
    ({ empty with select, source := some (TableRef.derived q name) } : Query).blank =
      ({ empty with select, source := some (TableRef.derived r name) } : Query).blank := by
  have tables : TableRef.blankOption (some (TableRef.derived q name)) =
      TableRef.blankOption (some (TableRef.derived r name)) :=
    congrArg (fun query => some (TableRef.derived query name)) alike
  rw [blank_eq, blank_eq]
  simp only [tables]

end Sql.Query

/-- What assembled statements with one blank form have in common. -/
theorem Assembly.blank_inj {assembly other : Assembly} (same : assembly.blank = other.blank) :
    assembly.query.blank = other.query.blank ∧ assembly.plan.joined = other.plan.joined ∧
      assembly.names = other.names := by
  simpa [Assembly.blank] using same

namespace Selection

variable {registry : Registry}

/-! ### Assembling -/

/-- Filters and their blank forms add predicates and joins that are alike. -/
theorem addFilters_blank (table : Table) (label : String) (filters : List Filter) (names : Names)
    {query query' : Query} (alike : query.blank = query'.blank) :
    (addFilters registry table label query names (Filter.blankEach filters)).map
        (fun added => (added.1.blank, added.2)) =
      (addFilters registry table label query' names filters).map (fun added => (added.1.blank, added.2)) := by
  induction filters generalizing query query' names with
  | nil => simp [Filter.blankEach, addFilters, Except.map, alike]
  | cons filter filters ih =>
      rw [Filter.blankEach, addFilters, addFilters]
      refine map_bind_congr (filter.lower_blank table label "" true names) ?_
      rintro ⟨predicate, joins, names⟩ ⟨predicate', joins', names'⟩ same
      obtain ⟨predicates, sameJoins, rfl⟩ := Translation.blank_inj same
      refine ih _ ?_
      have joined := Query.blank_joins_congr alike sameJoins
      cases predicate <;> cases predicate' <;> simp only [Option.map_some, Option.map_none, Option.some.injEq,
        reduceCtorEq] at predicates
      · exact joined
      · exact Query.blank_filter_congr joined predicates

/-- A blank selection is assembled like the selection itself. -/
theorem assemble_blank (selection : Selection) (includes : List Include) (names : Names) :
    (selection.blank.assemble registry (Include.blankEach includes) names).map Assembly.blank =
      (selection.assemble registry includes names).map Assembly.blank := by
  refine map_bind_congr (resolve_blank selection.table _ selection.columns includes _) ?_
  rintro ⟨joins, plan, names⟩ ⟨joins', plan', names'⟩ same
  simp only [Resolution.blank, Resolution.mk.injEq] at same
  obtain ⟨sameJoins, plans, rfl⟩ := same
  refine map_bind_congr (addFilters_blank _ _ selection.filters _ ?_) ?_
  · simp [Query.blank_eq, Selection.blank, sameJoins]
  · rintro ⟨query, names⟩ ⟨query', names'⟩ same
    obtain ⟨queries, rfl⟩ : query.blank = query'.blank ∧ names = names' := by simpa using same
    simp [pure, Except.pure, Except.map, Assembly.blank, queries, plans]

/-- The items of an order depend on joined relations alone. -/
theorem orderItems_blank (selection : Selection) {plan plan' : Projection} (same : plan.joined = plan'.joined) :
    selection.blank.orderItems registry plan = selection.orderItems registry plan' := by
  have found : ∀ path, (plan.find? path).map Projection.joined = (plan'.find? path).map Projection.joined := by
    intro path
    rw [← Projection.find?_joined, same, Projection.find?_joined]
  have item : selection.blank.orderItem registry plan = selection.orderItem registry plan' := by
    funext term
    have here := found term.relations
    simp only [orderItem, Selection.blank]
    cases reached : plan.find? term.relations <;> cases reached' : plan'.find? term.relations <;>
      simp only [reached, reached', Option.map_some, Option.map_none, Option.some.injEq, reduceCtorEq] at here
    · rfl
    · rename_i projection projection'
      have label : projection.label = projection'.label := by
        rw [← Projection.label_joined, here, Projection.label_joined]
      dsimp only
      rw [label]
  rw [orderItems, item]
  rfl

/-! ### Pages -/

/-- Which includes stay within relations to one row does not depend on values. -/
theorem toOneIncludes_blank (table : Table) (requests : List Include) :
    toOneIncludes registry table (Include.blankEach requests) =
      (toOneIncludes registry table requests).map Include.blankEach := by
  induction requests using Include.induction generalizing table with
  | nil => rfl
  | cons name columns filter lazy includes requests inner rest =>
      simp only [Include.blankEach, Include.blank, toOneIncludes, toOneInclude, rest, inner]
      cases registry.relation table name with
      | error fault => rfl
      | ok found =>
          obtain ⟨relation, keys⟩ := found
          have sameDeferral : Include.isLazy
              ⟨name, columns, Filter.blankOption filter, lazy, Include.blankEach includes⟩ relation =
            Include.isLazy ⟨name, columns, filter, lazy, includes⟩ relation := rfl
          simp only [bind, Except.bind]
          rw [sameDeferral]
          cases Include.isLazy ⟨name, columns, filter, lazy, includes⟩ relation || relation.kind.isToMany with
          | true => cases toOneIncludes registry table requests <;> rfl
          | false =>
              cases toOneIncludes registry keys.target includes with
              | error fault => rfl
              | ok kept => cases toOneIncludes registry table requests <;> rfl

/-- The condition of a page holds the values of the keys' statement alone. -/
theorem blank_inKeys (key : List String) (keys : Query) (keysName rootAlias : String) :
    (inKeys key keys keysName rootAlias).blank = inKeys key keys.blank keysName rootAlias := by
  unfold inKeys
  split <;> simp [Expr.blank, Query.blank_eq, Query.empty, SelectItem.blankEach, SelectItem.plain, Expr.int,
    TableRef.blankOption, TableRef.derived, TableRef.blank, Join.blankEach, Expr.blankEach, OrderItem.blankEach]

/-- The conditions of a page are alike for a selection and its blank form. -/
theorem pageCondition_blank (selection : Selection) (names : Names) {plan plan' : Projection}
    (same : plan.joined = plan'.joined) :
    (selection.blank.pageCondition registry plan names).map Expr.blank =
      (selection.pageCondition registry plan' names).map Expr.blank := by
  have labels : plan.label = plan'.label := by
    rw [← Projection.label_joined, same, Projection.label_joined]
  have across : selection.blank.orderAcrossToMany? plan = selection.orderAcrossToMany? plan' := by
    have paths : ∀ path, plan.isToOnePath path = plan'.isToOnePath path := by
      intro path
      rw [← Projection.isToOnePath_joined, same, Projection.isToOnePath_joined]
    simp only [orderAcrossToMany?, Selection.blank, paths]
  unfold pageCondition
  rw [across]
  simp only [show selection.blank.table = selection.table from rfl]
  split
  · rfl
  split
  · rfl
  rw [show selection.blank.includes = Include.blankEach selection.includes from rfl, toOneIncludes_blank]
  cases toOneIncludes registry selection.table selection.includes with
  | error fault => rfl
  | ok includes =>
      change (selection.blank.assemble registry (Include.blankEach includes) names >>= _).map _ =
        (selection.assemble registry includes names >>= _).map _
      refine map_bind_congr (assemble_blank selection includes names) ?_
      intro assembly assembly' same
      obtain ⟨queries, plans, reserved⟩ := Assembly.blank_inj same
      rw [orderItems_blank selection plans]
      refine map_bind_same fun order => ?_
      have label : assembly.plan.label = assembly'.plan.label := by
        rw [← Projection.label_joined, plans, Projection.label_joined]
      have keys := Query.blank_page_congr (Query.blank_orderBy_congr (Query.blank_select_congr queries
        (selection.table.primaryKey.map fun column => ⟨Expr.of assembly'.plan.label column, some column⟩))
        (withKeyOrder assembly'.plan.label order selection.table.primaryKey)) selection.limit selection.offset
      simp only [pure, Except.pure, Except.map, blank_inKeys, label, labels, reserved]
      exact congrArg (fun keys => Except.ok (inKeys _ keys _ _)) keys

/-! ### Statements -/

/-- A blank selection is built like the selection itself: it is rejected with the same error, or its
    statement is the same up to the values of parameters. -/
theorem build_blank (selection : Selection) :
    (selection.blank.build registry).map BuiltQuery.blank =
      (selection.build registry).map BuiltQuery.blank := by
  refine map_bind_congr (assemble_blank selection selection.includes .empty) ?_
  intro assembly assembly' same
  obtain ⟨queries, plans, reserved⟩ := Assembly.blank_inj same
  rw [orderItems_blank selection plans]
  refine map_bind_same fun order => ?_
  have items : assembly.plan.selectItems = assembly'.plan.selectItems := by
    rw [← Projection.selectItems_joined, plans, Projection.selectItems_joined]
  have toMany : assembly.plan.hasToMany = assembly'.plan.hasToMany := by
    rw [← Projection.hasToMany_joined, plans, Projection.hasToMany_joined]
  have listed := Query.blank_orderBy_congr (Query.blank_select_congr queries assembly'.plan.selectItems) order
  have paged : selection.blank.isPaged = selection.isPaged := rfl
  simp only [items, toMany, paged, reserved]
  split
  · simp [pure, Except.pure, Except.map, BuiltQuery.blank, listed, plans]
  split
  · refine map_bind_congr (pageCondition_blank selection _ plans) ?_
    intro condition condition' conditions
    simp [pure, Except.pure, Except.map, BuiltQuery.blank, plans, Query.blank_filter_congr listed conditions]
  · have cut := Query.blank_page_congr listed selection.limit selection.offset
    simp only [pure, Except.pure, Except.map, BuiltQuery.blank, plans]
    exact congrArg (fun query => Except.ok (BuiltQuery.mk query _)) cut

/-- So is the statement that counts its roots. -/
theorem countQuery_blank (selection : Selection) :
    (selection.blank.countQuery registry).map Query.blank =
      (selection.countQuery registry).map Query.blank := by
  refine map_bind_congr (assemble_blank selection [] .empty) ?_
  intro assembly assembly' same
  obtain ⟨queries, plans, reserved⟩ := Assembly.blank_inj same
  have label : assembly.plan.label = assembly'.plan.label := by
    rw [← Projection.label_joined, plans, Projection.label_joined]
  simp only [show selection.blank.table = selection.table from rfl, label, reserved]
  split
  · exact congrArg Except.ok (Query.blank_select_congr queries _)
  · exact congrArg Except.ok (Query.blank_select_congr queries _)
  · have keys := Query.blank_distinct_congr (Query.blank_select_congr queries
      (selection.table.primaryKey.map fun column => .plain (Expr.of assembly'.plan.label column))) true
    exact congrArg Except.ok (Query.blank_derived_congr keys [⟨Expr.countRows, some countColumn⟩] _)

/-- Attempts at queries that are alike are compiled to one text. -/
theorem sameText_bind {attempt other : Except QueryError Query} (d : Dialect)
    (alike : attempt.map Query.blank = other.map Query.blank) :
    SameText (attempt >>= Query.compile d) (other >>= Query.compile d) := by
  cases attempt <;> cases other <;>
    simp only [Except.map, Except.error.injEq, Except.ok.injEq, reduceCtorEq] at alike
  · exact alike ▸ .rejected _
  · exact Query.sameText_of_blank d alike

/-- The values inside the filters of a selection and of its includes never reach the text of its statement
    or of its count. -/
theorem sameText_compile (registry : Registry) (d : Dialect) {first second : Selection}
    (alike : first.blank = second.blank) :
    SameText (first.compile registry d) (second.compile registry d) ∧
      SameText (first.countQuery registry >>= Query.compile d)
        (second.countQuery registry >>= Query.compile d) := by
  have built : ((first.build registry).map BuiltQuery.query).map Query.blank =
      ((second.build registry).map BuiltQuery.query).map Query.blank := by
    have same : (first.build registry).map BuiltQuery.blank = (second.build registry).map BuiltQuery.blank := by
      rw [← build_blank, alike, build_blank]
    cases built : first.build registry <;> cases built' : second.build registry <;>
      simp_all [Except.map, BuiltQuery.blank]
  have counted : (first.countQuery registry).map Query.blank =
      (second.countQuery registry).map Query.blank := by
    rw [← countQuery_blank, alike, countQuery_blank]
  have compiled : ∀ selection : Selection, selection.compile registry d =
      (selection.build registry).map BuiltQuery.query >>= Query.compile d := by
    intro selection
    rw [compile]
    cases selection.build registry <;> rfl
  rw [compiled, compiled]
  exact ⟨sameText_bind d built, sameText_bind d counted⟩

end Selection

/-- The first post of an author of that name, with those of its tags that contain a text. -/
def Blog.firstPostOf (author tag : String) : Selection :=
  { Selection.ofTable Blog.posts with
    filters := [.relation "author" { RelationFilter.empty with someRow := some (.eq "name" (.text author)) }]
    includes := [⟨"tags", none, some (.field "name" (.holds .anywhere tag)), none, []⟩]
    limit := some 1 }

/-- A quote that ends a text in SQL is a character like any other. The name is bound twice, once of them
    for the page of keys. -/
theorem Blog.sameText_firstPostOf :
    ((Blog.firstPostOf "Ada" "sql").compile Blog.registry .postgres).toOption.map (·.params.length) = some 3 ∧
      SameText ((Blog.firstPostOf "Ada" "sql").compile registry .postgres)
        ((Blog.firstPostOf "' OR 1 = 1 --" "%").compile registry .postgres) := by
  have alike : (Blog.firstPostOf "Ada" "sql").blank = (Blog.firstPostOf "' OR 1 = 1 --" "%").blank := rfl
  have same := Selection.sameText_compile Blog.registry .postgres alike
  exact ⟨by decide +kernel, same.left⟩

end RelQuery
