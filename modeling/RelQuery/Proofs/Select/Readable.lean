/-
Module: RelQuery.Proofs.Select.Readable
Purpose: Built statements are readable, so that what a database reads from their tokens has the predicates
  that they were built with: grouped in another way perhaps, but with the same truth values.
Main exports: Attaches.readable_joins, Assembly.Pieces.readable_variant, Assembly.Pieces.readable_keysQuery,
  readable_pageCondition, Selection.readable_build, Selection.predicates_survive_rendering
-/
import RelQuery.Proofs.Filter.Readable
import RelQuery.Proofs.Select.Names
import RelQuery.Proofs.Sql.ReadMeaning

namespace RelQuery

open Sql

/-! ### Statements -/

theorem Sql.Expr.isAtom_of_column {e : Expr} (column : ∃ label name, e = Expr.of label name) : e.IsAtom := by
  obtain ⟨label, name, rfl⟩ := column
  trivial

section

variable {registry : Registry}

/-- The joins of attached includes are readable. -/
theorem Attaches.readable_joins {table : Table} {label outputPath path : String} {names names' : Names}
    {requests : List Include} {nodes : List IncludeNode} {loads : List LazyLoad} {joins : List Join}
    (attaches : Attaches registry table label outputPath path names requests nodes loads joins names') :
    Join.ReadableEach joins := by
  induction attaches with
  | nil => trivial
  | deferred found lazy described new rest ih => exact ih
  | joined found eager narrowed chosen below completed new rest ihBelow ih =>
      obtain ⟨link, pivotLink⟩ := readable_reach _ _ _ _
      have narrows := Expr.readable_toList.1 (includeCondition_emits narrowed).readable.1
      have own := Reach.readable_joins link pivotLink _ narrows
      exact Join.readableEach_append.2 ⟨Join.readableEach_append.2 ⟨own, ihBelow⟩, ih⟩

variable {selection : Selection}

/-- A variant of an assembled statement that selects and sorts by columns is readable. -/
theorem Assembly.Pieces.readable_variant {includes : List Include} {names : Names} {assembly : Assembly}
    (pieces : assembly.Pieces registry selection includes names) {select : List SelectItem}
    {order : List OrderItem} {limit offset : Option UInt64}
    (selects : ∀ item ∈ select, ∃ label column, item.expr = Expr.of label column)
    (sorts : ∀ item ∈ order, ∃ label column, item.expr = Expr.of label column) :
    { assembly.query with select, orderBy := order, limit, offset : Query }.Readable := by
  obtain ⟨predicates, joins⟩ := pieces.emits.readable
  rw [pieces.query_eq]
  exact ⟨fun item member => Expr.isAtom_of_column (selects item member), trivial,
    Join.readableEach_append.2 ⟨pieces.attaches.readable_joins, joins⟩,
    Expr.readableOption_conjunction predicates, rfl, rfl,
    fun item member => Expr.isAtom_of_column (sorts item member)⟩

/-- The statement for the root keys of a page is readable. -/
theorem Assembly.Pieces.readable_keysQuery {includes : List Include} {names : Names} {assembly : Assembly}
    (pieces : assembly.Pieces registry selection includes names) {items : List OrderItem}
    (ordered : selection.orderItems registry assembly.plan = .ok items) :
    (assembly.keysQuery selection items).Readable := by
  refine pieces.readable_variant (fun item member => ?_) ?_
  · obtain ⟨column, -, rfl⟩ := List.mem_map.1 member
    exact ⟨_, _, rfl⟩
  · exact exists_of_mem_withKeyOrder (exists_of_mem_orderItems ordered)

/-- The condition that a root belongs to a derived table of keys is readable. -/
theorem readable_inKeys {keys : Query} (readable : keys.Readable) (key : List String)
    (keysName rootAlias : String) : (Selection.inKeys key keys keysName rootAlias).Readable := by
  unfold Selection.inKeys
  simp only
  split
  · exact ⟨trivial, List.forall_mem_singleton.2 trivial, readable, trivial, trivial, rfl, rfl,
      List.forall_mem_nil _⟩
  · exact ⟨List.forall_mem_singleton.2 trivial, readable, trivial, readable_keyLink _ _ _, rfl, rfl,
      List.forall_mem_nil _⟩

/-- The condition of a page is readable. -/
theorem readable_pageCondition {plan : Projection} {names : Names} {condition : Expr}
    (restricted : selection.pageCondition registry plan names = .ok condition) : condition.Readable := by
  obtain ⟨-, kept, assembly, order, -, assembled, ordered, rfl⟩ := Selection.pageCondition_eq_ok restricted
  obtain ⟨pieces⟩ := Selection.nonempty_pieces assembled
  exact readable_inKeys (pieces.readable_keysQuery ordered) _ _ _

/-- Built statements are readable. -/
theorem Selection.readable_build {built : BuiltQuery} (build : selection.build registry = .ok built) :
    built.query.Readable := by
  obtain ⟨assembly, items, assembled, ordered, -, unpaged, cut, limited⟩ := Selection.build_eq_ok build
  obtain ⟨pieces⟩ := Selection.nonempty_pieces assembled
  have selects : ∀ item ∈ assembly.plan.selectItems, ∃ label column, item.expr = Expr.of label column := by
    intro item member
    obtain ⟨label, column, name, rfl⟩ := exists_of_mem_selectItems assembly.plan item member
    exact ⟨label, column, rfl⟩
  have sorts := exists_of_mem_orderItems ordered
  cases paged : selection.isPaged with
  | false =>
      rw [unpaged paged]
      exact pieces.readable_variant selects sorts
  | true =>
      cases toMany : assembly.plan.hasToMany with
      | false =>
          rw [limited paged toMany]
          exact pieces.readable_variant selects sorts
      | true =>
          obtain ⟨condition, restricted, made⟩ := cut paged toMany
          have statement : (assembly.statement items).Readable := pieces.readable_variant selects sorts
          rw [made]
          exact statement.filter (readable_pageCondition restricted)

end

/-! ### What is read -/

/-- Built predicates survive rendering: what a database reads from the tokens of a statement has the ON and
    WHERE conditions, at any depth, that it reads from the tokens of each condition alone, and they have the
    truth values of the conditions that were built. Whatever a database does beyond this may depend on what
    it reads, and a limit may be the count that its dialect writes for want of one as long as no more rows
    match. -/
theorem Selection.predicates_survive_rendering {V : Type} (registry : Registry) (selection : Selection)
    (built : BuiltQuery) (d : Dialect) (tokens : List Token)
    (build : selection.build registry = .ok built) (rendered : built.query.render d = .ok tokens) :
    ∃ read, readStatement? d tokens = some read ∧
      List.Forall₂ (fun e e' => readCondition? d (e.tokens d) = some e' ∧
          ∀ db : Database V, db.engine.Reads d → (∀ q ∈ e.queries, q.Fits db d) →
            ∀ scope, e'.truth db scope = e.truth db scope)
        built.query.predicates read.predicates := by
  have readable := selection.readable_build build
  obtain rfl := eq_of_accepted rendered
  refine ⟨built.query.readBack d, readStatement?_tokens d readable, ?_⟩
  rw [Query.predicates_readBack readable, List.forall₂_map_right_iff, List.forall₂_same]
  intro e inside
  have readableCondition := readable.predicates e inside
  exact ⟨readCondition?_tokens d readableCondition,
    fun db reads fits scope => Expr.truth_readBack reads readableCondition fits scope⟩

/-- The second of the posts that Ada wrote or that are not among none, with their tags. -/
def Blog.secondByAda : Selection :=
  { Selection.ofTable Blog.posts with
    filters := [.any [
      .relation "author" { RelationFilter.empty with everyRow := some (.eq "name" (.text "Ada")) },
      .not (.field "id" (.isIn [] false))]]
    includes := [⟨"tags", none, some (.field "name" (.holds .start "s")), none, []⟩]
    order := [⟨"title", .asc, none⟩]
    limit := some 1
    offset := some 1 }

/-- The conditions of the page survive on MySQL, where a large count stands for want of a limit. -/
theorem Blog.predicates_secondByAda :
    ∃ built tokens read, Blog.secondByAda.build registry = .ok built ∧
      built.query.render .mysql = .ok tokens ∧ readStatement? .mysql tokens = some read ∧
      built.query.predicates.length = 6 ∧
      List.Forall₂ (fun e e' => ∀ scope, e'.truth database scope = e.truth database scope)
        built.query.predicates read.predicates := by
  have found : ((Blog.secondByAda.build registry).map fun built =>
      (built.query.predicates.length, (built.query.render .mysql).toOption.isSome,
        built.query.predicates.all fun e => e.queries.all fun q =>
          q.limit != some 18446744073709551615)).toOption = some (6, true, true) := by decide +kernel
  obtain ⟨built, build, facts⟩ := exists_of_toOption_map found
  obtain ⟨count, renders, cut⟩ : built.query.predicates.length = 6 ∧
      (built.query.render .mysql).toOption.isSome = true ∧
      (built.query.predicates.all fun e => e.queries.all fun q =>
        q.limit != some 18446744073709551615) = true := by simpa using facts
  cases rendered : built.query.render .mysql with
  | error fault => simp [rendered, Except.toOption] at renders
  | ok tokens =>
      obtain ⟨read, reads, same⟩ :=
        Selection.predicates_survive_rendering registry Blog.secondByAda built .mysql tokens build rendered
      refine ⟨built, tokens, read, build, rendered, reads, count, ?_⟩
      have fits : ∀ e ∈ built.query.predicates, ∀ q ∈ e.queries, q.Fits database .mysql := by
        intro e inside q nested n limited _ stands
        obtain rfl : 18446744073709551615 = n := by simpa [unboundedLimit?] using stands
        have small := List.all_eq_true.1 (List.all_eq_true.1 cut e inside) q nested
        simp [limited] at small
      refine ((List.forall₂_and_left _ _).2 ⟨fits, same⟩).imp fun e e' survives => ?_
      exact survives.2.2 database (fun _ _ _ => rfl) survives.1

end RelQuery
