/-
Module: RelQuery.Proofs.Select.Limits
Purpose: Which query of a built statement is cut to a window of its rows. Filters and includes add queries
  and joins at any depth, but no limit among them; the one query that carries the limit and the offset of
  a selection is the statement itself or the one that selects the keys of a page.
Main exports: Query.isCut, Expr.Uncut, Query.UncutInside, Emits.uncut, Attaches.uncut_joins,
  Selection.PageQuery, Selection.exists_pageQuery
-/
import RelQuery.Proofs.Select.Readable

namespace RelQuery

open Sql

/-! ### Queries without a limit -/

namespace Sql

/-- Whether a query answers with a window of its rows alone. -/
def Query.isCut (q : Query) : Bool := q.limit.isSome || q.offset.isSome

/-- No query inside an expression is cut to a window. -/
def Expr.Uncut (e : Expr) : Prop := ∀ q ∈ e.queries, q.isCut = false

/-- No query inside joins is cut to a window. -/
def Join.UncutEach (joins : List Join) : Prop := ∀ q ∈ Join.queriesOfEach joins, q.isCut = false

theorem Expr.uncut_of_isAtom {e : Expr} (atom : e.IsAtom) : e.Uncut := by
  intro q inside
  rw [queries_of_isAtom atom] at inside
  contradiction

theorem Expr.Uncut.binary {op : BinaryOp} {e f : Expr} (first : e.Uncut) (second : f.Uncut) :
    (Expr.binary op e f).Uncut :=
  List.forall_mem_append.2 ⟨first, second⟩

theorem Expr.Uncut.foldl {combine : Expr → Expr → Expr}
    (kept : ∀ e f : Expr, e.Uncut → f.Uncut → (combine e f).Uncut) {e : Expr} {es : List Expr}
    (first : e.Uncut) (others : ∀ f ∈ es, f.Uncut) : (es.foldl combine e).Uncut :=
  List.foldlRecOn es combine first fun e uncut f member => kept e f uncut (others f member)

theorem Expr.uncut_conjunction {es : List Expr} (each : ∀ e ∈ es, e.Uncut) :
    ∀ e ∈ conjunction? es, e.Uncut := by
  cases es with
  | nil => simp [conjunction?]
  | cons e es =>
      obtain ⟨first, others⟩ := List.forall_mem_cons.1 each
      rintro _ ⟨rfl⟩
      exact first.foldl (fun _ _ => .binary) others

theorem Expr.uncut_strengthen {condition : Option Expr} {e : Expr} (own : ∀ c ∈ condition, c.Uncut)
    (more : e.Uncut) : (strengthen condition e).Uncut := by
  cases condition with
  | none => exact more
  | some c => exact .binary (own c rfl) more

theorem Join.uncutEach_append {joins more : List Join} :
    Join.UncutEach (joins ++ more) ↔ Join.UncutEach joins ∧ Join.UncutEach more := by
  induction joins with
  | nil => simp [UncutEach, queriesOfEach]
  | cons join joins ih =>
      obtain ⟨kind, table, condition⟩ := join
      simp only [UncutEach, List.cons_append, queriesOfEach, List.forall_mem_append, and_assoc] at ih ⊢
      rw [ih]

/-- A join of a stored table holds the queries of its condition alone. -/
theorem Join.uncutEach_singleton {kind : JoinKind} {table : Table} {label : String} {e : Expr}
    (uncut : e.Uncut) : Join.UncutEach [⟨kind, occurrence table label, some e⟩] := by
  intro q inside
  refine uncut q ?_
  simpa [queriesOfEach, occurrence, TableRef.queries, Expr.queriesOfOption] using inside

theorem Query.mem_queries_self (q : Query) : q ∈ q.queries := by
  cases q
  exact List.mem_cons_self

/-- A query on a stored table whose joins and condition hold no query that is cut to a window. -/
structure Query.UncutInside (q : Query) : Prop where
  stored : ∃ table label, q.source = some (occurrence table label)
  joins : Join.UncutEach q.joins
  condition : ∀ e ∈ q.condition, e.Uncut

theorem Query.UncutInside.filter {q : Query} {e : Expr} (inside : q.UncutInside) (more : e.Uncut) :
    (q.filter e).UncutInside where
  stored := inside.stored
  joins := inside.joins
  condition := by
    rintro _ ⟨rfl⟩
    exact Expr.uncut_strengthen inside.condition more

/-- Nothing in such a query is cut but perhaps the query itself. -/
theorem Query.UncutInside.eq_of_isCut {q r : Query} (uncut : q.UncutInside) (readable : q.Readable)
    (inside : r ∈ q.queries) (cut : r.isCut = true) : r = q := by
  obtain ⟨⟨table, label, stored⟩, joins, condition⟩ := uncut
  rw [readable.queries_eq, stored] at inside
  rcases List.mem_cons.1 inside with same | inside
  · exact same
  have whole : r.isCut = false := by
    rcases List.mem_append.1 inside with joined | filtered
    · exact joins r joined
    · cases made : q.condition with
      | none =>
          rw [made] at filtered
          contradiction
      | some e =>
          rw [made] at filtered
          exact condition e made r filtered
  exact absurd (cut.symm.trans whole) (by decide)

/-- Behind one more condition, the queries that are cut are those of this condition. -/
theorem Query.UncutInside.isCut_filter {q r : Query} {e : Expr} (uncut : q.UncutInside)
    (whole : q.isCut = false) (readable : (q.filter e).Readable) (cut : r.isCut = true) :
    r ∈ (q.filter e).queries ↔ r ∈ e.queries := by
  obtain ⟨⟨table, label, stored⟩, joins, condition⟩ := uncut
  have notSelf : r ≠ q.filter e := by
    rintro rfl
    exact absurd (cut.symm.trans whole) (by decide)
  have notJoined : r ∉ Join.queriesOfEach q.joins := fun inside => by simp [joins r inside] at cut
  have notBefore : ∀ c ∈ q.condition, r ∉ c.queries := fun c own inside => by
    simp [condition c own r inside] at cut
  have sources : TableRef.queriesOfOption (q.filter e).source = [] := by
    rw [Query.filter, stored]
    rfl
  have conditions : r ∈ Expr.queriesOfOption (q.filter e).condition ↔ r ∈ e.queries := by
    rw [Query.filter]
    cases made : q.condition with
    | none => rfl
    | some c => exact List.mem_append.trans (or_iff_right (notBefore c made))
  rw [readable.queries_eq, List.mem_cons, sources, List.nil_append, List.mem_append, conditions,
    or_iff_right notSelf, or_iff_right]
  exact notJoined

end Sql

theorem uncut_conjoined {es : List Expr} (each : ∀ e ∈ es, e.Uncut) :
    ((Expr.conjunction? es).getD always).Uncut := by
  have conjoined := Expr.uncut_conjunction each
  cases made : Expr.conjunction? es with
  | none => exact .binary (Expr.uncut_of_isAtom trivial) (Expr.uncut_of_isAtom trivial)
  | some e => exact conjoined e made

theorem uncut_keyLink (left right : String) (pairs : KeyPairs) : (keyLink left right pairs).Uncut := by
  refine uncut_conjoined fun e member => ?_
  obtain ⟨pair, -, rfl⟩ := List.mem_map.1 member
  exact .binary (Expr.uncut_of_isAtom trivial) (Expr.uncut_of_isAtom trivial)

theorem uncut_counterExample {e : Expr} (uncut : e.Uncut) : (counterExample e).Uncut := by
  simpa [counterExample, Expr.Uncut, Expr.eq, Expr.compare, Expr.int, Expr.queries, Expr.queriesOfOption,
    Expr.queriesOfBranches] using uncut

/-- The predicate of a condition on a column holds no queries. -/
theorem FieldOp.uncut_predicate (op : FieldOp) (label column : String) :
    (op.predicate (Expr.of label column)).Uncut := by
  have atoms : ∀ values : List Literal, Expr.queriesOfEach (values.map Expr.param) = [] := by
    intro values
    refine Expr.queriesOfEach_atoms fun e member => ?_
    obtain ⟨literal, -, rfl⟩ := List.mem_map.1 member
    trivial
  cases op <;>
    simp [predicate, Expr.Uncut, Expr.compare, Expr.of, Expr.queries, atoms]

/-! ### Uses of relations -/

section

variable (names : Names) (label name : String) (keys : RelationKeys) {condition : Option Expr}
  (uncut : ∀ e ∈ condition, e.Uncut)

include uncut

/-- The correlated query of a relation holds the queries of its condition alone. -/
theorem uncutInside_subquery : ((reach names label name keys).subquery condition).UncutInside := by
  have rows : ((reach names label name keys).subquery none).UncutInside := by
    cases keys with
    | direct target pairs =>
        refine ⟨⟨_, _, rfl⟩, List.forall_mem_nil _, ?_⟩
        rintro _ ⟨rfl⟩
        exact uncut_keyLink _ _ _
    | pivot pivot target sourcePairs targetPairs =>
        refine ⟨⟨_, _, rfl⟩, Join.uncutEach_singleton (uncut_keyLink _ _ _), ?_⟩
        rintro _ ⟨rfl⟩
        exact uncut_keyLink _ _ _
  cases condition with
  | none => exact rows
  | some e => exact rows.filter (uncut e rfl)

/-- The joins of a relation hold the queries of their condition alone. -/
theorem uncutEach_joins : Join.UncutEach ((reach names label name keys).joins condition) := by
  have onTarget : ∀ target label link, Expr.Uncut link →
      Join.UncutEach (Reach.joins ⟨target, label, none, link, names⟩ condition) := by
    intro target label link compares
    cases condition with
    | none => exact Join.uncutEach_singleton compares
    | some e => exact Join.uncutEach_singleton (.binary compares (uncut e rfl))
  cases keys with
  | direct target pairs => exact onTarget _ _ _ (uncut_keyLink _ _ _)
  | pivot pivot target sourcePairs targetPairs =>
      exact Join.uncutEach_append.2
        ⟨Join.uncutEach_singleton (uncut_keyLink _ _ _), onTarget _ _ _ (uncut_keyLink _ _ _)⟩

/-- Neither the correlated query of a relation nor a query inside it is cut. -/
theorem uncut_subquery (readable : Expr.ReadableOption condition) (negated : Bool) :
    (Expr.existsQuery ((reach names label name keys).subquery condition) negated).Uncut := by
  obtain ⟨link, pivotLink⟩ := readable_reach names label name keys
  have whole : ((reach names label name keys).subquery condition).isCut = false := by
    cases keys <;> cases condition <;> rfl
  intro q inside
  by_contra cut
  have same := (uncutInside_subquery names label name keys uncut).eq_of_isCut
    (Reach.readable_subquery link pivotLink condition readable) inside (Bool.not_eq_false _ ▸ cut)
  exact cut (same ▸ whole)

end

/-! ### Emitted predicates and joins -/

section

variable {registry : Registry} {table : Table} {label outputPath path : String} {joinable : Bool}
  {names names' : Names} {predicates : List Expr} {joins : List Join} {requests : List Include}
  {nodes : List IncludeNode} {loads : List LazyLoad}

/-- No query inside what lowering emits is cut. -/
theorem Emits.uncut (emits : Emits registry table label joinable names predicates joins names') :
    (∀ e ∈ predicates, e.Uncut) ∧ Join.UncutEach joins := by
  have noJoins : Join.UncutEach [] := List.forall_mem_nil _
  induction emits with
  | nil => exact ⟨List.forall_mem_nil _, noJoins⟩
  | append first second ihFirst ihSecond =>
      exact ⟨List.forall_mem_append.2 ⟨ihFirst.1, ihSecond.1⟩,
        Join.uncutEach_append.2 ⟨ihFirst.2, ihSecond.2⟩⟩
  | conjunction parts ih =>
      exact ⟨fun e member => Expr.uncut_conjunction ih.1 e (Option.mem_toList.1 member), ih.2⟩
  | @disjunction _ _ _ _ _ predicates parts ih =>
      refine ⟨?_, noJoins⟩
      cases predicates with
      | nil => exact List.forall_mem_nil _
      | cons e es =>
          obtain ⟨first, others⟩ := List.forall_mem_cons.1 ih.1
          exact List.forall_mem_singleton.2 (first.foldl (fun _ _ => .binary) others)
  | dropped parts ih => exact ⟨List.forall_mem_nil _, noJoins⟩
  | never => exact ⟨List.forall_mem_singleton.2 (List.forall_mem_nil _), noJoins⟩
  | negation part ih =>
      have part := List.forall_mem_singleton.1 ih.1
      exact ⟨List.forall_mem_singleton.2 part, noJoins⟩
  | counterExample part ih =>
      have part := List.forall_mem_singleton.1 ih.1
      exact ⟨List.forall_mem_singleton.2 (uncut_counterExample part), noJoins⟩
  | field op known => exact ⟨List.forall_mem_singleton.2 (op.uncut_predicate _ _), noJoins⟩
  | existsQuery negated found inner ih =>
      have readable := Expr.readable_toList.1 inner.readable.1
      refine ⟨List.forall_mem_singleton.2 ?_, noJoins⟩
      exact uncut_subquery _ _ _ _ (fun e made => ih.1 e (Option.mem_toList.2 made)) readable negated
  | joined found joins_ok inner ih =>
      refine ⟨List.forall_mem_cons.2 ⟨?_, ih.1⟩, Join.uncutEach_append.2 ⟨?_, ih.2⟩⟩
      · unfold presence
        split <;> exact List.forall_mem_nil _
      · exact uncutEach_joins _ _ _ _ (by simp)

/-- No query inside the joins of attached includes is cut. -/
theorem Attaches.uncut_joins
    (attaches : Attaches registry table label outputPath path names requests nodes loads joins names') :
    Join.UncutEach joins := by
  induction attaches with
  | nil => exact List.forall_mem_nil _
  | deferred found lazy described new rest ih => exact ih
  | joined found eager narrowed chosen below completed new rest ihBelow ih =>
      have narrows := (includeCondition_emits narrowed).uncut.1
      refine Join.uncutEach_append.2 ⟨Join.uncutEach_append.2 ⟨?_, ihBelow⟩, ih⟩
      exact uncutEach_joins _ _ _ _ fun e made => narrows e (Option.mem_toList.2 made)

end

/-! ### Statements -/

section

variable {registry : Registry} {selection : Selection}

/-- Nothing in a variant of an assembled statement is cut but perhaps the variant itself. -/
theorem Assembly.Pieces.uncutInside {includes : List Include} {names : Names} {assembly : Assembly}
    (pieces : assembly.Pieces registry selection includes names) (select : List SelectItem)
    (order : List OrderItem) (limit offset : Option UInt64) :
    { assembly.query with select, orderBy := order, limit, offset : Query }.UncutInside := by
  obtain ⟨predicates, joins⟩ := pieces.emits.uncut
  rw [pieces.query_eq]
  exact ⟨⟨_, _, rfl⟩, Join.uncutEach_append.2 ⟨pieces.attaches.uncut_joins, joins⟩,
    Expr.uncut_conjunction predicates⟩

/-- The queries of a query that reads one derived table. -/
theorem Sql.Query.queries_over (query : Query) (name : String) (e : Expr) (condition : Option Expr) :
    (query.over name [.plain e] condition).queries = query.over name [.plain e] condition ::
      (e.queries ++ query.queries ++ Expr.queriesOfOption condition) := by
  simp [Query.over, Query.empty, Query.queries, SelectItem.plain, SelectItem.queriesOfEach, TableRef.derived,
    TableRef.queriesOfOption, TableRef.queries, Join.queriesOfEach, Expr.queriesOfEach, Expr.queriesOfOption,
    OrderItem.queriesOfEach]

/-- The queries that the condition of a page holds and that are cut are those of the statement for its
    keys. -/
theorem isCut_inKeys {key : List String} {keys : Query} {keysName rootAlias : String} {q : Query}
    (cut : q.isCut = true) :
    q ∈ (Selection.inKeys key keys keysName rootAlias).queries ↔ q ∈ keys.queries := by
  have others : ∀ (e : Expr) (condition : Option Expr), e.Uncut → (∀ c ∈ condition, c.Uncut) →
      (q ∈ (keys.over keysName [.plain e] condition).queries ↔ q ∈ keys.queries) := by
    intro e condition uncut linked
    have notOver : q ≠ keys.over keysName [.plain e] condition := by
      rintro rfl
      contradiction
    have notIn : q ∉ e.queries := fun inside => by simp [uncut q inside] at cut
    have notLinked : q ∉ Expr.queriesOfOption condition := by
      cases condition with
      | none => exact List.not_mem_nil
      | some c => exact fun inside => by simp [linked c rfl q inside] at cut
    simp [Query.queries_over, notOver, notIn, notLinked]
  unfold Selection.inKeys
  split
  · exact others _ none (Expr.uncut_of_isAtom trivial) (by simp)
  · refine others _ _ (Expr.uncut_of_isAtom trivial) ?_
    rintro _ ⟨rfl⟩
    exact uncut_keyLink _ _ _

/-- The query of a statement that is cut to the page of a selection. It ranges over the root, sorted by the
    orderings and, where it selects the keys of the page, by the rest of the key. -/
structure Selection.PageQuery (registry : Registry) (selection : Selection) (built : BuiltQuery)
    (q : Query) : Prop where
  inside : q ∈ built.query.queries
  only : ∀ r ∈ built.query.queries, r.isCut = true → r = q
  limit : q.limit = selection.limit
  offset : q.offset = selection.offset
  sorted : ∃ includes names assembly items, selection.assemble registry includes names = .ok assembly ∧
    selection.orderItems registry assembly.plan = .ok items ∧
    q.source = some (occurrence selection.table assembly.plan.label) ∧
    q.orderBy = if built.plan.hasToMany then
      Selection.withKeyOrder assembly.plan.label items selection.table.primaryKey else items

/-- A statement with a page has exactly one query that is cut. -/
theorem Selection.exists_pageQuery {built : BuiltQuery} (build : selection.build registry = .ok built)
    (paged : selection.isPaged = true) : ∃ q, selection.PageQuery registry built q := by
  have readable := selection.readable_build build
  obtain ⟨assembly, items, assembled, ordered, planned, -, restricts, limits⟩ := Selection.build_eq_ok build
  obtain ⟨pieces⟩ := Selection.nonempty_pieces assembled
  have sourced : assembly.query.source = some (occurrence selection.table assembly.plan.label) := by
    rw [pieces.query_eq, pieces.plan_eq]
  cases toMany : assembly.plan.hasToMany with
  | false =>
      have made := limits paged toMany
      have uncut : built.query.UncutInside := by
        rw [made]
        exact pieces.uncutInside assembly.plan.selectItems items selection.limit selection.offset
      refine ⟨built.query, built.query.mem_queries_self, fun r => uncut.eq_of_isCut readable, ?_, ?_, _, _,
        assembly, items, assembled, ordered, ?_, ?_⟩
      · rw [made]
      · rw [made]
      · rw [made]
        exact sourced
      · rw [made, planned, toMany]
        rfl
  | true =>
      obtain ⟨condition, restricted, made⟩ := restricts paged toMany
      obtain ⟨-, kept, inner, innerItems, -, innerAssembled, innerOrdered, rfl⟩ :=
        Selection.pageCondition_eq_ok restricted
      obtain ⟨innerPieces⟩ := Selection.nonempty_pieces innerAssembled
      have keysReadable := innerPieces.readable_keysQuery innerOrdered
      have keysUncut : (inner.keysQuery selection innerItems).UncutInside :=
        innerPieces.uncutInside _ _ selection.limit selection.offset
      have cutAbove : ∀ {r : Query}, r.isCut = true →
          (r ∈ built.query.queries ↔ r ∈ (inner.keysQuery selection innerItems).queries) := by
        intro r cut
        rw [made] at readable ⊢
        have uncut : (assembly.statement items).UncutInside :=
          pieces.uncutInside assembly.plan.selectItems items _ _
        have whole : (assembly.statement items).isCut = false := by
          rw [Assembly.statement, pieces.query_eq]
          rfl
        exact (uncut.isCut_filter whole readable cut).trans (isCut_inKeys cut)
      have keysCut : (inner.keysQuery selection innerItems).isCut = true := paged
      refine ⟨inner.keysQuery selection innerItems, (cutAbove keysCut).2 (Query.mem_queries_self _),
        fun r inside cut => keysUncut.eq_of_isCut keysReadable ((cutAbove cut).1 inside) cut, rfl, rfl, _, _,
        inner, innerItems, innerAssembled, innerOrdered, ?_, ?_⟩
      · rw [Assembly.keysQuery, innerPieces.query_eq, innerPieces.plan_eq]
      · rw [planned, toMany]
        rfl

end

end RelQuery
