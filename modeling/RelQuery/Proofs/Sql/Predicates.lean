/-
Module: RelQuery.Proofs.Sql.Predicates
Purpose: The predicates of a statement: the ON and WHERE conditions of its queries, at any depth. What is
  read from a readable statement has the predicates that are read from its own, in the same places.
Main exports: Expr.queries, Query.queries, Query.predicates, Query.Readable.predicates,
  Query.predicates_readBack
-/
import RelQuery.Proofs.Sql.ReadBack

namespace RelQuery.Sql

/-! ### Collecting the queries -/

mutual

/-- The queries inside an expression, at any depth. -/
def Expr.queries : Expr → List Query
  | .column _ _ => []
  | .literal _ => []
  | .param _ => []
  | .star _ => []
  | .binary _ left right => left.queries ++ right.queries
  | .not operand => operand.queries
  | .isNull operand _ => operand.queries
  | .paren inner => inner.queries
  | .call _ arguments _ => Expr.queriesOfEach arguments
  | .caseWhen subject branches otherwise =>
    Expr.queriesOfOption subject ++ Expr.queriesOfBranches branches ++ Expr.queriesOfOption otherwise
  | .subquery query => query.queries
  | .existsQuery query _ => query.queries
  | .inList operand values _ => operand.queries ++ Expr.queriesOfEach values
  | .inQuery operand query _ => operand.queries ++ query.queries
  | .likeEscape operand pattern _ _ => operand.queries ++ pattern.queries

/-- The queries inside a list of expressions. -/
def Expr.queriesOfEach : List Expr → List Query
  | [] => []
  | e :: es => e.queries ++ Expr.queriesOfEach es

/-- The queries inside an expression that may be missing. -/
def Expr.queriesOfOption : Option Expr → List Query
  | none => []
  | some e => e.queries

/-- The queries inside the branches of a case distinction. -/
def Expr.queriesOfBranches : List (Expr × Expr) → List Query
  | [] => []
  | (condition, result) :: branches =>
    condition.queries ++ result.queries ++ Expr.queriesOfBranches branches

/-- The queries of a derived table. -/
def TableRef.queries : TableRef → List Query
  | ⟨.stored _ _, _⟩ => []
  | ⟨.derived query, _⟩ => query.queries

/-- The queries of the first item of a query. -/
def TableRef.queriesOfOption : Option TableRef → List Query
  | none => []
  | some table => table.queries

/-- The queries inside joins. -/
def Join.queriesOfEach : List Join → List Query
  | [] => []
  | ⟨_, table, condition⟩ :: joins =>
    table.queries ++ Expr.queriesOfOption condition ++ Join.queriesOfEach joins

/-- The queries inside a SELECT list. -/
def SelectItem.queriesOfEach : List SelectItem → List Query
  | [] => []
  | ⟨e, _⟩ :: items => e.queries ++ SelectItem.queriesOfEach items

/-- The queries inside an ORDER BY list. -/
def OrderItem.queriesOfEach : List OrderItem → List Query
  | [] => []
  | ⟨e, _, _⟩ :: items => e.queries ++ OrderItem.queriesOfEach items

/-- A query and the queries inside it, at any depth. -/
def Query.queries : Query → List Query
  | ⟨select, distinct, source, joins, condition, groupBy, having, orderBy, limit, offset⟩ =>
    ⟨select, distinct, source, joins, condition, groupBy, having, orderBy, limit, offset⟩ ::
      (SelectItem.queriesOfEach select ++ TableRef.queriesOfOption source ++ Join.queriesOfEach joins
        ++ Expr.queriesOfOption condition ++ Expr.queriesOfEach groupBy ++ Expr.queriesOfOption having
        ++ OrderItem.queriesOfEach orderBy)

end

/-- The ON and WHERE conditions of a query itself. -/
def Query.ownPredicates (q : Query) : List Expr := q.joins.filterMap Join.condition ++ q.condition.toList

/-- The ON and WHERE conditions of a query and of those inside it. -/
def Query.predicates (q : Query) : List Expr := q.queries.flatMap Query.ownPredicates

/-! ### Simple expressions -/

theorem Expr.queries_of_isAtom {e : Expr} (atom : e.IsAtom) : e.queries = [] := by
  cases e <;> first | rfl | contradiction

theorem Expr.queriesOfEach_atoms {es : List Expr} (atoms : ∀ e ∈ es, e.IsAtom) : queriesOfEach es = [] := by
  induction es with
  | nil => rfl
  | cons e es ih =>
      obtain ⟨first, others⟩ := List.forall_mem_cons.1 atoms
      rw [queriesOfEach, queries_of_isAtom first, ih others, List.append_nil]

theorem SelectItem.queriesOfEach_atoms {items : List SelectItem}
    (atoms : ∀ item ∈ items, item.expr.IsAtom) : queriesOfEach items = [] := by
  induction items with
  | nil => rfl
  | cons item items ih =>
      obtain ⟨first, others⟩ := List.forall_mem_cons.1 atoms
      obtain ⟨e, label⟩ := item
      rw [queriesOfEach, Expr.queries_of_isAtom first, ih others, List.append_nil]

theorem OrderItem.queriesOfEach_atoms {items : List OrderItem}
    (atoms : ∀ item ∈ items, item.expr.IsAtom) : queriesOfEach items = [] := by
  induction items with
  | nil => rfl
  | cons item items ih =>
      obtain ⟨first, others⟩ := List.forall_mem_cons.1 atoms
      obtain ⟨e, direction, nulls⟩ := item
      rw [queriesOfEach, Expr.queries_of_isAtom first, ih others, List.append_nil]

/-- The queries of a readable query are itself and those of its items and conditions. -/
theorem Query.Readable.queries_eq {q : Query} (readable : q.Readable) :
    q.queries = q :: (TableRef.queriesOfOption q.source ++ Join.queriesOfEach q.joins ++
      Expr.queriesOfOption q.condition) := by
  obtain ⟨select, distinct, source, joins, condition, groupBy, having, orderBy, limit, offset⟩ := q
  obtain ⟨selected, -, -, -, rfl, rfl, sorted⟩ := readable
  simp [Query.queries, SelectItem.queriesOfEach_atoms selected, OrderItem.queriesOfEach_atoms sorted,
    Expr.queriesOfEach, Expr.queriesOfOption]

/-! ### Readable predicates -/

mutual

/-- The queries inside a readable expression are readable. -/
theorem Expr.Readable.queries : ∀ {e : Expr}, e.Readable → ∀ q ∈ e.queries, q.Readable
  | .column _ _, _, _, inside => by simp [Expr.queries] at inside
  | .literal _, _, _, inside => by simp [Expr.queries] at inside
  | .param _, _, _, inside => by simp [Expr.queries] at inside
  | .binary _ _ _, readable, q, inside => by
      rcases List.mem_append.1 inside with left | right
      · exact Expr.Readable.queries readable.1 q left
      · exact Expr.Readable.queries readable.2.1 q right
  | .not operand, readable, q, inside => Expr.Readable.queries (e := operand) readable q inside
  | .isNull _ _, readable, _, inside => by simp [Expr.queries, Expr.queries_of_isAtom readable] at inside
  | .caseWhen none _ (some _), readable, q, inside => by
      simp only [Expr.queries, Expr.queriesOfOption, List.nil_append, Expr.queries_of_isAtom readable.2,
        List.append_nil] at inside
      exact Expr.readable_queriesOfBranches readable.1 q inside
  | .caseWhen none _ none, readable, _, _ => absurd readable (by simp [Expr.Readable])
  | .caseWhen (some _) _ _, readable, _, _ => absurd readable (by simp [Expr.Readable])
  | .existsQuery _ _, readable, q, inside => Query.Readable.queries readable q inside
  | .inList _ _ _, readable, _, inside => by
      simp [Expr.queries, Expr.queries_of_isAtom readable.1, Expr.queriesOfEach_atoms readable.2] at inside
  | .inQuery _ _ _, readable, q, inside => by
      rw [Expr.queries, Expr.queries_of_isAtom readable.1, List.nil_append] at inside
      exact Query.Readable.queries readable.2 q inside
  | .likeEscape _ _ _ _, readable, _, inside => by
      simp [Expr.queries, Expr.queries_of_isAtom readable.1, Expr.queries_of_isAtom readable.2] at inside
  | .subquery _, readable, _, _ => absurd readable (by simp [Expr.Readable])
  | .call _ _ _, readable, _, _ => absurd readable (by simp [Expr.Readable])
  | .star _, readable, _, _ => absurd readable (by simp [Expr.Readable])
  | .paren _, readable, _, _ => absurd readable (by simp [Expr.Readable])

theorem Expr.readable_queriesOfOption : ∀ {condition : Option Expr}, Expr.ReadableOption condition →
    ∀ q ∈ Expr.queriesOfOption condition, q.Readable
  | none, _, _, inside => by simp [Expr.queriesOfOption] at inside
  | some _, readable, q, inside => Expr.Readable.queries readable q inside

theorem Expr.readable_queriesOfBranches : ∀ {branches : List (Expr × Expr)},
    Expr.ReadableBranches branches → ∀ q ∈ Expr.queriesOfBranches branches, q.Readable
  | [], _, _, inside => by simp [Expr.queriesOfBranches] at inside
  | (_, _) :: _, readable, q, inside => by
      rw [Expr.queriesOfBranches, Expr.queries_of_isAtom readable.2.1, List.append_nil] at inside
      rcases List.mem_append.1 inside with first | later
      · exact Expr.Readable.queries readable.1 q first
      · exact Expr.readable_queriesOfBranches readable.2.2 q later

theorem TableRef.Readable.queries : ∀ {table : TableRef}, table.Readable → ∀ q ∈ table.queries, q.Readable
  | ⟨.stored _ _, _⟩, _, _, inside => by simp [TableRef.queries] at inside
  | ⟨.derived _, _⟩, readable, q, inside => Query.Readable.queries readable q inside

theorem Join.readable_queriesOfEach : ∀ {joins : List Join}, Join.ReadableEach joins →
    ∀ q ∈ Join.queriesOfEach joins, q.Readable
  | [], _, _, inside => by simp [Join.queriesOfEach] at inside
  | ⟨_, _, _⟩ :: _, readable, q, inside => by
      rcases List.mem_append.1 inside with inside | later
      · rcases List.mem_append.1 inside with table | condition
        · exact TableRef.Readable.queries readable.1 q table
        · exact Expr.readable_queriesOfOption readable.2.1 q condition
      · exact Join.readable_queriesOfEach readable.2.2 q later

/-- The queries inside a readable query are readable. -/
theorem Query.Readable.queries : ∀ {query : Query}, query.Readable → ∀ q ∈ query.queries, q.Readable
  | ⟨_, _, none, _, _, _, _, _, _, _⟩, readable, _, _ => absurd readable.2.1 (by simp [TableRef.ReadableOption])
  | ⟨_, _, some _, _, _, _, _, _, _, _⟩, readable, q, inside => by
      rw [readable.queries_eq] at inside
      rcases List.mem_cons.1 inside with rfl | inside
      · exact readable
      rcases List.mem_append.1 inside with inside | condition
      · rcases List.mem_append.1 inside with source | joined
        · exact TableRef.Readable.queries readable.2.1 q source
        · exact Join.readable_queriesOfEach readable.2.2.1 q joined
      · exact Expr.readable_queriesOfOption readable.2.2.2.1 q condition

end

/-- The predicates of a readable statement are readable. -/
theorem Query.Readable.predicates {query : Query} (readable : query.Readable) :
    ∀ e ∈ query.predicates, e.Readable := by
  intro e inside
  obtain ⟨q, nested, own⟩ := List.mem_flatMap.1 inside
  have readableQuery := readable.queries q nested
  obtain ⟨select, distinct, source, joins, condition, groupBy, having, orderBy, limit, offset⟩ := q
  obtain ⟨-, -, readableJoins, readableCondition, -, -, -⟩ := readableQuery
  rcases List.mem_append.1 own with on | filtered
  · obtain ⟨join, member, links⟩ := List.mem_filterMap.1 on
    clear on own nested inside
    induction joins with
    | nil => contradiction
    | cons first joins ih =>
        obtain ⟨kind, table, condition⟩ := first
        rcases List.mem_cons.1 member with rfl | later
        · obtain rfl : condition = some e := links
          exact readableJoins.2.1
        · exact ih readableJoins.2.2 later
  · obtain rfl : condition = some e := by simpa using filtered
    exact readableCondition

/-! ### Predicates that are read back -/

theorem Expr.queries_appendAnd (e f : Expr) : (e.appendAnd f).queries = e.queries ++ f.queries := by
  fun_induction Expr.appendAnd e f with
  | case1 f g ih =>
      change (e.appendAnd f).queries ++ g.queries = e.queries ++ (f.queries ++ g.queries)
      rw [ih, List.append_assoc]
  | case2 f other => rfl

theorem Expr.queries_appendOr (e f : Expr) : (e.appendOr f).queries = e.queries ++ f.queries := by
  fun_induction Expr.appendOr e f with
  | case1 f g ih =>
      change (e.appendOr f).queries ++ g.queries = e.queries ++ (f.queries ++ g.queries)
      rw [ih, List.append_assoc]
  | case2 f other => rfl

section

variable (d : Dialect)

/-- The predicates of a query itself are read one by one. -/
theorem Query.ownPredicates_readBack (q : Query) :
    (q.readBack d).ownPredicates = q.ownPredicates.map (Expr.readBack d) := by
  obtain ⟨select, distinct, source, joins, condition, groupBy, having, orderBy, limit, offset⟩ := q
  have joined : ∀ joins : List Join, (Join.readBackEach d joins).filterMap Join.condition =
      (joins.filterMap Join.condition).map (Expr.readBack d) := by
    intro joins
    induction joins with
    | nil => rfl
    | cons join joins ih =>
        obtain ⟨kind, table, condition⟩ := join
        cases condition <;> simp [Join.readBackEach, Expr.readBackOption, ih]
  have filtered : (Expr.readBackOption d condition).toList = condition.toList.map (Expr.readBack d) := by
    cases condition <;> rfl
  rw [Query.readBack, Query.ownPredicates, Query.ownPredicates, joined, filtered, List.map_append]

end

section

variable {d : Dialect}

mutual

/-- What is read from a readable expression has the queries that are read from its own. -/
theorem Expr.queries_readBack : ∀ e : Expr, e.Readable →
    (e.readBack d).queries = e.queries.map (Query.readBack d)
  | .column _ _, _ => rfl
  | .literal _, _ => rfl
  | .param _, _ => rfl
  | .binary op left right, readable => by
      obtain ⟨readableLeft, readableRight, fits⟩ := readable
      have first := Expr.queries_readBack left readableLeft
      have second := Expr.queries_readBack right readableRight
      rw [Expr.queries, List.map_append, ← first, ← second]
      cases op with
      | and => exact Expr.queries_appendAnd _ _
      | or => exact Expr.queries_appendOr _ _
      | compare operator => rfl
      | like => contradiction
  | .not operand, readable => Expr.queries_readBack operand readable
  | .isNull _ _, readable => by simp [Expr.readBack, Expr.queries, Expr.queries_of_isAtom readable]
  | .caseWhen none branches (some _), readable => by
      simp only [Expr.readBack, Expr.queries, Expr.queriesOfOption, List.nil_append,
        Expr.queries_of_isAtom readable.2, List.append_nil]
      exact Expr.queriesOfBranches_readBack branches readable.1
  | .caseWhen none _ none, readable => absurd readable (by simp [Expr.Readable])
  | .caseWhen (some _) _ _, readable => absurd readable (by simp [Expr.Readable])
  | .existsQuery query negated, readable => by
      have inner := Query.queries_readBack query readable
      cases negated <;> exact inner
  | .inList operand values negated, readable => by
      obtain ⟨atom, atoms⟩ := readable
      have none : (Expr.inList operand values negated).queries = [] := by
        rw [Expr.queries, Expr.queries_of_isAtom atom, Expr.queriesOfEach_atoms atoms, List.append_nil]
      rw [none, Expr.readBack]
      split
      · rfl
      · exact none
  | .inQuery _ query _, readable => by
      rw [Expr.readBack, Expr.queries, Expr.queries, Expr.queries_of_isAtom readable.1, List.nil_append,
        List.nil_append]
      exact Query.queries_readBack query readable.2
  | .likeEscape _ _ _ _, readable => by
      simp [Expr.readBack, Expr.queries, Expr.queries_of_isAtom readable.1, Expr.queries_of_isAtom readable.2]
  | .subquery _, readable => absurd readable (by simp [Expr.Readable])
  | .call _ _ _, readable => absurd readable (by simp [Expr.Readable])
  | .star _, readable => absurd readable (by simp [Expr.Readable])
  | .paren _, readable => absurd readable (by simp [Expr.Readable])

theorem Expr.queriesOfOption_readBack : ∀ condition : Option Expr, Expr.ReadableOption condition →
    Expr.queriesOfOption (Expr.readBackOption d condition) =
      (Expr.queriesOfOption condition).map (Query.readBack d)
  | none, _ => rfl
  | some e, readable => Expr.queries_readBack e readable

theorem Expr.queriesOfBranches_readBack : ∀ branches : List (Expr × Expr),
    Expr.ReadableBranches branches →
      Expr.queriesOfBranches (Expr.readBackBranches d branches) =
        (Expr.queriesOfBranches branches).map (Query.readBack d)
  | [], _ => rfl
  | (condition, result) :: branches, readable => by
      rw [Expr.readBackBranches, Expr.queriesOfBranches, Expr.queriesOfBranches,
        Expr.queries_of_isAtom readable.2.1, Expr.queries_readBack condition readable.1,
        Expr.queriesOfBranches_readBack branches readable.2.2]
      simp

theorem TableRef.queries_readBack : ∀ table : TableRef, table.Readable →
    (table.readBack d).queries = table.queries.map (Query.readBack d)
  | ⟨.stored _ _, _⟩, _ => rfl
  | ⟨.derived query, _⟩, readable => Query.queries_readBack query readable

theorem Join.queriesOfEach_readBack : ∀ joins : List Join, Join.ReadableEach joins →
    Join.queriesOfEach (Join.readBackEach d joins) = (Join.queriesOfEach joins).map (Query.readBack d)
  | [], _ => rfl
  | ⟨_, table, condition⟩ :: joins, readable => by
      rw [Join.readBackEach, Join.queriesOfEach, Join.queriesOfEach,
        TableRef.queries_readBack table readable.1, Expr.queriesOfOption_readBack condition readable.2.1,
        Join.queriesOfEach_readBack joins readable.2.2, List.map_append, List.map_append]

/-- What is read from a readable query has the queries that are read from its own. -/
theorem Query.queries_readBack : ∀ q : Query, q.Readable →
    (q.readBack d).queries = q.queries.map (Query.readBack d)
  | ⟨_, _, none, _, _, _, _, _, _, _⟩, readable => absurd readable.2.1 (by simp [TableRef.ReadableOption])
  | ⟨_, _, some source, joins, condition, groupBy, having, _, _, _⟩, readable => by
      obtain ⟨selected, readableSource, readableJoins, readableCondition, rfl, rfl, sorted⟩ := readable
      have ofSource := TableRef.queries_readBack source readableSource
      have ofJoins := Join.queriesOfEach_readBack joins readableJoins
      have ofCondition := Expr.queriesOfOption_readBack condition readableCondition
      simp [Query.queries, Query.readBack, TableRef.readBackOption, TableRef.queriesOfOption, ofSource, ofJoins,
        ofCondition, SelectItem.queriesOfEach_atoms selected, OrderItem.queriesOfEach_atoms sorted,
        Expr.queriesOfEach, Expr.queriesOfOption]

end

/-- What is read from a readable statement has the predicates that are read from its own, one by one. -/
theorem Query.predicates_readBack {q : Query} (readable : q.Readable) :
    (q.readBack d).predicates = q.predicates.map (Expr.readBack d) := by
  simp only [Query.predicates, Query.queries_readBack q readable, List.flatMap_map, List.map_flatMap,
    Query.ownPredicates_readBack]

end

end RelQuery.Sql
