/-
Module: RelQuery.Proofs.Sql.Occurrences
Purpose: The table occurrences of a statement: every FROM and JOIN item, with those of the queries inside
  its expressions and of its derived tables, at any depth.
Main exports: Expr.occurrences, Query.occurrences, Expr.occurrencesOfOption_conjunction,
  Query.occurrences_filter
-/
import RelQuery.Sql.Scope

namespace RelQuery.Sql

/-! ### Collecting the occurrences -/

mutual

/-- The items of the queries inside an expression. -/
def Expr.occurrences : Expr → List TableRef
  | .column _ _ => []
  | .literal _ => []
  | .param _ => []
  | .star _ => []
  | .binary _ left right => left.occurrences ++ right.occurrences
  | .not operand => operand.occurrences
  | .isNull operand _ => operand.occurrences
  | .paren inner => inner.occurrences
  | .call _ arguments _ => Expr.occurrencesOfEach arguments
  | .caseWhen subject branches otherwise =>
    Expr.occurrencesOfOption subject ++ Expr.occurrencesOfBranches branches
      ++ Expr.occurrencesOfOption otherwise
  | .subquery query => query.occurrences
  | .existsQuery query _ => query.occurrences
  | .inList operand values _ => operand.occurrences ++ Expr.occurrencesOfEach values
  | .inQuery operand query _ => operand.occurrences ++ query.occurrences
  | .likeEscape operand pattern _ _ => operand.occurrences ++ pattern.occurrences

/-- The items inside a list of expressions. -/
def Expr.occurrencesOfEach : List Expr → List TableRef
  | [] => []
  | e :: es => e.occurrences ++ Expr.occurrencesOfEach es

/-- The items inside an expression that may be missing. -/
def Expr.occurrencesOfOption : Option Expr → List TableRef
  | none => []
  | some e => e.occurrences

/-- The items inside the branches of a case distinction. -/
def Expr.occurrencesOfBranches : List (Expr × Expr) → List TableRef
  | [] => []
  | (condition, result) :: branches =>
    condition.occurrences ++ result.occurrences ++ Expr.occurrencesOfBranches branches

/-- The items inside the query of a derived table. -/
def TableRef.innerOccurrences : TableRef → List TableRef
  | ⟨.stored _ _, _⟩ => []
  | ⟨.derived query, _⟩ => query.occurrences

/-- The first item of a query and the items inside it. -/
def TableRef.occurrencesOfOption : Option TableRef → List TableRef
  | none => []
  | some table => table :: table.innerOccurrences

/-- The items of joins and the items inside these and their conditions. -/
def Join.occurrencesOfEach : List Join → List TableRef
  | [] => []
  | ⟨_, table, condition⟩ :: joins =>
    table :: table.innerOccurrences ++ Expr.occurrencesOfOption condition ++ Join.occurrencesOfEach joins

/-- The items inside a SELECT list. -/
def SelectItem.occurrencesOfEach : List SelectItem → List TableRef
  | [] => []
  | ⟨e, _⟩ :: items => e.occurrences ++ SelectItem.occurrencesOfEach items

/-- The items inside an ORDER BY list. -/
def OrderItem.occurrencesOfEach : List OrderItem → List TableRef
  | [] => []
  | ⟨e, _, _⟩ :: items => e.occurrences ++ OrderItem.occurrencesOfEach items

/-- The items of a query and those inside them and its other clauses. -/
def Query.occurrences : Query → List TableRef
  | ⟨select, _, source, joins, condition, groupBy, having, orderBy, _, _⟩ =>
    TableRef.occurrencesOfOption source ++ Join.occurrencesOfEach joins
      ++ SelectItem.occurrencesOfEach select ++ Expr.occurrencesOfOption condition
      ++ Expr.occurrencesOfEach groupBy ++ Expr.occurrencesOfOption having
      ++ OrderItem.occurrencesOfEach orderBy

end

/-! ### Lists of clauses -/

@[simp] theorem Expr.occurrencesOfEach_append (es fs : List Expr) :
    occurrencesOfEach (es ++ fs) = occurrencesOfEach es ++ occurrencesOfEach fs := by
  induction es with
  | nil => simp [occurrencesOfEach]
  | cons e es ih => simp [occurrencesOfEach, ih]

@[simp] theorem Expr.occurrencesOfEach_toList (e? : Option Expr) :
    occurrencesOfEach e?.toList = occurrencesOfOption e? := by
  cases e? <;> simp [occurrencesOfEach, occurrencesOfOption]

@[simp] theorem Join.occurrencesOfEach_append (joins more : List Join) :
    occurrencesOfEach (joins ++ more) = occurrencesOfEach joins ++ occurrencesOfEach more := by
  induction joins with
  | nil => simp [occurrencesOfEach]
  | cons join joins ih =>
      obtain ⟨kind, table, condition⟩ := join
      simp [occurrencesOfEach, ih]

/-- A SELECT list of columns holds no queries. -/
theorem SelectItem.occurrencesOfEach_columns {items : List SelectItem}
    (columns : ∀ item ∈ items, ∃ label column, item.expr = Expr.of label column) :
    occurrencesOfEach items = [] := by
  induction items with
  | nil => rfl
  | cons item items ih =>
      obtain ⟨first, others⟩ := List.forall_mem_cons.1 columns
      obtain ⟨e, label⟩ := item
      obtain ⟨qualifier, column, rfl⟩ := first
      rw [occurrencesOfEach, ih others]
      rfl

/-- An ORDER BY list of columns holds no queries. -/
theorem OrderItem.occurrencesOfEach_columns {items : List OrderItem}
    (columns : ∀ item ∈ items, ∃ label column, item.expr = Expr.of label column) :
    occurrencesOfEach items = [] := by
  induction items with
  | nil => rfl
  | cons item items ih =>
      obtain ⟨first, others⟩ := List.forall_mem_cons.1 columns
      obtain ⟨e, direction, nulls⟩ := item
      obtain ⟨qualifier, column, rfl⟩ := first
      rw [occurrencesOfEach, ih others]
      rfl

/-! ### Built conditions -/

theorem Expr.occurrences_and (e f : Expr) : (e.and f).occurrences = e.occurrences ++ f.occurrences := by
  rw [Expr.and, occurrences]

theorem Expr.occurrences_or (e f : Expr) : (e.or f).occurrences = e.occurrences ++ f.occurrences := by
  rw [Expr.or, occurrences]

/-- A conjunction that is grouped to the left holds the queries of its parts, in order. -/
theorem Expr.occurrences_foldl_and (e : Expr) (es : List Expr) :
    (es.foldl Expr.and e).occurrences = e.occurrences ++ occurrencesOfEach es := by
  induction es generalizing e with
  | nil => simp [occurrencesOfEach]
  | cons f fs ih =>
      rw [List.foldl_cons, ih, occurrences_and, occurrencesOfEach, List.append_assoc]

/-- A disjunction that is grouped to the left holds the queries of its parts, in order. -/
theorem Expr.occurrences_foldl_or (e : Expr) (es : List Expr) :
    (es.foldl Expr.or e).occurrences = e.occurrences ++ occurrencesOfEach es := by
  induction es generalizing e with
  | nil => simp [occurrencesOfEach]
  | cons f fs ih =>
      rw [List.foldl_cons, ih, occurrences_or, occurrencesOfEach, List.append_assoc]

@[simp] theorem Expr.occurrencesOfOption_conjunction (es : List Expr) :
    occurrencesOfOption (conjunction? es) = occurrencesOfEach es := by
  cases es with
  | nil => rfl
  | cons e es => exact occurrences_foldl_and e es

/-- Values that are bound hold no queries. -/
@[simp] theorem Expr.occurrencesOfEach_params (values : List Literal) :
    occurrencesOfEach (values.map .param) = [] := by
  induction values with
  | nil => rfl
  | cons value values ih =>
      rw [List.map_cons, occurrencesOfEach, ih]
      rfl

theorem Expr.occurrences_strengthen (condition : Option Expr) (e : Expr) :
    (strengthen condition e).occurrences = occurrencesOfOption condition ++ e.occurrences := by
  cases condition <;> rfl

/-- One more condition adds the items of its queries. -/
theorem Query.occurrences_filter (q : Query) (e : Expr) :
    (q.filter e).occurrences.Perm (q.occurrences ++ e.occurrences) := by
  obtain ⟨select, distinct, source, joins, condition, groupBy, having, orderBy, limit, offset⟩ := q
  simp only [filter, occurrences, Expr.occurrencesOfOption, Expr.occurrences_strengthen, List.append_assoc]
  refine .append_left _ (.append_left _ (.append_left _ (.append_left _ ?_)))
  refine List.perm_append_comm.trans (.of_eq ?_)
  simp only [List.append_assoc]

end RelQuery.Sql
