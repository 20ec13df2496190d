/-
Module: RelQuery.Proofs.Sql.Bracketed
Purpose: Expressions whose operands hold together tightly enough to stand where they are written without
  parentheses. The written form of such an expression means what the expression means: nothing of it is
  lost on the way to tokens.
Main exports: Expr.Bracketed, Query.Bracketed, Engine.SeesTokens, Query.records, Expr.eval_asWritten,
  Query.answer_asWritten
-/
import RelQuery.Proofs.Sql.AsWritten
import RelQuery.Proofs.Sql.ReadMeaning

namespace RelQuery.Sql

variable {V : Type}

/-! ### Operands in their places -/

mutual

/-- Every operand inside an expression holds together tightly enough for its place, and none that is
    dropped with a membership in the empty list aggregates rows. -/
def Expr.Bracketed (engine : Engine V) : Expr → Prop
  | .column _ _ => True
  | .literal _ => True
  | .param _ => True
  | .star _ => True
  | .binary op left right => op.Separates left right ∧ left.Bracketed engine ∧ right.Bracketed engine
  | .not operand => operand.Bracketed engine
  | .isNull operand _ => 4 ≤ operand.tightness ∧ operand.Bracketed engine
  | .paren inner => inner.Bracketed engine
  | .call _ arguments _ => Expr.BracketedEach engine arguments
  | .caseWhen subject branches otherwise =>
    Expr.BracketedOption engine subject ∧ Expr.BracketedBranches engine branches ∧
      Expr.BracketedOption engine otherwise
  | .subquery query => query.Bracketed engine
  | .existsQuery query _ => query.Bracketed engine
  | .inList operand [] _ => operand.aggregates engine = false
  | .inList operand (value :: values) _ =>
    4 ≤ operand.tightness ∧ operand.Bracketed engine ∧ value.Bracketed engine ∧
      Expr.BracketedEach engine values
  | .inQuery operand query _ => 4 ≤ operand.tightness ∧ operand.Bracketed engine ∧ query.Bracketed engine
  | .likeEscape operand pattern _ _ =>
    4 ≤ operand.tightness ∧ pattern.tightness = 5 ∧ operand.Bracketed engine ∧ pattern.Bracketed engine

/-- All expressions of a list are bracketed. -/
def Expr.BracketedEach (engine : Engine V) : List Expr → Prop
  | [] => True
  | e :: es => e.Bracketed engine ∧ Expr.BracketedEach engine es

/-- An expression that may be missing is bracketed. -/
def Expr.BracketedOption (engine : Engine V) : Option Expr → Prop
  | none => True
  | some e => e.Bracketed engine

/-- All branches of a case distinction are bracketed. -/
def Expr.BracketedBranches (engine : Engine V) : List (Expr × Expr) → Prop
  | [] => True
  | (condition, result) :: branches =>
    condition.Bracketed engine ∧ result.Bracketed engine ∧ Expr.BracketedBranches engine branches

/-- The query of a derived table is bracketed. -/
def TableRef.Bracketed (engine : Engine V) : TableRef → Prop
  | ⟨.stored _ _, _⟩ => True
  | ⟨.derived query, _⟩ => query.Bracketed engine

/-- An item that may be missing is bracketed. -/
def TableRef.BracketedOption (engine : Engine V) : Option TableRef → Prop
  | none => True
  | some table => table.Bracketed engine

/-- All items and conditions of joins are bracketed. -/
def Join.BracketedEach (engine : Engine V) : List Join → Prop
  | [] => True
  | ⟨_, table, condition⟩ :: joins =>
    table.Bracketed engine ∧ Expr.BracketedOption engine condition ∧ Join.BracketedEach engine joins

/-- All items of a SELECT list are bracketed. -/
def SelectItem.BracketedEach (engine : Engine V) : List SelectItem → Prop
  | [] => True
  | ⟨e, _⟩ :: items => e.Bracketed engine ∧ SelectItem.BracketedEach engine items

/-- All items of an ORDER BY list are bracketed. -/
def OrderItem.BracketedEach (engine : Engine V) : List OrderItem → Prop
  | [] => True
  | ⟨e, _, _⟩ :: items => e.Bracketed engine ∧ OrderItem.BracketedEach engine items

/-- All expressions of a query are bracketed. -/
def Query.Bracketed (engine : Engine V) : Query → Prop
  | ⟨select, _, source, joins, condition, groupBy, having, orderBy, _, _⟩ =>
    SelectItem.BracketedEach engine select ∧ TableRef.BracketedOption engine source ∧
      Join.BracketedEach engine joins ∧ Expr.BracketedOption engine condition ∧
      Expr.BracketedEach engine groupBy ∧ Expr.BracketedOption engine having ∧
      OrderItem.BracketedEach engine orderBy

end

/-- An engine sees nothing of a query but its tokens. -/
def Engine.SeesTokens (engine : Engine V) (d : Dialect) : Prop :=
  ∀ q r : Query, q.tokens d = r.tokens d → engine.arrange q = engine.arrange r

/-! ### Aggregates of the written form -/

section

variable (engine : Engine V)

namespace Expr

@[simp] theorem aggregates_guarded (wrap : Bool) (e : Expr) :
    (e.guarded wrap).aggregates engine = e.aggregates engine := by
  cases wrap <;> rfl

theorem aggregates_appendAnd (e f : Expr) :
    (e.appendAnd f).aggregates engine = (e.aggregates engine || f.aggregates engine) := by
  fun_induction appendAnd e f with
  | case1 f g ih => simp only [Expr.and, aggregates, ih, Bool.or_assoc]
  | case2 f other => rfl

theorem aggregates_appendOr (e f : Expr) :
    (e.appendOr f).aggregates engine = (e.aggregates engine || f.aggregates engine) := by
  fun_induction appendOr e f with
  | case1 f g ih => simp only [Expr.or, aggregates, ih, Bool.or_assoc]
  | case2 f other => rfl

/-- An operation aggregates rows if an operand does. -/
theorem aggregates_written (op : BinaryOp) (left right : Expr) :
    (op.written left right).aggregates engine = (left.aggregates engine || right.aggregates engine) := by
  cases op with
  | and => exact aggregates_appendAnd engine left right
  | or => exact aggregates_appendOr engine left right
  | compare operator =>
      obtain ⟨negated, -, rfl, rfl, same⟩ | same := compared_cases operator left right <;>
        rw [BinaryOp.written, same] <;> rfl
  | like => rfl

end Expr

mutual

/-- The written form aggregates rows if the expression does. -/
theorem Expr.aggregates_asWritten (d : Dialect) : ∀ e : Expr, e.Bracketed engine →
    (e.asWritten d).aggregates engine = e.aggregates engine
  | .column _ _, _ => rfl
  | .literal _, _ => rfl
  | .param _, _ => rfl
  | .star _, _ => rfl
  | .binary op left right, ⟨_, first, second⟩ => by
      rw [Expr.asWritten, Expr.aggregates_written, Expr.aggregates_guarded, Expr.aggregates_guarded,
        Expr.aggregates_asWritten d left first, Expr.aggregates_asWritten d right second]
      rfl
  | .not operand, bracketed => by
      rw [Expr.asWritten, Expr.aggregates, Expr.aggregates_guarded,
        Expr.aggregates_asWritten d operand bracketed]
      rfl
  | .isNull operand _, ⟨_, bracketed⟩ => Expr.aggregates_asWritten d operand bracketed
  | .paren inner, bracketed => Expr.aggregates_asWritten d inner bracketed
  | .call function arguments _, bracketed => by
      rw [Expr.asWritten, Expr.aggregates, Expr.anyAggregates_asWritten d arguments bracketed]
      rfl
  | .caseWhen subject branches otherwise, ⟨first, second, third⟩ => by
      have inside := Expr.anyBranchAggregates_asWritten d branches second
      cases subject with
      | none =>
          cases otherwise with
          | none => simp only [Expr.asWritten, Expr.asWrittenOption, Expr.aggregates, inside]
          | some e =>
              have last := Expr.aggregates_asWritten d e third
              simp only [Expr.asWritten, Expr.asWrittenOption, Expr.aggregates, inside, last]
      | some s =>
          have tested := Expr.aggregates_asWritten d s first
          cases otherwise with
          | none => simp only [Expr.asWritten, Expr.asWrittenOption, Expr.aggregates, inside, tested]
          | some e =>
              have last := Expr.aggregates_asWritten d e third
              simp only [Expr.asWritten, Expr.asWrittenOption, Expr.aggregates, inside, tested, last]
  | .subquery _, _ => rfl
  | .existsQuery _ false, _ => rfl
  | .existsQuery _ true, _ => rfl
  | .inList operand [] _, plain => by
      have nothing : operand.aggregates engine = false := plain
      rw [Expr.aggregates, nothing]
      rfl
  | .inList operand (value :: values) _, ⟨_, first, second, third⟩ => by
      rw [Expr.asWritten, Expr.aggregates, Expr.anyAggregates, Expr.aggregates_asWritten d operand first,
        Expr.aggregates_asWritten d value second, Expr.anyAggregates_asWritten d values third]
      rfl
  | .inQuery operand _ _, ⟨_, bracketed, _⟩ => Expr.aggregates_asWritten d operand bracketed
  | .likeEscape operand pattern _ _, ⟨_, _, first, second⟩ => by
      rw [Expr.asWritten, Expr.aggregates, Expr.aggregates_asWritten d operand first,
        Expr.aggregates_asWritten d pattern second]
      rfl

theorem Expr.anyAggregates_asWritten (d : Dialect) : ∀ es : List Expr, Expr.BracketedEach engine es →
    Expr.anyAggregates engine (Expr.asWrittenEach d es) = Expr.anyAggregates engine es
  | [], _ => rfl
  | e :: es, ⟨first, others⟩ => by
      rw [Expr.asWrittenEach, Expr.anyAggregates, Expr.aggregates_asWritten d e first,
        Expr.anyAggregates_asWritten d es others]
      rfl

theorem Expr.anyBranchAggregates_asWritten (d : Dialect) : ∀ branches : List (Expr × Expr),
    Expr.BracketedBranches engine branches →
      Expr.anyBranchAggregates engine (Expr.asWrittenBranches d branches) =
        Expr.anyBranchAggregates engine branches
  | [], _ => rfl
  | (condition, result) :: branches, ⟨first, second, others⟩ => by
      rw [Expr.asWrittenBranches, Expr.anyBranchAggregates, Expr.aggregates_asWritten d condition first,
        Expr.aggregates_asWritten d result second, Expr.anyBranchAggregates_asWritten d branches others]
      rfl

end

theorem SelectItem.any_asWrittenEach (d : Dialect) {items : List SelectItem}
    (bracketed : SelectItem.BracketedEach engine items) :
    (SelectItem.asWrittenEach d items).any (fun item => item.expr.aggregates engine) =
      items.any fun item => item.expr.aggregates engine := by
  induction items with
  | nil => rfl
  | cons item items ih =>
      obtain ⟨e, label⟩ := item
      obtain ⟨first, others⟩ := bracketed
      rw [SelectItem.asWrittenEach, List.any_cons, List.any_cons, ih others]
      simp only [Expr.aggregates_asWritten engine d e first]

theorem OrderItem.any_asWrittenEach (d : Dialect) {items : List OrderItem}
    (bracketed : OrderItem.BracketedEach engine items) :
    (OrderItem.asWrittenEach d items).any (fun item => item.expr.aggregates engine) =
      items.any fun item => item.expr.aggregates engine := by
  induction items with
  | nil => rfl
  | cons item items ih =>
      obtain ⟨e, direction, nulls⟩ := item
      obtain ⟨first, others⟩ := bracketed
      rw [OrderItem.asWrittenEach, List.any_cons, List.any_cons, ih others]
      simp only [Expr.aggregates_asWritten engine d e first]

/-- The written form of a query answers with groups if the query does. -/
theorem Query.isGrouped_asWritten (d : Dialect) {q : Query} (bracketed : q.Bracketed engine) :
    (q.asWritten d).isGrouped engine = q.isGrouped engine := by
  obtain ⟨select, distinct, source, joins, condition, groupBy, having, orderBy, limit, offset⟩ := q
  obtain ⟨selected, -, -, -, -, -, sorted⟩ := bracketed
  rw [Query.asWritten, Query.isGrouped, SelectItem.any_asWrittenEach engine d selected,
    OrderItem.any_asWrittenEach engine d sorted]
  cases groupBy <;> cases having <;> rfl

end

/-! ### The rows of a query before they are cut -/

namespace Query

variable (db : Database V) (outer : Scope V) (q : Query)

/-- The rows under construction: the groups that HAVING leaves, or the matching scopes. -/
def candidates : List (Candidate V) :=
  let kept := q.matching db outer
  let groups := if q.groupBy.isEmpty then [kept]
    else groupScopes db.engine (fun scope => Expr.evalEach db scope [] q.groupBy) kept
  if q.isGrouped db.engine then
    (groups.map fun group => (group.headD (q.joined db outer).absent, group)).filter fun (scope, group) =>
      db.engine.holds (Expr.evalOption db scope group q.having)
  else kept.map fun scope => (scope, [])

/-- The output rows in their order, before an offset and a limit cut them. -/
def records : List (Record V) :=
  let terms := q.orderBy.map fun item => (item.direction, item.nulls)
  let sorted := (db.engine.arrange q (q.candidates db outer)).mergeSort fun a b =>
    db.engine.sortsBeforeAll terms (OrderItem.keys db a.1 a.2 q.orderBy) (OrderItem.keys db b.1 b.2 q.orderBy)
  let rows := sorted.map fun (scope, group) => SelectItem.record db outer scope group q.select
  if q.distinct then rows.eraseDupsBy (sameRecord db.engine) else rows

theorem rows_answer : (q.answer db outer).rows = window q.limit q.offset (q.records db outer) := by
  obtain ⟨select, distinct, source, joins, condition, groupBy, having, orderBy, limit, offset⟩ := q
  simp only [answer, holds_evalOption]
  rfl

/-- Grouping makes no more groups than there are rows, but for the one group of no rows. -/
theorem length_candidates_le : (q.candidates db outer).length ≤ max 1 (q.matching db outer).length := by
  have grouped : (groupScopes db.engine (fun scope => Expr.evalEach db scope [] q.groupBy)
      (q.matching db outer)).length ≤ (q.matching db outer).length := by
    rw [groupScopes, List.length_map]
    exact length_eraseDupsBy_le _ _
  unfold candidates
  dsimp only
  split
  · refine Nat.le_trans (List.length_filter_le _ _) ?_
    rw [List.length_map]
    split
    · exact Nat.le_max_left _ _
    · exact Nat.le_trans grouped (Nat.le_max_right _ _)
  · rw [List.length_map]
    exact Nat.le_max_right _ _

theorem length_records_le : (q.records db outer).length ≤ max 1 (q.matching db outer).length := by
  refine Nat.le_trans ?_ (q.length_candidates_le db outer)
  have arranged := Nat.le_of_eq (db.engine.arrange_perm q (q.candidates db outer)).length_eq
  unfold records
  dsimp only
  split
  · refine Nat.le_trans (length_eraseDupsBy_le _ _) ?_
    rwa [List.length_map, List.length_mergeSort]
  · rwa [List.length_map, List.length_mergeSort]

/-- Where it stands for none, the limit that is meant cuts off no more rows. -/
theorem window_records {d : Dialect} (fits : q.Fits db d) :
    window (meantLimit d q.limit q.offset) q.offset (q.records db outer) =
      window q.limit q.offset (q.records db outer) := by
  refine window_meantLimit fun n limited started stands => ?_
  have positive : 1 ≤ n.toNat := by
    cases d <;> simp [unboundedLimit?] at stands
    subst stands
    decide
  refine Nat.le_trans (q.length_records_le db outer) ?_
  exact Nat.max_le.2 ⟨positive, fits n limited started stands outer⟩

end Query

/-! ### The meaning of the written form -/

section

variable {db : Database V} {d : Dialect}

namespace Expr

@[simp] theorem eval_guarded (scope : Scope V) (group : List (Scope V)) (wrap : Bool) (e : Expr) :
    (e.guarded wrap).eval db scope group = e.eval db scope group := by
  cases wrap <;> rfl

/-- An operation on operands in their parentheses has the value of the operation. -/
theorem eval_written (scope : Scope V) (group : List (Scope V)) (op : BinaryOp) (left right : Expr) :
    (op.written left right).eval db scope group =
      op.apply db.engine (left.eval db scope group) (right.eval db scope group) := by
  rw [← eval_binary]
  cases op with
  | and => exact eval_appendAnd scope group left right
  | or => exact eval_appendOr scope group left right
  | compare operator =>
      obtain ⟨negated, rfl, rfl, rfl, same⟩ | same := compared_cases operator left right <;>
        rw [BinaryOp.written, same]
      · exact (eval_inList_nil scope group (.int 1) negated).symm
      · rfl
  | like => rfl

/-- An operation is neither a star nor a column. -/
theorem shape_written (op : BinaryOp) (e f : Expr) :
    (op.written e f).star? = none ∧ (op.written e f).columnName = "" := by
  cases op with
  | and =>
      rw [BinaryOp.written]
      unfold appendAnd
      split <;> exact ⟨rfl, rfl⟩
  | or =>
      rw [BinaryOp.written]
      unfold appendOr
      split <;> exact ⟨rfl, rfl⟩
  | compare operator =>
      rw [BinaryOp.written]
      unfold compared
      split <;> exact ⟨rfl, rfl⟩
  | like => exact ⟨rfl, rfl⟩

@[simp] theorem star?_asWritten (d : Dialect) (e : Expr) : (e.asWritten d).star? = e.star? := by
  cases e with
  | binary op left right => exact (shape_written op _ _).1
  | existsQuery query negated => cases negated <;> rfl
  | inList operand values negated => cases values <;> rfl
  | _ => rfl

@[simp] theorem columnName_asWritten (d : Dialect) (e : Expr) :
    (e.asWritten d).columnName = e.columnName := by
  cases e with
  | binary op left right => exact (shape_written op _ _).2
  | existsQuery query negated => cases negated <;> rfl
  | inList operand values negated => cases values <;> rfl
  | _ => rfl

end Expr

theorem TableRef.exposedName_asWritten (d : Dialect) (table : TableRef) :
    (table.asWritten d).exposedName = table.exposedName := by
  obtain ⟨source, label⟩ := table
  cases source <;> cases label <;> rfl

theorem OrderItem.terms_asWrittenEach (d : Dialect) (items : List OrderItem) :
    (OrderItem.asWrittenEach d items).map (fun item => (item.direction, item.nulls)) =
      items.map fun item => (item.direction, item.nulls) := by
  induction items with
  | nil => rfl
  | cons item items ih =>
      obtain ⟨e, direction, nulls⟩ := item
      rw [OrderItem.asWrittenEach, List.map_cons, List.map_cons, ih]

/-- The written form of a query answers as the query if the written forms of its parts do. -/
theorem Query.answer_asWritten_of {q : Query} (bracketed : q.Bracketed db.engine)
    (sees : db.engine.SeesTokens d) (fits : q.Fits db d) (outer : Scope V)
    (joined : (q.asWritten d).joined db outer = q.joined db outer)
    (condition : ∀ scope, conditionTruth db scope (q.asWritten d).condition =
      conditionTruth db scope q.condition)
    (keys : ∀ scope, Expr.evalEach db scope [] (q.asWritten d).groupBy = Expr.evalEach db scope [] q.groupBy)
    (having : ∀ scope group, Expr.evalOption db scope group (q.asWritten d).having =
      Expr.evalOption db scope group q.having)
    (sorted : ∀ scope group, OrderItem.keys db scope group (q.asWritten d).orderBy =
      OrderItem.keys db scope group q.orderBy)
    (selected : ∀ scope group, SelectItem.record db outer scope group (q.asWritten d).select =
      SelectItem.record db outer scope group q.select) :
    (q.asWritten d).answer db outer = q.answer db outer := by
  have arranged : db.engine.arrange (q.asWritten d) = db.engine.arrange q :=
    sees _ _ (Query.tokens_asWritten d q)
  have matching : (q.asWritten d).matching db outer = q.matching db outer := by
    simp only [Query.matching, joined, condition]
  have ungrouped : (q.asWritten d).groupBy.isEmpty = q.groupBy.isEmpty := by
    obtain ⟨select, distinct, source, joins, condition, groupBy, having, orderBy, limit, offset⟩ := q
    cases groupBy <;> rfl
  have candidates : (q.asWritten d).candidates db outer = q.candidates db outer := by
    simp only [Query.candidates, matching, ungrouped, keys, having, joined,
      Query.isGrouped_asWritten db.engine d bracketed]
  have kept : (q.asWritten d).distinct = q.distinct ∧ (q.asWritten d).offset = q.offset ∧
      (q.asWritten d).limit = meantLimit d q.limit q.offset ∧
      (q.asWritten d).orderBy = OrderItem.asWrittenEach d q.orderBy := by
    cases q
    exact ⟨rfl, rfl, rfl, rfl⟩
  obtain ⟨distinct, offset, limit, orderBy⟩ := kept
  have terms : (q.asWritten d).orderBy.map (fun item => (item.direction, item.nulls)) =
      q.orderBy.map fun item => (item.direction, item.nulls) := by
    rw [orderBy, OrderItem.terms_asWrittenEach]
  have records : (q.asWritten d).records db outer = q.records db outer := by
    simp only [Query.records, candidates, arranged, terms, sorted, selected, distinct]
  have columns : ((q.asWritten d).answer db outer).columns = (q.answer db outer).columns := by
    rw [columns_answer, columns_answer, joined, selected]
  have rows : ((q.asWritten d).answer db outer).rows = (q.answer db outer).rows := by
    rw [Query.rows_answer, Query.rows_answer, records, limit, offset, q.window_records db outer fits]
  change Instance.mk _ _ = Instance.mk _ _
  rw [columns, rows]

end

section

variable {db : Database V} {d : Dialect}

mutual

/-- The written form of an expression has the value of the expression. -/
theorem Expr.eval_asWritten (sees : db.engine.SeesTokens d) : ∀ e : Expr, e.Bracketed db.engine →
    (∀ q ∈ e.queries, q.Fits db d) →
      ∀ scope group, (e.asWritten d).eval db scope group = e.eval db scope group
  | .column _ _, _, _, _, _ => rfl
  | .literal _, _, _, _, _ => rfl
  | .param _, _, _, _, _ => rfl
  | .star _, _, _, _, _ => rfl
  | .binary op left right, ⟨_, first, second⟩, fits, scope, group => by
      obtain ⟨fitsLeft, fitsRight⟩ := List.forall_mem_append.1 fits
      rw [Expr.asWritten, Expr.eval_written, Expr.eval_guarded, Expr.eval_guarded,
        Expr.eval_asWritten sees left first fitsLeft, Expr.eval_asWritten sees right second fitsRight,
        Expr.eval_binary]
  | .not operand, bracketed, fits, scope, group => by
      rw [Expr.asWritten, Expr.eval_not, Expr.eval_guarded,
        Expr.eval_asWritten sees operand bracketed fits, Expr.eval_not]
  | .isNull operand negated, ⟨_, bracketed⟩, fits, scope, group => by
      rw [Expr.asWritten, Expr.eval_isNull, Expr.eval_asWritten sees operand bracketed fits,
        Expr.eval_isNull]
  | .paren inner, bracketed, fits, scope, group => Expr.eval_asWritten sees inner bracketed fits scope group
  | .call function arguments distinct, bracketed, fits, scope, group => by
      have values := Expr.evalEach_asWritten sees arguments bracketed fits
      simp only [Expr.asWritten, Expr.eval, values]
  | .caseWhen subject branches otherwise, ⟨first, second, third⟩, fits, scope, group => by
      obtain ⟨fitsFirst, fitsOtherwise⟩ := List.forall_mem_append.1 fits
      obtain ⟨fitsSubject, fitsBranches⟩ := List.forall_mem_append.1 fitsFirst
      rw [Expr.asWritten, Expr.eval_caseWhen, Expr.evalOption_asWritten sees subject first fitsSubject,
        Expr.evalOption_asWritten sees otherwise third fitsOtherwise,
        Expr.evalBranches_asWritten sees branches second fitsBranches, Expr.eval_caseWhen]
  | .subquery query, bracketed, fits, scope, group => by
      simp only [Expr.asWritten, Expr.eval, Query.answer_asWritten sees query bracketed fits scope]
  | .existsQuery query false, bracketed, fits, scope, group => by
      rw [Expr.asWritten, Expr.eval_existsQuery, Query.answer_asWritten sees query bracketed fits,
        Expr.eval_existsQuery]
  | .existsQuery query true, bracketed, fits, scope, group => by
      rw [Expr.asWritten, Expr.eval_not_existsQuery, Expr.eval_existsQuery,
        Query.answer_asWritten sees query bracketed fits, Expr.eval_existsQuery]
  | .inList _ [] _, _, _, _, _ => rfl
  | .inList operand (value :: values) negated, ⟨_, first, second, third⟩, fits, scope, group => by
      obtain ⟨fitsOperand, fitsValues⟩ := List.forall_mem_append.1 fits
      obtain ⟨fitsValue, fitsOthers⟩ := List.forall_mem_append.1 fitsValues
      rw [Expr.asWritten, Expr.eval_inList, Expr.evalEach_cons,
        Expr.eval_asWritten sees operand first fitsOperand, Expr.eval_asWritten sees value second fitsValue,
        Expr.evalEach_asWritten sees values third fitsOthers, Expr.eval_inList, Expr.evalEach_cons]
  | .inQuery operand query negated, ⟨_, first, second⟩, fits, scope, group => by
      obtain ⟨fitsOperand, fitsQuery⟩ := List.forall_mem_append.1 fits
      rw [Expr.asWritten, Expr.eval_inQuery, Expr.eval_asWritten sees operand first fitsOperand,
        Query.answer_asWritten sees query second fitsQuery, Expr.eval_inQuery]
  | .likeEscape operand pattern escape negated, ⟨_, _, first, second⟩, fits, scope, group => by
      obtain ⟨fitsOperand, fitsPattern⟩ := List.forall_mem_append.1 fits
      rw [Expr.asWritten, Expr.eval_likeEscape, Expr.eval_asWritten sees operand first fitsOperand,
        Expr.eval_asWritten sees pattern second fitsPattern, Expr.eval_likeEscape]

theorem Expr.evalEach_asWritten (sees : db.engine.SeesTokens d) : ∀ es : List Expr,
    Expr.BracketedEach db.engine es → (∀ q ∈ Expr.queriesOfEach es, q.Fits db d) →
      ∀ scope group, Expr.evalEach db scope group (Expr.asWrittenEach d es) = Expr.evalEach db scope group es
  | [], _, _, _, _ => rfl
  | e :: es, ⟨first, others⟩, fits, scope, group => by
      obtain ⟨fitsFirst, fitsOthers⟩ := List.forall_mem_append.1 fits
      rw [Expr.asWrittenEach, Expr.evalEach_cons, Expr.eval_asWritten sees e first fitsFirst,
        Expr.evalEach_asWritten sees es others fitsOthers, Expr.evalEach_cons]

theorem Expr.evalOption_asWritten (sees : db.engine.SeesTokens d) : ∀ condition : Option Expr,
    Expr.BracketedOption db.engine condition → (∀ q ∈ Expr.queriesOfOption condition, q.Fits db d) →
      ∀ scope group, Expr.evalOption db scope group (Expr.asWrittenOption d condition) =
        Expr.evalOption db scope group condition
  | none, _, _, _, _ => rfl
  | some e, bracketed, fits, scope, group =>
    congrArg some (Expr.eval_asWritten sees e bracketed fits scope group)

theorem Expr.evalBranches_asWritten (sees : db.engine.SeesTokens d) : ∀ branches : List (Expr × Expr),
    Expr.BracketedBranches db.engine branches → (∀ q ∈ Expr.queriesOfBranches branches, q.Fits db d) →
      ∀ scope group subject fallback,
        Expr.evalBranches db scope group subject fallback (Expr.asWrittenBranches d branches) =
          Expr.evalBranches db scope group subject fallback branches
  | [], _, _, _, _, _, _ => rfl
  | (condition, result) :: branches, ⟨first, second, others⟩, fits, scope, group, subject, fallback => by
      obtain ⟨fitsFirst, fitsOthers⟩ := List.forall_mem_append.1 fits
      obtain ⟨fitsCondition, fitsResult⟩ := List.forall_mem_append.1 fitsFirst
      simp only [Expr.asWrittenBranches, Expr.evalBranches,
        Expr.eval_asWritten sees condition first fitsCondition,
        Expr.eval_asWritten sees result second fitsResult,
        Expr.evalBranches_asWritten sees branches others fitsOthers]

theorem TableRef.contents_asWritten (sees : db.engine.SeesTokens d) : ∀ table : TableRef,
    table.Bracketed db.engine → (∀ q ∈ table.queries, q.Fits db d) →
      ∀ outer, (table.asWritten d).contents db outer = table.contents db outer
  | ⟨.stored _ _, _⟩, _, _, _ => rfl
  | ⟨.derived query, _⟩, bracketed, fits, outer => Query.answer_asWritten sees query bracketed fits outer

theorem TableRef.start_asWritten (sees : db.engine.SeesTokens d) : ∀ source : Option TableRef,
    TableRef.BracketedOption db.engine source → (∀ q ∈ TableRef.queriesOfOption source, q.Fits db d) →
      ∀ outer, TableRef.start db outer (TableRef.asWrittenOption d source) = TableRef.start db outer source
  | none, _, _, _ => rfl
  | some table, bracketed, fits, outer => by
      rw [TableRef.asWrittenOption, TableRef.start_some, TableRef.exposedName_asWritten,
        TableRef.contents_asWritten sees table bracketed fits, TableRef.start_some]

theorem Join.combineAll_asWritten (sees : db.engine.SeesTokens d) : ∀ joins : List Join,
    Join.BracketedEach db.engine joins → (∀ q ∈ Join.queriesOfEach joins, q.Fits db d) →
      ∀ outer joined, Join.combineAll db outer joined (Join.asWrittenEach d joins) =
        Join.combineAll db outer joined joins
  | [], _, _, _, _ => rfl
  | ⟨_, table, condition⟩ :: joins, ⟨first, second, others⟩, fits, outer, joined => by
      obtain ⟨fitsFirst, fitsOthers⟩ := List.forall_mem_append.1 fits
      obtain ⟨fitsTable, fitsCondition⟩ := List.forall_mem_append.1 fitsFirst
      have contents := TableRef.contents_asWritten sees table first fitsTable outer
      have holds := Expr.evalOption_asWritten sees condition second fitsCondition
      rw [Join.asWrittenEach, Join.combineAll_cons, Join.combineAll_cons, contents,
        TableRef.exposedName_asWritten]
      simp only [holds]
      exact Join.combineAll_asWritten sees joins others fitsOthers outer _

theorem SelectItem.record_asWritten (sees : db.engine.SeesTokens d) : ∀ items : List SelectItem,
    SelectItem.BracketedEach db.engine items → (∀ q ∈ SelectItem.queriesOfEach items, q.Fits db d) →
      ∀ outer scope group, SelectItem.record db outer scope group (SelectItem.asWrittenEach d items) =
        SelectItem.record db outer scope group items
  | [], _, _, _, _, _ => rfl
  | ⟨e, label⟩ :: items, ⟨first, others⟩, fits, outer, scope, group => by
      obtain ⟨fitsFirst, fitsOthers⟩ := List.forall_mem_append.1 fits
      rw [SelectItem.asWrittenEach, SelectItem.record_cons, SelectItem.record_cons, Expr.star?_asWritten,
        Expr.columnName_asWritten, Expr.eval_asWritten sees e first fitsFirst,
        SelectItem.record_asWritten sees items others fitsOthers]

theorem OrderItem.keys_asWritten (sees : db.engine.SeesTokens d) : ∀ items : List OrderItem,
    OrderItem.BracketedEach db.engine items → (∀ q ∈ OrderItem.queriesOfEach items, q.Fits db d) →
      ∀ scope group, OrderItem.keys db scope group (OrderItem.asWrittenEach d items) =
        OrderItem.keys db scope group items
  | [], _, _, _, _ => rfl
  | ⟨e, _, _⟩ :: items, ⟨first, others⟩, fits, scope, group => by
      obtain ⟨fitsFirst, fitsOthers⟩ := List.forall_mem_append.1 fits
      rw [OrderItem.asWrittenEach, OrderItem.keys_cons, OrderItem.keys_cons,
        Expr.eval_asWritten sees e first fitsFirst, OrderItem.keys_asWritten sees items others fitsOthers]

/-- The written form of a query has the answer of the query. -/
theorem Query.answer_asWritten (sees : db.engine.SeesTokens d) : ∀ q : Query, q.Bracketed db.engine →
    (∀ r ∈ q.queries, r.Fits db d) → ∀ outer, (q.asWritten d).answer db outer = q.answer db outer
  | ⟨select, distinct, source, joins, condition, groupBy, having, orderBy, limit, offset⟩,
      bracketed, fits, outer => by
      have parts := bracketed
      obtain ⟨ofSelect, ofSource, ofJoins, ofCondition, ofGroupBy, ofHaving, ofOrderBy⟩ := parts
      have fitsInside := fits
      simp only [Query.queries, List.forall_mem_cons, List.forall_mem_append] at fitsInside
      obtain ⟨itself, ⟨⟨⟨⟨⟨fitsSelect, fitsSource⟩, fitsJoins⟩, fitsCondition⟩, fitsGroupBy⟩, fitsHaving⟩,
        fitsOrderBy⟩ := fitsInside
      refine Query.answer_asWritten_of bracketed sees itself outer ?_ ?_ ?_ ?_ ?_ ?_
      · have start := TableRef.start_asWritten sees source ofSource fitsSource outer
        have joined := Join.combineAll_asWritten sees joins ofJoins fitsJoins outer
        simp only [Query.joined, Query.asWritten, start, joined]
      · intro scope
        have same := Expr.evalOption_asWritten sees condition ofCondition fitsCondition scope []
        cases condition with
        | none => rfl
        | some e => exact congrArg db.engine.truth (Option.some.inj same)
      · exact fun scope => Expr.evalEach_asWritten sees groupBy ofGroupBy fitsGroupBy scope []
      · exact Expr.evalOption_asWritten sees having ofHaving fitsHaving
      · exact OrderItem.keys_asWritten sees orderBy ofOrderBy fitsOrderBy
      · exact SelectItem.record_asWritten sees select ofSelect fitsSelect outer

end

end

end RelQuery.Sql
