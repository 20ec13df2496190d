/-
Module: RelQuery.Proofs.Sql.AsWritten
Purpose: The form in which tokens show an expression or a query. The parentheses that are written around an
  operand belong to it, repeated ANDs and ORs are grouped to the left, NOT EXISTS is the negation of EXISTS,
  a membership in the empty list has lost its operand, and a limit that stands for none is none. The form
  has the tokens of the expression itself.
Main exports: Expr.tightness, Expr.guarded, Expr.asWritten, Query.asWritten, Expr.tokens_asWritten,
  Query.tokens_asWritten
-/
import RelQuery.Proofs.Sql.Constructs
import RelQuery.Proofs.Sql.ReadExpr

namespace RelQuery.Sql

/-! ### Holding together -/

/-- How tightly the spelling of an expression holds together: as a disjunction, a conjunction, a negation,
    a comparison or another test, or an operand. -/
def Expr.tightness : Expr → Nat
  | .binary .or _ _ => 1
  | .binary .and _ _ => 2
  | .not _ => 3
  | .existsQuery _ true => 3
  | .binary _ _ _ => 4
  | .isNull _ _ => 4
  | .inList _ _ _ => 4
  | .inQuery _ _ _ => 4
  | .likeEscape _ _ _ _ => 4
  | _ => 5

/-- An expression in parentheses if the flag is set. -/
def Expr.guarded (wrap : Bool) (e : Expr) : Expr := if wrap then .paren e else e

/-- A comparison. The one that is written for a membership in the empty list is such a membership. -/
def Expr.compared : Comparison → Expr → Expr → Expr
  | .eq, .literal (.int 1), .literal (.int 0) => .inList (.int 1) [] false
  | .eq, .literal (.int 1), .literal (.int 1) => .inList (.int 1) [] true
  | operator, left, right => .compare operator left right

/-- A binary operation on operands that stand in their parentheses. -/
def BinaryOp.written : BinaryOp → Expr → Expr → Expr
  | .and, left, right => left.appendAnd right
  | .or, left, right => left.appendOr right
  | .compare operator, left, right => Expr.compared operator left right
  | .like, left, right => .binary .like left right

/-- The operands of a comparison or a LIKE hold together, with the parentheses that are written around
    them: the left one at least as a test, the right one as an operand. -/
def BinaryOp.Separates (op : BinaryOp) (left right : Expr) : Prop :=
  match op with
  | .and => True
  | .or => True
  | op => 4 ≤ (left.guarded (op.parenthesizes false left)).tightness ∧
      (right.guarded (op.parenthesizes true right)).tightness = 5

/-! ### The written form -/

mutual

/-- The form in which the tokens of an expression show it. -/
def Expr.asWritten (d : Dialect) : Expr → Expr
  | .column qualifier name => .column qualifier name
  | .literal value => .literal value
  | .param value => .param value
  | .star qualifier => .star qualifier
  | .binary op left right =>
    op.written ((left.asWritten d).guarded (op.parenthesizes false left))
      ((right.asWritten d).guarded (op.parenthesizes true right))
  | .not operand => .not ((operand.asWritten d).guarded operand.isBinary)
  | .isNull operand negated => .isNull (operand.asWritten d) negated
  | .paren inner => .paren (inner.asWritten d)
  | .call function arguments distinct => .call function (Expr.asWrittenEach d arguments) distinct
  | .caseWhen subject branches otherwise =>
    .caseWhen (Expr.asWrittenOption d subject) (Expr.asWrittenBranches d branches)
      (Expr.asWrittenOption d otherwise)
  | .subquery query => .subquery (query.asWritten d)
  | .existsQuery query false => .existsQuery (query.asWritten d) false
  | .existsQuery query true => .not (.existsQuery (query.asWritten d) false)
  | .inList _ [] negated => .inList (.int 1) [] negated
  | .inList operand (value :: values) negated =>
    .inList (operand.asWritten d) (value.asWritten d :: Expr.asWrittenEach d values) negated
  | .inQuery operand query negated => .inQuery (operand.asWritten d) (query.asWritten d) negated
  | .likeEscape operand pattern escape negated =>
    .likeEscape (operand.asWritten d) (pattern.asWritten d) escape negated

/-- The written forms of a list of expressions. -/
def Expr.asWrittenEach (d : Dialect) : List Expr → List Expr
  | [] => []
  | e :: es => e.asWritten d :: Expr.asWrittenEach d es

/-- The written form of an expression that may be missing. -/
def Expr.asWrittenOption (d : Dialect) : Option Expr → Option Expr
  | none => none
  | some e => some (e.asWritten d)

/-- The written forms of the branches of a case distinction. -/
def Expr.asWrittenBranches (d : Dialect) : List (Expr × Expr) → List (Expr × Expr)
  | [] => []
  | (condition, result) :: branches =>
    (condition.asWritten d, result.asWritten d) :: Expr.asWrittenBranches d branches

/-- The written form of a table occurrence. -/
def TableRef.asWritten (d : Dialect) : TableRef → TableRef
  | ⟨.stored schema name, label⟩ => ⟨.stored schema name, label⟩
  | ⟨.derived query, label⟩ => ⟨.derived (query.asWritten d), label⟩

/-- The written form of an item that may be missing. -/
def TableRef.asWrittenOption (d : Dialect) : Option TableRef → Option TableRef
  | none => none
  | some table => some (table.asWritten d)

/-- The written forms of joins. -/
def Join.asWrittenEach (d : Dialect) : List Join → List Join
  | [] => []
  | ⟨kind, table, condition⟩ :: joins =>
    ⟨kind, table.asWritten d, Expr.asWrittenOption d condition⟩ :: Join.asWrittenEach d joins

/-- The written forms of the items of a SELECT list. -/
def SelectItem.asWrittenEach (d : Dialect) : List SelectItem → List SelectItem
  | [] => []
  | ⟨e, label⟩ :: items => ⟨e.asWritten d, label⟩ :: SelectItem.asWrittenEach d items

/-- The written forms of the items of an ORDER BY list. -/
def OrderItem.asWrittenEach (d : Dialect) : List OrderItem → List OrderItem
  | [] => []
  | ⟨e, direction, nulls⟩ :: items => ⟨e.asWritten d, direction, nulls⟩ :: OrderItem.asWrittenEach d items

/-- The form in which the tokens of a query show it. -/
def Query.asWritten (d : Dialect) : Query → Query
  | ⟨select, distinct, source, joins, condition, groupBy, having, orderBy, limit, offset⟩ =>
    ⟨SelectItem.asWrittenEach d select, distinct, TableRef.asWrittenOption d source,
      Join.asWrittenEach d joins, Expr.asWrittenOption d condition, Expr.asWrittenEach d groupBy,
      Expr.asWrittenOption d having, OrderItem.asWrittenEach d orderBy, meantLimit d limit offset, offset⟩

end

/-! ### Operands in their parentheses -/

namespace Expr

@[simp] theorem guarded_false (e : Expr) : e.guarded false = e := rfl

@[simp] theorem tokens_guarded (d : Dialect) (wrap : Bool) (e : Expr) :
    (e.guarded wrap).tokens d = parenthesizedIf wrap (e.tokens d) := by
  cases wrap <;> rfl

/-- Parentheses are the same whether they are put around an expression or around its written form. -/
theorem asWritten_guarded (d : Dialect) (wrap : Bool) (e : Expr) :
    (e.guarded wrap).asWritten d = (e.asWritten d).guarded wrap := by
  cases wrap <;> rfl

theorem tightness_guarded (wrap : Bool) (e : Expr) :
    (e.guarded wrap).tightness = if wrap then 5 else e.tightness := by
  cases wrap <;> rfl

/-- Whether a comparison stands for a membership does not matter to what is said of both. -/
theorem compared_cases (operator : Comparison) (left right : Expr) :
    (∃ negated : Bool, operator = .eq ∧ left = .int 1 ∧ right = .int (if negated then 1 else 0) ∧
      compared operator left right = .inList (.int 1) [] negated) ∨
    compared operator left right = .compare operator left right := by
  unfold compared
  split
  · exact .inl ⟨false, rfl, rfl, rfl, rfl⟩
  · exact .inl ⟨true, rfl, rfl, rfl, rfl⟩
  · exact .inr rfl

/-- A membership in the empty list is written as the comparison that stands for it. -/
theorem compared_constants (negated : Bool) :
    compared .eq (.int 1) (.int (if negated then 1 else 0)) = .inList (.int 1) [] negated := by
  cases negated <;> rfl

@[simp] theorem tightness_appendAnd (e f : Expr) : (e.appendAnd f).tightness = 2 := by
  unfold appendAnd
  split <;> rfl

@[simp] theorem tightness_appendOr (e f : Expr) : (e.appendOr f).tightness = 1 := by
  unfold appendOr
  split <;> rfl

@[simp] theorem tightness_compared (operator : Comparison) (left right : Expr) :
    (compared operator left right).tightness = 4 := by
  obtain ⟨negated, -, -, -, same⟩ | same := compared_cases operator left right <;> rw [same] <;> rfl

/-- The written form holds together as tightly. -/
@[simp] theorem tightness_asWritten (d : Dialect) (e : Expr) : (e.asWritten d).tightness = e.tightness := by
  cases e with
  | binary op left right =>
      rw [asWritten]
      cases op with
      | and => exact tightness_appendAnd _ _
      | or => exact tightness_appendOr _ _
      | compare operator => exact tightness_compared operator _ _
      | like => rfl
  | existsQuery query negated => cases negated <;> rfl
  | inList operand values negated => cases values <;> rfl
  | _ => rfl

theorem appendAnd_of_tightness {e f : Expr} (apart : f.tightness ≠ 2) : e.appendAnd f = e.and f := by
  unfold appendAnd
  split
  · contradiction
  · rfl

theorem appendOr_of_tightness {e f : Expr} (apart : f.tightness ≠ 1) : e.appendOr f = e.or f := by
  unfold appendOr
  split
  · contradiction
  · rfl

/-! ### Parentheses of the written form -/

theorem parenthesizes_appendAnd (op : BinaryOp) (isRight : Bool) (e f g h : Expr) :
    op.parenthesizes isRight (e.appendAnd f) = op.parenthesizes isRight (.binary .and g h) := by
  unfold appendAnd
  split <;> rfl

theorem parenthesizes_appendOr (op : BinaryOp) (isRight : Bool) (e f g h : Expr) :
    op.parenthesizes isRight (e.appendOr f) = op.parenthesizes isRight (.binary .or g h) := by
  unfold appendOr
  split <;> rfl

/-- The written form of an operation is an operation of the kind, or it needs no parentheses at all. -/
theorem parenthesizes_written (op operator : BinaryOp) (isRight : Bool) {e f g h : Expr}
    (bare : op.parenthesizes isRight (.binary operator g h) = false) :
    op.parenthesizes isRight (operator.written e f) = false := by
  cases operator with
  | and => rwa [BinaryOp.written, parenthesizes_appendAnd op isRight e f g h]
  | or => rwa [BinaryOp.written, parenthesizes_appendOr op isRight e f g h]
  | compare comparison =>
      obtain ⟨negated, -, -, -, same⟩ | same := compared_cases comparison e f <;> rw [BinaryOp.written, same]
      · rfl
      · exact bare
  | like => exact bare

/-- An operand that stands in its parentheses gets no more of them. -/
theorem parenthesizes_guarded (d : Dialect) (op : BinaryOp) (isRight : Bool) (e : Expr) :
    op.parenthesizes isRight ((e.asWritten d).guarded (op.parenthesizes isRight e)) = false := by
  cases wraps : op.parenthesizes isRight e with
  | true => rfl
  | false =>
      rw [guarded_false]
      cases e with
      | binary operator left right =>
          rw [asWritten]
          exact parenthesizes_written op operator isRight wraps
      | existsQuery query negated => cases negated <;> rfl
      | inList operand values negated => cases values <;> rfl
      | _ => rfl

theorem isBinary_guarded (d : Dialect) (e : Expr) : ((e.asWritten d).guarded e.isBinary).isBinary = false := by
  cases e with
  | existsQuery query negated => cases negated <;> rfl
  | inList operand values negated => cases values <;> rfl
  | _ => rfl

/-! ### Tokens of operations -/

/-- Where an operand stands decides nothing about its parentheses under AND. -/
theorem parenthesizes_and_right (e : Expr) :
    BinaryOp.and.parenthesizes true e = BinaryOp.and.parenthesizes false e := by
  rw [parenthesizes_and, parenthesizes_and]

/-- Conjuncts are written one after the other, however they are grouped. -/
theorem tokens_appendAnd (d : Dialect) (e f : Expr) :
    (e.appendAnd f).tokens d = (e.and f).tokens d := by
  fun_induction appendAnd e f with
  | case1 f g ih =>
      have plain : ∀ a b : Expr, BinaryOp.and.parenthesizes false (.binary .and a b) = false := fun _ _ => rfl
      simp only [Expr.and, tokens, parenthesizes_appendAnd _ _ e f e f, parenthesizes_and_right, plain, ih,
        parenthesizedIf, Bool.false_eq_true, if_false, List.append_assoc, List.cons_append]
  | case2 f other => rfl

/-- Disjuncts are written one after the other, however they are grouped. -/
theorem tokens_appendOr (d : Dialect) (e f : Expr) :
    (e.appendOr f).tokens d = (e.or f).tokens d := by
  fun_induction appendOr e f with
  | case1 f g ih =>
      simp only [Expr.or, tokens, parenthesizes_or, ih, parenthesizedIf, Bool.false_eq_true, if_false,
        List.append_assoc, List.cons_append]
  | case2 f other => rfl

theorem tokens_compared (d : Dialect) (operator : Comparison) (left right : Expr) :
    (compared operator left right).tokens d = (compare operator left right).tokens d := by
  obtain ⟨negated, rfl, rfl, rfl, same⟩ | same := compared_cases operator left right <;> rw [same]
  cases negated <;> rfl

/-- An operation on operands in their parentheses has the tokens of the operation. -/
theorem tokens_written (d : Dialect) (op : BinaryOp) {left right : Expr}
    (bareLeft : op.parenthesizes false left = false) (bareRight : op.parenthesizes true right = false) :
    (op.written left right).tokens d = left.tokens d ++ .space :: op.token :: .space :: right.tokens d := by
  have spelled : (Expr.binary op left right).tokens d =
      left.tokens d ++ .space :: op.token :: .space :: right.tokens d := by
    rw [tokens, bareLeft, bareRight]
    rfl
  rw [← spelled]
  cases op with
  | and => exact tokens_appendAnd d left right
  | or => exact tokens_appendOr d left right
  | compare operator => exact tokens_compared d operator left right
  | like => rfl

end Expr

/-! ### Tokens of the written form -/

/-- The limit that is meant is written as the limit is. -/
theorem tokens_meantLimit (d : Dialect) (limit offset : Option UInt64) :
    topTokens? d (meantLimit d limit offset) offset = topTokens? d limit offset ∧
      limitTokens d (meantLimit d limit offset) offset = limitTokens d limit offset ∧
      ((meantLimit d limit offset).isSome || offset.isSome) = (limit.isSome || offset.isSome) := by
  cases limit with
  | none => exact ⟨rfl, rfl, rfl⟩
  | some n =>
      cases offset with
      | none => exact ⟨rfl, rfl, rfl⟩
      | some start =>
          rw [meantLimit]
          split
          · rename_i stands
            refine ⟨by cases d <;> rfl, ?_, rfl⟩
            cases d <;> simp [unboundedLimit?] at stands
            subst stands
            rfl
          · exact ⟨rfl, rfl, rfl⟩

/-- The tokens of the clauses that sort and cut are those of the clauses with the limit that is meant. -/
theorem orderAndLimitTokens_meantLimit (d : Dialect) (orderBy : List (List Token))
    (limit offset : Option UInt64) :
    orderAndLimitTokens d orderBy (meantLimit d limit offset) offset =
      orderAndLimitTokens d orderBy limit offset := by
  obtain ⟨top, trailing, present⟩ := tokens_meantLimit d limit offset
  rw [orderAndLimitTokens, orderAndLimitTokens, top, trailing, present]

mutual

/-- The written form of an expression has the tokens of the expression. -/
theorem Expr.tokens_asWritten (d : Dialect) : ∀ e : Expr, (e.asWritten d).tokens d = e.tokens d
  | .column _ _ => rfl
  | .literal _ => rfl
  | .param _ => rfl
  | .star _ => rfl
  | .binary op left right => by
      rw [Expr.asWritten, Expr.tokens_written d op (Expr.parenthesizes_guarded d op false left)
        (Expr.parenthesizes_guarded d op true right), Expr.tokens_guarded, Expr.tokens_guarded,
        Expr.tokens_asWritten d left, Expr.tokens_asWritten d right]
      rfl
  | .not operand => by
      rw [Expr.asWritten, Expr.tokens, Expr.isBinary_guarded, Expr.tokens_guarded,
        Expr.tokens_asWritten d operand]
      rfl
  | .isNull operand negated => by
      rw [Expr.asWritten, Expr.tokens, Expr.tokens_asWritten d operand]
      rfl
  | .paren inner => by
      rw [Expr.asWritten, Expr.tokens, Expr.tokens_asWritten d inner]
      rfl
  | .call function arguments distinct => by
      rw [Expr.asWritten, Expr.tokens, Expr.tokensOfEach_asWritten d arguments]
      rfl
  | .caseWhen subject branches otherwise => by
      cases subject <;> cases otherwise <;>
        simp only [Expr.asWritten, Expr.asWrittenOption, Expr.tokens, Expr.tokens_asWritten d,
          Expr.tokensOfBranches_asWritten d branches]
  | .subquery query => by
      rw [Expr.asWritten, Expr.tokens, Query.tokens_asWritten d query]
      rfl
  | .existsQuery query false => by
      rw [Expr.asWritten, Expr.tokens, Query.tokens_asWritten d query]
      rfl
  | .existsQuery query true => by
      rw [Expr.asWritten, Expr.tokens, Expr.tokens, Query.tokens_asWritten d query]
      rfl
  | .inList _ [] _ => rfl
  | .inList operand (value :: values) negated => by
      rw [Expr.asWritten, Expr.tokens, Expr.tokens_asWritten d operand, Expr.tokens_asWritten d value,
        Expr.tokensOfEach_asWritten d values]
      rfl
  | .inQuery operand query negated => by
      rw [Expr.asWritten, Expr.tokens, Expr.tokens_asWritten d operand, Query.tokens_asWritten d query]
      rfl
  | .likeEscape operand pattern escape negated => by
      rw [Expr.asWritten, Expr.tokens, Expr.tokens_asWritten d operand, Expr.tokens_asWritten d pattern]
      rfl

theorem Expr.tokensOfEach_asWritten (d : Dialect) : ∀ es : List Expr,
    Expr.tokensOfEach d (Expr.asWrittenEach d es) = Expr.tokensOfEach d es
  | [] => rfl
  | e :: es => by
      rw [Expr.asWrittenEach, Expr.tokensOfEach, Expr.tokens_asWritten d e, Expr.tokensOfEach_asWritten d es]
      rfl

theorem Expr.tokensOfOption_asWritten (d : Dialect) : ∀ condition : Option Expr,
    (Expr.asWrittenOption d condition).map (Expr.tokens d) = condition.map (Expr.tokens d)
  | none => rfl
  | some e => congrArg some (Expr.tokens_asWritten d e)

theorem Expr.tokensOfBranches_asWritten (d : Dialect) : ∀ branches : List (Expr × Expr),
    Expr.tokensOfBranches d (Expr.asWrittenBranches d branches) = Expr.tokensOfBranches d branches
  | [] => rfl
  | (condition, result) :: branches => by
      rw [Expr.asWrittenBranches, Expr.tokensOfBranches, Expr.tokens_asWritten d condition,
        Expr.tokens_asWritten d result, Expr.tokensOfBranches_asWritten d branches]
      rfl

theorem TableRef.tokens_asWritten (d : Dialect) : ∀ table : TableRef,
    (table.asWritten d).tokens d = table.tokens d
  | ⟨.stored _ _, _⟩ => rfl
  | ⟨.derived query, label⟩ => by
      rw [TableRef.asWritten, TableRef.tokens, TableSource.tokens, Query.tokens_asWritten d query]
      rfl

theorem TableRef.tokensOfOption_asWritten (d : Dialect) : ∀ source : Option TableRef,
    (TableRef.asWrittenOption d source).map (TableRef.tokens d) = source.map (TableRef.tokens d)
  | none => rfl
  | some table => congrArg some (TableRef.tokens_asWritten d table)

theorem Join.tokensOfLines_asWritten (d : Dialect) : ∀ joins : List Join,
    Join.tokensOfLines d (Join.asWrittenEach d joins) = Join.tokensOfLines d joins
  | [] => rfl
  | ⟨kind, table, none⟩ :: joins => by
      simp only [Join.asWrittenEach, Expr.asWrittenOption, Join.tokensOfLines, Join.tokens,
        TableRef.tokens_asWritten d table, Join.tokensOfLines_asWritten d joins]
  | ⟨kind, table, some condition⟩ :: joins => by
      simp only [Join.asWrittenEach, Expr.asWrittenOption, Join.tokensOfLines, Join.tokens,
        TableRef.tokens_asWritten d table, Expr.tokens_asWritten d condition,
        Join.tokensOfLines_asWritten d joins]

theorem SelectItem.tokensOfEach_asWritten (d : Dialect) : ∀ items : List SelectItem,
    SelectItem.tokensOfEach d (SelectItem.asWrittenEach d items) = SelectItem.tokensOfEach d items
  | [] => rfl
  | ⟨e, label⟩ :: items => by
      rw [SelectItem.asWrittenEach, SelectItem.tokensOfEach, Expr.tokens_asWritten d e,
        SelectItem.tokensOfEach_asWritten d items]
      rfl

theorem OrderItem.tokensOfEach_asWritten (d : Dialect) : ∀ items : List OrderItem,
    OrderItem.tokensOfEach d (OrderItem.asWrittenEach d items) = OrderItem.tokensOfEach d items
  | [] => rfl
  | ⟨e, direction, nulls⟩ :: items => by
      rw [OrderItem.asWrittenEach, OrderItem.tokensOfEach, Expr.tokens_asWritten d e,
        OrderItem.tokensOfEach_asWritten d items]
      rfl

/-- The written form of a query has the tokens of the query. -/
theorem Query.tokens_asWritten (d : Dialect) : ∀ q : Query, (q.asWritten d).tokens d = q.tokens d
  | ⟨select, distinct, source, joins, condition, groupBy, having, orderBy, limit, offset⟩ => by
      rw [Query.asWritten, Query.tokens_eq, Query.tokens_eq, SelectItem.tokensOfEach_asWritten d select,
        TableRef.tokensOfOption_asWritten d source, Join.tokensOfLines_asWritten d joins,
        Expr.tokensOfOption_asWritten d condition, Expr.tokensOfEach_asWritten d groupBy,
        Expr.tokensOfOption_asWritten d having, OrderItem.tokensOfEach_asWritten d orderBy,
        orderAndLimitTokens_meantLimit, (tokens_meantLimit d limit offset).1]

end

end RelQuery.Sql
