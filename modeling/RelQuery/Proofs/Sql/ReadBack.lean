/-
Module: RelQuery.Proofs.Sql.ReadBack
Purpose: What is read from the tokens of expressions and queries whose operands are simple enough to stand
  without parentheses. Nothing is lost but spelling: repeated ANDs and ORs are grouped to the left, NOT
  EXISTS is the negation of EXISTS, and membership in the empty list is a constant.
Main exports: Expr.Readable, Query.Readable, Expr.readBack, Query.readBack, Expr.appendAnd_assoc
-/
import RelQuery.Proofs.Sql.Reader

namespace RelQuery.Sql

/-! ### Readable expressions and queries -/

/-- How tightly the spelling of an expression holds together: as a disjunction, a conjunction, a negation,
    a predicate, or an operand. -/
def Expr.rank : Expr → Nat
  | .binary .or _ _ => 1
  | .binary .and _ _ => 2
  | .not _ => 3
  | .existsQuery _ true => 3
  | .existsQuery _ false => 5
  | .column _ _ => 5
  | .literal _ => 5
  | .param _ => 5
  | .caseWhen _ _ _ => 5
  | _ => 4

/-- A column of an item or a value. -/
def Expr.IsAtom : Expr → Prop
  | .column (some _) _ => True
  | .literal _ => True
  | .param _ => True
  | _ => False

mutual

/-- Comparisons and tests apply to operands alone, and all else is built from these. -/
def Expr.Readable : Expr → Prop
  | .column qualifier _ => qualifier.isSome
  | .literal _ => True
  | .param _ => True
  | .binary op left right =>
    left.Readable ∧ right.Readable ∧
      match op with
      | .and => True
      | .or => True
      | .compare _ => left.rank = 5 ∧ right.rank = 5
      | .like => False
  | .not operand => operand.Readable
  | .isNull operand _ => operand.IsAtom
  | .caseWhen none branches (some otherwise) => Expr.ReadableBranches branches ∧ otherwise.IsAtom
  | .caseWhen _ _ _ => False
  | .existsQuery query _ => query.Readable
  | .inList operand values _ => operand.IsAtom ∧ ∀ value ∈ values, value.IsAtom
  | .inQuery operand query _ => operand.IsAtom ∧ query.Readable
  | .likeEscape operand pattern _ _ => operand.IsAtom ∧ pattern.IsAtom
  | .subquery _ => False
  | .call _ _ _ => False
  | .star _ => False
  | .paren _ => False

/-- A condition that may be missing is readable. -/
def Expr.ReadableOption : Option Expr → Prop
  | none => True
  | some e => e.Readable

/-- The conditions of a case distinction are readable, and its results are simple. -/
def Expr.ReadableBranches : List (Expr × Expr) → Prop
  | [] => True
  | (condition, result) :: branches =>
    condition.Readable ∧ result.IsAtom ∧ Expr.ReadableBranches branches

/-- The query of a derived table is readable. -/
def TableRef.Readable : TableRef → Prop
  | ⟨.stored _ _, _⟩ => True
  | ⟨.derived query, _⟩ => query.Readable

/-- There is an item, and it is readable. -/
def TableRef.ReadableOption : Option TableRef → Prop
  | none => False
  | some table => table.Readable

/-- All items and conditions of joins are readable. -/
def Join.ReadableEach : List Join → Prop
  | [] => True
  | ⟨_, table, condition⟩ :: joins =>
    table.Readable ∧ Expr.ReadableOption condition ∧ Join.ReadableEach joins

/-- A query without groups that selects and sorts by simple expressions, with readable conditions. -/
def Query.Readable : Query → Prop
  | ⟨select, _, source, joins, condition, groupBy, having, orderBy, _, _⟩ =>
    (∀ item ∈ select, item.expr.IsAtom) ∧ TableRef.ReadableOption source ∧ Join.ReadableEach joins ∧
      Expr.ReadableOption condition ∧ groupBy = [] ∧ having = none ∧ ∀ item ∈ orderBy, item.expr.IsAtom

end

/-! ### What is read back -/

/-- The conjuncts of the second expression ANDed to the first one, one by one. -/
def Expr.appendAnd (e : Expr) : Expr → Expr
  | .binary .and f g => (appendAnd e f).and g
  | f => e.and f

/-- The disjuncts of the second expression ORed to the first one, one by one. -/
def Expr.appendOr (e : Expr) : Expr → Expr
  | .binary .or f g => (appendOr e f).or g
  | f => e.or f

/-- The limit that is read: before an offset, the count that stands for none is none. -/
def meantLimit (d : Dialect) : Option UInt64 → Option UInt64 → Option UInt64
  | some n, some _ => if unboundedLimit? d = some (.count n) then none else some n
  | limit, _ => limit

mutual

/-- What is read from the tokens of an expression. -/
def Expr.readBack (d : Dialect) : Expr → Expr
  | .binary op left right =>
    match op with
    | .and => (left.readBack d).appendAnd (right.readBack d)
    | .or => (left.readBack d).appendOr (right.readBack d)
    | op => .binary op (left.readBack d) (right.readBack d)
  | .not operand => .not (operand.readBack d)
  | .caseWhen subject branches otherwise =>
    .caseWhen subject (Expr.readBackBranches d branches) otherwise
  | .existsQuery query false => .existsQuery (query.readBack d) false
  | .existsQuery query true => .not (.existsQuery (query.readBack d) false)
  | .inList operand values negated =>
    if values.isEmpty then (Expr.int 1).eq (Expr.int (if negated then 1 else 0))
    else .inList operand values negated
  | .inQuery operand query negated => .inQuery operand (query.readBack d) negated
  | .column qualifier name => .column qualifier name
  | .literal value => .literal value
  | .param value => .param value
  | .isNull operand negated => .isNull operand negated
  | .likeEscape operand pattern escape negated => .likeEscape operand pattern escape negated
  | .subquery query => .subquery query
  | .call function arguments distinct => .call function arguments distinct
  | .star qualifier => .star qualifier
  | .paren inner => .paren inner

/-- What is read from a condition that may be missing. -/
def Expr.readBackOption (d : Dialect) : Option Expr → Option Expr
  | none => none
  | some e => some (e.readBack d)

/-- What is read from the branches of a case distinction. -/
def Expr.readBackBranches (d : Dialect) : List (Expr × Expr) → List (Expr × Expr)
  | [] => []
  | (condition, result) :: branches => (condition.readBack d, result) :: Expr.readBackBranches d branches

/-- What is read from a table occurrence. -/
def TableRef.readBack (d : Dialect) : TableRef → TableRef
  | ⟨.stored schema name, label⟩ => ⟨.stored schema name, label⟩
  | ⟨.derived query, label⟩ => ⟨.derived (query.readBack d), label⟩

/-- What is read from an item that may be missing. -/
def TableRef.readBackOption (d : Dialect) : Option TableRef → Option TableRef
  | none => none
  | some table => some (table.readBack d)

/-- What is read from joins. -/
def Join.readBackEach (d : Dialect) : List Join → List Join
  | [] => []
  | ⟨kind, table, condition⟩ :: joins =>
    ⟨kind, table.readBack d, Expr.readBackOption d condition⟩ :: Join.readBackEach d joins

/-- What is read from the tokens of a query. -/
def Query.readBack (d : Dialect) : Query → Query
  | ⟨select, distinct, source, joins, condition, groupBy, having, orderBy, limit, offset⟩ =>
    ⟨select, distinct, TableRef.readBackOption d source, Join.readBackEach d joins,
      Expr.readBackOption d condition, groupBy, having, orderBy, meantLimit d limit offset, offset⟩

end

namespace Expr

theorem appendAnd_of_rank {e f : Expr} (rank : f.rank ≠ 2) : e.appendAnd f = e.and f := by
  unfold appendAnd
  split
  · contradiction
  · rfl

theorem appendOr_of_rank {e f : Expr} (rank : f.rank ≠ 1) : e.appendOr f = e.or f := by
  unfold appendOr
  split
  · contradiction
  · rfl

/-- Appending conjuncts is associative. -/
theorem appendAnd_assoc (e f g : Expr) : e.appendAnd (f.appendAnd g) = (e.appendAnd f).appendAnd g := by
  fun_induction appendAnd f g with
  | case1 g h ih => simp only [Expr.and, appendAnd, ih]
  | case2 g other =>
      rw [appendAnd.eq_2 _ _ other]
      rfl

/-- Appending disjuncts is associative. -/
theorem appendOr_assoc (e f g : Expr) : e.appendOr (f.appendOr g) = (e.appendOr f).appendOr g := by
  fun_induction appendOr f g with
  | case1 g h ih => simp only [Expr.or, appendOr, ih]
  | case2 g other =>
      rw [appendOr.eq_2 _ _ other]
      rfl

@[simp] theorem rank_appendAnd (e f : Expr) : (e.appendAnd f).rank = 2 := by
  unfold appendAnd
  split <;> rfl

@[simp] theorem rank_appendOr (e f : Expr) : (e.appendOr f).rank = 1 := by
  unfold appendOr
  split <;> rfl

/-- What is read back holds together as tightly. -/
@[simp] theorem rank_readBack (d : Dialect) (e : Expr) : (e.readBack d).rank = e.rank := by
  cases e with
  | binary op left right =>
      cases op with
      | and => exact rank_appendAnd _ _
      | or => exact rank_appendOr _ _
      | _ => rfl
  | existsQuery query negated => cases negated <;> rfl
  | inList operand values negated => cases values <;> rfl
  | _ => rfl

theorem readBack_of_isAtom (d : Dialect) {e : Expr} (atom : e.IsAtom) : e.readBack d = e := by
  cases e <;> first | rfl | contradiction

end Expr

end RelQuery.Sql
