/-
Module: RelQuery.Proofs.Sql.Conditions
Purpose: The truth values of the conditions that statements are built from, each in terms of its parts.
Main exports: Expr.truth_and, conditionTruth_conjunction, conditionTruth_strengthen,
  truth_existsQuery, truth_inQuery
-/
import RelQuery.Proofs.Sql.Semantics

namespace RelQuery.Sql

variable {V : Type} (db : Database V) (scope : Scope V)

namespace Expr

/-! ### Operands -/

@[simp] theorem eval_of (qualifier name : String) (group : List (Scope V)) :
    (Expr.of qualifier name).eval db scope group = db.engine.read (scope.get qualifier) name := by
  rfl

@[simp] theorem evalEach_eq (group : List (Scope V)) (es : List Expr) :
    evalEach db scope group es = es.map (·.eval db scope group) := by
  induction es with
  | nil => rfl
  | cons e es ih => simp [ih]

/-! ### Connectives -/

@[simp] theorem truth_and (a b : Expr) :
    (a.and b).truth db scope = (a.truth db scope).and (b.truth db scope) := by
  simp [Expr.and, truth, BinaryOp.apply, db.engine.truth_ofTruth]

@[simp] theorem truth_or (a b : Expr) :
    (a.or b).truth db scope = (a.truth db scope).or (b.truth db scope) := by
  simp [Expr.or, truth, BinaryOp.apply, db.engine.truth_ofTruth]

@[simp] theorem truth_not (e : Expr) : (Expr.not e).truth db scope = (e.truth db scope).not := by
  simp [truth, db.engine.truth_ofTruth]

/-! ### Tests -/

@[simp] theorem truth_compare (op : Comparison) (a b : Expr) :
    (Expr.compare op a b).truth db scope =
      db.engine.compare op (a.eval db scope []) (b.eval db scope []) := by
  simp [Expr.compare, truth, BinaryOp.apply, db.engine.truth_ofTruth]

@[simp] theorem truth_eq (a b : Expr) :
    (a.eq b).truth db scope = db.engine.compare .eq (a.eval db scope []) (b.eval db scope []) := by
  simp [Expr.eq]

@[simp] theorem truth_isNull (e : Expr) (negated : Bool) :
    (Expr.isNull e negated).truth db scope =
      Truth.ofBool (db.engine.isNull (e.eval db scope []) != negated) := by
  simp [truth, db.engine.truth_ofTruth]

@[simp] theorem truth_inList (e : Expr) (values : List Expr) (negated : Bool) :
    (Expr.inList e values negated).truth db scope =
      (Truth.any (values.map fun v =>
        db.engine.compare .eq (e.eval db scope []) (v.eval db scope []))).negatedIf negated := by
  simp [truth, db.engine.truth_ofTruth, Function.comp_def]

@[simp] theorem truth_inQuery (e : Expr) (query : Query) (negated : Bool) :
    (Expr.inQuery e query negated).truth db scope =
      (Truth.any ((query.answer db scope).rows.map fun record =>
        db.engine.compare .eq (e.eval db scope []) (firstValue db.engine record))).negatedIf negated := by
  simp [truth, db.engine.truth_ofTruth]

@[simp] theorem truth_likeEscape (e pattern : Expr) (escape : Char) (negated : Bool) :
    (Expr.likeEscape e pattern escape negated).truth db scope =
      (db.engine.like (e.eval db scope []) (pattern.eval db scope []) (some escape)).negatedIf negated := by
  simp [truth, db.engine.truth_ofTruth]

@[simp] theorem truth_existsQuery (query : Query) (negated : Bool) :
    (Expr.existsQuery query negated).truth db scope =
      Truth.ofBool ((query.answer db scope).rows.isEmpty == negated) := by
  simp [truth, db.engine.truth_ofTruth]

/-! ### Lists of conditions -/

@[simp] theorem truth_foldl_and (e : Expr) (es : List Expr) :
    (es.foldl Expr.and e).truth db scope =
      (e.truth db scope).and (Truth.all (es.map (·.truth db scope))) := by
  induction es generalizing e with
  | nil => simp
  | cons f fs ih => simp [ih, Truth.and_assoc]

@[simp] theorem truth_foldl_or (e : Expr) (es : List Expr) :
    (es.foldl Expr.or e).truth db scope =
      (e.truth db scope).or (Truth.any (es.map (·.truth db scope))) := by
  induction es generalizing e with
  | nil => simp
  | cons f fs ih => simp [ih, Truth.or_assoc]

end Expr

@[simp] theorem conditionTruth_none : conditionTruth db scope none = .yes := rfl

@[simp] theorem conditionTruth_some (e : Expr) : conditionTruth db scope (some e) = e.truth db scope := rfl

/-- A conjunction has the value of its members together. -/
@[simp] theorem conditionTruth_conjunction (es : List Expr) :
    conditionTruth db scope (Expr.conjunction? es) = Truth.all (es.map (·.truth db scope)) := by
  cases es with
  | nil => rfl
  | cons e es => simp [Expr.conjunction?]

/-- Strengthening a condition conjoins it with another one. -/
@[simp] theorem conditionTruth_strengthen (condition : Option Expr) (e : Expr) :
    conditionTruth db scope (some (Expr.strengthen condition e)) =
      (conditionTruth db scope condition).and (e.truth db scope) := by
  cases condition with
  | none => simp [Expr.strengthen]
  | some c => simp [Expr.strengthen]

end RelQuery.Sql
