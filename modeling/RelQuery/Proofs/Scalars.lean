/-
Module: RelQuery.Proofs.Scalars
Purpose: The parameters that JSON scalars become, as operands of filters, as items of their lists and as keys of
  deferred relations. A scalar is bound as a literal whose JSON form it is, unless it is an integer beyond the
  signed 64-bit words: there is no literal for that, and a floating-point number is bound in its place.
Main exports: Json.IsScalar, Json.ExceedsSigned, FieldOp.values, FieldOp.Binds, BoundAsOperand, BoundAsItem,
  BoundAsKey, bound_faithfully_iff
-/
import RelQuery.Filter.Json
import RelQuery.Proofs.Json.ReadBack
import RelQuery.Proofs.Sql.Parameters
import RelQuery.Session.Lazy

namespace RelQuery

open Sql

/-! ### Scalars -/

/-- The value is a scalar that can be read: an integer of a signed or an unsigned 64-bit word, a finite number, a
    text, a truth value or null. -/
def Json.IsScalar : Json → Prop
  | .number (.int n) => Json.minSigned ≤ n ∧ n ≤ Json.maxUnsigned
  | .number (.float x) => x.isFinite = true
  | .null | .bool _ | .string _ => True
  | .array _ | .object _ => False

/-- The value is an integer beyond the signed 64-bit words. -/
def Json.ExceedsSigned : Json → Prop
  | .number (.int n) => Json.maxSigned < n
  | _ => False

/-- An integer of a signed word is bound as itself, and a greater one as a floating-point number. -/
theorem ofNumber_int {n : Int} (low : Json.minSigned ≤ n) :
    (n ≤ Json.maxSigned → Literal.ofNumber (.int n) = .int n) ∧
      (Json.maxSigned < n → ∃ x, Literal.ofNumber (.int n) = .float x) := by
  constructor
  · intro high
    rw [Literal.ofNumber, if_pos ⟨low, high⟩]
  · intro exceeds
    have positive : ¬n < 0 := by
      simp only [Json.maxSigned] at exceeds
      omega
    have outside : ¬(Json.minSigned ≤ n ∧ n ≤ Json.maxSigned) := fun inside => by omega
    exact ⟨_, by rw [Literal.ofNumber, if_neg outside, if_neg positive]⟩

/-- The JSON form of a floating-point number is no integer. -/
theorem toJson_float_ne_int (x : Float) (n : Int) : (Literal.float x).toJson ≠ .int n := by
  rw [Literal.toJson]
  split <;> simp

/-- A scalar is the JSON form of its literal exactly if it is not an integer beyond the signed words. -/
theorem exists_literal {v : Json} (scalar : v.IsScalar) :
    ∃ l, Literal.ofJson? v = some l ∧ (l.toJson = v ↔ ¬v.ExceedsSigned) := by
  cases v with
  | null => exact ⟨.null, rfl, iff_of_true rfl id⟩
  | bool b => exact ⟨.bool b, rfl, iff_of_true rfl id⟩
  | string s => exact ⟨.text s, rfl, iff_of_true rfl id⟩
  | array items => exact scalar.elim
  | object members => exact scalar.elim
  | number n =>
      refine ⟨.ofNumber n, rfl, ?_⟩
      cases n with
      | float x =>
          have finite : x.isFinite = true := scalar
          refine iff_of_true ?_ id
          simp [Literal.ofNumber, Literal.toJson, finite]
      | int n =>
          obtain ⟨kept, rounded⟩ := ofNumber_int scalar.1
          by_cases exceeds : Json.maxSigned < n
          · obtain ⟨x, float⟩ := rounded exceeds
            exact iff_of_false (float ▸ toJson_float_ne_int x n) (not_not_intro exceeds)
          · exact iff_of_true (by rw [kept (Int.not_lt.1 exceeds)]; rfl) exceeds

/-- Null is bound for null alone. -/
theorem isNull_literal {v : Json} {l : Literal} (literal : Literal.ofJson? v = some l) : l.isNull = v.isNull := by
  cases v with
  | number n =>
      obtain rfl := Option.some.inj literal
      cases n with
      | float x => rfl
      | int n =>
          rw [Literal.ofNumber]
          split
          · rfl
          · split <;> rfl
  | array items => contradiction
  | object members => contradiction
  | _ =>
      obtain rfl := Option.some.inj literal
      rfl

/-! ### Places -/

/-- The values that the predicate of a condition binds. -/
def FieldOp.values : FieldOp → List Literal
  | .compare _ value => [value]
  | .isIn values _ => values
  | .holds position text => [.text (position.pattern text)]
  | .isNull _ => []

theorem paramsOfEach_map_param (values : List Literal) : Expr.paramsOfEach (values.map .param) = values := by
  induction values with
  | nil => rfl
  | cons value values ih =>
      rw [List.map_cons, Expr.paramsOfEach, ih]
      rfl

/-- The predicate of the condition binds these parameters, whatever column it is about. -/
def FieldOp.Binds (op : FieldOp) (bound : List Literal) : Prop :=
  ∀ label column, (op.predicate (Expr.of label column)).params = bound

/-- A condition binds its values. -/
theorem binds_values (op : FieldOp) : op.Binds op.values := by
  intro label column
  cases op with
  | isIn values negated =>
      cases values with
      | nil => rfl
      | cons value values =>
          have others := paramsOfEach_map_param values
          simp [FieldOp.predicate, FieldOp.values, Expr.params, Expr.of, others]
  | _ => rfl

/-- The operators that compare a column with one value. -/
def comparisonOperators : List String := ["equals", "not", "gt", "gte", "lt", "lte"]

/-- The operators that compare a column with a list of values. -/
def listOperators : List String := ["in", "notIn"]

/-- Wherever the value is the operand of a comparison, behind an operator or alone, the literal is bound in its
    place. Equality with null is no comparison. -/
def BoundAsOperand (v : Json) (l : Literal) : Prop :=
  (∀ column path, ∀ operator ∈ comparisonOperators, (v = .null → operator ∉ ["equals", "not"]) →
    ∃ op : FieldOp, op.Binds [l] ∧ ∀ rest, Filter.fieldFilters column path ((operator, v) :: rest) =
      (Filter.fieldFilters column path rest).map (.field column op :: ·)) ∧
  ∀ column path, Filter.connective? column = none → v ≠ .null →
    ∃ op : FieldOp, op.Binds [l] ∧ Filter.entry path column v = .ok [.field column op]

/-- Wherever the value is an item of the list of an operator, the literal is bound in its place. -/
def BoundAsItem (v : Json) (l : Literal) : Prop :=
  ∀ column path, ∀ operator ∈ listOperators, ∀ before after ls ms,
    Filter.scalars path (.array before) = .ok ls → Filter.scalars path (.array after) = .ok ms →
      ∃ op : FieldOp, op.Binds (ls ++ l :: ms) ∧
        ∀ rest, Filter.fieldFilters column path ((operator, .array (before ++ v :: after)) :: rest) =
          (Filter.fieldFilters column path rest).map (.field column op :: ·)

/-- Wherever the value is among the keys of a deferred relation, the literal is bound in its place, both for the
    rows of a pivot table and for the targets. -/
def BoundAsKey (v : Json) (l : Literal) : Prop :=
  ∀ before after, let bound := keyLiterals before ++ l :: keyLiterals after
    (∀ pivot sourceColumn targetColumn,
      (pivotQuery pivot sourceColumn targetColumn (before ++ v :: after)).params = bound) ∧
    ∀ table load column, ∃ op : FieldOp, op.Binds bound ∧
      (targetSelection table load column (before ++ v :: after)).filters =
        .field column op :: load.filter.toList

section

variable {column path operator : String} {v : Json} {filter : Filter}

/-- An operator other than `not` is read by itself. -/
theorem fieldFilters_cons (other : operator ≠ "not") (read : Filter.fieldFilter column path operator v = .ok filter)
    (rest : List (String × Json)) :
    Filter.fieldFilters column path ((operator, v) :: rest) =
      (Filter.fieldFilters column path rest).map (filter :: ·) := by
  rw [Filter.fieldFilters.eq_def]
  simp only [if_neg other, read]
  cases Filter.fieldFilters column path rest <;> rfl

/-- So is `not` in front of a scalar other than null. -/
theorem fieldFilters_cons_not {l : Literal} (present : v ≠ .null) (literal : Literal.ofJson? v = some l)
    (rest : List (String × Json)) :
    Filter.fieldFilters column path (("not", v) :: rest) =
      (Filter.fieldFilters column path rest).map (.field column (.compare .ne l) :: ·) := by
  have read : Filter.scalar path v = .ok l := by rw [Filter.scalar, literal]
  have noObject : ∀ inner, v ≠ .object inner := by
    rintro inner rfl
    contradiction
  rw [Filter.fieldFilters, if_pos rfl, read]
  · cases Filter.fieldFilters column path rest <;> rfl
  · exact noObject
  · exact present

end

section

variable {v : Json} {l : Literal} (literal : Literal.ofJson? v = some l)

include literal

/-- A member with the value alone asks for equality with the literal. -/
theorem entry_scalar {column : String} (plain : Filter.connective? column = none) (path : String) :
    Filter.entry path column v = .ok [.eq column l] := by
  have read : Filter.scalar (joinPath path column) v = .ok l := by rw [Filter.scalar, literal]
  rw [Filter.entry]
  · simp only [plain, read]
    rfl
  · rintro members rfl
    contradiction
  · rintro values rfl
    contradiction

theorem eq_scalar (present : v ≠ .null) (column : String) : Filter.eq column l = .field column (.compare .eq l) := by
  have value : ¬l.isNull = true := by
    rw [isNull_literal literal]
    cases v with
    | null => contradiction
    | _ => simp [Json.isNull]
  rw [Filter.eq, if_neg value]

theorem boundAsOperand : BoundAsOperand v l := by
  constructor
  · intro column path operator listed compares
    have read : Filter.scalar path v = .ok l := by rw [Filter.scalar, literal]
    have compared : ∀ comparison, operator ≠ "not" →
        Filter.fieldFilter column path operator v = .ok (.field column (.compare comparison l)) →
        ∃ op : FieldOp, op.Binds [l] ∧ ∀ rest, Filter.fieldFilters column path ((operator, v) :: rest) =
          (Filter.fieldFilters column path rest).map (.field column op :: ·) :=
      fun comparison other made => ⟨_, binds_values _, fieldFilters_cons other made⟩
    simp only [comparisonOperators, List.mem_cons, List.not_mem_nil, or_false] at listed
    rcases listed with rfl | rfl | rfl | rfl | rfl | rfl
    · have equality := eq_scalar literal (fun null => compares null (by simp)) column
      exact compared .eq (by decide) (by simp [Filter.fieldFilter, read, Except.map, equality])
    · exact ⟨_, binds_values _, fieldFilters_cons_not (fun null => compares null (by simp)) literal⟩
    · exact compared .gt (by decide) (by simp [Filter.fieldFilter, read, Except.map])
    · exact compared .ge (by decide) (by simp [Filter.fieldFilter, read, Except.map])
    · exact compared .lt (by decide) (by simp [Filter.fieldFilter, read, Except.map])
    · exact compared .le (by decide) (by simp [Filter.fieldFilter, read, Except.map])
  · intro column path plain present
    exact ⟨_, binds_values (.compare .eq l), by rw [entry_scalar literal plain, eq_scalar literal present]⟩

theorem boundAsItem : BoundAsItem v l := by
  intro column path operator listed before after ls ms readBefore readAfter
  have read : Filter.scalar path v = .ok l := by rw [Filter.scalar, literal]
  have items : Filter.scalars path (.array (before ++ v :: after)) = .ok (ls ++ l :: ms) := by
    simp only [Filter.scalars] at readBefore readAfter ⊢
    rw [List.mapM_append, List.mapM_cons, readBefore, read, readAfter]
    rfl
  simp only [listOperators, List.mem_cons, List.not_mem_nil, or_false] at listed
  rcases listed with rfl | rfl
  · exact ⟨.isIn _ false, binds_values _,
      fieldFilters_cons (by decide) (by simp [Filter.fieldFilter, items, Except.map])⟩
  · exact ⟨.isIn _ true, binds_values _,
      fieldFilters_cons (by decide) (by simp [Filter.fieldFilter, items, Except.map])⟩

theorem boundAsKey : BoundAsKey v l := by
  intro before after bound
  have keys : keyLiterals (before ++ v :: after) = bound := by
    rw [keyLiterals, List.filterMap_append, List.filterMap_cons_some literal]
    rfl
  constructor
  · intro pivot sourceColumn targetColumn
    have listed : (Expr.inList (Expr.of pivot.name sourceColumn) (bound.map .param) false).params = bound :=
      binds_values (.isIn bound false) pivot.name sourceColumn
    have column : ∀ label name, (Expr.of label name).params = [] := fun _ _ => rfl
    have stored : (occurrence pivot pivot.name).params = [] := rfl
    simp [pivotQuery, keys, Query.params, Query.empty, SelectItem.paramsOfEach, TableRef.paramsOfOption,
      Join.paramsOfEach, Expr.paramsOfOption, Expr.paramsOfEach, OrderItem.paramsOfEach, column, stored, listed]
  · intro table load column
    refine ⟨.isIn bound false, binds_values _, ?_⟩
    rw [targetSelection, keys]

end

/-- A scalar is bound faithfully exactly if it is not an integer beyond the signed 64-bit words. There is one
    literal that stands for it as an operand, as an item of a list and as a key; the JSON form of the literal is
    the scalar itself, and the literal of an integer that integer. -/
theorem bound_faithfully_iff {v : Json} (scalar : v.IsScalar) :
    ∃ l, Literal.ofJson? v = some l ∧ BoundAsOperand v l ∧ BoundAsItem v l ∧ BoundAsKey v l ∧
      (l.toJson = v ↔ ¬v.ExceedsSigned) ∧ ∀ n, v = .int n → (l = .int n ↔ n ≤ Json.maxSigned) := by
  obtain ⟨l, literal, faithful⟩ := exists_literal scalar
  refine ⟨l, literal, boundAsOperand literal, boundAsItem literal, boundAsKey literal, faithful, ?_⟩
  rintro n rfl
  obtain rfl := Option.some.inj literal
  obtain ⟨kept, rounded⟩ := ofNumber_int scalar.1
  refine ⟨fun same => Int.not_lt.1 fun exceeds => ?_, kept⟩
  obtain ⟨x, float⟩ := rounded exceeds
  rw [float] at same
  contradiction

/-- The greatest integer of a signed word is bound as itself. -/
theorem bound_maxSigned :
    (Json.int 9223372036854775807).IsScalar ∧
      ∃ l, Literal.ofJson? (.int 9223372036854775807) = some l ∧ l.toJson = .int 9223372036854775807 := by
  have scalar : (Json.int 9223372036854775807).IsScalar := by
    simp [Json.IsScalar, Json.minSigned, Json.maxUnsigned]
  obtain ⟨l, literal, -, -, -, faithful, -⟩ := bound_faithfully_iff scalar
  exact ⟨scalar, l, literal, faithful.2 (by simp [Json.ExceedsSigned, Json.maxSigned])⟩

/-- The greatest integer that can be read is not: a filter that asks for it binds a floating-point number. -/
theorem rounded_maxUnsigned :
    Json.ofText? (Json.int 18446744073709551615).text = some (.int 18446744073709551615) ∧
      (Json.int 18446744073709551615).IsScalar ∧
      ∃ x : Float, Filter.ofJson (.object [("id", .int 18446744073709551615)]) =
          .ok (.field "id" (.compare .eq (.float x))) ∧
        (Literal.float x).toJson ≠ .int 18446744073709551615 := by
  have scalar : (Json.int 18446744073709551615).IsScalar := by
    simp [Json.IsScalar, Json.minSigned, Json.maxUnsigned]
  have read := Json.ofText?_text (.number (Json.readsBack_int scalar.1 scalar.2)) (by decide)
  obtain ⟨x, float⟩ := (ofNumber_int scalar.1).2 (by simp [Json.maxSigned])
  have literal : Literal.ofJson? (.int 18446744073709551615) = some (.float x) := congrArg some float
  have entry := (entry_scalar literal (rfl : Filter.connective? "id" = none) "").trans
    (by rw [eq_scalar literal (by simp) "id"])
  have nothing : Filter.entries "" [] = .ok [] := Filter.entries.eq_1 ""
  refine ⟨read, scalar, x, ?_, toJson_float_ne_int x _⟩
  rw [Filter.ofJson, Filter.ofJsonAt, Filter.entries, nothing, entry]
  rfl

end RelQuery
