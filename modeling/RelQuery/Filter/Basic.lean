/-
Module: RelQuery.Filter.Basic
Purpose: Filters: predicates over the rows of a table that name its columns and relations. Whether these
  exist is not checked here.
Main exports: TextPosition, FieldOp, Filter, RelationFilter, Filter.eq
-/
import RelQuery.Sql.Literal
import RelQuery.Sql.Token

namespace RelQuery

open Sql (Literal Comparison)

/-- Where a text is searched. -/
inductive TextPosition where
  | anywhere | start | finish
deriving DecidableEq, Repr, Inhabited

/-- A condition on the value of a column. -/
inductive FieldOp where
  | compare (operator : Comparison) (value : Literal)
  | isIn (values : List Literal) (negated : Bool)
  | holds (position : TextPosition) (text : String)
  | isNull (flag : Bool)
deriving DecidableEq, Repr, Inhabited

/-- The name of the operator of a condition. -/
def FieldOp.name : FieldOp → String
  | .compare .eq _ => "equals"
  | .compare .ne _ => "not"
  | .compare .lt _ => "lt"
  | .compare .gt _ => "gt"
  | .compare .le _ => "lte"
  | .compare .ge _ => "gte"
  | .isIn _ false => "in"
  | .isIn _ true => "notIn"
  | .holds .anywhere _ => "contains"
  | .holds .start _ => "startsWith"
  | .holds .finish _ => "endsWith"
  | .isNull _ => "isNull"

mutual

/-- A filter. -/
inductive Filter where
  | all (parts : List Filter)
  | any (parts : List Filter)
  | not (part : Filter)
  | field (column : String) (op : FieldOp)
  | relation (name : String) (conditions : RelationFilter)

/-- Conditions on the rows that a relation reaches. All that are present must hold. -/
structure RelationFilter where
  /-- Some row satisfies the filter. -/
  someRow : Option Filter
  /-- No row satisfies the filter. -/
  noRow : Option Filter
  /-- Every row satisfies the filter. -/
  everyRow : Option Filter
  /-- Whether there is no row at all. -/
  isEmpty : Option Bool
  /-- Whether there is some row. -/
  isNotEmpty : Option Bool

end

instance : Inhabited Filter := ⟨.all []⟩

/-- No condition. -/
def RelationFilter.empty : RelationFilter := ⟨none, none, none, none, none⟩

instance : Inhabited RelationFilter := ⟨RelationFilter.empty⟩

/-- Whether no condition is present. -/
def RelationFilter.hasNoOperator (conditions : RelationFilter) : Bool :=
  conditions.someRow.isNone && conditions.noRow.isNone && conditions.everyRow.isNone
    && conditions.isEmpty.isNone && conditions.isNotEmpty.isNone

namespace Filter

/-- The column has that value; null asks for a missing one. -/
def eq (column : String) (value : Literal) : Filter :=
  if value.isNull then .field column (.isNull true) else .field column (.compare .eq value)

/-- A single filter stands for itself, any other number for their conjunction. -/
def ofParts : List Filter → Filter
  | [part] => part
  | parts => .all parts

end Filter

end RelQuery
