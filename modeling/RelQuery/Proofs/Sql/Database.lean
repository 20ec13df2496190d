/-
Module: RelQuery.Proofs.Sql.Database
Purpose: Databases as statements see them: tables of records, and an engine that compares, sorts and
  writes values. What standard SQL fixes about an engine is a law of the structure; everything else,
  such as collations, functions and the order in which rows are produced, is left to the engine.
Main exports: Record, Instance, Scope, Engine, Database, Engine.sameAll
-/
import RelQuery.Proofs.Sql.Truth
import RelQuery.Sql.Scope

namespace RelQuery.Sql

variable {V : Type}

/-! ### Records and scopes -/

/-- A record: values under the names of columns. -/
abbrev Record (V : Type) := List (String × V)

/-- The rows of a table, or of the answer to a statement. Rows may repeat. -/
structure Instance (V : Type) where
  columns : List String
  rows : List (Record V)

/-- The records that the names in force stand for, innermost first. -/
abbrev Scope (V : Type) := List (String × Record V)

/-- The record of an exposed name; an unknown name stands for a record without columns. -/
def Scope.get (scope : Scope V) (name : String) : Record V := (scope.lookup name).getD []

@[simp] theorem Scope.get_cons_self (name : String) (record : Record V) (scope : Scope V) :
    Scope.get ((name, record) :: scope) name = record := by
  simp [Scope.get]

theorem Scope.get_cons_of_ne {name other : String} (different : other ≠ name) (record : Record V)
    (scope : Scope V) : Scope.get ((name, record) :: scope) other = scope.get other := by
  have unequal : (other == name) = false := by simpa using different
  simp [Scope.get, List.lookup_cons, unequal]

/-! ### Engines -/

/-- A row under construction: the scope that it is read in, and for an aggregated row the scopes of the
    group that it stands for. -/
abbrev Candidate (V : Type) := Scope V × List (Scope V)

/-- A database engine over values of type `V`. Truth values are among the values, null is the unknown
    one. -/
structure Engine (V : Type) where
  null : V
  isNull : V → Bool
  ofLiteral : Literal → V
  ofTruth : Truth → V
  truth : V → Truth
  compare : Comparison → V → V → Truth
  /-- Whether a text matches a pattern, where a character may be declared as escape. -/
  like : V → V → Option Char → Truth
  /-- Whether a function reads a whole group of rows. COUNT does in any case. -/
  isAggregate : String → Bool
  /-- A function other than COUNT, from its name, its DISTINCT flag, its arguments in the present row and
      its arguments in the rows of the group. -/
  call : String → Bool → List V → List (List V) → V
  /-- Whether a value may stand before another one in an ordering. -/
  sortsBefore : Option Direction → Option NullsOrder → V → V → Bool
  /-- The order in which the rows of a statement are produced before they are sorted. -/
  arrange : Query → List (Candidate V) → List (Candidate V)
  truth_ofTruth : ∀ t, truth (ofTruth t) = t
  isNull_null : isNull null = true
  compare_null_left : ∀ op a b, isNull a = true → compare op a b = .unknown
  compare_null_right : ∀ op a b, isNull b = true → compare op a b = .unknown
  compare_self : ∀ a, isNull a = false → compare .eq a a = .yes
  compare_comm : ∀ a b, compare .eq a b = compare .eq b a
  compare_int : ∀ m n, compare .eq (ofLiteral (.int m)) (ofLiteral (.int n)) = Truth.ofBool (m == n)
  sortsBefore_total : ∀ d n a b, sortsBefore d n a b || sortsBefore d n b a
  sortsBefore_trans : ∀ d n a b c,
    sortsBefore d n a b → sortsBefore d n b c → sortsBefore d n a c
  /-- Values that no ordering tells apart are equal. -/
  sortsBefore_antisymm : ∀ d n a b, isNull a = false →
    sortsBefore d n a b → sortsBefore d n b a → compare .eq a b = .yes
  arrange_perm : ∀ query rows, (arrange query rows).Perm rows

/-- A database: an engine and the contents of the stored tables, by schema and name. -/
structure Database (V : Type) where
  engine : Engine V
  tables : Option String → String → Instance V

namespace Engine

variable (engine : Engine V)

/-- The value of a column; a missing column counts as null. -/
def read (record : Record V) (column : String) : V := (record.lookup column).getD engine.null

/-- The record that an outer join supplies where no row matches. -/
def absentRecord (columns : List String) : Record V := columns.map fun column => (column, engine.null)

@[simp] theorem read_absentRecord (columns : List String) (column : String) :
    engine.read (engine.absentRecord columns) column = engine.null := by
  induction columns with
  | nil => rfl
  | cons c cs ih =>
      simp only [read, absentRecord, List.map_cons, List.lookup_cons] at ih ⊢
      split <;> simp_all

@[simp] theorem read_nil (column : String) : engine.read [] column = engine.null := rfl

/-- Whether two values count as one where rows are told apart: nulls do. -/
def same (a b : V) : Bool :=
  (engine.isNull a && engine.isNull b) || engine.compare .eq a b == .yes

/-- Whether two lists of values count as one. -/
def sameAll (as bs : List V) : Bool := as.length == bs.length && (as.zip bs).all fun (a, b) => engine.same a b

/-- How many of the argument lists COUNT counts: those without a null, each once if asked for. -/
def countOf (distinct : Bool) (arguments : List (List V)) : Nat :=
  let present := arguments.filter fun values => values.all fun v => !engine.isNull v
  if distinct then (present.eraseDupsBy engine.sameAll).length else present.length

/-- Whether a list of values may stand before another one by the given directions. -/
def sortsBeforeAll : List (Option Direction × Option NullsOrder) → List V → List V → Bool
  | (direction, nulls) :: terms, a :: as, b :: bs =>
    if engine.sortsBefore direction nulls a b then
      if engine.sortsBefore direction nulls b a then sortsBeforeAll terms as bs else true
    else false
  | _, _, _ => true

theorem not_isNull_of_compare_left {op : Comparison} {a b : V} (known : engine.compare op a b = .yes) :
    engine.isNull a = false := by
  cases h : engine.isNull a with
  | false => rfl
  | true => simp [engine.compare_null_left op a b h] at known

theorem not_isNull_of_compare_right {op : Comparison} {a b : V} (known : engine.compare op a b = .yes) :
    engine.isNull b = false := by
  cases h : engine.isNull b with
  | false => rfl
  | true => simp [engine.compare_null_right op a b h] at known

end Engine

end RelQuery.Sql
