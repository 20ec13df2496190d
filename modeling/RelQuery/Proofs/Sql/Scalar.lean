/-
Module: RelQuery.Proofs.Sql.Scalar
Purpose: A database engine over integers and texts, after the manner of SQLite: truth values are integers,
  integers stand before texts, and nulls stand before both unless an ordering places them. It shows that
  the laws of an engine can be met, and lets statements be evaluated.
Main exports: Scalar, Scalar.engine
-/
import RelQuery.Proofs.Sql.Database

namespace RelQuery.Sql

/-- A stored value. Booleans are integers; there are no fractions. -/
inductive Scalar where
  | null
  | int (value : Int)
  | text (value : String)
deriving DecidableEq, Repr, Inhabited

namespace Scalar

/-- Whether the value is missing. -/
def isNull : Scalar → Bool
  | .null => true
  | _ => false

/-- What is stored for a literal. -/
def ofLiteral : Literal → Scalar
  | .int n => .int n
  | .float _ => .null
  | .text s => .text s
  | .bool b => .int (if b then 1 else 0)
  | .date s => .text s
  | .timestamp s => .text s
  | .null => .null

/-- The value of a condition. -/
def ofTruth : Truth → Scalar
  | .yes => .int 1
  | .no => .int 0
  | .unknown => .null

/-- A value as a condition: any integer but zero is true. -/
def truth : Scalar → Truth
  | .null => .unknown
  | .int n => Truth.ofBool (n != 0)
  | .text _ => .no

/-- The order of values. -/
def le : Scalar → Scalar → Bool
  | .null, _ => true
  | .int _, .null => false
  | .int m, .int n => decide (m ≤ n)
  | .int _, .text _ => true
  | .text _, .null => false
  | .text _, .int _ => false
  | .text s, .text t => decide (s ≤ t)

theorem le_total (a b : Scalar) : a.le b || b.le a := by
  cases a <;> cases b <;> simp [le, Int.le_total, String.le_total]

theorem le_trans {a b c : Scalar} (first : a.le b) (second : b.le c) : a.le c := by
  cases a <;> cases b <;> cases c <;> simp_all [le]
  · exact Int.le_trans first second
  · exact String.le_trans first second

theorem le_antisymm {a b : Scalar} (first : a.le b) (second : b.le a) : a = b := by
  cases a <;> cases b <;> simp_all [le]
  · exact Int.le_antisymm first second
  · exact String.le_antisymm first second

/-- A comparison, unknown if a side is missing. -/
def compare (op : Comparison) (a b : Scalar) : Truth :=
  if a.isNull || b.isNull then .unknown
  else
    Truth.ofBool <|
      match op with
      | .eq => a = b
      | .ne => a ≠ b
      | .lt => !b.le a
      | .gt => !a.le b
      | .le => a.le b
      | .ge => b.le a

/-- The ends of a list of characters, the list itself first. -/
def suffixes : List Char → List (List Char)
  | [] => [[]]
  | c :: cs => (c :: cs) :: suffixes cs

/-- Whether characters match a pattern, in which a character may be declared as escape. -/
def matchesPattern (escape : Option Char) : (pattern characters : List Char) → Bool
  | [], characters => characters.isEmpty
  | p :: q :: ps, characters =>
    if some p = escape then
      match characters with
      | c :: cs => q = c && matchesPattern escape ps cs
      | [] => false
    else if p = '%' then
      (suffixes characters).any (matchesPattern escape (q :: ps))
    else
      match characters with
      | c :: cs => (p = '_' || p = c) && matchesPattern escape (q :: ps) cs
      | [] => false
  | [p], characters =>
    if some p = escape then false
    else if p = '%' then true
    else
      match characters with
      | [c] => p = '_' || p = c
      | _ => false

/-- Whether a text matches a pattern. -/
def like (a pattern : Scalar) (escape : Option Char) : Truth :=
  match a, pattern with
  | .text s, .text p => Truth.ofBool (matchesPattern escape p.toList s.toList)
  | .null, _ => .unknown
  | _, .null => .unknown
  | _, _ => .no

/-- Whether nulls stand first. -/
def nullsFirst (direction : Option Direction) : Option NullsOrder → Bool
  | some .first => true
  | some .last => false
  | none => direction != some .desc

/-- Whether a value may stand before another one. -/
def sortsBefore (direction : Option Direction) (nulls : Option NullsOrder) (a b : Scalar) : Bool :=
  match a.isNull, b.isNull with
  | true, true => true
  | true, false => nullsFirst direction nulls
  | false, true => !nullsFirst direction nulls
  | false, false => if direction = some .desc then b.le a else a.le b

/-- The engine. Rows are produced in the order of the FROM and JOIN items. -/
def engine : Engine Scalar where
  null := .null
  isNull := isNull
  ofLiteral := ofLiteral
  ofTruth := ofTruth
  truth := truth
  compare := compare
  like := like
  isAggregate := fun _ => false
  call := fun _ _ _ _ => .null
  sortsBefore := sortsBefore
  arrange := fun _ rows => rows
  truth_ofTruth := by
    intro t
    cases t <;> rfl
  isNull_null := rfl
  compare_null_left := by
    intro op a b missing
    simp [compare, missing]
  compare_null_right := by
    intro op a b missing
    simp [compare, missing]
  compare_self := by
    intro a present
    simp [compare, present]
  compare_comm := by
    intro a b
    rw [compare, compare, Bool.or_comm]
    simp only [eq_comm]
  compare_int := by
    intro m n
    simp [compare, ofLiteral, isNull, Bool.beq_eq_decide_eq]
  sortsBefore_total := by
    intro d n a b
    have total := le_total a b
    cases h₁ : a.isNull <;> cases h₂ : b.isNull <;> simp [sortsBefore, h₁, h₂]
    split <;> simp_all [or_comm]
  sortsBefore_trans := by
    intro d n a b c first second
    cases h₁ : a.isNull <;> cases h₂ : b.isNull <;> cases h₃ : c.isNull <;>
      simp_all [sortsBefore]
    split <;> simp_all
    · exact le_trans second first
    · exact le_trans first second
  sortsBefore_antisymm := by
    intro d n a b present first second
    cases missing : b.isNull <;> simp_all [sortsBefore]
    have same : a = b := by
      by_cases descending : d = some .desc
      · exact le_antisymm (by simpa [descending] using second) (by simpa [descending] using first)
      · exact le_antisymm (by simpa [descending] using first) (by simpa [descending] using second)
    subst same
    simp [compare, present]
  arrange_perm := fun _ rows => List.Perm.refl rows

end Scalar

end RelQuery.Sql
