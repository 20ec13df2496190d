/-
Module: RelQuery.Proofs.Sql.Truth
Purpose: The three truth values of SQL conditions and their connectives, which are those of Kleene.
Main exports: Truth, Truth.not, Truth.and, Truth.or, Truth.ofBool
-/

namespace RelQuery.Sql

/-- A truth value. A comparison with null is unknown. -/
inductive Truth where
  | yes | no | unknown
deriving DecidableEq, Repr, Inhabited

namespace Truth

/-- The truth value of a decided condition. -/
def ofBool (b : Bool) : Truth := if b then .yes else .no

/-- Negation. -/
def not : Truth → Truth
  | .yes => .no
  | .no => .yes
  | .unknown => .unknown

/-- Conjunction: false if either operand is, and true only if both are. -/
def and : Truth → Truth → Truth
  | .no, _ => .no
  | _, .no => .no
  | .yes, .yes => .yes
  | _, _ => .unknown

/-- Disjunction: true if either operand is, and false only if both are. -/
def or : Truth → Truth → Truth
  | .yes, _ => .yes
  | _, .yes => .yes
  | .no, .no => .no
  | _, _ => .unknown

/-- The negation where a flag asks for it. -/
def negatedIf (flag : Bool) (t : Truth) : Truth := if flag then t.not else t

/-- The conjunction of a list; the empty one is true. -/
def all (ts : List Truth) : Truth := ts.foldr and .yes

/-- The disjunction of a list; the empty one is false. -/
def any (ts : List Truth) : Truth := ts.foldr or .no

@[simp] theorem ofBool_eq_yes {b : Bool} : ofBool b = .yes ↔ b = true := by
  cases b <;> simp [ofBool]

@[simp] theorem ofBool_true : ofBool true = .yes := rfl

@[simp] theorem ofBool_false : ofBool false = .no := rfl

@[simp] theorem not_ofBool (b : Bool) : (ofBool b).not = ofBool (!b) := by cases b <;> rfl

@[simp] theorem negatedIf_false (t : Truth) : t.negatedIf false = t := rfl

@[simp] theorem negatedIf_true (t : Truth) : t.negatedIf true = t.not := rfl

@[simp] theorem and_eq_yes {a b : Truth} : a.and b = .yes ↔ a = .yes ∧ b = .yes := by
  cases a <;> cases b <;> simp [and]

@[simp] theorem and_beq_yes (a b : Truth) : (a.and b == .yes) = ((a == .yes) && (b == .yes)) := by
  cases a <;> cases b <;> rfl

@[simp] theorem or_eq_yes {a b : Truth} : a.or b = .yes ↔ a = .yes ∨ b = .yes := by
  cases a <;> cases b <;> simp [or]

@[simp] theorem yes_and (a : Truth) : yes.and a = a := by cases a <;> rfl

@[simp] theorem and_yes (a : Truth) : a.and .yes = a := by cases a <;> rfl

@[simp] theorem yes_or (a : Truth) : yes.or a = .yes := rfl

@[simp] theorem or_yes (a : Truth) : a.or .yes = .yes := by cases a <;> rfl

@[simp] theorem no_or (a : Truth) : no.or a = a := by cases a <;> rfl

@[simp] theorem or_no (a : Truth) : a.or .no = a := by cases a <;> rfl

theorem and_assoc (a b c : Truth) : (a.and b).and c = a.and (b.and c) := by
  cases a <;> cases b <;> cases c <;> rfl

theorem or_assoc (a b c : Truth) : (a.or b).or c = a.or (b.or c) := by
  cases a <;> cases b <;> cases c <;> rfl

@[simp] theorem all_nil : all [] = .yes := rfl

@[simp] theorem all_cons (t : Truth) (ts : List Truth) : all (t :: ts) = t.and (all ts) := rfl

@[simp] theorem any_nil : any [] = .no := rfl

@[simp] theorem any_cons (t : Truth) (ts : List Truth) : any (t :: ts) = t.or (any ts) := rfl

@[simp] theorem all_append (ts us : List Truth) : all (ts ++ us) = (all ts).and (all us) := by
  induction ts with
  | nil => simp
  | cons t ts ih => simp [ih, and_assoc]

/-- A conjunction is true exactly if all its members are. -/
theorem all_eq_yes {ts : List Truth} : all ts = .yes ↔ ∀ t ∈ ts, t = .yes := by
  induction ts with
  | nil => simp
  | cons t ts ih => simp [ih]

/-- A disjunction is true exactly if some member is. -/
theorem any_eq_yes {ts : List Truth} : any ts = .yes ↔ .yes ∈ ts := by
  induction ts with
  | nil => simp
  | cons t ts ih => rw [any_cons, or_eq_yes, ih, List.mem_cons, eq_comm]

end Truth

end RelQuery.Sql
