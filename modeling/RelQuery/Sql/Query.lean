/-
Module: RelQuery.Sql.Query
Purpose: Expressions and SELECT statements. The two are mutually recursive: an expression may hold a
  subquery, and every clause of a query holds expressions.
Main exports: Expr, Query, TableSource, TableRef, Join, SelectItem, OrderItem
-/
import RelQuery.Sql.Token

namespace RelQuery.Sql

/-- The binary operators. -/
inductive BinaryOp where
  | compare (operator : Comparison)
  | and
  | or
  | like
deriving DecidableEq, Repr, Inhabited

/-- The kinds of joins. -/
inductive JoinKind where
  | inner | left | right | full | cross
deriving DecidableEq, Repr, Inhabited

/-- The direction of a sort. -/
inductive Direction where
  | asc | desc
deriving DecidableEq, Repr, Inhabited

/-- The name of a direction in requests. -/
def Direction.name : Direction → String
  | .asc => "asc"
  | .desc => "desc"

/-- The direction of that name. -/
def Direction.ofName? : String → Option Direction
  | "asc" => some .asc
  | "desc" => some .desc
  | _ => none

/-- Where nulls are sorted. -/
inductive NullsOrder where
  | first | last
deriving DecidableEq, Repr, Inhabited

/-- The name of a place of nulls in requests. -/
def NullsOrder.name : NullsOrder → String
  | .first => "first"
  | .last => "last"

/-- The place of nulls of that name. -/
def NullsOrder.ofName? : String → Option NullsOrder
  | "first" => some .first
  | "last" => some .last
  | _ => none

mutual

/-- An expression. A literal is a trusted constant that is written in place; a parameter is a value from
    outside that is bound to a placeholder. -/
inductive Expr where
  | column (qualifier : Option String) (name : String)
  | literal (value : Literal)
  | param (value : Literal)
  | binary (op : BinaryOp) (left right : Expr)
  | not (operand : Expr)
  | call (function : String) (arguments : List Expr) (distinct : Bool)
  | caseWhen (subject : Option Expr) (branches : List (Expr × Expr)) (otherwise : Option Expr)
  | subquery (query : Query)
  | existsQuery (query : Query) (negated : Bool)
  | inList (operand : Expr) (values : List Expr) (negated : Bool)
  | inQuery (operand : Expr) (query : Query) (negated : Bool)
  | isNull (operand : Expr) (negated : Bool)
  | likeEscape (operand pattern : Expr) (escape : Char) (negated : Bool)
  | star (qualifier : Option String)
  | paren (inner : Expr)

/-- What a FROM or JOIN item reads from: a stored table or the rows of a query. -/
inductive TableSource where
  | stored (schema : Option String) (name : String)
  | derived (query : Query)

/-- A table occurrence and its alias. -/
structure TableRef where
  source : TableSource
  label : Option String

/-- A join with its condition. -/
structure Join where
  kind : JoinKind
  table : TableRef
  condition : Option Expr

/-- An item of the SELECT list and its alias. -/
structure SelectItem where
  expr : Expr
  label : Option String

/-- An item of the ORDER BY list. -/
structure OrderItem where
  expr : Expr
  direction : Option Direction
  nulls : Option NullsOrder

/-- A SELECT statement. -/
structure Query where
  select : List SelectItem
  distinct : Bool
  source : Option TableRef
  joins : List Join
  condition : Option Expr
  groupBy : List Expr
  having : Option Expr
  orderBy : List OrderItem
  limit : Option UInt64
  offset : Option UInt64

end

/-! ### Building expressions -/

namespace Expr

/-- A column of a table occurrence. -/
def of (qualifier name : String) : Expr := .column (some qualifier) name

/-- An integer constant. -/
def int (n : Int) : Expr := .literal (.int n)

/-- The comparison of two expressions. -/
def compare (operator : Comparison) (left right : Expr) : Expr := .binary (.compare operator) left right

/-- Equality of two expressions. -/
def eq (left right : Expr) : Expr := compare .eq left right

/-- The conjunction of two expressions. -/
def and (left right : Expr) : Expr := .binary .and left right

/-- The disjunction of two expressions. -/
def or (left right : Expr) : Expr := .binary .or left right

/-- The conjunction of a list, grouped to the left; nothing for the empty list. -/
def conjunction? : List Expr → Option Expr
  | [] => none
  | e :: es => some (es.foldl and e)

/-- A condition that an optional one is strengthened by. -/
def strengthen (condition : Option Expr) (other : Expr) : Expr :=
  match condition with
  | some e => e.and other
  | none => other

/-- The number of rows. -/
def countRows : Expr := .call "COUNT" [.star none] false

/-- The number of distinct values. -/
def countDistinct (e : Expr) : Expr := .call "COUNT" [e] true

/-- Whether the expression is that column. -/
def isColumn (qualifier name : String) : Expr → Bool
  | .column (some q) n => q == qualifier && n == name
  | _ => false

end Expr

instance : Inhabited Expr := ⟨.star none⟩

/-! ### Building queries -/

/-- A stored table without alias. -/
def TableRef.stored (schema : Option String) (name : String) : TableRef := ⟨.stored schema name, none⟩

/-- The rows of a query under a name. -/
def TableRef.derived (query : Query) (label : String) : TableRef := ⟨.derived query, some label⟩

/-- The same source under an alias. -/
def TableRef.withAlias (table : TableRef) (label : String) : TableRef :=
  ⟨table.source, some label⟩

/-- A schema for a stored table; a derived one has none. -/
def TableRef.withSchema (table : TableRef) (schema : String) : TableRef :=
  match table.source with
  | .stored _ name => ⟨.stored (some schema) name, table.label⟩
  | .derived _ => table

/-- A left join on a condition. -/
def Join.left (table : TableRef) (condition : Expr) : Join := ⟨.left, table, some condition⟩

/-- An expression without alias. -/
def SelectItem.plain (e : Expr) : SelectItem := ⟨e, none⟩

namespace Query

/-- The query without clauses. -/
def empty : Query where
  select := []
  distinct := false
  source := none
  joins := []
  condition := none
  groupBy := []
  having := none
  orderBy := []
  limit := none
  offset := none

/-- The query with one more condition, which is ANDed to the present one. -/
def filter (q : Query) (condition : Expr) : Query :=
  { q with condition := some (Expr.strengthen q.condition condition) }

/-- The query with one more join. -/
def join (q : Query) (join : Join) : Query := { q with joins := q.joins ++ [join] }

end Query

instance : Inhabited Query := ⟨Query.empty⟩

end RelQuery.Sql
