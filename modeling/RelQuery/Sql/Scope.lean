/-
Module: RelQuery.Sql.Scope
Purpose: Which names the FROM and JOIN items of a query expose, and which qualifiers it uses that neither
  its own items nor those of an enclosing query expose.
Main exports: TableRef.exposedName, Query.exposedNames, Query.unresolved
-/
import RelQuery.Sql.Query

namespace RelQuery.Sql

/-- The name that qualifies the columns of an occurrence: its alias, else the table's name. A derived
    table without alias has the empty name. -/
def TableRef.exposedName : TableRef → String
  | ⟨_, some label⟩ => label
  | ⟨.stored _ name, none⟩ => name
  | ⟨.derived _, none⟩ => ""

/-- The names that the items of a query expose, in order. -/
def Query.exposedNames (q : Query) : List String :=
  q.source.toList.map TableRef.exposedName ++ q.joins.map fun join => join.table.exposedName

/-- The names with one more, unless it is in scope or among them already. -/
def noteUnresolved (scope : List String) (qualifier : Option String) (found : List String) :
    List String :=
  match qualifier with
  | none => found
  | some name => if name ∈ scope ∨ name ∈ found then found else found ++ [name]

mutual

/-- Adds the qualifiers of an expression that are not in scope. -/
def Expr.addUnresolved (scope found : List String) : Expr → List String
  | .column qualifier _ => noteUnresolved scope qualifier found
  | .star qualifier => noteUnresolved scope qualifier found
  | .literal _ => found
  | .param _ => found
  | .binary _ left right => right.addUnresolved scope (left.addUnresolved scope found)
  | .not operand => operand.addUnresolved scope found
  | .isNull operand _ => operand.addUnresolved scope found
  | .paren inner => inner.addUnresolved scope found
  | .call _ arguments _ => Expr.addUnresolvedOfEach scope found arguments
  | .caseWhen subject branches otherwise =>
    let found := match subject with
      | some e => e.addUnresolved scope found
      | none => found
    let found := Expr.addUnresolvedOfBranches scope found branches
    match otherwise with
    | some e => e.addUnresolved scope found
    | none => found
  | .subquery query => query.addUnresolved scope found
  | .existsQuery query _ => query.addUnresolved scope found
  | .inList operand values _ =>
    Expr.addUnresolvedOfEach scope (operand.addUnresolved scope found) values
  | .inQuery operand query _ => query.addUnresolved scope (operand.addUnresolved scope found)
  | .likeEscape operand pattern _ _ =>
    pattern.addUnresolved scope (operand.addUnresolved scope found)

/-- Adds the qualifiers of a list of expressions. -/
def Expr.addUnresolvedOfEach (scope found : List String) : List Expr → List String
  | [] => found
  | e :: es => Expr.addUnresolvedOfEach scope (e.addUnresolved scope found) es

/-- Adds the qualifiers of the branches of a case distinction. -/
def Expr.addUnresolvedOfBranches (scope found : List String) : List (Expr × Expr) → List String
  | [] => found
  | (condition, result) :: branches =>
    Expr.addUnresolvedOfBranches scope
      (result.addUnresolved scope (condition.addUnresolved scope found)) branches

/-- Adds the qualifiers of a table occurrence. A derived table sees the enclosing scopes alone. -/
def TableRef.addUnresolved (scope found : List String) : TableRef → List String
  | ⟨.stored _ _, _⟩ => found
  | ⟨.derived query, _⟩ => query.addUnresolved scope found

/-- Adds the qualifiers of joined derived tables. -/
def Join.addUnresolvedOfTables (scope found : List String) : List Join → List String
  | [] => found
  | ⟨_, table, _⟩ :: joins =>
    Join.addUnresolvedOfTables scope (table.addUnresolved scope found) joins

/-- Adds the qualifiers of join conditions. -/
def Join.addUnresolvedOfConditions (scope found : List String) : List Join → List String
  | [] => found
  | ⟨_, _, some e⟩ :: joins =>
    Join.addUnresolvedOfConditions scope (e.addUnresolved scope found) joins
  | ⟨_, _, none⟩ :: joins => Join.addUnresolvedOfConditions scope found joins

/-- Adds the qualifiers of a SELECT list. -/
def SelectItem.addUnresolvedOfEach (scope found : List String) : List SelectItem → List String
  | [] => found
  | ⟨e, _⟩ :: items => SelectItem.addUnresolvedOfEach scope (e.addUnresolved scope found) items

/-- Adds the qualifiers of an ORDER BY list. -/
def OrderItem.addUnresolvedOfEach (scope found : List String) : List OrderItem → List String
  | [] => found
  | ⟨e, _, _⟩ :: items => OrderItem.addUnresolvedOfEach scope (e.addUnresolved scope found) items

/-- Adds the qualifiers of a query inside the given enclosing scope: first those of its derived tables,
    then those of its clauses, which see its own items too. -/
def Query.addUnresolved (outer found : List String) : Query → List String
  | ⟨select, _, source, joins, condition, groupBy, having, orderBy, _, _⟩ =>
    let scope := outer ++ (source.toList.map TableRef.exposedName
      ++ joins.map fun join => join.table.exposedName)
    let found := match source with
      | some table => table.addUnresolved outer found
      | none => found
    let found := Join.addUnresolvedOfTables outer found joins
    let found := SelectItem.addUnresolvedOfEach scope found select
    let found := Join.addUnresolvedOfConditions scope found joins
    let found := match condition with
      | some e => e.addUnresolved scope found
      | none => found
    let found := Expr.addUnresolvedOfEach scope found groupBy
    let found := match having with
      | some e => e.addUnresolved scope found
      | none => found
    OrderItem.addUnresolvedOfEach scope found orderBy

end

/-- The qualifiers used anywhere in a query that no enclosing item exposes, each once, in order of
    first use. -/
def Query.unresolved (q : Query) : List String := q.addUnresolved [] []

end RelQuery.Sql
