/-
Module: RelQuery.Link
Purpose: How the rows of a relation's target are joined to a source: the occurrences that are reserved
  for it, their FROM or JOIN items and the conditions on the key columns.
Main exports: occurrence, keyLink, Reach, reach, Reach.joins, Reach.subquery
-/
import RelQuery.Alias
import RelQuery.Schema.Registry
import RelQuery.Sql.Query

namespace RelQuery

open Sql

/-- An occurrence of a table under an exposed name, which is an alias only if it differs from the
    table's name. -/
def occurrence (table : Table) (exposed : String) : TableRef :=
  ⟨.stored table.schema table.name, if exposed = table.name then none else some exposed⟩

/-- The condition that holds of every row. -/
def always : Expr := (Expr.int 1).eq (Expr.int 1)

/-- The condition that holds of no row. -/
def never : Expr := (Expr.int 1).eq (Expr.int 0)

/-- The equality of the columns of each pair, one side from each of two occurrences. -/
def keyLink (left right : String) (pairs : KeyPairs) : Expr :=
  (Expr.conjunction? (pairs.map fun (l, r) => (Expr.of left l).eq (Expr.of right r))).getD always

/-- The name that is proposed for the pivot occurrence of a relation. -/
def pivotHint (relation : String) : String := relation ++ "_pivot"

/-- The occurrences reserved for one use of a relation. -/
structure Reach where
  target : Table
  label : String
  /-- The pivot occurrence and its condition, for a relation that has one. -/
  pivot : Option (Table × String × Expr)
  /-- The condition that links the target to the pivot or else to the source. -/
  link : Expr
  names : Names

/-- Reserves occurrences for one use of a relation from a source occurrence: the pivot first, then the
    target. -/
def reach (names : Names) (source relation : String) : RelationKeys → Reach
  | .direct target pairs =>
    let (label, names) := names.reserve target.name (some relation)
    ⟨target, label, none, keyLink label source pairs, names⟩
  | .pivot pivot target sourcePairs targetPairs =>
    let (pivotAlias, names) := names.reserve pivot.name (some (pivotHint relation))
    let (label, names) := names.reserve target.name (some relation)
    ⟨target, label, some (pivot, pivotAlias, keyLink pivotAlias source sourcePairs),
      keyLink label pivotAlias targetPairs, names⟩

namespace Reach

/-- The left joins of the reserved occurrences. A further condition narrows the target alone. -/
def joins (reached : Reach) (condition : Option Expr) : List Join :=
  let on := match condition with
    | some e => reached.link.and e
    | none => reached.link
  let targetJoin := Join.left (occurrence reached.target reached.label) on
  match reached.pivot with
  | none => [targetJoin]
  | some (pivot, pivotAlias, link) => [Join.left (occurrence pivot pivotAlias) link, targetJoin]

/-- The correlated query of the reached rows that satisfy a condition. It selects a constant. -/
def subquery (reached : Reach) (condition : Option Expr) : Query :=
  let target := occurrence reached.target reached.label
  let rows : Query :=
    match reached.pivot with
    | none =>
      { Query.empty with
        select := [.plain (Expr.int 1)]
        source := some target
        condition := some reached.link }
    | some (pivot, pivotAlias, link) =>
      { Query.empty with
        select := [.plain (Expr.int 1)]
        source := some (occurrence pivot pivotAlias)
        joins := [⟨.inner, target, some reached.link⟩]
        condition := some link }
  match condition with
  | some e => rows.filter e
  | none => rows

end Reach

end RelQuery
