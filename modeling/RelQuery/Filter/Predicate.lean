/-
Module: RelQuery.Filter.Predicate
Purpose: Filters as SQL predicates on a table occurrence. A condition on related rows becomes a correlated
  EXISTS; only where the filter stands in a conjunction of the outermost WHERE clause, a condition on the
  one row of a to-one relation becomes a left join instead.
Main exports: FieldOp.predicate, Translation, Filter.lower, Filter.translate, Filter.correlated
-/
import RelQuery.Filter.Pattern
import RelQuery.Link
import RelQuery.Path

namespace RelQuery

open Sql

/-- The predicate of a condition on a column. Values are bound as parameters. -/
def FieldOp.predicate (column : Expr) : FieldOp → Expr
  | .compare operator value => Expr.compare operator column (.param value)
  | .isIn values negated => .inList column (values.map .param) negated
  | .holds position text => .likeEscape column (.param (.text (position.pattern text))) likeEscape false
  | .isNull flag => .isNull column !flag

/-- The condition that a predicate is false or null. -/
def counterExample (predicate : Expr) : Expr :=
  (Expr.caseWhen none [(predicate, Expr.int 1)] (some (Expr.int 0))).eq (Expr.int 0)

/-- The condition that a predicate, where missing counts as true, does not hold. -/
def failing : Option Expr → Expr
  | some predicate => counterExample predicate
  | none => never

/-- The rows that a predicate asks for together with the joins it needs, and the names reserved so far.
    Without a predicate there is no constraint. -/
structure Translation where
  predicate : Option Expr
  joins : List Join
  names : Names

/-- Predicates that all have to hold, with their joins. -/
structure Conjuncts where
  predicates : List Expr
  joins : List Join
  names : Names

/-- The disjunction of a list, grouped to the left. -/
def disjunction? : List Expr → Option Expr
  | [] => none
  | e :: es => some (es.foldl Expr.or e)

/-- Whether a use of a relation may become a join: it reaches at most one row and needs no pivot. -/
def isJoinable (relation : Relation) : RelationKeys → Bool
  | .direct _ _ => !relation.kind.isToMany
  | .pivot _ _ _ _ => false

/-- The test that a joined row is present: its first key column is not null. -/
def presence (reached : Reach) : RelationKeys → Expr
  | .direct _ ((column, _) :: _) => .isNull (Expr.of reached.label column) true
  | _ => always

/-- The test whether a relation reaches any row, which is wanted if the flag equals `wanted`. -/
def emptinessTest (names : Names) (label relation : String) (keys : RelationKeys) (wanted : Bool)
    (flag : Option Bool) : List Expr × Names :=
  match flag with
  | none => ([], names)
  | some value =>
    let reached := reach names label relation keys
    ([.existsQuery (reached.subquery none) (value != wanted)], reached.names)

namespace Filter

mutual

/-- The predicate of a filter on an occurrence of a table. `path` leads from the root to the table, and
    `joinable` says whether joins may be added. -/
def lower (registry : Registry) (table : Table) (label path : String) (joinable : Bool)
    (names : Names) : Filter → Except QueryError Translation
  | .all parts => do
    let conjuncts ← lowerAll registry table label path joinable names parts
    return ⟨Expr.conjunction? conjuncts.predicates, conjuncts.joins, conjuncts.names⟩
  | .any [] => .ok ⟨some never, [], names⟩
  | .any (part :: parts) => do
    let (predicates, names) ← lowerAny registry table label path names (part :: parts)
    return ⟨predicates.bind disjunction?, [], names⟩
  | .not part => do
    let inner ← lower registry table label path false names part
    match inner.predicate with
    | some e => return ⟨some (.not e), [], inner.names⟩
    | none => return ⟨some never, [], inner.names⟩
  | .field column op =>
    if table.hasColumn column then .ok ⟨some (op.predicate (Expr.of label column)), [], names⟩
    else .error (.unknownColumn table.name column)
  | .relation name conditions => do
    let here := joinPath path name
    if (table.relation? name).isNone && table.hasColumn name then
      .error (.invalidFilter ⟨here, .noFieldOperator⟩)
    else
      let (declared, keys) ← registry.relation table name
      if conditions.hasNoOperator then .error (.missingOperator here)
      else
        let conjuncts ← lowerRelation registry label here joinable names declared keys conditions
        return ⟨Expr.conjunction? conjuncts.predicates, conjuncts.joins, conjuncts.names⟩

/-- The predicates of the parts of a conjunction that constrain anything. -/
def lowerAll (registry : Registry) (table : Table) (label path : String) (joinable : Bool)
    (names : Names) : List Filter → Except QueryError Conjuncts
  | [] => .ok ⟨[], [], names⟩
  | part :: parts => do
    let first ← lower registry table label path joinable names part
    let others ← lowerAll registry table label path joinable first.names parts
    return ⟨first.predicate.toList ++ others.predicates, first.joins ++ others.joins, others.names⟩

/-- The predicates of the parts of a disjunction. A part without constraint makes the whole one
    unconstrained, and the parts behind it are not looked at. -/
def lowerAny (registry : Registry) (table : Table) (label path : String) (names : Names) :
    List Filter → Except QueryError (Option (List Expr) × Names)
  | [] => .ok (some [], names)
  | part :: parts => do
    let first ← lower registry table label path false names part
    match first.predicate with
    | none => return (none, first.names)
    | some e =>
      let (others, names) ← lowerAny registry table label path first.names parts
      return (others.map (e :: ·), names)

/-- The predicates of the conditions on a relation, each of which reserves occurrences of its own. -/
def lowerRelation (registry : Registry) (label here : String) (joinable : Bool) (names : Names)
    (declared : Relation) (keys : RelationKeys) :
    RelationFilter → Except QueryError Conjuncts
  | ⟨someRow, noRow, everyRow, isEmpty, isNotEmpty⟩ => do
    let matching ← (match someRow with
      | none => .ok ⟨[], [], names⟩
      | some part =>
        let reached := reach names label declared.name keys
        if joinable && isJoinable declared keys then do
          let inner ← lower registry reached.target reached.label here true reached.names part
          let present := presence reached keys
          let predicate := match inner.predicate with
            | some e => present.and e
            | none => present
          return ⟨[predicate], reached.joins none ++ inner.joins, inner.names⟩
        else do
          let inner ← lower registry reached.target reached.label here false reached.names part
          return ⟨[.existsQuery (reached.subquery inner.predicate) false], [], inner.names⟩ :
      Except QueryError Conjuncts)
    let (absent, names) ← (match noRow with
      | none => .ok ([], matching.names)
      | some part => do
        let reached := reach matching.names label declared.name keys
        let inner ← lower registry reached.target reached.label here false reached.names part
        return ([.existsQuery (reached.subquery inner.predicate) true], inner.names) :
      Except QueryError (List Expr × Names))
    let (throughout, names) ← (match everyRow with
      | none => .ok ([], names)
      | some part => do
        let reached := reach names label declared.name keys
        let inner ← lower registry reached.target reached.label here false reached.names part
        return ([.existsQuery (reached.subquery (some (failing inner.predicate))) true],
          inner.names) :
      Except QueryError (List Expr × Names))
    let (emptiness, names) := emptinessTest names label declared.name keys false isEmpty
    let (existence, names) := emptinessTest names label declared.name keys true isNotEmpty
    return ⟨matching.predicates ++ absent ++ throughout ++ emptiness ++ existence, matching.joins, names⟩

end

/-- The predicate of a filter for the outermost WHERE clause. -/
def translate (registry : Registry) (table : Table) (label : String) (filter : Filter)
    (names : Names) : Except QueryError Translation :=
  filter.lower registry table label "" true names

/-- The predicate of a filter where no joins can be added. -/
def correlated (registry : Registry) (table : Table) (label path : String) (filter : Filter)
    (names : Names) : Except QueryError (Option Expr × Names) :=
  (filter.lower registry table label path false names).map fun translation =>
    (translation.predicate, translation.names)

end Filter

end RelQuery
