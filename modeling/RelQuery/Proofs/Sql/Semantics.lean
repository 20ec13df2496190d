/-
Module: RelQuery.Proofs.Sql.Semantics
Purpose: What expressions and queries mean on a database. FROM and JOIN items are combined from left to
  right, WHERE keeps the rows whose condition is true, groups are formed if anything is aggregated, and
  what is left is sorted, projected and cut. The order of rows that no ORDER BY decides is the engine's.
Main exports: Expr.eval, Query.answer, Expr.truth, Query.joined, Query.matching, window
-/
import RelQuery.Proofs.Sql.Database

namespace RelQuery.Sql

variable {V : Type}

/-! ### Shapes of expressions -/

/-- The name of the output column that an expression without alias makes. -/
def Expr.columnName : Expr → String
  | .column _ name => name
  | _ => ""

/-- The qualifier of a star, if the expression is one. -/
def Expr.star? : Expr → Option (Option String)
  | .star qualifier => some qualifier
  | _ => none

/-- Whether a function name is that of COUNT, in any case. -/
def isCount (function : String) : Bool := Text.uppercase function == "COUNT"

mutual

/-- Whether an expression aggregates rows of its own query. -/
def Expr.aggregates (engine : Engine V) : Expr → Bool
  | .call function arguments _ =>
    isCount function || engine.isAggregate function || Expr.anyAggregates engine arguments
  | .binary _ left right => left.aggregates engine || right.aggregates engine
  | .not operand => operand.aggregates engine
  | .isNull operand _ => operand.aggregates engine
  | .paren inner => inner.aggregates engine
  | .caseWhen subject branches otherwise =>
    (match subject with
      | some e => e.aggregates engine
      | none => false)
      || Expr.anyBranchAggregates engine branches
      || (match otherwise with
        | some e => e.aggregates engine
        | none => false)
  | .inList operand values _ => operand.aggregates engine || Expr.anyAggregates engine values
  | .inQuery operand _ _ => operand.aggregates engine
  | .likeEscape operand pattern _ _ => operand.aggregates engine || pattern.aggregates engine
  | .column _ _ => false
  | .literal _ => false
  | .param _ => false
  | .subquery _ => false
  | .existsQuery _ _ => false
  | .star _ => false

/-- Whether one of some expressions aggregates rows. -/
def Expr.anyAggregates (engine : Engine V) : List Expr → Bool
  | [] => false
  | e :: es => e.aggregates engine || Expr.anyAggregates engine es

/-- Whether one of the branches of a case distinction aggregates rows. -/
def Expr.anyBranchAggregates (engine : Engine V) : List (Expr × Expr) → Bool
  | [] => false
  | (condition, result) :: branches =>
    condition.aggregates engine || result.aggregates engine || Expr.anyBranchAggregates engine branches

end

/-- Whether a query answers with groups instead of rows. -/
def Query.isGrouped (engine : Engine V) (q : Query) : Bool :=
  !q.groupBy.isEmpty || q.having.isSome
    || q.select.any (fun item => item.expr.aggregates engine)
    || q.orderBy.any (fun item => item.expr.aggregates engine)

/-! ### Pieces of a query -/

/-- A binary operation on values. -/
def BinaryOp.apply (engine : Engine V) (op : BinaryOp) (a b : V) : V :=
  engine.ofTruth <|
    match op with
    | .compare comparison => engine.compare comparison a b
    | .and => (engine.truth a).and (engine.truth b)
    | .or => (engine.truth a).or (engine.truth b)
    | .like => engine.like a b none

/-- The scopes that the FROM and JOIN items so far make, and the scope in which all of them are absent. -/
structure Joined (V : Type) where
  scopes : List (Scope V)
  absent : Scope V

/-- The scopes that one more row and a present scope make, where they meet a condition. -/
def extendMatching (name : String) (rows : List (Record V)) (meets : Scope V → Bool) (scope : Scope V) :
    List (Scope V) :=
  (rows.map fun row => (name, row) :: scope).filter meets

/-- The scopes that a left join makes of a present scope: where no row matches, an absent one does. -/
def extendLeft (engine : Engine V) (name : String) (right : Instance V) (meets : Scope V → Bool)
    (scope : Scope V) : List (Scope V) :=
  match extendMatching name right.rows meets scope with
  | [] => [(name, engine.absentRecord right.columns) :: scope]
  | scopes => scopes

/-- Adds a FROM or JOIN item to the ones before it. -/
def JoinKind.combine (engine : Engine V) (kind : JoinKind) (name : String) (right : Instance V)
    (meets : Scope V → Bool) (left : Joined V) : Joined V :=
  let inner := left.scopes.flatMap (extendMatching name right.rows meets)
  let outer := left.scopes.flatMap (extendLeft engine name right meets)
  let unmatched := (right.rows.filter fun row =>
    !left.scopes.any fun scope => meets ((name, row) :: scope)).map fun row => (name, row) :: left.absent
  { scopes := match kind with
      | .inner => inner
      | .cross => inner
      | .left => outer
      | .right => inner ++ unmatched
      | .full => outer ++ unmatched
    absent := (name, engine.absentRecord right.columns) :: left.absent }

/-- The groups of scopes whose key values count as one, in order of first appearance. -/
def groupScopes (engine : Engine V) (key : Scope V → List V) (scopes : List (Scope V)) :
    List (List (Scope V)) :=
  let leaders := scopes.eraseDupsBy fun a b => engine.sameAll (key a) (key b)
  leaders.map fun leader => scopes.filter fun scope => engine.sameAll (key leader) (key scope)

/-- The fields that a star stands for: those of one item, or those of all items of the query itself. -/
def starFields (outer scope : Scope V) (qualifier : Option String) : Record V :=
  match qualifier with
  | some name => scope.get name
  | none => (scope.take (scope.length - outer.length)).reverse.flatMap Prod.snd

/-- The rows that an offset and a limit leave. -/
def window {α : Type} (limit offset : Option UInt64) (rows : List α) : List α :=
  let rest := rows.drop (offset.getD 0).toNat
  match limit with
  | some n => rest.take n.toNat
  | none => rest

/-- Whether a condition is true; a missing one is. -/
def Engine.holds (engine : Engine V) (value : Option V) : Bool :=
  (value.map engine.truth).getD .yes == .yes

/-- The first value of a record. -/
def firstValue (engine : Engine V) (record : Record V) : V :=
  match record with
  | (_, value) :: _ => value
  | [] => engine.null

/-- Whether two output rows count as one. -/
def sameRecord (engine : Engine V) (a b : Record V) : Bool :=
  engine.sameAll (a.map Prod.snd) (b.map Prod.snd)

/-! ### Evaluation -/

mutual

/-- The value of an expression in a scope. Aggregates read the scopes of a group. -/
def Expr.eval (db : Database V) (scope : Scope V) (group : List (Scope V)) : Expr → V
  | .column (some qualifier) name => db.engine.read (scope.get qualifier) name
  | .column none name =>
    (scope.findSome? fun (_, record) => record.lookup name).getD db.engine.null
  | .literal value => db.engine.ofLiteral value
  | .param value => db.engine.ofLiteral value
  | .binary op left right => op.apply db.engine (left.eval db scope group) (right.eval db scope group)
  | .not operand => db.engine.ofTruth (db.engine.truth (operand.eval db scope group)).not
  | .call function arguments distinct =>
    let grouped := group.map fun member => Expr.evalEach db member [] arguments
    if isCount function then db.engine.ofLiteral (.int (db.engine.countOf distinct grouped))
    else db.engine.call function distinct (Expr.evalEach db scope group arguments) grouped
  | .caseWhen subject branches otherwise =>
    Expr.evalBranches db scope group (Expr.evalOption db scope group subject)
      ((Expr.evalOption db scope group otherwise).getD db.engine.null) branches
  | .subquery query =>
    match (query.answer db scope).rows with
    | record :: _ => firstValue db.engine record
    | [] => db.engine.null
  | .existsQuery query negated =>
    db.engine.ofTruth (Truth.ofBool ((query.answer db scope).rows.isEmpty == negated))
  | .inList operand values negated =>
    let value := operand.eval db scope group
    db.engine.ofTruth ((Truth.any ((Expr.evalEach db scope group values).map
      (db.engine.compare .eq value))).negatedIf negated)
  | .inQuery operand query negated =>
    let value := operand.eval db scope group
    db.engine.ofTruth ((Truth.any ((query.answer db scope).rows.map fun record =>
      db.engine.compare .eq value (firstValue db.engine record))).negatedIf negated)
  | .isNull operand negated =>
    db.engine.ofTruth (Truth.ofBool (db.engine.isNull (operand.eval db scope group) != negated))
  | .likeEscape operand pattern escape negated =>
    db.engine.ofTruth ((db.engine.like (operand.eval db scope group) (pattern.eval db scope group)
      (some escape)).negatedIf negated)
  | .star _ => db.engine.ofLiteral (.int 1)
  | .paren inner => inner.eval db scope group

/-- The values of a list of expressions. -/
def Expr.evalEach (db : Database V) (scope : Scope V) (group : List (Scope V)) : List Expr → List V
  | [] => []
  | e :: es => e.eval db scope group :: Expr.evalEach db scope group es

/-- The value of an expression that may be missing. -/
def Expr.evalOption (db : Database V) (scope : Scope V) (group : List (Scope V)) : Option Expr → Option V
  | none => none
  | some e => some (e.eval db scope group)

/-- The result of the first branch whose condition is true or equals the subject. -/
def Expr.evalBranches (db : Database V) (scope : Scope V) (group : List (Scope V)) (subject : Option V)
    (fallback : V) : List (Expr × Expr) → V
  | [] => fallback
  | (condition, result) :: branches =>
    let value := condition.eval db scope group
    let chosen := match subject with
      | some s => db.engine.compare .eq s value
      | none => db.engine.truth value
    if chosen = .yes then result.eval db scope group
    else Expr.evalBranches db scope group subject fallback branches

/-- The rows that a FROM or JOIN item reads. A derived table sees the enclosing scopes alone. -/
def TableRef.contents (db : Database V) (outer : Scope V) : TableRef → Instance V
  | ⟨.stored schema name, _⟩ => db.tables schema name
  | ⟨.derived query, _⟩ => query.answer db outer

/-- What the first item of a query makes of the enclosing scope. -/
def TableRef.start (db : Database V) (outer : Scope V) : Option TableRef → Joined V
  | none => ⟨[outer], outer⟩
  | some table =>
    JoinKind.cross.combine db.engine table.exposedName (table.contents db outer) (fun _ => true)
      ⟨[outer], outer⟩

/-- Adds joins to the items before them. A join keeps the pairs of rows for which its condition is true. -/
def Join.combineAll (db : Database V) (outer : Scope V) (joined : Joined V) : List Join → Joined V
  | [] => joined
  | ⟨kind, table, condition⟩ :: joins =>
    Join.combineAll db outer
      (kind.combine db.engine table.exposedName (table.contents db outer)
        (fun scope => db.engine.holds (Expr.evalOption db scope [] condition)) joined) joins

/-- The output row of a SELECT list. -/
def SelectItem.record (db : Database V) (outer scope : Scope V) (group : List (Scope V)) :
    List SelectItem → Record V
  | [] => []
  | ⟨e, label⟩ :: items =>
    (match e.star? with
      | some qualifier => starFields outer scope qualifier
      | none => [(label.getD e.columnName, e.eval db scope group)])
      ++ SelectItem.record db outer scope group items

/-- The values by which a row is sorted. -/
def OrderItem.keys (db : Database V) (scope : Scope V) (group : List (Scope V)) : List OrderItem → List V
  | [] => []
  | ⟨e, _, _⟩ :: items => e.eval db scope group :: OrderItem.keys db scope group items

/-- The answer to a query inside an enclosing scope. -/
def Query.answer (db : Database V) (outer : Scope V) : Query → Instance V
  | ⟨select, distinct, source, joins, condition, groupBy, having, orderBy, limit, offset⟩ =>
    let query : Query := ⟨select, distinct, source, joins, condition, groupBy, having, orderBy, limit, offset⟩
    let joined := Join.combineAll db outer (TableRef.start db outer source) joins
    let kept := joined.scopes.filter fun scope =>
      db.engine.holds (Expr.evalOption db scope [] condition)
    let groups := if groupBy.isEmpty then [kept]
      else groupScopes db.engine (fun scope => Expr.evalEach db scope [] groupBy) kept
    let candidates : List (Candidate V) :=
      if query.isGrouped db.engine then
        (groups.map fun group => (group.headD joined.absent, group)).filter fun (scope, group) =>
          db.engine.holds (Expr.evalOption db scope group having)
      else kept.map fun scope => (scope, [])
    let terms := orderBy.map fun item => (item.direction, item.nulls)
    let sorted := (db.engine.arrange query candidates).mergeSort fun a b =>
      db.engine.sortsBeforeAll terms (OrderItem.keys db a.1 a.2 orderBy) (OrderItem.keys db b.1 b.2 orderBy)
    let records := sorted.map fun (scope, group) => SelectItem.record db outer scope group select
    { columns := (SelectItem.record db outer joined.absent [] select).map Prod.fst
      rows := window limit offset
        (if distinct then records.eraseDupsBy (sameRecord db.engine) else records) }

end

/-! ### Conditions and the rows before projection -/

/-- The truth value of a condition in a scope. -/
def Expr.truth (db : Database V) (scope : Scope V) (e : Expr) : Truth :=
  db.engine.truth (e.eval db scope [])

/-- The truth value of a condition that may be missing, which then holds. -/
def conditionTruth (db : Database V) (scope : Scope V) (condition : Option Expr) : Truth :=
  (condition.map (Expr.truth db scope)).getD .yes

/-- The scopes that the FROM and JOIN items of a query make. -/
def Query.joined (db : Database V) (outer : Scope V) (q : Query) : Joined V :=
  Join.combineAll db outer (TableRef.start db outer q.source) q.joins

/-- The scopes that the FROM, JOIN and WHERE clauses of a query leave. -/
def Query.matching (db : Database V) (outer : Scope V) (q : Query) : List (Scope V) :=
  (q.joined db outer).scopes.filter fun scope => conditionTruth db scope q.condition == .yes

/-- Whether a row may stand before another one by an ORDER BY list. -/
def ordersBefore (db : Database V) (items : List OrderItem) (a b : Scope V) : Bool :=
  db.engine.sortsBeforeAll (items.map fun item => (item.direction, item.nulls))
    (OrderItem.keys db a [] items) (OrderItem.keys db b [] items)

/-- The matching scopes of a query in the order of its answer. -/
def Query.ordered (db : Database V) (outer : Scope V) (q : Query) : List (Scope V) :=
  ((db.engine.arrange q ((q.matching db outer).map fun scope => (scope, []))).map Prod.fst).mergeSort
    (ordersBefore db q.orderBy)

/-! ### Equations -/

section

variable (db : Database V) (outer scope : Scope V) (group : List (Scope V))

namespace Expr

@[simp] theorem eval_column (qualifier name : String) :
    (Expr.column (some qualifier) name).eval db scope group = db.engine.read (scope.get qualifier) name := rfl

@[simp] theorem eval_literal (value : Literal) :
    (Expr.literal value).eval db scope group = db.engine.ofLiteral value := rfl

@[simp] theorem eval_param (value : Literal) :
    (Expr.param value).eval db scope group = db.engine.ofLiteral value := rfl

@[simp] theorem eval_binary (op : BinaryOp) (a b : Expr) :
    (Expr.binary op a b).eval db scope group =
      op.apply db.engine (a.eval db scope group) (b.eval db scope group) := rfl

@[simp] theorem eval_not (e : Expr) :
    (Expr.not e).eval db scope group =
      db.engine.ofTruth (db.engine.truth (e.eval db scope group)).not := rfl

@[simp] theorem eval_caseWhen (subject : Option Expr) (branches : List (Expr × Expr))
    (otherwise : Option Expr) :
    (Expr.caseWhen subject branches otherwise).eval db scope group =
      Expr.evalBranches db scope group (Expr.evalOption db scope group subject)
        ((Expr.evalOption db scope group otherwise).getD db.engine.null) branches := rfl

@[simp] theorem evalBranches_nil (subject : Option V) (fallback : V) :
    Expr.evalBranches db scope group subject fallback [] = fallback := rfl

/-- The first branch of a case distinction without subject. -/
@[simp] theorem evalBranches_cons (fallback : V) (condition result : Expr) (branches : List (Expr × Expr)) :
    Expr.evalBranches db scope group none fallback ((condition, result) :: branches) =
      if db.engine.truth (condition.eval db scope group) = .yes then result.eval db scope group
      else Expr.evalBranches db scope group none fallback branches := rfl

@[simp] theorem eval_existsQuery (query : Query) (negated : Bool) :
    (Expr.existsQuery query negated).eval db scope group =
      db.engine.ofTruth (Truth.ofBool ((query.answer db scope).rows.isEmpty == negated)) := rfl

@[simp] theorem eval_inList (e : Expr) (values : List Expr) (negated : Bool) :
    (Expr.inList e values negated).eval db scope group =
      db.engine.ofTruth ((Truth.any ((Expr.evalEach db scope group values).map
        (db.engine.compare .eq (e.eval db scope group)))).negatedIf negated) := rfl

@[simp] theorem eval_inQuery (e : Expr) (query : Query) (negated : Bool) :
    (Expr.inQuery e query negated).eval db scope group =
      db.engine.ofTruth ((Truth.any ((query.answer db scope).rows.map fun record =>
        db.engine.compare .eq (e.eval db scope group) (firstValue db.engine record))).negatedIf negated) :=
  rfl

@[simp] theorem eval_isNull (e : Expr) (negated : Bool) :
    (Expr.isNull e negated).eval db scope group =
      db.engine.ofTruth (Truth.ofBool (db.engine.isNull (e.eval db scope group) != negated)) := rfl

@[simp] theorem eval_likeEscape (e pattern : Expr) (escape : Char) (negated : Bool) :
    (Expr.likeEscape e pattern escape negated).eval db scope group =
      db.engine.ofTruth ((db.engine.like (e.eval db scope group) (pattern.eval db scope group)
        (some escape)).negatedIf negated) := rfl

@[simp] theorem evalEach_nil : Expr.evalEach db scope group [] = [] := rfl

@[simp] theorem evalEach_cons (e : Expr) (es : List Expr) :
    Expr.evalEach db scope group (e :: es) =
      e.eval db scope group :: Expr.evalEach db scope group es := rfl

@[simp] theorem evalOption_none : Expr.evalOption db scope group none = none := rfl

@[simp] theorem evalOption_some (e : Expr) :
    Expr.evalOption db scope group (some e) = some (e.eval db scope group) := rfl

end Expr

@[simp] theorem TableRef.contents_stored (schema : Option String) (name : String) (label : Option String) :
    TableRef.contents db outer ⟨.stored schema name, label⟩ = db.tables schema name := rfl

@[simp] theorem TableRef.contents_derived (query : Query) (label : Option String) :
    TableRef.contents db outer ⟨.derived query, label⟩ = query.answer db outer := rfl

@[simp] theorem TableRef.start_none : TableRef.start db outer none = ⟨[outer], outer⟩ := rfl

theorem TableRef.start_some (table : TableRef) :
    TableRef.start db outer (some table) =
      JoinKind.cross.combine db.engine table.exposedName (table.contents db outer) (fun _ => true)
        ⟨[outer], outer⟩ := rfl

@[simp] theorem Join.combineAll_nil (joined : Joined V) :
    Join.combineAll db outer joined [] = joined := rfl

theorem Join.combineAll_cons (kind : JoinKind) (table : TableRef) (condition : Option Expr)
    (joins : List Join) (joined : Joined V) :
    Join.combineAll db outer joined (⟨kind, table, condition⟩ :: joins) =
      Join.combineAll db outer
        (kind.combine db.engine table.exposedName (table.contents db outer)
          (fun scope => db.engine.holds (Expr.evalOption db scope [] condition)) joined) joins := rfl

@[simp] theorem SelectItem.record_nil : SelectItem.record db outer scope group [] = [] := rfl

@[simp] theorem SelectItem.record_cons (e : Expr) (label : Option String) (items : List SelectItem) :
    SelectItem.record db outer scope group (⟨e, label⟩ :: items) =
      (match e.star? with
        | some qualifier => starFields outer scope qualifier
        | none => [(label.getD e.columnName, e.eval db scope group)])
        ++ SelectItem.record db outer scope group items := rfl

@[simp] theorem OrderItem.keys_nil : OrderItem.keys db scope group [] = [] := rfl

@[simp] theorem OrderItem.keys_cons (e : Expr) (direction : Option Direction) (nulls : Option NullsOrder)
    (items : List OrderItem) :
    OrderItem.keys db scope group (⟨e, direction, nulls⟩ :: items) =
      e.eval db scope group :: OrderItem.keys db scope group items := rfl

end

end RelQuery.Sql
