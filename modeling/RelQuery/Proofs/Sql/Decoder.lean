/-
Module: RelQuery.Proofs.Sql.Decoder
Purpose: A reader of every expression and query that can be built, which keeps the parentheses that it
  reads. An operator applies to what stands before it if it holds on to that tightly enough, so that one
  level of reading takes the place of a reader for each kind of operation.
Main exports: Token.pull, Token.begins, Token.stage, Entry, decodeExpr, decodeRest, decodeQuery
-/
import RelQuery.Proofs.Sql.AsWritten

namespace RelQuery.Sql

/-! ### What tokens do -/

/-- How tightly a token holds on to the expression before it. A token that holds on by five or six goes on
    with a pattern or with a qualifier. -/
def Token.pull : Token → Nat
  | .keyword .or => 1
  | .keyword .and => 2
  | .comparison _ => 4
  | .keyword .isNull => 4
  | .keyword .isNotNull => 4
  | .keyword .in => 4
  | .keyword .like => 4
  | .keyword .not => 4
  | .keyword .escape => 5
  | .dot => 6
  | _ => 0

/-- Whether an expression can begin with a token. -/
def Token.begins : Token → Bool
  | .identifier _ => true
  | .literal _ => true
  | .param _ => true
  | .star => true
  | .function _ => true
  | .openParen => true
  | .keyword .not => true
  | .keyword .case => true
  | .keyword .exist => true
  | _ => false

/-- The place of a clause or of the end of a query, by the token that it begins with. -/
def Token.stage : Token → Nat
  | .keyword .from => 1
  | .keyword .inner => 2
  | .keyword .left => 2
  | .keyword .right => 2
  | .keyword .full => 2
  | .keyword .cross => 2
  | .keyword .where => 3
  | .keyword .groupBy => 4
  | .keyword .having => 5
  | .keyword .orderBy => 6
  | .keyword .limit => 7
  | .keyword .offset => 7
  | .closeParen => 8
  | _ => 0

/-- How tightly what follows holds on to the expression before it. -/
def pull : List Token → Nat
  | [] => 0
  | t :: _ => t.pull

/-- Whether an expression follows. -/
def begins : List Token → Bool
  | [] => false
  | t :: _ => t.begins

/-! ### Entries of lists -/

/-- An entry of a list of expressions, with everything that may stand behind one in some list. -/
structure Entry where
  expr : Expr
  label : Option String
  direction : Option Direction
  nulls : Option NullsOrder

namespace Entry

/-- An expression alone. -/
def ofExpr (e : Expr) : Entry := ⟨e, none, none, none⟩

/-- An item of a SELECT list. -/
def ofSelect (item : SelectItem) : Entry := ⟨item.expr, item.label, none, none⟩

/-- An item of an ORDER BY list. -/
def ofOrder (item : OrderItem) : Entry := ⟨item.expr, none, item.direction, item.nulls⟩

/-- The item of a SELECT list that an entry is. -/
def toSelect (entry : Entry) : SelectItem := ⟨entry.expr, entry.label⟩

/-- The item of an ORDER BY list that an entry is. -/
def toOrder (entry : Entry) : OrderItem := ⟨entry.expr, entry.direction, entry.nulls⟩

end Entry

/-! ### Expressions and queries -/

namespace Dialect

mutual

/-- An expression, as far as operators hold on at least as tightly as that. -/
def decodeExpr (d : Dialect) (n : Nat) : List Token → Option (Expr × List Token)
  | .keyword .not :: ts => do
    let (e, ts) ← d |>.decodeExpr 3 ts
    d |>.decodeRest n (.not e) ts
  | ts => do
    let (e, ts) ← d |>.decodeOperand ts
    d |>.decodeRest n e ts
partial_fixpoint

/-- What operators make of an expression that has been read, as far as they hold on to it tightly enough. -/
def decodeRest (d : Dialect) (n : Nat) (e : Expr) (ts : List Token) : Option (Expr × List Token) :=
  if pull ts < n then some (e, ts)
  else match ts with
    | .keyword .or :: ts => do
      let (f, ts) ← d |>.decodeExpr 2 ts
      d |>.decodeRest n (e.or f) ts
    | .keyword .and :: ts => do
      let (f, ts) ← d |>.decodeExpr 3 ts
      d |>.decodeRest n (e.and f) ts
    | .comparison operator :: ts => do
      let (f, ts) ← d |>.decodeExpr 5 ts
      d |>.decodeRest n (.compared operator e f) ts
    | .keyword .isNull :: ts => d |>.decodeRest n (.isNull e false) ts
    | .keyword .isNotNull :: ts => d |>.decodeRest n (.isNull e true) ts
    | .keyword .in :: ts => do
      let (f, ts) ← d |>.decodeMembers e false ts
      d |>.decodeRest n f ts
    | .keyword .not :: .keyword .in :: ts => do
      let (f, ts) ← d |>.decodeMembers e true ts
      d |>.decodeRest n f ts
    | .keyword .like :: ts => do
      let (f, ts) ← d |>.decodePattern e false ts
      d |>.decodeRest n f ts
    | .keyword .not :: .keyword .like :: ts => do
      let (f, ts) ← d |>.decodePattern e true ts
      d |>.decodeRest n f ts
    | ts => some (e, ts)
partial_fixpoint

/-- The list or the query behind IN. -/
def decodeMembers (d : Dialect) (e : Expr) (negated : Bool) : List Token → Option (Expr × List Token)
  | .openParen :: .keyword .select :: ts => do
    let (query, ts) ← d |>.decodeQuery ts
    let ts ← expect .closeParen ts
    some (.inQuery e query negated, ts)
  | .openParen :: ts => do
    let (values, ts) ← d |>.decodeEntries ts
    let ts ← expect .closeParen ts
    some (.inList e (values.map Entry.expr) negated, ts)
  | _ => none
partial_fixpoint

/-- The pattern behind LIKE, and its escape character if there is one. -/
def decodePattern (d : Dialect) (e : Expr) (negated : Bool) (ts : List Token) :
    Option (Expr × List Token) := do
  let (pattern, ts) ← d |>.decodeExpr 5 ts
  match ts with
  | .keyword .escape :: .literal (.text escape) :: ts =>
    match escape.toList with
    | [c] => some (.likeEscape e pattern c negated, ts)
    | _ => none
  | ts => if negated then none else some (.binary .like e pattern, ts)
partial_fixpoint

/-- A column, a star, a value, a function, a case distinction, an EXISTS, a query in parentheses, or an
    expression in parentheses. -/
def decodeOperand (d : Dialect) : List Token → Option (Expr × List Token)
  | .identifier qualifier :: .dot :: .identifier name :: ts => some (.column (some qualifier) name, ts)
  | .identifier qualifier :: .dot :: .star :: ts => some (.star (some qualifier), ts)
  | .identifier name :: ts => some (.column none name, ts)
  | .star :: ts => some (.star none, ts)
  | .literal value :: ts => some (.literal value, ts)
  | .param value :: ts => some (.param value, ts)
  | .function function :: .openParen :: ts => do
    let (distinct, ts) := readDistinct ts
    let (arguments, ts) ← d |>.decodeList ts
    let ts ← expect .closeParen ts
    some (.call function (arguments.map Entry.expr) distinct, ts)
  | .keyword .case :: ts => do
    let (subject, ts) ← d |>.decodeSubject ts
    let (branches, ts) ← d |>.decodeBranches ts
    let (otherwise, ts) ← d |>.decodeCondition .else ts
    let ts ← expect (kw .end) ts
    some (.caseWhen subject branches otherwise, ts)
  | .keyword .exist :: .openParen :: .keyword .select :: ts => do
    let (query, ts) ← d |>.decodeQuery ts
    let ts ← expect .closeParen ts
    some (.existsQuery query false, ts)
  | .openParen :: .keyword .select :: ts => do
    let (query, ts) ← d |>.decodeQuery ts
    let ts ← expect .closeParen ts
    some (.subquery query, ts)
  | .openParen :: ts => do
    let (e, ts) ← d |>.decodeExpr 1 ts
    let ts ← expect .closeParen ts
    some (.paren e, ts)
  | _ => none
partial_fixpoint

/-- The expression that a case distinction compares with, if there is one. -/
def decodeSubject (d : Dialect) (ts : List Token) : Option (Option Expr × List Token) :=
  if begins ts then do
    let (e, ts) ← d |>.decodeExpr 1 ts
    some (some e, ts)
  else some (none, ts)
partial_fixpoint

/-- The branches of a case distinction. -/
def decodeBranches (d : Dialect) : List Token → Option (List (Expr × Expr) × List Token)
  | .keyword .when :: ts => do
    let (condition, ts) ← d |>.decodeExpr 1 ts
    let ts ← expect (kw .then) ts
    let (result, ts) ← d |>.decodeExpr 1 ts
    let (branches, ts) ← d |>.decodeBranches ts
    some ((condition, result) :: branches, ts)
  | ts => some ([], ts)
partial_fixpoint

/-- Entries with commas between them. -/
def decodeEntries (d : Dialect) (ts : List Token) : Option (List Entry × List Token) := do
  let (e, ts) ← d |>.decodeExpr 1 ts
  let (label, ts) := readAlias ts
  let (direction, ts) := readDirection ts
  let (nulls, ts) := readNulls ts
  match ts with
  | .comma :: ts =>
    let (entries, ts) ← d |>.decodeEntries ts
    some (⟨e, label, direction, nulls⟩ :: entries, ts)
  | ts => some ([⟨e, label, direction, nulls⟩], ts)
partial_fixpoint

/-- A list that may be empty. -/
def decodeList (d : Dialect) (ts : List Token) : Option (List Entry × List Token) :=
  if begins ts then d |>.decodeEntries ts else some ([], ts)
partial_fixpoint

/-- The expression behind a keyword, if that follows. -/
def decodeCondition (d : Dialect) (word : Keyword) (ts : List Token) :
    Option (Option Expr × List Token) :=
  match expect (.keyword word) ts with
  | some ts => do
    let (e, ts) ← d |>.decodeExpr 1 ts
    some (some e, ts)
  | none => some (none, ts)
partial_fixpoint

/-- The list behind a keyword, if that follows. -/
def decodeClause (d : Dialect) (word : Keyword) (ts : List Token) : Option (List Entry × List Token) :=
  match expect (.keyword word) ts with
  | some ts => d |>.decodeEntries ts
  | none => some ([], ts)
partial_fixpoint

/-- The ORDER BY clause, if there is one. An ordering by a constant null orders nothing. -/
def decodeOrder (d : Dialect) : List Token → Option (List Entry × List Token)
  | .keyword .orderBy :: .openParen :: .keyword .select :: .keyword .null :: .closeParen :: ts => some ([], ts)
  | ts => d |>.decodeClause .orderBy ts
partial_fixpoint

/-- A stored table or a derived one, and its alias. -/
def decodeTable (d : Dialect) : List Token → Option (TableRef × List Token)
  | .qualified schema name :: ts =>
    let (label, ts) := readAlias ts
    some (⟨.stored schema name, label⟩, ts)
  | .openParen :: .keyword .select :: ts => do
    let (query, ts) ← d |>.decodeQuery ts
    let ts ← expect .closeParen ts
    let (label, ts) := readAlias ts
    some (⟨.derived query, label⟩, ts)
  | _ => none
partial_fixpoint

/-- The FROM clause, if there is one. -/
def decodeSource (d : Dialect) (ts : List Token) : Option (Option TableRef × List Token) :=
  match expect (kw .from) ts with
  | some ts => do
    let (table, ts) ← d |>.decodeTable ts
    some (some table, ts)
  | none => some (none, ts)
partial_fixpoint

/-- The joins that follow. -/
def decodeJoins (d : Dialect) (ts : List Token) : Option (List Join × List Token) :=
  match readJoinKind ts with
  | some (kind, ts) => do
    let (table, ts) ← d |>.decodeTable ts
    let (condition, ts) ← d |>.decodeCondition .on ts
    let (joins, ts) ← d |>.decodeJoins ts
    some (⟨kind, table, condition⟩ :: joins, ts)
  | none => some ([], ts)
partial_fixpoint

/-- A query behind its SELECT keyword. -/
def decodeQuery (d : Dialect) (ts : List Token) : Option (Query × List Token) := do
  let (distinct, ts) := readDistinct ts
  let (top, ts) := readTop ts
  let (select, ts) ← d |>.decodeList ts
  let (source, ts) ← d |>.decodeSource ts
  let (joins, ts) ← d |>.decodeJoins ts
  let (condition, ts) ← d |>.decodeCondition .where ts
  let (groupBy, ts) ← d |>.decodeClause .groupBy ts
  let (having, ts) ← d |>.decodeCondition .having ts
  let (orderBy, ts) ← d |>.decodeOrder ts
  let ((limit, offset), ts) ← readPage d ts
  some (⟨select.map Entry.toSelect, distinct, source, joins, condition, groupBy.map Entry.expr, having,
    orderBy.map Entry.toOrder, top.or limit, offset⟩, ts)
partial_fixpoint

end

end Dialect

end RelQuery.Sql
