/-
Module: RelQuery.Proofs.Sql.Reader
Purpose: How SQL reads the tokens of a statement: OR binds looser than AND, AND looser than NOT, and NOT
  looser than comparisons, IN, LIKE .. ESCAPE and IS [NOT] NULL. Parentheses and layout leave no trace in
  what is read. Constructs that no built statement contains are not read.
Main exports: words, readOr, readSelect, readCondition?, readStatement?
-/
import RelQuery.Sql.Render

namespace RelQuery.Sql

/-- Whether a token only lays out the text. -/
def Token.isLayout : Token → Bool
  | .space => true
  | .newline => true
  | .indent _ => true
  | _ => false

/-- The tokens that count, without those that only lay out the text. -/
def words (tokens : List Token) : List Token := tokens.filter fun token => !token.isLayout

/-! ### Pieces without expressions -/

/-- Skips a token, which has to be there. -/
def expect (token : Token) : List Token → Option (List Token)
  | [] => none
  | t :: ts => if t = token then some ts else none

/-- An alias, if there is one. -/
def readAlias : List Token → Option String × List Token
  | .keyword .as :: .identifier label :: ts => (some label, ts)
  | ts => (none, ts)

/-- DISTINCT, if it is there. -/
def readDistinct : List Token → Bool × List Token
  | .keyword .distinct :: ts => (true, ts)
  | ts => (false, ts)

/-- The number of rows behind TOP, if there is one. -/
def readTop : List Token → Option UInt64 × List Token
  | .keyword .top :: .count n :: ts => (some n, ts)
  | ts => (none, ts)

/-- The kind of a join and the JOIN keyword, if a join follows. -/
def readJoinKind : List Token → Option (JoinKind × List Token)
  | .keyword .inner :: .keyword .join :: ts => some (.inner, ts)
  | .keyword .left :: .keyword .join :: ts => some (.left, ts)
  | .keyword .right :: .keyword .join :: ts => some (.right, ts)
  | .keyword .full :: .keyword .outer :: .keyword .join :: ts => some (.full, ts)
  | .keyword .cross :: .keyword .join :: ts => some (.cross, ts)
  | _ => none

/-- The direction of an ordering, if there is one. -/
def readDirection : List Token → Option Direction × List Token
  | .keyword .asc :: ts => (some .asc, ts)
  | .keyword .desc :: ts => (some .desc, ts)
  | ts => (none, ts)

/-- The place of nulls in an ordering, if there is one. -/
def readNulls : List Token → Option NullsOrder × List Token
  | .keyword .nullsFirst :: ts => (some .first, ts)
  | .keyword .nullsLast :: ts => (some .last, ts)
  | ts => (none, ts)

/-- The limit and the offset of a trailing clause. Before an offset, the count that a dialect writes for
    want of a limit means that there is none. -/
def readPage (d : Dialect) : List Token → Option ((Option UInt64 × Option UInt64) × List Token)
  | .keyword .limit :: bound :: .keyword .offset :: .count start :: ts =>
    if unboundedLimit? d = some bound then some ((none, some start), ts)
    else match bound with
      | .count n => some ((some n, some start), ts)
      | _ => none
  | .keyword .limit :: .count n :: ts => some ((some n, none), ts)
  | .keyword .offset :: .count start :: .keyword .rows :: .keyword .fetch :: .keyword .next :: .count n ::
      .keyword .rows :: .keyword .only :: ts => some ((some n, some start), ts)
  | .keyword .offset :: .count start :: .keyword .rows :: ts => some ((none, some start), ts)
  | .keyword .offset :: .count start :: ts => some ((none, some start), ts)
  | ts => some ((none, none), ts)

/-! ### Expressions and queries -/

namespace Dialect

mutual

/-- A disjunction of conjunctions, grouped to the left. -/
def readOr (d : Dialect) (ts : List Token) : Option (Expr × List Token) := do
  let (e, ts) ← d |>.readAnd ts
  d |>.readOrs e ts
partial_fixpoint

/-- What is ORed to an expression that has been read. -/
def readOrs (d : Dialect) (e : Expr) : List Token → Option (Expr × List Token)
  | .keyword .or :: ts => do
    let (f, ts) ← d |>.readAnd ts
    d |>.readOrs (e.or f) ts
  | ts => some (e, ts)
partial_fixpoint

/-- A conjunction, grouped to the left. -/
def readAnd (d : Dialect) (ts : List Token) : Option (Expr × List Token) := do
  let (e, ts) ← d |>.readNot ts
  d |>.readAnds e ts
partial_fixpoint

/-- What is ANDed to an expression that has been read. -/
def readAnds (d : Dialect) (e : Expr) : List Token → Option (Expr × List Token)
  | .keyword .and :: ts => do
    let (f, ts) ← d |>.readNot ts
    d |>.readAnds (e.and f) ts
  | ts => some (e, ts)
partial_fixpoint

/-- A predicate with any number of NOTs before it. -/
def readNot (d : Dialect) : List Token → Option (Expr × List Token)
  | .keyword .not :: ts => do
    let (e, ts) ← d |>.readNot ts
    some (.not e, ts)
  | ts => d |>.readPredicate ts
partial_fixpoint

/-- An operand alone, or one that is tested or compared. -/
def readPredicate (d : Dialect) (ts : List Token) : Option (Expr × List Token) := do
  let (e, ts) ← d |>.readOperand ts
  d |>.readTest e ts
partial_fixpoint

/-- The test or comparison of an operand that has been read. -/
def readTest (d : Dialect) (e : Expr) : List Token → Option (Expr × List Token)
  | .comparison operator :: ts => do
    let (f, ts) ← d |>.readOperand ts
    some (.compare operator e f, ts)
  | .keyword .isNull :: ts => some (.isNull e false, ts)
  | .keyword .isNotNull :: ts => some (.isNull e true, ts)
  | .keyword .in :: ts => d |>.readMembers e false ts
  | .keyword .not :: .keyword .in :: ts => d |>.readMembers e true ts
  | .keyword .like :: ts => d |>.readPattern e false ts
  | .keyword .not :: .keyword .like :: ts => d |>.readPattern e true ts
  | ts => some (e, ts)
partial_fixpoint

/-- The list or the query behind IN. -/
def readMembers (d : Dialect) (e : Expr) (negated : Bool) : List Token → Option (Expr × List Token)
  | .openParen :: .keyword .select :: ts => do
    let (query, ts) ← d |>.readSelect ts
    let ts ← expect .closeParen ts
    some (.inQuery e query negated, ts)
  | .openParen :: ts => do
    let (values, ts) ← d |>.readValues ts
    let ts ← expect .closeParen ts
    some (.inList e values negated, ts)
  | _ => none
partial_fixpoint

/-- The pattern behind LIKE and its escape character. -/
def readPattern (d : Dialect) (e : Expr) (negated : Bool) (ts : List Token) :
    Option (Expr × List Token) := do
  let (pattern, ts) ← d |>.readOperand ts
  match ts with
  | .keyword .escape :: .literal (.text escape) :: ts =>
    match escape.toList with
    | [c] => some (.likeEscape e pattern c negated, ts)
    | _ => none
  | _ => none
partial_fixpoint

/-- An operand: a column, a value, a case distinction, an EXISTS, or an expression in parentheses. -/
def readOperand (d : Dialect) : List Token → Option (Expr × List Token)
  | .identifier qualifier :: .dot :: .identifier name :: ts => some (.column (some qualifier) name, ts)
  | .literal value :: ts => some (.literal value, ts)
  | .param value :: ts => some (.param value, ts)
  | .keyword .case :: ts => do
    let (branches, ts) ← d |>.readBranches ts
    let ts ← expect (kw .else) ts
    let (otherwise, ts) ← d |>.readOr ts
    let ts ← expect (kw .end) ts
    some (.caseWhen none branches (some otherwise), ts)
  | .keyword .exist :: .openParen :: .keyword .select :: ts => do
    let (query, ts) ← d |>.readSelect ts
    let ts ← expect .closeParen ts
    some (.existsQuery query false, ts)
  | .openParen :: ts => do
    let (e, ts) ← d |>.readOr ts
    let ts ← expect .closeParen ts
    some (e, ts)
  | _ => none
partial_fixpoint

/-- The branches of a case distinction. -/
def readBranches (d : Dialect) : List Token → Option (List (Expr × Expr) × List Token)
  | .keyword .when :: ts => do
    let (condition, ts) ← d |>.readOr ts
    let ts ← expect (kw .then) ts
    let (result, ts) ← d |>.readOr ts
    let (branches, ts) ← d |>.readBranches ts
    some ((condition, result) :: branches, ts)
  | ts => some ([], ts)
partial_fixpoint

/-- Values with commas between them. -/
def readValues (d : Dialect) (ts : List Token) : Option (List Expr × List Token) := do
  let (e, ts) ← d |>.readOr ts
  match ts with
  | .comma :: ts =>
    let (es, ts) ← d |>.readValues ts
    some (e :: es, ts)
  | ts => some ([e], ts)
partial_fixpoint

/-- The items of a SELECT list. -/
def readItems (d : Dialect) (ts : List Token) : Option (List SelectItem × List Token) := do
  let (e, ts) ← d |>.readOr ts
  let (label, ts) := readAlias ts
  match ts with
  | .comma :: ts =>
    let (items, ts) ← d |>.readItems ts
    some (⟨e, label⟩ :: items, ts)
  | ts => some ([⟨e, label⟩], ts)
partial_fixpoint

/-- The SELECT list in front of FROM, which may be empty. -/
def readSelectList (d : Dialect) : List Token → Option (List SelectItem × List Token)
  | .keyword .from :: ts => some ([], .keyword .from :: ts)
  | ts => d |>.readItems ts
partial_fixpoint

/-- The items of an ORDER BY list. -/
def readTerms (d : Dialect) (ts : List Token) : Option (List OrderItem × List Token) := do
  let (e, ts) ← d |>.readOr ts
  let (direction, ts) := readDirection ts
  let (nulls, ts) := readNulls ts
  match ts with
  | .comma :: ts =>
    let (items, ts) ← d |>.readTerms ts
    some (⟨e, direction, nulls⟩ :: items, ts)
  | ts => some ([⟨e, direction, nulls⟩], ts)
partial_fixpoint

/-- A stored table or a derived one, and its alias. -/
def readTable (d : Dialect) : List Token → Option (TableRef × List Token)
  | .qualified schema name :: ts =>
    let (label, ts) := readAlias ts
    some (⟨.stored schema name, label⟩, ts)
  | .openParen :: .keyword .select :: ts => do
    let (query, ts) ← d |>.readSelect ts
    let ts ← expect .closeParen ts
    let (label, ts) := readAlias ts
    some (⟨.derived query, label⟩, ts)
  | _ => none
partial_fixpoint

/-- The condition behind a keyword, if that follows. -/
def readCondition (d : Dialect) (word : Keyword) (ts : List Token) :
    Option (Option Expr × List Token) :=
  match expect (.keyword word) ts with
  | some ts => do
    let (e, ts) ← d |>.readOr ts
    some (some e, ts)
  | none => some (none, ts)
partial_fixpoint

/-- The joins that follow. -/
def readJoins (d : Dialect) (ts : List Token) : Option (List Join × List Token) :=
  match readJoinKind ts with
  | some (kind, ts) => do
    let (table, ts) ← d |>.readTable ts
    let (condition, ts) ← d |>.readCondition .on ts
    let (joins, ts) ← d |>.readJoins ts
    some (⟨kind, table, condition⟩ :: joins, ts)
  | none => some ([], ts)
partial_fixpoint

/-- The ORDER BY clause, if there is one. An ordering by a constant null orders nothing. -/
def readOrder (d : Dialect) : List Token → Option (List OrderItem × List Token)
  | .keyword .orderBy :: .openParen :: .keyword .select :: .keyword .null :: .closeParen :: ts => some ([], ts)
  | .keyword .orderBy :: ts => d |>.readTerms ts
  | ts => some ([], ts)
partial_fixpoint

/-- A query behind its SELECT keyword. -/
def readSelect (d : Dialect) (ts : List Token) : Option (Query × List Token) := do
  let (distinct, ts) := readDistinct ts
  let (top, ts) := readTop ts
  let (select, ts) ← d |>.readSelectList ts
  let ts ← expect (kw .from) ts
  let (source, ts) ← d |>.readTable ts
  let (joins, ts) ← d |>.readJoins ts
  let (condition, ts) ← d |>.readCondition .where ts
  let (orderBy, ts) ← d |>.readOrder ts
  let ((limit, offset), ts) ← readPage d ts
  some (⟨select, distinct, some source, joins, condition, [], none, orderBy, top.or limit, offset⟩, ts)
partial_fixpoint

end

end Dialect

/-- The condition that a dialect reads from its tokens alone. -/
def readCondition? (d : Dialect) (tokens : List Token) : Option Expr :=
  match d.readOr (words tokens) with
  | some (e, []) => some e
  | _ => none

/-- The statement that a dialect reads from its tokens. -/
def readStatement? (d : Dialect) (tokens : List Token) : Option Query := do
  let ts ← expect (kw .select) (words tokens)
  match d.readSelect ts with
  | some (query, []) => some query
  | _ => none

end RelQuery.Sql
