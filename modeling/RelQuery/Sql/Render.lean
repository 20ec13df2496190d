/-
Module: RelQuery.Sql.Render
Purpose: The token sequences of expressions and queries. Tokens are produced for every query; a
  sequence that uses a construct which the dialect lacks is rejected afterwards, at its first such
  construct.
Main exports: Expr.tokens, Query.tokens, firstUnsupported?, Expr.render, Query.render
-/
import RelQuery.Sql.Query
import RelQuery.Sql.Pagination
import RelQuery.Error

namespace RelQuery.Sql

/-! ### Parentheses -/

/-- How tightly an operator binds. -/
def BinaryOp.precedence : BinaryOp → Nat
  | .or => 1
  | .and => 2
  | .compare _ => 3
  | .like => 3

/-- Whether the grouping of repeated uses does not matter. -/
def BinaryOp.isAssociative : BinaryOp → Bool
  | .and => true
  | .or => true
  | .compare _ => false
  | .like => false

/-- Whether an operand of `parent` has to stand in parentheses: it binds looser, or it is the right
    operand, binds equally, and the grouping matters. -/
def BinaryOp.parenthesizes (parent : BinaryOp) (isRight : Bool) : Expr → Bool
  | .binary op _ _ =>
    op.precedence < parent.precedence
      || (isRight && op.precedence == parent.precedence && !parent.isAssociative)
  | _ => false

/-- Whether the expression is an operation with two operands. -/
def Expr.isBinary : Expr → Bool
  | .binary _ _ _ => true
  | _ => false

/-- The token of a binary operator. -/
def BinaryOp.token : BinaryOp → Token
  | .compare operator => .comparison operator
  | .and => .keyword .and
  | .or => .keyword .or
  | .like => .keyword .like

/-! ### Layout -/

/-- A keyword as a token. -/
abbrev kw (word : Keyword) : Token := .keyword word

/-- The tokens between parentheses. -/
def parenthesized (tokens : List Token) : List Token := .openParen :: (tokens ++ [.closeParen])

/-- The tokens between parentheses if the flag is set. -/
def parenthesizedIf (wrap : Bool) (tokens : List Token) : List Token :=
  if wrap then parenthesized tokens else tokens

/-- Token sequences with a comma and a blank between them. -/
def commaSeparated (parts : List (List Token)) : List Token :=
  List.intercalate [.comma, .space] parts

/-- The NOT of a negated operator, with a blank before it. -/
def notBefore (negated : Bool) : List Token := if negated then [.space, kw .not] else []

/-- The qualifier of a column and its dot. -/
def qualifierTokens : Option String → List Token
  | some qualifier => [.identifier qualifier, .dot]
  | none => []

/-- The alias of an item. -/
def aliasTokens : Option String → List Token
  | some label => [.space, kw .as, .space, .identifier label]
  | none => []

/-- The keywords that open a join. -/
def JoinKind.tokens : JoinKind → List Token
  | .inner => [kw .inner]
  | .left => [kw .left]
  | .right => [kw .right]
  | .full => [kw .full, .space, kw .outer]
  | .cross => [kw .cross]

/-- The direction of an ordering. -/
def directionTokens : Option Direction → List Token
  | some .asc => [.space, kw .asc]
  | some .desc => [.space, kw .desc]
  | none => []

/-- The place of nulls in an ordering. -/
def nullsTokens : Option NullsOrder → List Token
  | some .first => [.space, kw .nullsFirst]
  | some .last => [.space, kw .nullsLast]
  | none => []

/-- The SELECT keyword, DISTINCT and TOP. -/
def selectTokens (distinct : Bool) (top : Option (List Token)) : List Token :=
  kw .select :: ((if distinct then [.space, kw .distinct] else [])
    ++ (match top with
      | some tokens => .space :: tokens
      | none => []))

/-- The items of the SELECT list, each on a line of its own. -/
def selectListTokens (items : List (List Token)) : List Token :=
  match items with
  | [] => []
  | _ => .newline :: .indent 1 :: List.intercalate [.comma, .newline, .indent 1] items

/-- A clause on a line of its own that lists its items, or nothing without items. -/
def listClause (word : Keyword) (items : List (List Token)) : List Token :=
  match items with
  | [] => []
  | _ => .newline :: kw word :: .space :: commaSeparated items

/-- A clause on a line of its own. -/
def clause (word : Keyword) (tokens : List Token) : List Token :=
  .newline :: kw word :: .space :: tokens

/-- An ordering that orders nothing. -/
def arbitraryOrder : List Token :=
  clause .orderBy (parenthesized [kw .select, .space, kw .null])

/-- The ORDER BY clause and the trailing pagination clause. Where the latter needs an ordering and none
    is given, an arbitrary one is written. -/
def orderAndLimitTokens (d : Dialect) (orderBy : List (List Token)) (limit offset : Option UInt64) :
    List Token :=
  let paginated := (topTokens? d limit offset).isNone && (limit.isSome || offset.isSome)
  let ordering :=
    if orderBy.isEmpty && needsOrderToPage d && paginated then arbitraryOrder
    else listClause .orderBy orderBy
  ordering ++ (if paginated then .newline :: limitTokens d limit offset else [])

/-- The comparison of two constants that is true or false as the flag says. -/
def constantTokens (value : Bool) : List Token :=
  [.literal (.int 1), .space, .comparison .eq, .space, .literal (.int (if value then 1 else 0))]

/-! ### Expressions and queries -/

mutual

/-- The tokens of an expression. Membership in the empty list is a constant. -/
def Expr.tokens (d : Dialect) : Expr → List Token
  | .column qualifier name => qualifierTokens qualifier ++ [.identifier name]
  | .literal value => [.literal value]
  | .param value => [.param value]
  | .binary op left right =>
    parenthesizedIf (op.parenthesizes false left) (left.tokens d)
      ++ .space :: op.token :: .space
      :: parenthesizedIf (op.parenthesizes true right) (right.tokens d)
  | .not operand => kw .not :: .space :: parenthesizedIf operand.isBinary (operand.tokens d)
  | .call function arguments distinct =>
    .function function :: parenthesized
      ((if distinct then [kw .distinct, .space] else [])
        ++ commaSeparated (Expr.tokensOfEach d arguments))
  | .caseWhen subject branches otherwise =>
    kw .case ::
      ((match subject with
        | some e => .space :: e.tokens d
        | none => [])
      ++ Expr.tokensOfBranches d branches
      ++ (match otherwise with
        | some e => .space :: kw .else :: .space :: e.tokens d
        | none => [])
      ++ [.space, kw .end])
  | .subquery query => parenthesized (query.tokens d)
  | .existsQuery query negated =>
    (if negated then [kw .not, .space] else [])
      ++ kw .exist :: .space :: parenthesized (query.tokens d)
  | .inList _ [] negated => constantTokens negated
  | .inList operand (value :: values) negated =>
    operand.tokens d ++ notBefore negated ++ .space :: kw .in :: .space
      :: parenthesized (commaSeparated (value.tokens d :: Expr.tokensOfEach d values))
  | .inQuery operand query negated =>
    operand.tokens d ++ notBefore negated ++ .space :: kw .in :: .space
      :: parenthesized (query.tokens d)
  | .isNull operand negated =>
    operand.tokens d ++ [.space, kw (if negated then .isNotNull else .isNull)]
  | .likeEscape operand pattern escape negated =>
    operand.tokens d ++ notBefore negated ++ .space :: kw .like :: .space
      :: (pattern.tokens d
        ++ [.space, kw .escape, .space, .literal (.text (String.singleton escape))])
  | .star qualifier => qualifierTokens qualifier ++ [.star]
  | .paren inner => parenthesized (inner.tokens d)

/-- The tokens of each expression of a list. -/
def Expr.tokensOfEach (d : Dialect) : List Expr → List (List Token)
  | [] => []
  | e :: es => e.tokens d :: Expr.tokensOfEach d es

/-- The tokens of the branches of a case distinction. -/
def Expr.tokensOfBranches (d : Dialect) : List (Expr × Expr) → List Token
  | [] => []
  | (condition, result) :: branches =>
    .space :: kw .when :: .space :: (condition.tokens d
      ++ .space :: kw .then :: .space :: (result.tokens d ++ Expr.tokensOfBranches d branches))

/-- The tokens of a table source. -/
def TableSource.tokens (d : Dialect) : TableSource → List Token
  | .stored schema name => [.qualified schema name]
  | .derived query => parenthesized (query.tokens d)

/-- The tokens of a table occurrence. -/
def TableRef.tokens (d : Dialect) : TableRef → List Token
  | ⟨source, label⟩ => source.tokens d ++ aliasTokens label

/-- The tokens of a join. -/
def Join.tokens (d : Dialect) : Join → List Token
  | ⟨kind, table, condition⟩ =>
    kind.tokens ++ .space :: kw .join :: .space :: (table.tokens d
      ++ (match condition with
        | some e => .space :: kw .on :: .space :: e.tokens d
        | none => []))

/-- The tokens of joins, each on a line of its own. -/
def Join.tokensOfLines (d : Dialect) : List Join → List Token
  | [] => []
  | join :: joins => .newline :: (join.tokens d ++ Join.tokensOfLines d joins)

/-- The tokens of each item of a SELECT list. -/
def SelectItem.tokensOfEach (d : Dialect) : List SelectItem → List (List Token)
  | [] => []
  | ⟨e, label⟩ :: items => (e.tokens d ++ aliasTokens label) :: SelectItem.tokensOfEach d items

/-- The tokens of each item of an ORDER BY list. -/
def OrderItem.tokensOfEach (d : Dialect) : List OrderItem → List (List Token)
  | [] => []
  | ⟨e, direction, nulls⟩ :: items =>
    (e.tokens d ++ directionTokens direction ++ nullsTokens nulls) :: OrderItem.tokensOfEach d items

/-- The tokens of a query, each clause on a line of its own. -/
def Query.tokens (d : Dialect) : Query → List Token
  | ⟨select, distinct, source, joins, condition, groupBy, having, orderBy, limit, offset⟩ =>
    selectTokens distinct (topTokens? d limit offset)
      ++ selectListTokens (SelectItem.tokensOfEach d select)
      ++ (match source with
        | some table => clause .from (table.tokens d)
        | none => [])
      ++ Join.tokensOfLines d joins
      ++ (match condition with
        | some e => clause .where (e.tokens d)
        | none => [])
      ++ listClause .groupBy (Expr.tokensOfEach d groupBy)
      ++ (match having with
        | some e => clause .having (e.tokens d)
        | none => [])
      ++ orderAndLimitTokens d (OrderItem.tokensOfEach d orderBy) limit offset

end

/-! ### Rejecting what a dialect lacks -/

/-- The construct that a keyword belongs to, if it is one that some dialects lack. -/
def Token.construct? : Token → Option Construct
  | .keyword .right => some .rightJoin
  | .keyword .full => some .fullOuterJoin
  | .keyword .nullsFirst => some .nullsFirst
  | .keyword .nullsLast => some .nullsLast
  | _ => none

/-- The first construct of a token sequence that the dialect lacks. -/
def firstUnsupported? (d : Dialect) (tokens : List Token) : Option Construct :=
  (tokens.filterMap Token.construct?).find? fun construct => !d.supports construct

/-- The tokens themselves if the dialect can express all of them. -/
def accepted (d : Dialect) (tokens : List Token) : Except QueryError (List Token) :=
  match firstUnsupported? d tokens with
  | some construct => .error (.unsupported d construct)
  | none => .ok tokens

/-- The tokens of an expression in a dialect that can express it. -/
def Expr.render (d : Dialect) (e : Expr) : Except QueryError (List Token) := accepted d (e.tokens d)

/-- The tokens of a join in a dialect that can express it. -/
def Join.render (d : Dialect) (join : Join) : Except QueryError (List Token) :=
  accepted d (join.tokens d)

/-- The tokens of a query in a dialect that can express it. -/
def Query.render (d : Dialect) (q : Query) : Except QueryError (List Token) := accepted d (q.tokens d)

/-- The statement of an expression. -/
def Expr.compile (d : Dialect) (e : Expr) : Except QueryError Statement :=
  (e.render d).map (Statement.ofTokens d)

/-- The statement of a query. -/
def Query.compile (d : Dialect) (q : Query) : Except QueryError Statement :=
  (q.render d).map (Statement.ofTokens d)

end RelQuery.Sql
