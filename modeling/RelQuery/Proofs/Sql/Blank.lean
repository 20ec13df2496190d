/-
Module: RelQuery.Proofs.Sql.Blank
Purpose: Syntax trees whose parameters have been blanked out. A tree is rendered to the same tokens as its
  blank form up to the values of the parameters, so that two trees with one blank form have the same text
  with placeholders, and the same reason to be rejected.
Main exports: Expr.blank, Query.blank, Token.blank, Query.tokens_blank, SameText, Query.sameText_of_blank
-/
import RelQuery.Sql.Render

namespace RelQuery.Sql

/-! ### Blanking out -/

mutual

/-- The expression with null for the value of each parameter. -/
def Expr.blank : Expr → Expr
  | .column qualifier name => .column qualifier name
  | .literal value => .literal value
  | .param _ => .param .null
  | .star qualifier => .star qualifier
  | .binary op left right => .binary op left.blank right.blank
  | .not operand => .not operand.blank
  | .isNull operand negated => .isNull operand.blank negated
  | .paren inner => .paren inner.blank
  | .call function arguments distinct => .call function (Expr.blankEach arguments) distinct
  | .caseWhen subject branches otherwise =>
    .caseWhen (Expr.blankOption subject) (Expr.blankBranches branches) (Expr.blankOption otherwise)
  | .subquery query => .subquery query.blank
  | .existsQuery query negated => .existsQuery query.blank negated
  | .inList operand values negated => .inList operand.blank (Expr.blankEach values) negated
  | .inQuery operand query negated => .inQuery operand.blank query.blank negated
  | .likeEscape operand pattern escape negated =>
    .likeEscape operand.blank pattern.blank escape negated

/-- A list of expressions without the values of parameters. -/
def Expr.blankEach : List Expr → List Expr
  | [] => []
  | e :: es => e.blank :: Expr.blankEach es

/-- An expression that may be missing without the values of parameters. -/
def Expr.blankOption : Option Expr → Option Expr
  | none => none
  | some e => some e.blank

/-- Branches without the values of parameters. -/
def Expr.blankBranches : List (Expr × Expr) → List (Expr × Expr)
  | [] => []
  | (condition, result) :: branches => (condition.blank, result.blank) :: Expr.blankBranches branches

/-- An item without the values of parameters in its derived table. -/
def TableRef.blank : TableRef → TableRef
  | ⟨.stored schema name, label⟩ => ⟨.stored schema name, label⟩
  | ⟨.derived query, label⟩ => ⟨.derived query.blank, label⟩

/-- An item that may be missing without the values of parameters. -/
def TableRef.blankOption : Option TableRef → Option TableRef
  | none => none
  | some table => some table.blank

/-- Joins without the values of parameters. -/
def Join.blankEach : List Join → List Join
  | [] => []
  | ⟨kind, table, condition⟩ :: joins =>
    ⟨kind, table.blank, Expr.blankOption condition⟩ :: Join.blankEach joins

/-- A SELECT list without the values of parameters. -/
def SelectItem.blankEach : List SelectItem → List SelectItem
  | [] => []
  | ⟨e, label⟩ :: items => ⟨e.blank, label⟩ :: SelectItem.blankEach items

/-- An ORDER BY list without the values of parameters. -/
def OrderItem.blankEach : List OrderItem → List OrderItem
  | [] => []
  | ⟨e, direction, nulls⟩ :: items => ⟨e.blank, direction, nulls⟩ :: OrderItem.blankEach items

/-- The query with null for the value of each parameter. -/
def Query.blank : Query → Query
  | ⟨select, distinct, source, joins, condition, groupBy, having, orderBy, limit, offset⟩ =>
    ⟨SelectItem.blankEach select, distinct, TableRef.blankOption source, Join.blankEach joins,
      Expr.blankOption condition, Expr.blankEach groupBy, Expr.blankOption having,
      OrderItem.blankEach orderBy, limit, offset⟩

end

/-- A token without the value of a parameter. -/
def Token.blank : Token → Token
  | .param _ => .param .null
  | token => token

/-! ### Lists -/

theorem Expr.blankEach_eq (es : List Expr) : blankEach es = es.map blank := by
  induction es with
  | nil => rfl
  | cons e es ih => rw [blankEach, ih, List.map_cons]

@[simp] theorem Expr.blankOption_eq (e? : Option Expr) : blankOption e? = e?.map blank := by
  cases e? <;> rfl

@[simp] theorem Join.blankEach_append (joins more : List Join) :
    blankEach (joins ++ more) = blankEach joins ++ blankEach more := by
  induction joins with
  | nil => rfl
  | cons join joins ih =>
      obtain ⟨kind, table, condition⟩ := join
      simp [blankEach, ih]

/-! ### Rendering -/

/-- Whether an operand needs parentheses does not depend on values. -/
@[simp] theorem BinaryOp.parenthesizes_blank (parent : BinaryOp) (isRight : Bool) (e : Expr) :
    parent.parenthesizes isRight e.blank = parent.parenthesizes isRight e := by
  cases e <;> rfl

@[simp] theorem Expr.isBinary_blank (e : Expr) : e.blank.isBinary = e.isBinary := by
  cases e <;> rfl

section

variable (tokens : List Token)

@[simp] theorem blank_keyword (word : Keyword) : Token.blank (.keyword word) = .keyword word := rfl

@[simp] theorem blank_space : Token.blank .space = .space := rfl

@[simp] theorem blank_newline : Token.blank .newline = .newline := rfl

@[simp] theorem blank_star : Token.blank .star = .star := rfl

@[simp] theorem blank_identifier (name : String) :
    Token.blank (.identifier name) = .identifier name := rfl

@[simp] theorem blank_qualified (schema : Option String) (name : String) :
    Token.blank (.qualified schema name) = .qualified schema name := rfl

@[simp] theorem blank_literal (value : Literal) : Token.blank (.literal value) = .literal value := rfl

@[simp] theorem blank_operator (op : BinaryOp) : op.token.blank = op.token := by
  cases op <;> rfl

@[simp] theorem map_blank_parenthesized :
    (parenthesized tokens).map Token.blank = parenthesized (tokens.map Token.blank) := by
  rw [parenthesized, List.map_cons, List.map_append]
  rfl

@[simp] theorem map_blank_parenthesizedIf (wrap : Bool) :
    (parenthesizedIf wrap tokens).map Token.blank = parenthesizedIf wrap (tokens.map Token.blank) := by
  cases wrap
  · rfl
  · exact map_blank_parenthesized tokens

theorem map_blank_intercalate {separator : List Token}
    (unchanged : separator.map Token.blank = separator) (parts : List (List Token)) :
    (List.intercalate separator parts).map Token.blank =
      List.intercalate separator (parts.map (List.map Token.blank)) := by
  induction parts with
  | nil => rfl
  | cons part parts ih =>
      cases parts with
      | nil => simp [List.intercalate]
      | cons next others =>
          rw [List.intercalate_cons_cons, List.map_append, List.map_append, ih, unchanged]
          simp only [List.map_cons, List.intercalate_cons_cons]

@[simp] theorem map_blank_commaSeparated (parts : List (List Token)) :
    (commaSeparated parts).map Token.blank = commaSeparated (parts.map (List.map Token.blank)) :=
  map_blank_intercalate rfl parts

@[simp] theorem map_blank_selectListTokens (items : List (List Token)) :
    (selectListTokens items).map Token.blank = selectListTokens (items.map (List.map Token.blank)) := by
  cases items with
  | nil => rfl
  | cons item items =>
      exact congrArg (fun rest => Token.newline :: .indent 1 :: rest)
        (map_blank_intercalate rfl (item :: items))

@[simp] theorem map_blank_listClause (word : Keyword) (items : List (List Token)) :
    (listClause word items).map Token.blank = listClause word (items.map (List.map Token.blank)) := by
  cases items with
  | nil => rfl
  | cons item items =>
      exact congrArg (fun rest => Token.newline :: kw word :: .space :: rest)
        (map_blank_commaSeparated (item :: items))

@[simp] theorem map_blank_clause (word : Keyword) :
    (clause word tokens).map Token.blank = clause word (tokens.map Token.blank) := rfl

@[simp] theorem map_blank_notBefore (negated : Bool) :
    (notBefore negated).map Token.blank = notBefore negated := by
  cases negated <;> rfl

@[simp] theorem map_blank_qualifierTokens (qualifier : Option String) :
    (qualifierTokens qualifier).map Token.blank = qualifierTokens qualifier := by
  cases qualifier <;> rfl

@[simp] theorem map_blank_aliasTokens (label : Option String) :
    (aliasTokens label).map Token.blank = aliasTokens label := by
  cases label <;> rfl

@[simp] theorem map_blank_joinKind (kind : JoinKind) : kind.tokens.map Token.blank = kind.tokens := by
  cases kind <;> rfl

@[simp] theorem map_blank_directionTokens (direction : Option Direction) :
    (directionTokens direction).map Token.blank = directionTokens direction := by
  cases direction with
  | none => rfl
  | some direction => cases direction <;> rfl

@[simp] theorem map_blank_nullsTokens (nulls : Option NullsOrder) :
    (nullsTokens nulls).map Token.blank = nullsTokens nulls := by
  cases nulls with
  | none => rfl
  | some nulls => cases nulls <;> rfl

@[simp] theorem map_blank_selectTokens (d : Dialect) (distinct : Bool) (limit offset : Option UInt64) :
    (selectTokens distinct (topTokens? d limit offset)).map Token.blank =
      selectTokens distinct (topTokens? d limit offset) := by
  cases distinct <;> cases d <;> cases limit <;> cases offset <;> rfl

@[simp] theorem map_blank_limitTokens (d : Dialect) (limit offset : Option UInt64) :
    (limitTokens d limit offset).map Token.blank = limitTokens d limit offset := by
  cases d <;> cases limit <;> cases offset <;> rfl

@[simp] theorem map_blank_orderAndLimitTokens (d : Dialect) (items : List (List Token))
    (limit offset : Option UInt64) :
    (orderAndLimitTokens d items limit offset).map Token.blank =
      orderAndLimitTokens d (items.map (List.map Token.blank)) limit offset := by
  simp only [orderAndLimitTokens, List.map_append, List.isEmpty_map]
  congr 1
  · split
    · rfl
    · exact map_blank_listClause .orderBy items
  · split
    · exact congrArg (Token.newline :: ·) (map_blank_limitTokens d limit offset)
    · rfl

end

mutual

/-- The tokens of a blank expression are those of the expression, blanked out. -/
theorem Expr.tokens_blank (d : Dialect) : ∀ e : Expr, e.blank.tokens d = (e.tokens d).map Token.blank
  | .column qualifier _ => by simp [Expr.blank, Expr.tokens]
  | .literal _ => rfl
  | .param _ => rfl
  | .star qualifier => by simp [Expr.blank, Expr.tokens]
  | .binary op left right => by
      simp [Expr.blank, Expr.tokens, Expr.tokens_blank d left, Expr.tokens_blank d right]
  | .not operand => by simp [Expr.blank, Expr.tokens, Expr.tokens_blank d operand]
  | .isNull operand negated => by
      simp [Expr.blank, Expr.tokens, Expr.tokens_blank d operand]
  | .paren inner => by simp [Expr.blank, Expr.tokens, Expr.tokens_blank d inner]
  | .call function arguments distinct => by
      have start : (if distinct then [kw .distinct, .space] else []).map Token.blank =
          if distinct then [kw .distinct, .space] else [] := by
        cases distinct <;> rfl
      rw [Expr.blank, Expr.tokens, Expr.tokens, Expr.tokens_blankEach d arguments, List.map_cons,
        map_blank_parenthesized, List.map_append, start, map_blank_commaSeparated]
      rfl
  | .caseWhen subject branches otherwise => by
      cases subject <;> cases otherwise <;>
        simp [Expr.blank, Expr.tokens, Expr.tokens_blank d, Expr.tokens_blankBranches d branches]
  | .subquery query => by simp [Expr.blank, Expr.tokens, Query.tokens_blank d query]
  | .existsQuery query negated => by
      cases negated <;> simp [Expr.blank, Expr.tokens, Query.tokens_blank d query]
  | .inList _ [] negated => by cases negated <;> rfl
  | .inList operand (value :: values) negated => by
      rw [Expr.blank, Expr.blankEach, Expr.tokens, Expr.tokens, Expr.tokens_blankEach d values]
      simp [Token.blank, Expr.tokens_blank d operand, Expr.tokens_blank d value]
  | .inQuery operand query negated => by
      simp [Expr.blank, Expr.tokens, Expr.tokens_blank d operand, Query.tokens_blank d query]
  | .likeEscape operand pattern _ negated => by
      simp [Expr.blank, Expr.tokens, Expr.tokens_blank d operand,
        Expr.tokens_blank d pattern]

theorem Expr.tokens_blankEach (d : Dialect) : ∀ es : List Expr,
    Expr.tokensOfEach d (Expr.blankEach es) = (Expr.tokensOfEach d es).map (List.map Token.blank)
  | [] => rfl
  | e :: es => by
      rw [Expr.blankEach, Expr.tokensOfEach, Expr.tokensOfEach, Expr.tokens_blank d e,
        Expr.tokens_blankEach d es, List.map_cons]

theorem Expr.tokens_blankBranches (d : Dialect) : ∀ branches : List (Expr × Expr),
    Expr.tokensOfBranches d (Expr.blankBranches branches) =
      (Expr.tokensOfBranches d branches).map Token.blank
  | [] => rfl
  | (condition, result) :: branches => by
      simp [Expr.blankBranches, Expr.tokensOfBranches, Expr.tokens_blank d condition,
        Expr.tokens_blank d result, Expr.tokens_blankBranches d branches]

theorem TableRef.tokens_blank (d : Dialect) : ∀ table : TableRef,
    table.blank.tokens d = (table.tokens d).map Token.blank
  | ⟨.stored _ _, label⟩ => by simp [TableRef.blank, TableRef.tokens, TableSource.tokens]
  | ⟨.derived query, label⟩ => by
      simp [TableRef.blank, TableRef.tokens, TableSource.tokens, Query.tokens_blank d query]

theorem Join.tokens_blankEach (d : Dialect) : ∀ joins : List Join,
    Join.tokensOfLines d (Join.blankEach joins) = (Join.tokensOfLines d joins).map Token.blank
  | [] => rfl
  | ⟨kind, table, none⟩ :: joins => by
      simp [Join.blankEach, Join.tokensOfLines, Join.tokens, TableRef.tokens_blank d table,
        Join.tokens_blankEach d joins]
  | ⟨kind, table, some condition⟩ :: joins => by
      simp [Join.blankEach, Join.tokensOfLines, Join.tokens, TableRef.tokens_blank d table,
        Expr.tokens_blank d condition, Join.tokens_blankEach d joins]

theorem SelectItem.tokens_blankEach (d : Dialect) : ∀ items : List SelectItem,
    SelectItem.tokensOfEach d (SelectItem.blankEach items) =
      (SelectItem.tokensOfEach d items).map (List.map Token.blank)
  | [] => rfl
  | ⟨e, label⟩ :: items => by
      rw [SelectItem.blankEach, SelectItem.tokensOfEach, SelectItem.tokensOfEach, Expr.tokens_blank d e,
        SelectItem.tokens_blankEach d items, List.map_cons, List.map_append, map_blank_aliasTokens]

theorem OrderItem.tokens_blankEach (d : Dialect) : ∀ items : List OrderItem,
    OrderItem.tokensOfEach d (OrderItem.blankEach items) =
      (OrderItem.tokensOfEach d items).map (List.map Token.blank)
  | [] => rfl
  | ⟨e, direction, nulls⟩ :: items => by
      rw [OrderItem.blankEach, OrderItem.tokensOfEach, OrderItem.tokensOfEach, Expr.tokens_blank d e,
        OrderItem.tokens_blankEach d items, List.map_cons, List.map_append, List.map_append,
        map_blank_directionTokens, map_blank_nullsTokens]

/-- The tokens of a blank query are those of the query, blanked out. -/
theorem Query.tokens_blank (d : Dialect) : ∀ q : Query, q.blank.tokens d = (q.tokens d).map Token.blank
  | ⟨select, distinct, source, joins, condition, groupBy, having, orderBy, limit, offset⟩ => by
      rw [Query.blank]
      cases source <;> cases condition <;> cases having <;>
        simp [Query.tokens, TableRef.blankOption, Expr.blankOption, SelectItem.tokens_blankEach d select,
          TableRef.tokens_blank d, Join.tokens_blankEach d joins, Expr.tokens_blank d,
          Expr.tokens_blankEach d groupBy, OrderItem.tokens_blankEach d orderBy]

end

/-! ### Texts -/

/-- Two attempts at a statement fail with the same error, or yield one text with as many parameters. -/
inductive SameText : Except QueryError Statement → Except QueryError Statement → Prop
  | rejected (fault : QueryError) : SameText (.error fault) (.error fault)
  | compiled {statement other : Statement} (text : statement.sql = other.sql)
      (bound : statement.params.length = other.params.length) : SameText (.ok statement) (.ok other)

/-- Where parameters are written as placeholders, their values do not matter. -/
theorem numberedTexts_blank (d : Dialect) (tokens : List Token) (number : Nat) :
    numberedTexts d number (tokens.map Token.blank) = numberedTexts d number tokens := by
  induction tokens generalizing number with
  | nil => rfl
  | cons token tokens ih =>
      cases token <;> simp [Token.blank, numberedTexts, ih]

theorem params_blank (tokens : List Token) :
    (tokens.map Token.blank).filterMap Token.param? = (tokens.filterMap Token.param?).map fun _ => .null := by
  have same : Token.param? ∘ Token.blank = fun token => token.param?.map fun _ => .null := by
    funext token
    cases token <;> rfl
  rw [List.filterMap_map, same, List.map_filterMap]

theorem firstUnsupported?_blank (d : Dialect) (tokens : List Token) :
    firstUnsupported? d (tokens.map Token.blank) = firstUnsupported? d tokens := by
  have same : Token.construct? ∘ Token.blank = Token.construct? := by
    funext token
    cases token <;> rfl
  rw [firstUnsupported?, List.filterMap_map, same, firstUnsupported?]

/-- Queries that differ in the values of parameters alone are compiled to one text. -/
theorem Query.sameText_of_blank (d : Dialect) {q r : Query} (alike : q.blank = r.blank) :
    SameText (q.compile d) (r.compile d) := by
  have tokens : (q.tokens d).map Token.blank = (r.tokens d).map Token.blank := by
    rw [← Query.tokens_blank, alike, Query.tokens_blank]
  have rejected : firstUnsupported? d (q.tokens d) = firstUnsupported? d (r.tokens d) := by
    rw [← firstUnsupported?_blank, tokens, firstUnsupported?_blank]
  have bound : ((q.tokens d).filterMap Token.param?).length = ((r.tokens d).filterMap Token.param?).length := by
    have counted := congrArg (fun tokens => (tokens.filterMap Token.param?).length) tokens
    simpa only [params_blank, List.length_map] using counted
  simp only [Query.compile, Query.render, accepted, rejected]
  cases firstUnsupported? d (r.tokens d) with
  | some construct => exact .rejected _
  | none =>
      refine .compiled ?_ bound
      change String.join _ = String.join _
      rw [← numberedTexts_blank, tokens, numberedTexts_blank]

end RelQuery.Sql
