/-
Module: RelQuery.Proofs.Sql.Parameters
Purpose: The parameters of a statement are those of its syntax tree, clause by clause and from left to right,
  whatever the dialect; the text has one placeholder for each of them, numbered in this order.
Main exports: Expr.params, Query.params, Insert.params, boundValues, Query.boundValues_tokens,
  slotText, Renderable, Renderable.params_line_up
-/
import RelQuery.Sql.Insert

namespace RelQuery.Sql

/-! ### The parameters of a syntax tree -/

mutual

/-- The parameters of an expression from left to right. Membership in the empty list is a constant, so that
    its operand is not written. -/
def Expr.params : Expr → List Literal
  | .column _ _ => []
  | .literal _ => []
  | .param value => [value]
  | .star _ => []
  | .binary _ left right => left.params ++ right.params
  | .not operand => operand.params
  | .isNull operand _ => operand.params
  | .paren inner => inner.params
  | .call _ arguments _ => Expr.paramsOfEach arguments
  | .caseWhen subject branches otherwise =>
    Expr.paramsOfOption subject ++ Expr.paramsOfBranches branches ++ Expr.paramsOfOption otherwise
  | .subquery query => query.params
  | .existsQuery query _ => query.params
  | .inList _ [] _ => []
  | .inList operand (value :: values) _ => operand.params ++ (value.params ++ Expr.paramsOfEach values)
  | .inQuery operand query _ => operand.params ++ query.params
  | .likeEscape operand pattern _ _ => operand.params ++ pattern.params

/-- The parameters of a list of expressions. -/
def Expr.paramsOfEach : List Expr → List Literal
  | [] => []
  | e :: es => e.params ++ Expr.paramsOfEach es

/-- The parameters of an expression that may be missing. -/
def Expr.paramsOfOption : Option Expr → List Literal
  | none => []
  | some e => e.params

/-- The parameters of the branches of a case distinction, a condition before its result. -/
def Expr.paramsOfBranches : List (Expr × Expr) → List Literal
  | [] => []
  | (condition, result) :: branches =>
    condition.params ++ (result.params ++ Expr.paramsOfBranches branches)

/-- The parameters of a derived table. -/
def TableRef.params : TableRef → List Literal
  | ⟨.stored _ _, _⟩ => []
  | ⟨.derived query, _⟩ => query.params

/-- The parameters of the first item of a query. -/
def TableRef.paramsOfOption : Option TableRef → List Literal
  | none => []
  | some table => table.params

/-- The parameters of joins, those of a table before those of its condition. -/
def Join.paramsOfEach : List Join → List Literal
  | [] => []
  | ⟨_, table, condition⟩ :: joins =>
    table.params ++ Expr.paramsOfOption condition ++ Join.paramsOfEach joins

/-- The parameters of a SELECT list. -/
def SelectItem.paramsOfEach : List SelectItem → List Literal
  | [] => []
  | ⟨e, _⟩ :: items => e.params ++ SelectItem.paramsOfEach items

/-- The parameters of an ORDER BY list. -/
def OrderItem.paramsOfEach : List OrderItem → List Literal
  | [] => []
  | ⟨e, _, _⟩ :: items => e.params ++ OrderItem.paramsOfEach items

/-- The parameters of a query in the order of its clauses. -/
def Query.params : Query → List Literal
  | ⟨select, _, source, joins, condition, groupBy, having, orderBy, _, _⟩ =>
    SelectItem.paramsOfEach select ++ TableRef.paramsOfOption source ++ Join.paramsOfEach joins
      ++ Expr.paramsOfOption condition ++ Expr.paramsOfEach groupBy ++ Expr.paramsOfOption having
      ++ OrderItem.paramsOfEach orderBy

end

/-- The parameters of an insertion, row by row. -/
def Insert.params (insert : Insert) : List Literal := insert.rows.flatMap Expr.paramsOfEach

/-! ### The parameters of tokens -/

/-- The values that the parameters among some tokens bind, in their order. -/
def boundValues (tokens : List Token) : List Literal := tokens.filterMap Token.param?

@[simp] theorem boundValues_nil : boundValues [] = [] := rfl

@[simp] theorem boundValues_append (tokens more : List Token) :
    boundValues (tokens ++ more) = boundValues tokens ++ boundValues more :=
  List.filterMap_append

@[simp] theorem boundValues_param (value : Literal) (tokens : List Token) :
    boundValues (.param value :: tokens) = value :: boundValues tokens := rfl

theorem boundValues_cons_of_none {token : Token} (unbound : token.param? = none) (tokens : List Token) :
    boundValues (token :: tokens) = boundValues tokens :=
  List.filterMap_cons_none unbound

section

variable (word : Keyword) (tokens : List Token)

@[simp] theorem boundValues_keyword : boundValues (.keyword word :: tokens) = boundValues tokens := rfl

@[simp] theorem boundValues_space : boundValues (.space :: tokens) = boundValues tokens := rfl

@[simp] theorem boundValues_newline : boundValues (.newline :: tokens) = boundValues tokens := rfl

@[simp] theorem boundValues_comma : boundValues (.comma :: tokens) = boundValues tokens := rfl

@[simp] theorem boundValues_identifier (name : String) :
    boundValues (.identifier name :: tokens) = boundValues tokens := rfl

@[simp] theorem boundValues_literal (value : Literal) :
    boundValues (.literal value :: tokens) = boundValues tokens := rfl

@[simp] theorem boundValues_operator (op : BinaryOp) :
    boundValues (op.token :: tokens) = boundValues tokens := by
  cases op <;> rfl

/-- Parentheses bind nothing. -/
@[simp] theorem boundValues_parenthesized : boundValues (parenthesized tokens) = boundValues tokens := by
  change boundValues (tokens ++ [.closeParen]) = boundValues tokens
  rw [boundValues_append]
  exact List.append_nil _

@[simp] theorem boundValues_parenthesizedIf (wrap : Bool) :
    boundValues (parenthesizedIf wrap tokens) = boundValues tokens := by
  cases wrap
  · rfl
  · exact boundValues_parenthesized tokens

end

/-- Separators that bind nothing leave the parameters of the parts. -/
theorem boundValues_intercalate {separator : List Token} (unbound : boundValues separator = [])
    (parts : List (List Token)) :
    boundValues (List.intercalate separator parts) = parts.flatMap boundValues := by
  induction parts with
  | nil => rfl
  | cons part parts ih =>
      cases parts with
      | nil => simp [List.intercalate]
      | cons next others =>
          rw [List.intercalate_cons_cons, boundValues_append, boundValues_append, unbound, ih]
          simp

@[simp] theorem boundValues_commaSeparated (parts : List (List Token)) :
    boundValues (commaSeparated parts) = parts.flatMap boundValues :=
  boundValues_intercalate rfl parts

@[simp] theorem boundValues_selectListTokens (items : List (List Token)) :
    boundValues (selectListTokens items) = items.flatMap boundValues := by
  cases items with
  | nil => rfl
  | cons item items => exact boundValues_intercalate rfl (item :: items)

@[simp] theorem boundValues_listClause (word : Keyword) (items : List (List Token)) :
    boundValues (listClause word items) = items.flatMap boundValues := by
  cases items with
  | nil => rfl
  | cons item items => exact boundValues_commaSeparated (item :: items)

@[simp] theorem boundValues_clause (word : Keyword) (tokens : List Token) :
    boundValues (clause word tokens) = boundValues tokens := rfl

/-! Pieces of clauses that bind nothing -/

@[simp] theorem boundValues_notBefore (negated : Bool) : boundValues (notBefore negated) = [] := by
  cases negated <;> rfl

@[simp] theorem boundValues_qualifierTokens (qualifier : Option String) :
    boundValues (qualifierTokens qualifier) = [] := by
  cases qualifier <;> rfl

@[simp] theorem boundValues_aliasTokens (label : Option String) : boundValues (aliasTokens label) = [] := by
  cases label <;> rfl

@[simp] theorem boundValues_joinKind (kind : JoinKind) : boundValues kind.tokens = [] := by
  cases kind <;> rfl

@[simp] theorem boundValues_directionTokens (direction : Option Direction) :
    boundValues (directionTokens direction) = [] := by
  cases direction with
  | none => rfl
  | some direction => cases direction <;> rfl

@[simp] theorem boundValues_nullsTokens (nulls : Option NullsOrder) :
    boundValues (nullsTokens nulls) = [] := by
  cases nulls with
  | none => rfl
  | some nulls => cases nulls <;> rfl

@[simp] theorem boundValues_selectTokens (d : Dialect) (distinct : Bool) (limit offset : Option UInt64) :
    boundValues (selectTokens distinct (topTokens? d limit offset)) = [] := by
  cases distinct <;> cases d <;> cases limit <;> cases offset <;> rfl

/-- Row counts are written in place. -/
@[simp] theorem boundValues_limitTokens (d : Dialect) (limit offset : Option UInt64) :
    boundValues (limitTokens d limit offset) = [] := by
  cases d <;> cases limit <;> cases offset <;> rfl

@[simp] theorem boundValues_orderAndLimitTokens (d : Dialect) (items : List (List Token))
    (limit offset : Option UInt64) :
    boundValues (orderAndLimitTokens d items limit offset) = items.flatMap boundValues := by
  have trailing : ∀ paginated : Bool, boundValues
      (if paginated then Token.newline :: limitTokens d limit offset else []) = [] := by
    rintro (_ | _)
    · rfl
    · exact boundValues_limitTokens d limit offset
  rw [orderAndLimitTokens, boundValues_append, trailing, List.append_nil]
  split
  · rename_i arbitrary
    obtain rfl : items = [] := by
      simp only [Bool.and_eq_true, List.isEmpty_iff] at arbitrary
      exact arbitrary.1.1
    rfl
  · exact boundValues_listClause .orderBy items

/-! ### Rendering keeps the parameters in order -/

mutual

/-- The tokens of an expression bind its parameters in order. -/
theorem Expr.boundValues_tokens (d : Dialect) : ∀ e : Expr, boundValues (e.tokens d) = e.params
  | .column qualifier _ => by simp [Expr.tokens, Expr.params]
  | .literal _ => by simp [Expr.tokens, Expr.params]
  | .param _ => by simp [Expr.tokens, Expr.params]
  | .star qualifier => by
      rw [Expr.tokens, boundValues_append, boundValues_qualifierTokens, Expr.params]
      rfl
  | .binary op left right => by
      simp [Expr.tokens, Expr.params, Expr.boundValues_tokens d left, Expr.boundValues_tokens d right]
  | .not operand => by simp [Expr.tokens, Expr.params, kw, Expr.boundValues_tokens d operand]
  | .isNull operand negated => by simp [Expr.tokens, Expr.params, kw, Expr.boundValues_tokens d operand]
  | .paren inner => by simp [Expr.tokens, Expr.params, Expr.boundValues_tokens d inner]
  | .call function arguments distinct => by
      have start : boundValues (if distinct then [kw .distinct, .space] else []) = [] := by
        cases distinct <;> rfl
      rw [Expr.tokens, boundValues_cons_of_none rfl, boundValues_parenthesized, boundValues_append, start,
        boundValues_commaSeparated, Expr.boundValues_tokensOfEach d arguments, List.nil_append, Expr.params]
  | .caseWhen subject branches otherwise => by
      cases subject <;> cases otherwise <;>
        simp [Expr.tokens, Expr.params, Expr.paramsOfOption, kw, Expr.boundValues_tokens d,
          Expr.boundValues_tokensOfBranches d branches]
  | .subquery query => by simp [Expr.tokens, Expr.params, Query.boundValues_tokens d query]
  | .existsQuery query negated => by
      cases negated <;> simp [Expr.tokens, Expr.params, kw, Query.boundValues_tokens d query]
  | .inList _ [] negated => by cases negated <;> rfl
  | .inList operand (value :: values) negated => by
      simp [Expr.tokens, Expr.params, kw, Expr.boundValues_tokens d operand, Expr.boundValues_tokens d value,
        Expr.boundValues_tokensOfEach d values]
  | .inQuery operand query negated => by
      simp [Expr.tokens, Expr.params, kw, Expr.boundValues_tokens d operand,
        Query.boundValues_tokens d query]
  | .likeEscape operand pattern _ negated => by
      simp [Expr.tokens, Expr.params, kw, Expr.boundValues_tokens d operand,
        Expr.boundValues_tokens d pattern]

theorem Expr.boundValues_tokensOfEach (d : Dialect) : ∀ es : List Expr,
    (Expr.tokensOfEach d es).flatMap boundValues = Expr.paramsOfEach es
  | [] => rfl
  | e :: es => by
      rw [Expr.tokensOfEach, List.flatMap_cons, Expr.boundValues_tokens d e,
        Expr.boundValues_tokensOfEach d es, Expr.paramsOfEach]

theorem Expr.boundValues_tokensOfBranches (d : Dialect) : ∀ branches : List (Expr × Expr),
    boundValues (Expr.tokensOfBranches d branches) = Expr.paramsOfBranches branches
  | [] => rfl
  | (condition, result) :: branches => by
      simp [Expr.tokensOfBranches, Expr.paramsOfBranches, kw, Expr.boundValues_tokens d condition,
        Expr.boundValues_tokens d result, Expr.boundValues_tokensOfBranches d branches]

theorem TableRef.boundValues_tokens (d : Dialect) : ∀ table : TableRef,
    boundValues (table.tokens d) = table.params
  | ⟨.stored _ _, label⟩ => by
      rw [TableRef.tokens, boundValues_append, boundValues_aliasTokens, TableRef.params]
      rfl
  | ⟨.derived query, label⟩ => by
      simp [TableRef.tokens, TableSource.tokens, TableRef.params, Query.boundValues_tokens d query]

theorem Join.boundValues_tokensOfLines (d : Dialect) : ∀ joins : List Join,
    boundValues (Join.tokensOfLines d joins) = Join.paramsOfEach joins
  | [] => rfl
  | ⟨kind, table, none⟩ :: joins => by
      simp [Join.tokensOfLines, Join.tokens, Join.paramsOfEach, Expr.paramsOfOption, kw,
        TableRef.boundValues_tokens d table, Join.boundValues_tokensOfLines d joins]
  | ⟨kind, table, some condition⟩ :: joins => by
      simp [Join.tokensOfLines, Join.tokens, Join.paramsOfEach, Expr.paramsOfOption, kw,
        TableRef.boundValues_tokens d table, Expr.boundValues_tokens d condition,
        Join.boundValues_tokensOfLines d joins]

theorem SelectItem.boundValues_tokensOfEach (d : Dialect) : ∀ items : List SelectItem,
    (SelectItem.tokensOfEach d items).flatMap boundValues = SelectItem.paramsOfEach items
  | [] => rfl
  | ⟨e, label⟩ :: items => by
      rw [SelectItem.tokensOfEach, List.flatMap_cons, boundValues_append, boundValues_aliasTokens,
        List.append_nil, Expr.boundValues_tokens d e, SelectItem.boundValues_tokensOfEach d items,
        SelectItem.paramsOfEach]

theorem OrderItem.boundValues_tokensOfEach (d : Dialect) : ∀ items : List OrderItem,
    (OrderItem.tokensOfEach d items).flatMap boundValues = OrderItem.paramsOfEach items
  | [] => rfl
  | ⟨e, direction, nulls⟩ :: items => by
      rw [OrderItem.tokensOfEach, List.flatMap_cons, boundValues_append, boundValues_append,
        boundValues_nullsTokens, boundValues_directionTokens, List.append_nil, List.append_nil,
        Expr.boundValues_tokens d e, OrderItem.boundValues_tokensOfEach d items, OrderItem.paramsOfEach]

/-- The tokens of a query bind its parameters in order. -/
theorem Query.boundValues_tokens (d : Dialect) : ∀ q : Query, boundValues (q.tokens d) = q.params
  | ⟨select, distinct, source, joins, condition, groupBy, having, orderBy, limit, offset⟩ => by
      cases source <;> cases condition <;> cases having <;>
        simp [Query.tokens, Query.params, TableRef.paramsOfOption, Expr.paramsOfOption,
          SelectItem.boundValues_tokensOfEach d select, TableRef.boundValues_tokens d,
          Join.boundValues_tokensOfLines d joins, Expr.boundValues_tokens d,
          Expr.boundValues_tokensOfEach d groupBy, OrderItem.boundValues_tokensOfEach d orderBy]

end

/-! ### Insertions -/

namespace Insert

@[simp] theorem boundValues_nameTokens (names : List String) : boundValues (nameTokens names) = [] := by
  rw [nameTokens, boundValues_commaSeparated]
  simp

/-- Assignments bind what their values bind. -/
theorem boundValues_assignmentTokens (columns : List String) {value : String → List Token}
    (unbound : ∀ column, boundValues (value column) = []) :
    boundValues (assignmentTokens columns value) = [] := by
  rw [assignmentTokens, boundValues_commaSeparated, List.flatMap_map, List.flatMap_eq_nil_iff]
  intro column _
  exact unbound column

@[simp] theorem boundValues_rowTokens (d : Dialect) (rows : List (List Expr)) :
    boundValues (rowTokens d rows) = rows.flatMap Expr.paramsOfEach := by
  rw [rowTokens, boundValues_intercalate rfl, List.flatMap_map]
  refine congrArg List.flatten (List.map_congr_left fun row _ => ?_)
  rw [boundValues_space, boundValues_parenthesized, boundValues_commaSeparated,
    Expr.boundValues_tokensOfEach]

@[simp] theorem boundValues_onConflictTokens (conflict : OnConflict) :
    boundValues (onConflictTokens conflict) = [] := by
  have assigned : ∀ columns, boundValues (assignmentTokens columns fun column =>
      [kw .excluded, .dot, .identifier column]) = [] :=
    fun columns => boundValues_assignmentTokens columns fun _ => rfl
  cases conflict with
  | keep keys => cases keys <;> simp [onConflictTokens, OnConflict.keys, kw]
  | update keys columns => cases keys <;> simp [onConflictTokens, OnConflict.keys, kw, assigned]

@[simp] theorem boundValues_onDuplicateKeyTokens (conflict : OnConflict) :
    boundValues (onDuplicateKeyTokens conflict) = [] := by
  cases conflict with
  | keep keys => rfl
  | update keys columns => exact boundValues_assignmentTokens columns fun _ => rfl

/-- A plain insertion binds its rows. -/
@[simp] theorem boundValues_insertTokens (d : Dialect) (insert : Insert) (ignore : Bool) :
    boundValues (insertTokens d insert ignore) = insert.params := by
  have rows : boundValues (parenthesized (nameTokens insert.columns)
      ++ .space :: kw .values :: rowTokens d insert.rows) = insert.params := by
    simp [kw, params]
  cases ignore <;> exact rows

/-- So does a merge, which names their columns on one side of its conditions alone. -/
@[simp] theorem boundValues_mergeTokens (d : Dialect) (insert : Insert) (conflict : OnConflict) :
    boundValues (mergeTokens d insert conflict) = insert.params := by
  have side : ∀ side column : String, boundValues (sideColumn side column) = [] := fun _ _ => rfl
  have matching : boundValues (List.intercalate [.space, kw .and, .space] (conflict.keys.map fun key =>
      sideColumn mergeTarget key ++ .space :: .comparison .eq :: .space :: sideColumn mergeSource key)) =
        [] := by
    rw [boundValues_intercalate rfl, List.flatMap_map, List.flatMap_eq_nil_iff]
    exact fun _ _ => rfl
  have inserted : boundValues (commaSeparated (insert.columns.map (sideColumn mergeSource))) = [] := by
    rw [boundValues_commaSeparated, List.flatMap_map, List.flatMap_eq_nil_iff]
    exact fun _ _ => rfl
  have opening : ∀ rest : List Token, boundValues (.qualified insert.schema insert.table :: rest) =
      boundValues rest := fun _ => rfl
  have closing : boundValues [.semicolon] = [] := rfl
  cases conflict with
  | keep keys => simp [mergeTokens, kw, params, matching, inserted, opening, closing]
  | update keys columns =>
      have assigned := boundValues_assignmentTokens columns (side mergeSource)
      simp [mergeTokens, kw, params, matching, inserted, opening, closing, assigned]

/-- In every style of upsert, an insertion binds the values of its rows in order. -/
theorem boundValues_tokens (d : Dialect) (insert : Insert) :
    boundValues (insert.tokens d) = insert.params := by
  rw [tokens]
  split <;> simp

end Insert

/-! ### Placeholders -/

/-- The number of the parameter at a position of some tokens, counted from one. -/
def parameterNumber (tokens : List Token) (position : Nat) : Nat :=
  (boundValues (tokens.take position)).length + 1

/-- The text of some tokens in which each parameter is written as the slot of its number. -/
def slotText (d : Dialect) (slot : Nat → String) (tokens : List Token) : String :=
  String.join (tokens.mapIdx fun position token =>
    if token.param?.isSome then slot (parameterNumber tokens position) else token.text d)

/-- Numbering from some number on writes the parameters as the slots from there on. -/
theorem numberedTexts_eq (d : Dialect) (tokens : List Token) (number : Nat) :
    numberedTexts d number tokens = tokens.mapIdx fun position token =>
      if token.param?.isSome then d.placeholder (number + (boundValues (tokens.take position)).length)
      else token.text d := by
  induction tokens generalizing number with
  | nil => rfl
  | cons token tokens ih =>
      rw [List.mapIdx_cons]
      cases bound : token.param? with
      | none =>
          have unnumbered : numberedTexts d number (token :: tokens) =
              token.text d :: numberedTexts d number tokens := by
            cases token <;> first | rfl | contradiction
          rw [unnumbered, ih]
          simp [boundValues_cons_of_none bound]
      | some value =>
          obtain rfl : token = .param value := by
            cases token <;> simp_all [Token.param?]
          rw [numberedTexts, ih]
          simp [Nat.add_assoc, Nat.add_comm 1]

/-- A statement has placeholders for its parameters, numbered from left to right. -/
theorem Statement.sql_ofTokens (d : Dialect) (tokens : List Token) :
    (Statement.ofTokens d tokens).sql = slotText d d.placeholder tokens := by
  rw [Statement.ofTokens, numberedTexts_eq, slotText]
  simp only [parameterNumber, Nat.add_comm 1]

/-- A parameter binds the value of its number. -/
theorem getElem?_boundValues {tokens : List Token} {position : Nat} {value : Literal}
    (bound : tokens[position]? = some (.param value)) :
    (boundValues tokens)[parameterNumber tokens position - 1]? = some value := by
  rw [parameterNumber, Nat.add_sub_cancel]
  induction tokens generalizing position with
  | nil => contradiction
  | cons token tokens ih =>
      cases position with
      | zero =>
          obtain rfl : token = .param value := by simpa using bound
          rfl
      | succ position =>
          have later := ih (by simpa using bound)
          cases first : token.param? with
          | none => simpa [boundValues_cons_of_none first] using later
          | some other =>
              obtain rfl : token = .param other := by
                cases token <;> simp_all [Token.param?]
              simpa using later

/-- With the values of the parameters in place of the placeholders, the text is the inline one. -/
theorem inlineText_eq (d : Dialect) (tokens : List Token) :
    inlineText d tokens = slotText d (fun number =>
      (((boundValues tokens)[number - 1]?).map (Literal.inline d)).getD "") tokens := by
  rw [inlineText, slotText]
  refine congrArg String.join (List.ext_getElem? fun position => ?_)
  rw [List.getElem?_map, List.getElem?_mapIdx]
  cases here : tokens[position]? with
  | none => rfl
  | some token =>
      cases bound : token.param? with
      | none => simp [bound]
      | some value =>
          obtain rfl : token = .param value := by
            cases token <;> simp_all [Token.param?]
          simp [bound, getElem?_boundValues here, Token.text]

/-! ### Expressions, queries and insertions -/

/-- A dialect that can express tokens leaves them as they are. -/
theorem eq_of_accepted {d : Dialect} {made tokens : List Token} (taken : accepted d made = .ok tokens) :
    tokens = made := by
  unfold accepted at taken
  split at taken
  · contradiction
  · exact (Except.ok.inj taken).symm

/-- What is rendered into a text with parameters. -/
inductive Renderable where
  | expr (e : Expr)
  | query (q : Query)
  | insert (i : Insert)

namespace Renderable

/-- The parameters in the order of the clauses that hold them. -/
def params : Renderable → List Literal
  | .expr e => e.params
  | .query q => q.params
  | .insert i => i.params

/-- The tokens in a dialect that can express them. -/
def render (d : Dialect) : Renderable → Except QueryError (List Token)
  | .expr e => e.render d
  | .query q => q.render d
  | .insert i => i.render d

/-- The statement in a dialect that can express it. -/
def compile (d : Dialect) : Renderable → Except QueryError Statement
  | .expr e => e.compile d
  | .query q => q.compile d
  | .insert i => i.compile d

theorem compile_eq (d : Dialect) (source : Renderable) :
    source.compile d = (source.render d).map (Statement.ofTokens d) := by
  cases source <;> rfl

/-- Whatever is rendered binds its parameters in order. -/
theorem boundValues_of_render {d : Dialect} {source : Renderable} {tokens : List Token}
    (rendered : source.render d = .ok tokens) : boundValues tokens = source.params := by
  cases source with
  | expr e => rw [eq_of_accepted rendered, Expr.boundValues_tokens, params]
  | query q => rw [eq_of_accepted rendered, Query.boundValues_tokens, params]
  | insert i =>
      simp only [render, Insert.render] at rendered
      split at rendered
      · contradiction
      · split at rendered
        · contradiction
        · rw [eq_of_accepted rendered, Insert.boundValues_tokens, params]

/-- The parameters of a statement are those of its syntax tree, in the order of its clauses. The text has
    the placeholder of its number for each, and with the values in place of the placeholders it is the
    inline text. No dialect changes the parameters. -/
theorem params_line_up (source : Renderable) (d : Dialect) (tokens : List Token)
    (rendered : source.render d = .ok tokens) :
    ∃ statement, source.compile d = .ok statement ∧ statement.params = source.params ∧
      statement.sql = slotText d d.placeholder tokens ∧
      inlineText d tokens = slotText d (fun number =>
        ((statement.params[number - 1]?).map (Literal.inline d)).getD "") tokens ∧
      (∀ position value, tokens[position]? = some (.param value) →
        statement.params[parameterNumber tokens position - 1]? = some value) ∧
      ∀ other statement', source.compile other = .ok statement' → statement'.params = statement.params := by
  have compiled : source.compile d = .ok (Statement.ofTokens d tokens) := by
    rw [compile_eq, rendered]
    rfl
  refine ⟨_, compiled, boundValues_of_render rendered, Statement.sql_ofTokens d tokens,
    inlineText_eq d tokens, fun position value => getElem?_boundValues, ?_⟩
  intro other statement' compiledOther
  rw [compile_eq] at compiledOther
  cases renderedOther : source.render other with
  | error fault => simp [renderedOther, Except.map] at compiledOther
  | ok tokens' =>
      obtain rfl : Statement.ofTokens other tokens' = statement' := by
        simpa [renderedOther, Except.map] using compiledOther
      exact (boundValues_of_render renderedOther).trans (boundValues_of_render rendered).symm

/-- Two rows are merged on SQL Server; what is asked of the empty list in the first one is not written. -/
theorem params_of_merge :
    let source : Renderable := .insert ⟨none, "tags", ["id", "used"],
      [[.param (.int 1), .inList (.param (.text "lean")) [] false], [.param (.int 2), .param (.bool true)]],
      some (.update ["id"] ["used"])⟩
    ∃ statement, source.compile .tsql = .ok statement ∧
      statement.params = [.int 1, .int 2, .bool true] := by
  intro source
  obtain ⟨tokens, rendered⟩ : ∃ tokens, source.render .tsql = .ok tokens := ⟨_, rfl⟩
  obtain ⟨statement, compiled, params, -⟩ := params_line_up source .tsql tokens rendered
  exact ⟨statement, compiled, params⟩

end Renderable

end RelQuery.Sql
