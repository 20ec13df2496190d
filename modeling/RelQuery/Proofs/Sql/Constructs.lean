/-
Module: RelQuery.Proofs.Sql.Constructs
Purpose: The constructs of a statement that some dialects lack: its RIGHT and FULL joins and its places of
  nulls, at any depth and in the order in which they are written. Rendering fails at the first of them that
  the dialect lacks, and at nothing else.
Main exports: Expr.constructs, Query.constructs, Query.constructs_tokens, Dialect.FirstLacking
-/
import RelQuery.Sql.Render

namespace RelQuery.Sql

/-! ### The constructs of a syntax tree -/

/-- The construct that a kind of join is, if it is one that some dialects lack. -/
def JoinKind.construct? : JoinKind → Option Construct
  | .right => some .rightJoin
  | .full => some .fullOuterJoin
  | .inner | .left | .cross => none

/-- The construct that a place of nulls is. -/
def NullsOrder.construct : NullsOrder → Construct
  | .first => .nullsFirst
  | .last => .nullsLast

mutual

/-- The constructs inside an expression from left to right. Membership in the empty list is a constant, so
    that its operand is not written. -/
def Expr.constructs : Expr → List Construct
  | .column _ _ => []
  | .literal _ => []
  | .param _ => []
  | .star _ => []
  | .binary _ left right => left.constructs ++ right.constructs
  | .not operand => operand.constructs
  | .isNull operand _ => operand.constructs
  | .paren inner => inner.constructs
  | .call _ arguments _ => Expr.constructsOfEach arguments
  | .caseWhen subject branches otherwise =>
    Expr.constructsOfOption subject ++ Expr.constructsOfBranches branches
      ++ Expr.constructsOfOption otherwise
  | .subquery query => query.constructs
  | .existsQuery query _ => query.constructs
  | .inList _ [] _ => []
  | .inList operand (value :: values) _ =>
    operand.constructs ++ (value.constructs ++ Expr.constructsOfEach values)
  | .inQuery operand query _ => operand.constructs ++ query.constructs
  | .likeEscape operand pattern _ _ => operand.constructs ++ pattern.constructs

/-- The constructs inside a list of expressions. -/
def Expr.constructsOfEach : List Expr → List Construct
  | [] => []
  | e :: es => e.constructs ++ Expr.constructsOfEach es

/-- The constructs inside an expression that may be missing. -/
def Expr.constructsOfOption : Option Expr → List Construct
  | none => []
  | some e => e.constructs

/-- The constructs inside the branches of a case distinction, a condition before its result. -/
def Expr.constructsOfBranches : List (Expr × Expr) → List Construct
  | [] => []
  | (condition, result) :: branches =>
    condition.constructs ++ (result.constructs ++ Expr.constructsOfBranches branches)

/-- The constructs inside a derived table. -/
def TableRef.constructs : TableRef → List Construct
  | ⟨.stored _ _, _⟩ => []
  | ⟨.derived query, _⟩ => query.constructs

/-- The constructs inside the first item of a query. -/
def TableRef.constructsOfOption : Option TableRef → List Construct
  | none => []
  | some table => table.constructs

/-- The constructs of joins: the kind of a join stands before its table, and this before its condition. -/
def Join.constructsOfEach : List Join → List Construct
  | [] => []
  | ⟨kind, table, condition⟩ :: joins =>
    kind.construct?.toList ++ table.constructs ++ Expr.constructsOfOption condition
      ++ Join.constructsOfEach joins

/-- The constructs inside a SELECT list. -/
def SelectItem.constructsOfEach : List SelectItem → List Construct
  | [] => []
  | ⟨e, _⟩ :: items => e.constructs ++ SelectItem.constructsOfEach items

/-- The constructs of an ORDER BY list: an expression stands before its place of nulls. -/
def OrderItem.constructsOfEach : List OrderItem → List Construct
  | [] => []
  | ⟨e, _, nulls⟩ :: items =>
    e.constructs ++ (nulls.map NullsOrder.construct).toList ++ OrderItem.constructsOfEach items

/-- The constructs of a query in the order of its clauses. -/
def Query.constructs : Query → List Construct
  | ⟨select, _, source, joins, condition, groupBy, having, orderBy, _, _⟩ =>
    SelectItem.constructsOfEach select ++ TableRef.constructsOfOption source
      ++ Join.constructsOfEach joins ++ Expr.constructsOfOption condition
      ++ Expr.constructsOfEach groupBy ++ Expr.constructsOfOption having
      ++ OrderItem.constructsOfEach orderBy

end

/-! ### The constructs of tokens -/

/-- The constructs among some tokens, in their order. -/
def constructsOf (tokens : List Token) : List Construct := tokens.filterMap Token.construct?

@[simp] theorem constructsOf_nil : constructsOf [] = [] := rfl

@[simp] theorem constructsOf_append (tokens more : List Token) :
    constructsOf (tokens ++ more) = constructsOf tokens ++ constructsOf more :=
  List.filterMap_append

@[simp] theorem constructsOf_cons (token : Token) (tokens : List Token) :
    constructsOf (token :: tokens) = token.construct?.toList ++ constructsOf tokens := by
  rw [constructsOf, List.filterMap_cons]
  cases token.construct? <;> rfl

section

variable (tokens : List Token)

@[simp] theorem construct?_operator (op : BinaryOp) : op.token.construct? = none := by
  cases op <;> rfl

@[simp] theorem constructsOf_parenthesized : constructsOf (parenthesized tokens) = constructsOf tokens := by
  simp [parenthesized, Token.construct?]

@[simp] theorem constructsOf_parenthesizedIf (wrap : Bool) :
    constructsOf (parenthesizedIf wrap tokens) = constructsOf tokens := by
  cases wrap
  · rfl
  · exact constructsOf_parenthesized tokens

end

/-- Separators without constructs leave those of the parts. -/
theorem constructsOf_intercalate {separator : List Token} (plain : constructsOf separator = [])
    (parts : List (List Token)) :
    constructsOf (List.intercalate separator parts) = parts.flatMap constructsOf := by
  induction parts with
  | nil => rfl
  | cons part parts ih =>
      cases parts with
      | nil => simp [List.intercalate]
      | cons next others =>
          rw [List.intercalate_cons_cons, constructsOf_append, constructsOf_append, plain, ih]
          simp

@[simp] theorem constructsOf_commaSeparated (parts : List (List Token)) :
    constructsOf (commaSeparated parts) = parts.flatMap constructsOf :=
  constructsOf_intercalate rfl parts

@[simp] theorem constructsOf_selectListTokens (items : List (List Token)) :
    constructsOf (selectListTokens items) = items.flatMap constructsOf := by
  cases items with
  | nil => rfl
  | cons item items => exact constructsOf_intercalate rfl (item :: items)

/-- A clause that opens with a keyword of its own has the constructs of what follows. -/
theorem constructsOf_clause (word : Keyword) (plain : (kw word).construct? = none)
    (tokens : List Token) : constructsOf (clause word tokens) = constructsOf tokens := by
  rw [clause, constructsOf_cons, constructsOf_cons, constructsOf_cons, plain]
  rfl

theorem constructsOf_listClause (word : Keyword) (plain : (kw word).construct? = none)
    (items : List (List Token)) : constructsOf (listClause word items) = items.flatMap constructsOf := by
  cases items with
  | nil => rfl
  | cons item items =>
      exact (constructsOf_clause word plain _).trans (constructsOf_commaSeparated (item :: items))

/-! Pieces of clauses -/

@[simp] theorem constructsOf_notBefore (negated : Bool) : constructsOf (notBefore negated) = [] := by
  cases negated <;> rfl

@[simp] theorem constructsOf_qualifierTokens (qualifier : Option String) :
    constructsOf (qualifierTokens qualifier) = [] := by
  cases qualifier <;> rfl

@[simp] theorem constructsOf_aliasTokens (label : Option String) :
    constructsOf (aliasTokens label) = [] := by
  cases label <;> rfl

/-- The keywords of a join are the construct that its kind is. -/
@[simp] theorem constructsOf_joinKind (kind : JoinKind) :
    constructsOf kind.tokens = kind.construct?.toList := by
  cases kind <;> rfl

@[simp] theorem constructsOf_directionTokens (direction : Option Direction) :
    constructsOf (directionTokens direction) = [] := by
  cases direction with
  | none => rfl
  | some direction => cases direction <;> rfl

@[simp] theorem constructsOf_nullsTokens (nulls : Option NullsOrder) :
    constructsOf (nullsTokens nulls) = (nulls.map NullsOrder.construct).toList := by
  cases nulls with
  | none => rfl
  | some nulls => cases nulls <;> rfl

@[simp] theorem constructsOf_selectTokens (d : Dialect) (distinct : Bool) (limit offset : Option UInt64) :
    constructsOf (selectTokens distinct (topTokens? d limit offset)) = [] := by
  cases distinct <;> cases d <;> cases limit <;> cases offset <;> rfl

/-- Every dialect has a page clause. -/
@[simp] theorem constructsOf_limitTokens (d : Dialect) (limit offset : Option UInt64) :
    constructsOf (limitTokens d limit offset) = [] := by
  cases d <;> cases limit <;> cases offset <;> rfl

@[simp] theorem constructsOf_orderAndLimitTokens (d : Dialect) (items : List (List Token))
    (limit offset : Option UInt64) :
    constructsOf (orderAndLimitTokens d items limit offset) = items.flatMap constructsOf := by
  have trailing : ∀ paginated : Bool, constructsOf
      (if paginated then Token.newline :: limitTokens d limit offset else []) = [] := by
    intro paginated
    cases paginated
    · rfl
    · exact constructsOf_limitTokens d limit offset
  rw [orderAndLimitTokens, constructsOf_append, trailing, List.append_nil]
  split
  · rename_i arbitrary
    have nothing : items = [] := by
      simp only [Bool.and_eq_true, List.isEmpty_iff] at arbitrary
      exact arbitrary.1.1
    rw [nothing]
    rfl
  · exact constructsOf_listClause .orderBy rfl items

/-! ### Rendering writes the constructs in order -/

/-- A clause on a line of its own, if there is one. -/
def clauseOption (word : Keyword) : Option (List Token) → List Token
  | some tokens => clause word tokens
  | none => []

/-- The tokens of a query, with those of the clauses that may be missing. -/
theorem Query.tokens_eq (d : Dialect) (select : List SelectItem) (distinct : Bool) (source : Option TableRef)
    (joins : List Join) (condition : Option Expr) (groupBy : List Expr) (having : Option Expr)
    (orderBy : List OrderItem) (limit offset : Option UInt64) :
    (⟨select, distinct, source, joins, condition, groupBy, having, orderBy, limit, offset⟩ : Query).tokens d =
      selectTokens distinct (topTokens? d limit offset)
        ++ selectListTokens (SelectItem.tokensOfEach d select)
        ++ clauseOption .from (source.map (TableRef.tokens d))
        ++ Join.tokensOfLines d joins
        ++ clauseOption .where (condition.map (Expr.tokens d))
        ++ listClause .groupBy (Expr.tokensOfEach d groupBy)
        ++ clauseOption .having (having.map (Expr.tokens d))
        ++ orderAndLimitTokens d (OrderItem.tokensOfEach d orderBy) limit offset := by
  cases source <;> cases condition <;> cases having <;> rfl

/-- A clause that may be missing has the constructs of what follows its keyword. -/
theorem constructsOf_clauseOption (word : Keyword) (plain : (kw word).construct? = none)
    (tokens : Option (List Token)) :
    constructsOf (clauseOption word tokens) = (tokens.map constructsOf).getD [] := by
  cases tokens with
  | none => rfl
  | some tokens => exact constructsOf_clause word plain tokens

mutual

/-- The tokens of an expression hold its constructs in order. -/
theorem Expr.constructs_tokens (d : Dialect) : ∀ e : Expr, constructsOf (e.tokens d) = e.constructs
  | .column qualifier _ => by simp [Expr.tokens, Expr.constructs, Token.construct?]
  | .literal _ => rfl
  | .param _ => rfl
  | .star qualifier => by simp [Expr.tokens, Expr.constructs, Token.construct?]
  | .binary op left right => by
      have blank : Token.space.construct? = none := rfl
      simp [Expr.tokens, Expr.constructs, blank, Expr.constructs_tokens d left,
        Expr.constructs_tokens d right]
  | .not operand => by
      simp [Expr.tokens, Expr.constructs, Token.construct?, Expr.constructs_tokens d operand]
  | .isNull operand negated => by
      cases negated <;>
        simp [Expr.tokens, Expr.constructs, Token.construct?, Expr.constructs_tokens d operand]
  | .paren inner => by simp [Expr.tokens, Expr.constructs, Expr.constructs_tokens d inner]
  | .call function arguments distinct => by
      cases distinct <;>
        simp [Expr.tokens, Expr.constructs, Token.construct?, Expr.constructs_tokensOfEach d arguments]
  | .caseWhen subject branches otherwise => by
      cases subject <;> cases otherwise <;>
        simp [Expr.tokens, Expr.constructs, Expr.constructsOfOption, Token.construct?,
          Expr.constructs_tokens d, Expr.constructs_tokensOfBranches d branches]
  | .subquery query => by simp [Expr.tokens, Expr.constructs, Query.constructs_tokens d query]
  | .existsQuery query negated => by
      cases negated <;>
        simp [Expr.tokens, Expr.constructs, Token.construct?, Query.constructs_tokens d query]
  | .inList _ [] negated => by cases negated <;> rfl
  | .inList operand (value :: values) negated => by
      simp [Expr.tokens, Expr.constructs, Token.construct?, Expr.constructs_tokens d operand,
        Expr.constructs_tokens d value, Expr.constructs_tokensOfEach d values]
  | .inQuery operand query negated => by
      simp [Expr.tokens, Expr.constructs, Token.construct?, Expr.constructs_tokens d operand,
        Query.constructs_tokens d query]
  | .likeEscape operand pattern _ negated => by
      simp [Expr.tokens, Expr.constructs, Token.construct?, Expr.constructs_tokens d operand,
        Expr.constructs_tokens d pattern]

theorem Expr.constructs_tokensOfEach (d : Dialect) : ∀ es : List Expr,
    (Expr.tokensOfEach d es).flatMap constructsOf = Expr.constructsOfEach es
  | [] => rfl
  | e :: es => by
      rw [Expr.tokensOfEach, List.flatMap_cons, Expr.constructs_tokens d e,
        Expr.constructs_tokensOfEach d es, Expr.constructsOfEach]

theorem Expr.constructs_tokensOfOption (d : Dialect) : ∀ condition : Option Expr,
    ((condition.map (Expr.tokens d)).map constructsOf).getD [] = Expr.constructsOfOption condition
  | none => rfl
  | some e => Expr.constructs_tokens d e

theorem Expr.constructs_tokensOfBranches (d : Dialect) : ∀ branches : List (Expr × Expr),
    constructsOf (Expr.tokensOfBranches d branches) = Expr.constructsOfBranches branches
  | [] => rfl
  | (condition, result) :: branches => by
      simp [Expr.tokensOfBranches, Expr.constructsOfBranches, Token.construct?,
        Expr.constructs_tokens d condition, Expr.constructs_tokens d result,
        Expr.constructs_tokensOfBranches d branches]

theorem TableRef.constructs_tokens (d : Dialect) : ∀ table : TableRef,
    constructsOf (table.tokens d) = table.constructs
  | ⟨.stored _ _, label⟩ => by
      simp [TableRef.tokens, TableSource.tokens, TableRef.constructs, Token.construct?]
  | ⟨.derived query, label⟩ => by
      simp [TableRef.tokens, TableSource.tokens, TableRef.constructs, Query.constructs_tokens d query]

theorem TableRef.constructs_tokensOfOption (d : Dialect) : ∀ source : Option TableRef,
    ((source.map (TableRef.tokens d)).map constructsOf).getD [] = TableRef.constructsOfOption source
  | none => rfl
  | some table => TableRef.constructs_tokens d table

theorem Join.constructs_tokensOfLines (d : Dialect) : ∀ joins : List Join,
    constructsOf (Join.tokensOfLines d joins) = Join.constructsOfEach joins
  | [] => rfl
  | ⟨kind, table, condition⟩ :: joins => by
      cases condition <;>
        simp [Join.tokensOfLines, Join.tokens, Join.constructsOfEach, Expr.constructsOfOption,
          Token.construct?, TableRef.constructs_tokens d table, Expr.constructs_tokens d,
          Join.constructs_tokensOfLines d joins]

theorem SelectItem.constructs_tokensOfEach (d : Dialect) : ∀ items : List SelectItem,
    (SelectItem.tokensOfEach d items).flatMap constructsOf = SelectItem.constructsOfEach items
  | [] => rfl
  | ⟨e, label⟩ :: items => by
      rw [SelectItem.tokensOfEach, List.flatMap_cons, constructsOf_append, constructsOf_aliasTokens,
        List.append_nil, Expr.constructs_tokens d e, SelectItem.constructs_tokensOfEach d items,
        SelectItem.constructsOfEach]

theorem OrderItem.constructs_tokensOfEach (d : Dialect) : ∀ items : List OrderItem,
    (OrderItem.tokensOfEach d items).flatMap constructsOf = OrderItem.constructsOfEach items
  | [] => rfl
  | ⟨e, direction, nulls⟩ :: items => by
      rw [OrderItem.tokensOfEach, List.flatMap_cons, constructsOf_append, constructsOf_append,
        constructsOf_nullsTokens, constructsOf_directionTokens, List.append_nil,
        Expr.constructs_tokens d e, OrderItem.constructs_tokensOfEach d items, OrderItem.constructsOfEach]

/-- The tokens of a query hold its constructs in order. -/
theorem Query.constructs_tokens (d : Dialect) : ∀ q : Query, constructsOf (q.tokens d) = q.constructs
  | ⟨select, distinct, source, joins, condition, groupBy, having, orderBy, limit, offset⟩ => by
      rw [Query.tokens_eq, Query.constructs]
      simp only [constructsOf_append, constructsOf_selectTokens, constructsOf_selectListTokens,
        SelectItem.constructs_tokensOfEach d select, constructsOf_clauseOption .from rfl,
        TableRef.constructs_tokensOfOption d source, Join.constructs_tokensOfLines d joins,
        constructsOf_clauseOption .where rfl, Expr.constructs_tokensOfOption d condition,
        constructsOf_listClause .groupBy rfl, Expr.constructs_tokensOfEach d groupBy,
        constructsOf_clauseOption .having rfl, Expr.constructs_tokensOfOption d having,
        constructsOf_orderAndLimitTokens, OrderItem.constructs_tokensOfEach d orderBy, List.nil_append]

end

/-! ### Rejection -/

/-- The construct is in the list and the dialect lacks it, but nothing that stands before it. -/
def Dialect.FirstLacking (d : Dialect) (constructs : List Construct) (construct : Construct) : Prop :=
  ∃ before after, constructs = before ++ construct :: after ∧
    (∀ other ∈ before, d.supports other = true) ∧ d.supports construct = false

/-- Searching finds the first construct that the dialect lacks. -/
theorem firstUnsupported?_eq_some (d : Dialect) (tokens : List Token) (construct : Construct) :
    firstUnsupported? d tokens = some construct ↔ d.FirstLacking (constructsOf tokens) construct := by
  rw [firstUnsupported?, List.find?_eq_some_iff_append]
  constructor
  · rintro ⟨lacking, before, after, split, others⟩
    exact ⟨before, after, split, by simpa using others, by simpa using lacking⟩
  · rintro ⟨before, after, split, others, lacking⟩
    exact ⟨by simpa using lacking, before, after, split, by simpa using others⟩

/-- Searching finds nothing where the dialect has all constructs. -/
theorem firstUnsupported?_eq_none (d : Dialect) (tokens : List Token) :
    firstUnsupported? d tokens = none ↔ ∀ construct ∈ constructsOf tokens, d.supports construct = true := by
  rw [firstUnsupported?, List.find?_eq_none]
  simp [constructsOf]

/-- Accepting tokens fails at the first construct that the dialect lacks, and at nothing else. -/
theorem accepted_eq_error (d : Dialect) (tokens : List Token) (fault : QueryError) :
    accepted d tokens = .error fault ↔
      ∃ construct, fault = .unsupported d construct ∧
        d.FirstLacking (constructsOf tokens) construct := by
  rw [accepted]
  cases found : firstUnsupported? d tokens with
  | none =>
      constructor
      · intro failed
        contradiction
      · intro ⟨construct, _, first⟩
        rw [← firstUnsupported?_eq_some, found] at first
        contradiction
  | some construct =>
      have first := (firstUnsupported?_eq_some d tokens construct).1 found
      constructor
      · intro failed
        injection failed with same
        exact ⟨construct, same.symm, first⟩
      · intro ⟨other, same, firstOther⟩
        rw [← firstUnsupported?_eq_some, found] at firstOther
        injection firstOther with equal
        rw [same, equal]

theorem accepted_eq_ok (d : Dialect) (tokens : List Token) :
    accepted d tokens = .ok tokens ↔ ∀ construct ∈ constructsOf tokens, d.supports construct = true := by
  rw [← firstUnsupported?_eq_none, accepted]
  cases firstUnsupported? d tokens <;> simp

/-- Rendering a query fails exactly if some part that is written has a construct which the dialect lacks; the
    error names the dialect and the first such construct. Else it yields the tokens of the query. -/
theorem Query.render_fails_at_first_lacking (d : Dialect) (q : Query) :
    (∀ fault, q.render d = .error fault ↔
      ∃ construct, fault = .unsupported d construct ∧ d.FirstLacking q.constructs construct) ∧
    (q.render d = .ok (q.tokens d) ↔ ∀ construct ∈ q.constructs, d.supports construct = true) := by
  rw [← Query.constructs_tokens d q]
  exact ⟨accepted_eq_error d (q.tokens d), accepted_eq_ok d (q.tokens d)⟩

end RelQuery.Sql
