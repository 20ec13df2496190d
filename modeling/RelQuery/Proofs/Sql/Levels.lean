/-
Module: RelQuery.Proofs.Sql.Levels
Purpose: The SELECTs of a statement and what stands at the level of each, outside of all parentheses behind
  its keyword. A subquery and a derived table are written in parentheses, so that the SELECTs of the tokens
  of a query are those of itself and of the queries inside it, in order, and none lends a token to another.
Main exports: levelTokens, selectLevels, Nested, Query.selects, Query.Spelled, Shows, Query.showsParts,
  Query.ShowsParts.selectLevels
-/
import Mathlib.Data.List.Forall2
import RelQuery.Proofs.Sql.Constructs

namespace RelQuery.Sql

/-! ### Levels -/

/-- The tokens at the level at which `depth` open parentheses are closed again, up to the parenthesis that
    closes this level too. -/
def levelTokens : (depth : Nat) → List Token → List Token
  | _, [] => []
  | depth, t :: ts =>
    if t = .openParen then levelTokens (depth + 1) ts
    else if t = .closeParen then
      match depth with
      | 0 => []
      | depth + 1 => levelTokens depth ts
    else if depth = 0 then t :: levelTokens 0 ts
    else levelTokens depth ts

/-- The tokens at the level of each SELECT, behind its keyword, in the order of the keywords. -/
def selectLevels : List Token → List (List Token)
  | [] => []
  | t :: ts => if t = kw .select then levelTokens 0 ts :: selectLevels ts else selectLevels ts

/-- Whether a token is neither a parenthesis nor forbidden. -/
def Token.isPlain (forbidden : Token → Bool) : Token → Bool
  | .openParen | .closeParen => false
  | t => !forbidden t

theorem Token.isPlain_iff {forbidden : Token → Bool} {t : Token} :
    t.isPlain forbidden = true ↔ t ≠ .openParen ∧ t ≠ .closeParen ∧ forbidden t = false := by
  cases t <;> simp [isPlain]

/-- Every parenthesis is closed, and no token outside of all parentheses is forbidden. -/
inductive Nested : (forbidden : Token → Bool) → List Token → Prop where
  | nil {forbidden : Token → Bool} : Nested forbidden []
  | token {forbidden : Token → Bool} {t : Token} {ts : List Token} (opens : t ≠ .openParen)
      (closes : t ≠ .closeParen) (allowed : forbidden t = false) (rest : Nested forbidden ts) :
      Nested forbidden (t :: ts)
  | group {forbidden : Token → Bool} {inner ts : List Token} (inside : Nested (fun _ => false) inner)
      (rest : Nested forbidden ts) : Nested forbidden (.openParen :: (inner ++ .closeParen :: ts))

/-- Tokens without parentheses are all at their level. -/
theorem levelTokens_of_plain {forbidden : Token → Bool} {ts : List Token}
    (plain : ∀ t ∈ ts, t.isPlain forbidden = true) : levelTokens 0 ts = ts := by
  induction ts with
  | nil => rfl
  | cons t ts ih =>
      rw [List.forall_mem_cons, Token.isPlain_iff] at plain
      simp [levelTokens, plain.1.1, plain.1.2.1, ih plain.2]

namespace Nested

variable {forbidden : Token → Bool} {ts more : List Token}

/-- A plain token stands before closed parentheses. -/
theorem cons {t : Token} (plain : t.isPlain forbidden = true) (nested : Nested forbidden ts) :
    Nested forbidden (t :: ts) := by
  obtain ⟨opens, closes, allowed⟩ := Token.isPlain_iff.1 plain
  exact .token opens closes allowed nested

theorem append (first : Nested forbidden ts) (second : Nested forbidden more) :
    Nested forbidden (ts ++ more) := by
  induction first with
  | nil => exact second
  | token opens closes allowed _ ih => exact .token opens closes allowed (ih second)
  | @group _ inner ts inside _ _ ih =>
      rw [List.cons_append, List.append_assoc, List.cons_append]
      exact .group inside (ih second)

/-- What is allowed where more is forbidden is allowed where less is. -/
theorem mono {other : Token → Bool} (fewer : ∀ t, forbidden t = false → other t = false)
    (nested : Nested forbidden ts) : Nested other ts := by
  induction nested generalizing other with
  | nil => exact .nil
  | token opens closes allowed _ ih => exact .token opens closes (fewer _ allowed) (ih fewer)
  | group inside _ _ ih => exact .group inside (ih fewer)

theorem balanced (nested : Nested forbidden ts) : Nested (fun _ => false) ts := nested.mono fun _ _ => rfl

theorem parenthesized (nested : Nested forbidden ts) (other : Token → Bool) :
    Nested other (parenthesized ts) :=
  .group nested.balanced .nil

/-- Inside of parentheses, closed parentheses are passed over as a whole. -/
theorem levelTokens_succ (nested : Nested forbidden ts) (depth : Nat) (rest : List Token) :
    levelTokens (depth + 1) (ts ++ rest) = levelTokens (depth + 1) rest := by
  induction nested generalizing depth rest with
  | nil => rfl
  | token opens closes _ _ ih => simp [levelTokens, opens, closes, ih]
  | group _ _ insideIH restIH => simp [levelTokens, insideIH, restIH]

theorem levelTokens_append (nested : Nested forbidden ts) (rest : List Token) :
    levelTokens 0 (ts ++ rest) = levelTokens 0 ts ++ levelTokens 0 rest := by
  induction nested generalizing rest with
  | nil => rfl
  | token opens closes _ _ ih => simp [levelTokens, opens, closes, ih]
  | group inside _ _ ih => simp [levelTokens, inside.levelTokens_succ, ih]

/-- A level ends at the parenthesis that closes it. -/
theorem levelTokens_closed (nested : Nested forbidden ts) (rest : List Token) :
    levelTokens 0 (ts ++ .closeParen :: rest) = levelTokens 0 ts := by
  simp [nested.levelTokens_append, levelTokens]

/-- No token at the level is forbidden. -/
theorem allowed_of_mem (nested : Nested forbidden ts) {t : Token} (member : t ∈ levelTokens 0 ts) :
    forbidden t = false := by
  induction nested with
  | nil => contradiction
  | token opens closes allowed _ ih =>
      simp only [levelTokens, opens, closes, if_false, if_true, List.mem_cons] at member
      rcases member with rfl | member
      · exact allowed
      · exact ih member
  | group inside _ _ ih =>
      simp only [levelTokens, if_true, inside.levelTokens_succ] at member
      exact ih (by simpa [levelTokens] using member)

/-- Behind the parenthesis that closes a level, other SELECTs follow. -/
theorem selectLevels_closed (nested : Nested forbidden ts) (rest : List Token) :
    selectLevels (ts ++ .closeParen :: rest) = selectLevels ts ++ selectLevels rest := by
  induction nested generalizing rest with
  | nil => simp [selectLevels]
  | @token _ t ts _ _ _ inside ih =>
      by_cases isSelect : t = kw .select <;> simp [selectLevels, isSelect, inside.levelTokens_closed, ih]
  | group _ _ insideIH restIH => simp [selectLevels, insideIH, restIH]

/-- Where no SELECT stands at the level itself, other SELECTs follow. -/
theorem selectLevels_append (nested : Nested forbidden ts) (forbids : forbidden (kw .select) = true)
    (rest : List Token) : selectLevels (ts ++ rest) = selectLevels ts ++ selectLevels rest := by
  induction nested generalizing rest with
  | nil => rfl
  | @token forbidden t ts _ _ allowed _ ih =>
      have apart : t ≠ kw .select := by
        rintro rfl
        exact absurd (allowed.symm.trans forbids) (by decide)
      simp [selectLevels, apart, ih forbids]
  | group inside _ _ ih => simp [selectLevels, inside.selectLevels_closed, ih forbids]

end Nested

/-! ### Keywords that open something -/

/-- Whether a keyword opens a query. -/
def Token.opensQuery : Token → Bool
  | .keyword .select => true
  | _ => false

/-- Whether a keyword opens a query or belongs to a clause that limits its rows. -/
def Token.opensPage : Token → Bool
  | .keyword .top | .keyword .limit | .keyword .offset | .keyword .fetch => true
  | .keyword .next | .keyword .rows | .keyword .only => true
  | t => t.opensQuery

/-- Whether a keyword opens a query, a join or any clause of a query. -/
def Token.opensClause : Token → Bool
  | .keyword .from | .keyword .where | .keyword .groupBy | .keyword .having | .keyword .orderBy => true
  | .keyword .inner | .keyword .left | .keyword .right | .keyword .full | .keyword .cross => true
  | t => t.opensPage

/-- Whether a token ends an item of a list, as a comma does and whatever opens the next clause. -/
def Token.endsItem : Token → Bool
  | .comma => true
  | t => t.opensClause

theorem Token.opensQuery_of_opensPage (t : Token) (allowed : t.opensPage = false) :
    t.opensQuery = false := by
  unfold opensPage at allowed
  split at allowed <;> first | contradiction | exact allowed

theorem Token.opensPage_of_opensClause (t : Token) (allowed : t.opensClause = false) :
    t.opensPage = false := by
  unfold opensClause at allowed
  split at allowed <;> first | contradiction | exact allowed

theorem Token.opensClause_of_endsItem (t : Token) (allowed : t.endsItem = false) :
    t.opensClause = false := by
  unfold endsItem at allowed
  split at allowed <;> first | contradiction | exact allowed

/-! ### The queries that are written -/

/-- The query that an arbitrary ordering consists of. -/
def Query.selectNull : Query := { Query.empty with select := [.plain (.literal .null)] }

/-- Where rows are skipped, SQL Server orders them by something. A query that does not say by what is ordered
    by a query of nothing. -/
def arbitrarySelects (d : Dialect) (orderBy : List OrderItem) (offset : Option UInt64) : List Query :=
  match d, orderBy, offset with
  | .tsql, [], some _ => [Query.selectNull]
  | _, _, _ => []

mutual

/-- The queries that are written inside an expression, at any depth, in the order in which they begin. Not all
    queries inside it are: membership in the empty list is a constant, and its operand is not written. -/
def Expr.selects (d : Dialect) : Expr → List Query
  | .column _ _ => []
  | .literal _ => []
  | .param _ => []
  | .star _ => []
  | .binary _ left right => left.selects d ++ right.selects d
  | .not operand => operand.selects d
  | .isNull operand _ => operand.selects d
  | .paren inner => inner.selects d
  | .call _ arguments _ => Expr.selectsOfEach d arguments
  | .caseWhen subject branches otherwise =>
    Expr.selectsOfOption d subject ++ Expr.selectsOfBranches d branches ++ Expr.selectsOfOption d otherwise
  | .subquery query => query.selects d
  | .existsQuery query _ => query.selects d
  | .inList _ [] _ => []
  | .inList operand (value :: values) _ =>
    operand.selects d ++ (value.selects d ++ Expr.selectsOfEach d values)
  | .inQuery operand query _ => operand.selects d ++ query.selects d
  | .likeEscape operand pattern _ _ => operand.selects d ++ pattern.selects d

/-- The queries inside a list of expressions. -/
def Expr.selectsOfEach (d : Dialect) : List Expr → List Query
  | [] => []
  | e :: es => e.selects d ++ Expr.selectsOfEach d es

/-- The queries inside an expression that may be missing. -/
def Expr.selectsOfOption (d : Dialect) : Option Expr → List Query
  | none => []
  | some e => e.selects d

/-- The queries inside the branches of a case distinction. -/
def Expr.selectsOfBranches (d : Dialect) : List (Expr × Expr) → List Query
  | [] => []
  | (condition, result) :: branches =>
    condition.selects d ++ (result.selects d ++ Expr.selectsOfBranches d branches)

/-- The queries of a derived table. -/
def TableRef.selects (d : Dialect) : TableRef → List Query
  | ⟨.stored _ _, _⟩ => []
  | ⟨.derived query, _⟩ => query.selects d

/-- The queries of the first item of a query. -/
def TableRef.selectsOfOption (d : Dialect) : Option TableRef → List Query
  | none => []
  | some table => table.selects d

/-- The queries inside joins. -/
def Join.selectsOfEach (d : Dialect) : List Join → List Query
  | [] => []
  | ⟨_, table, condition⟩ :: joins =>
    table.selects d ++ Expr.selectsOfOption d condition ++ Join.selectsOfEach d joins

/-- The queries inside a SELECT list. -/
def SelectItem.selectsOfEach (d : Dialect) : List SelectItem → List Query
  | [] => []
  | ⟨e, _⟩ :: items => e.selects d ++ SelectItem.selectsOfEach d items

/-- The queries inside an ORDER BY list. -/
def OrderItem.selectsOfEach (d : Dialect) : List OrderItem → List Query
  | [] => []
  | ⟨e, _, _⟩ :: items => e.selects d ++ OrderItem.selectsOfEach d items

/-- A query and the queries that are written inside it, at any depth, in the order in which they begin. The
    one of an arbitrary ordering is written although it is not inside the query. -/
def Query.selects (d : Dialect) : Query → List Query
  | ⟨select, distinct, source, joins, condition, groupBy, having, orderBy, limit, offset⟩ =>
    ⟨select, distinct, source, joins, condition, groupBy, having, orderBy, limit, offset⟩ ::
      (SelectItem.selectsOfEach d select ++ TableRef.selectsOfOption d source ++ Join.selectsOfEach d joins
        ++ Expr.selectsOfOption d condition ++ Expr.selectsOfEach d groupBy
        ++ Expr.selectsOfOption d having
        ++ (OrderItem.selectsOfEach d orderBy ++ arbitrarySelects d orderBy offset))

end

/-! ### Tokens that show queries -/

/-- The level of a SELECT is that of the tokens of the query. The query of an arbitrary ordering is written
    on one line. -/
def Query.Spelled (d : Dialect) (q : Query) (level : List Token) : Prop :=
  level = levelTokens 0 (q.tokens d).tail ∨ q = selectNull ∧ level = [.space, kw .null]

/-- Tokens whose SELECTs are those queries, in order, and that have none at their own level. -/
structure Shows (forbidden : Token → Bool) (d : Dialect) (queries : List Query) (ts : List Token) : Prop where
  forbids : forbidden (kw .select) = true
  nested : Nested forbidden ts
  levels : List.Forall₂ (Query.Spelled d) queries (selectLevels ts)

/-- Parts that show queries. -/
inductive ShowsEach (forbidden : Token → Bool) (d : Dialect) : List Query → List (List Token) → Prop where
  | nil : ShowsEach forbidden d [] []
  | cons {queries more : List Query} {part : List Token} {parts : List (List Token)}
      (first : Shows forbidden d queries part) (others : ShowsEach forbidden d more parts) :
      ShowsEach forbidden d (queries ++ more) (part :: parts)

section

variable {forbidden : Token → Bool} {d : Dialect} {queries more : List Query} {ts us : List Token}

namespace Shows

theorem nil (forbids : forbidden (kw .select) = true) : Shows forbidden d [] [] := ⟨forbids, .nil, .nil⟩

/-- A plain token shows nothing. -/
theorem cons {t : Token} (plain : t.isPlain forbidden = true) (shows : Shows forbidden d queries ts) :
    Shows forbidden d queries (t :: ts) := by
  have apart : t ≠ kw .select := by
    rintro rfl
    exact absurd ((Token.isPlain_iff.1 plain).2.2.symm.trans shows.forbids) (by decide)
  exact ⟨shows.forbids, shows.nested.cons plain, by simpa [selectLevels, apart] using shows.levels⟩

theorem ofPlain (forbids : forbidden (kw .select) = true)
    (plain : ∀ t ∈ ts, t.isPlain forbidden = true) : Shows forbidden d [] ts := by
  induction ts with
  | nil => exact .nil forbids
  | cons t ts ih =>
      rw [List.forall_mem_cons] at plain
      exact .cons plain.1 (ih plain.2)

theorem append (first : Shows forbidden d queries ts) (second : Shows forbidden d more us) :
    Shows forbidden d (queries ++ more) (ts ++ us) where
  forbids := first.forbids
  nested := first.nested.append second.nested
  levels := by
    rw [first.nested.selectLevels_append first.forbids]
    exact List.rel_append first.levels second.levels

/-- What shows no queries may stand before or behind. -/
theorem behind (plain : Shows forbidden d [] us) (shows : Shows forbidden d queries ts) :
    Shows forbidden d queries (us ++ ts) :=
  plain.append shows

theorem before (shows : Shows forbidden d queries ts) (plain : Shows forbidden d [] us) :
    Shows forbidden d queries (ts ++ us) := by
  simpa using shows.append plain

/-- Tokens in parentheses show what they show without them. -/
theorem enclosed (forbids : forbidden (kw .select) = true) (nested : Nested (fun _ => false) ts)
    (levels : List.Forall₂ (Query.Spelled d) queries (selectLevels ts)) :
    Shows forbidden d queries (parenthesized ts) where
  forbids := forbids
  nested := .group nested .nil
  levels := by
    have closed := nested.selectLevels_closed []
    simpa [Sql.parenthesized, selectLevels, closed] using levels

theorem parenthesized {other : Token → Bool} (forbids : other (kw .select) = true)
    (shows : Shows forbidden d queries ts) : Shows other d queries (parenthesized ts) :=
  enclosed forbids shows.nested.balanced shows.levels

theorem parenthesizedIf (wrap : Bool) (shows : Shows forbidden d queries ts) :
    Shows forbidden d queries (parenthesizedIf wrap ts) := by
  cases wrap
  · exact shows
  · exact shows.parenthesized shows.forbids

theorem mono {other : Token → Bool} (fewer : ∀ t, forbidden t = false → other t = false)
    (forbids : other (kw .select) = true) (shows : Shows forbidden d queries ts) :
    Shows other d queries ts :=
  ⟨forbids, shows.nested.mono fewer, shows.levels⟩

/-- An item is a list of one item. -/
theorem listed (shows : Shows Token.endsItem d queries ts) : Shows Token.opensClause d queries ts :=
  shows.mono Token.opensClause_of_endsItem rfl

/-- A list of items is a piece of a clause. -/
theorem inClause (shows : Shows Token.opensClause d queries ts) : Shows Token.opensPage d queries ts :=
  shows.mono Token.opensPage_of_opensClause rfl

/-- A piece of a clause is a piece of a query. -/
theorem inQuery (shows : Shows Token.opensPage d queries ts) : Shows Token.opensQuery d queries ts :=
  shows.mono Token.opensQuery_of_opensPage rfl

end Shows

/-- Items between separators show the queries of the items. -/
theorem ShowsEach.intercalate {items : List (List Token)} {separator : List Token}
    (plain : Shows Token.opensClause d [] separator) (shows : ShowsEach Token.endsItem d queries items) :
    Shows Token.opensClause d queries (List.intercalate separator items) := by
  induction shows with
  | nil => exact .nil rfl
  | @cons queries more item items first others ih =>
      cases others with
      | nil => simpa [List.intercalate] using first.listed
      | cons _ _ =>
          rw [List.intercalate_cons_cons]
          exact (first.listed.before plain).append ih

theorem ShowsEach.commaSeparated {items : List (List Token)}
    (shows : ShowsEach Token.endsItem d queries items) :
    Shows Token.opensClause d queries (commaSeparated items) :=
  shows.intercalate (.cons rfl (.cons rfl (.nil rfl)))

/-! Pieces of clauses -/

theorem shows_notBefore (negated : Bool) : Shows Token.endsItem d [] (notBefore negated) := by
  cases negated
  · exact .nil rfl
  · exact .cons rfl (.cons rfl (.nil rfl))

theorem shows_qualifierTokens (qualifier : Option String) :
    Shows Token.endsItem d [] (qualifierTokens qualifier) := by
  cases qualifier with
  | none => exact .nil rfl
  | some _ => exact .cons rfl (.cons rfl (.nil rfl))

theorem shows_aliasTokens (label : Option String) : Shows Token.endsItem d [] (aliasTokens label) := by
  cases label with
  | none => exact .nil rfl
  | some _ => exact .cons rfl (.cons rfl (.cons rfl (.cons rfl (.nil rfl))))

theorem shows_joinKind (kind : JoinKind) : Shows Token.opensPage d [] kind.tokens := by
  cases kind with
  | full => exact .cons rfl (.cons rfl (.cons rfl (.nil rfl)))
  | inner | left | right | cross => exact .cons rfl (.nil rfl)

theorem shows_directionTokens (direction : Option Direction) :
    Shows Token.endsItem d [] (directionTokens direction) := by
  cases direction with
  | none => exact .nil rfl
  | some direction => cases direction <;> exact .cons rfl (.cons rfl (.nil rfl))

theorem shows_nullsTokens (nulls : Option NullsOrder) : Shows Token.endsItem d [] (nullsTokens nulls) := by
  cases nulls with
  | none => exact .nil rfl
  | some nulls => cases nulls <;> exact .cons rfl (.cons rfl (.nil rfl))

/-! Clauses -/

theorem Shows.clause (word : Keyword) (plain : (kw word).isPlain Token.opensPage = true)
    (shows : Shows Token.opensClause d queries ts) : Shows Token.opensPage d queries (clause word ts) :=
  .cons rfl (.cons plain (.cons rfl shows.inClause))

theorem ShowsEach.listClause (word : Keyword) (plain : (kw word).isPlain Token.opensPage = true)
    {items : List (List Token)} (shows : ShowsEach Token.endsItem d queries items) :
    Shows Token.opensPage d queries (listClause word items) := by
  cases shows with
  | nil => exact .nil rfl
  | cons first others => exact (ShowsEach.cons first others).commaSeparated.clause word plain

theorem ShowsEach.selectListTokens {items : List (List Token)}
    (shows : ShowsEach Token.endsItem d queries items) :
    Shows Token.opensPage d queries (selectListTokens items) := by
  cases shows with
  | nil => exact .nil rfl
  | cons first others =>
      have separator : Shows Token.opensClause d [] [.comma, .newline, .indent 1] :=
        .cons rfl (.cons rfl (.cons rfl (.nil rfl)))
      exact .cons rfl (.cons rfl ((ShowsEach.cons first others).intercalate separator).inClause)

end

/-! ### The parts of a query -/

/-- The tokens between SELECT and its list: DISTINCT and TOP. -/
def openingTokens (d : Dialect) (distinct : Bool) (limit offset : Option UInt64) : List Token :=
  (selectTokens distinct (topTokens? d limit offset)).tail

/-- The tokens of the SELECT list and of all clauses up to HAVING. -/
def Query.clauses (d : Dialect) (q : Query) : List Token :=
  selectListTokens (SelectItem.tokensOfEach d q.select)
    ++ clauseOption .from (q.source.map (TableRef.tokens d))
    ++ Join.tokensOfLines d q.joins
    ++ clauseOption .where (q.condition.map (Expr.tokens d))
    ++ listClause .groupBy (Expr.tokensOfEach d q.groupBy)
    ++ clauseOption .having (q.having.map (Expr.tokens d))

/-- Whether the query ends in a clause that limits its rows. -/
def pagesBehind (d : Dialect) (limit offset : Option UInt64) : Bool :=
  (topTokens? d limit offset).isNone && (limit.isSome || offset.isSome)

/-- The ORDER BY clause. -/
def orderingTokens (d : Dialect) (items : List (List Token)) (limit offset : Option UInt64) : List Token :=
  if items.isEmpty && needsOrderToPage d && pagesBehind d limit offset then arbitraryOrder
  else listClause .orderBy items

/-- The trailing clause that limits the rows. -/
def trailingTokens (d : Dialect) (limit offset : Option UInt64) : List Token :=
  if pagesBehind d limit offset then .newline :: limitTokens d limit offset else []

theorem orderAndLimitTokens_eq (d : Dialect) (items : List (List Token)) (limit offset : Option UInt64) :
    orderAndLimitTokens d items limit offset =
      orderingTokens d items limit offset ++ trailingTokens d limit offset :=
  rfl

/-- A query consists of its keyword, what stands directly behind it, its clauses, its ordering and the clause
    that limits its rows. -/
theorem Query.tokens_eq_parts (d : Dialect) (q : Query) :
    q.tokens d = kw .select :: (openingTokens d q.distinct q.limit q.offset ++ (q.clauses d
      ++ (orderingTokens d (OrderItem.tokensOfEach d q.orderBy) q.limit q.offset
        ++ trailingTokens d q.limit q.offset))) := by
  have opening : ∀ distinct top, selectTokens distinct top = kw .select :: (selectTokens distinct top).tail :=
    fun _ _ => rfl
  obtain ⟨select, distinct, source, joins, condition, groupBy, having, orderBy, limit, offset⟩ := q
  rw [Query.tokens_eq, opening, orderAndLimitTokens_eq]
  simp only [openingTokens, clauses, List.append_assoc, List.cons_append]

/-- The queries that are written inside the SELECT list and the clauses up to HAVING. -/
def Query.clauseSelects (d : Dialect) (q : Query) : List Query :=
  SelectItem.selectsOfEach d q.select ++ TableRef.selectsOfOption d q.source ++ Join.selectsOfEach d q.joins
    ++ Expr.selectsOfOption d q.condition ++ Expr.selectsOfEach d q.groupBy ++ Expr.selectsOfOption d q.having

theorem Query.selects_eq_parts (d : Dialect) (q : Query) :
    q.selects d = q :: (q.clauseSelects d
      ++ (OrderItem.selectsOfEach d q.orderBy ++ arbitrarySelects d q.orderBy q.offset)) := by
  cases q
  rfl

/-- The parts of a query show the queries inside it, and have no words of a clause that limits rows. -/
structure Query.ShowsParts (d : Dialect) (q : Query) : Prop where
  clauses : Shows Token.opensPage d (q.clauseSelects d) (q.clauses d)
  order : ShowsEach Token.endsItem d (OrderItem.selectsOfEach d q.orderBy)
    (OrderItem.tokensOfEach d q.orderBy)

section

variable {d : Dialect} {queries : List Query}

theorem plain_openingTokens (d : Dialect) (distinct : Bool) (limit offset : Option UInt64) :
    ∀ t ∈ openingTokens d distinct limit offset, t.isPlain Token.opensQuery = true := by
  cases distinct <;> cases d <;> cases limit <;> cases offset <;>
    simp [openingTokens, selectTokens, topTokens?, Token.isPlain, Token.opensQuery]

theorem plain_trailingTokens (d : Dialect) (limit offset : Option UInt64) :
    ∀ t ∈ trailingTokens d limit offset, t.isPlain Token.opensQuery = true := by
  cases d <;> cases limit <;> cases offset <;>
    simp [trailingTokens, pagesBehind, topTokens?, limitTokens, limitOffsetTokens, offsetFetchTokens,
      unboundedLimit?, Token.isPlain, Token.opensQuery]

theorem shows_arbitraryOrder : Shows Token.opensPage d [Query.selectNull] arbitraryOrder := by
  have nested : Nested (fun _ => false) [kw .select, .space, kw .null] :=
    .cons rfl (.cons rfl (.cons rfl .nil))
  have level : selectLevels [kw .select, .space, kw .null] = [[.space, kw .null]] := rfl
  refine Shows.clause .orderBy rfl (.enclosed rfl nested ?_)
  rw [level]
  exact .cons (.inr ⟨rfl, rfl⟩) .nil

/-- Where rows are skipped, SQL Server has an ordering by something. -/
theorem shows_orderingTokens {orderBy : List OrderItem}
    (shows : ShowsEach Token.endsItem d queries (OrderItem.tokensOfEach d orderBy))
    (limit offset : Option UInt64) :
    Shows Token.opensPage d (queries ++ arbitrarySelects d orderBy offset)
      (orderingTokens d (OrderItem.tokensOfEach d orderBy) limit offset) := by
  have listed := shows.listClause .orderBy rfl
  cases orderBy with
  | nil =>
      cases shows
      cases d <;> cases limit <;> cases offset <;> first | exact listed | exact shows_arbitraryOrder
  | cons item items =>
      have written : orderingTokens d (OrderItem.tokensOfEach d (item :: items)) limit offset =
          listClause .orderBy (OrderItem.tokensOfEach d (item :: items)) := by
        obtain ⟨e, direction, nulls⟩ := item
        rfl
      have named : arbitrarySelects d (item :: items) offset = [] := by cases d <;> rfl
      rw [written, named, List.append_nil]
      exact listed

/-- A query shows itself and the queries inside it. -/
theorem Query.ShowsParts.selectLevels {q : Query} (parts : q.ShowsParts d) :
    Nested (fun _ => false) (q.tokens d) ∧
      List.Forall₂ (Query.Spelled d) (q.selects d) (selectLevels (q.tokens d)) := by
  have opening : Shows Token.opensQuery d [] (openingTokens d q.distinct q.limit q.offset) :=
    .ofPlain rfl (plain_openingTokens d q.distinct q.limit q.offset)
  have trailing : Shows Token.opensQuery d [] (trailingTokens d q.limit q.offset) :=
    .ofPlain rfl (plain_trailingTokens d q.limit q.offset)
  have ordering := (shows_orderingTokens parts.order q.limit q.offset).inQuery
  have behind := opening.behind (parts.clauses.inQuery.append (ordering.before trailing))
  have itself : q.Spelled d (levelTokens 0 (q.tokens d).tail) := .inl rfl
  rw [Query.tokens_eq_parts] at itself
  rw [Query.tokens_eq_parts, Query.selects_eq_parts]
  exact ⟨behind.nested.balanced.cons rfl, .cons itself behind.levels⟩

theorem Query.ShowsParts.enclosed {q : Query} (parts : q.ShowsParts d) :
    Shows Token.endsItem d (q.selects d) (parenthesized (q.tokens d)) :=
  .enclosed rfl parts.selectLevels.1 parts.selectLevels.2

end

/-! ### Queries show the queries inside them -/

/-- An expression behind some words, if there is one. -/
def optionTokens (d : Dialect) (words : List Token) : Option Expr → List Token
  | some e => words ++ e.tokens d
  | none => []

theorem Expr.tokens_caseWhen (d : Dialect) (subject : Option Expr) (branches : List (Expr × Expr))
    (otherwise : Option Expr) :
    (Expr.caseWhen subject branches otherwise).tokens d =
      kw .case :: (optionTokens d [.space] subject ++ Expr.tokensOfBranches d branches
        ++ optionTokens d [.space, kw .else, .space] otherwise ++ [.space, kw .end]) := by
  cases subject <;> cases otherwise <;> rfl

theorem Join.tokens_eq (d : Dialect) (kind : JoinKind) (table : TableRef) (condition : Option Expr) :
    (⟨kind, table, condition⟩ : Join).tokens d =
      kind.tokens ++ .space :: kw .join :: .space ::
        (table.tokens d ++ optionTokens d [.space, kw .on, .space] condition) := by
  cases condition <;> rfl

mutual

/-- An expression shows the queries inside it, and no item ends at its own level. -/
theorem Expr.shows (d : Dialect) : ∀ e : Expr, Shows Token.endsItem d (e.selects d) (e.tokens d)
  | .column qualifier _ => (shows_qualifierTokens qualifier).append (.cons rfl (.nil rfl))
  | .literal _ => .cons rfl (.nil rfl)
  | .param _ => .cons rfl (.nil rfl)
  | .star qualifier => (shows_qualifierTokens qualifier).append (.cons rfl (.nil rfl))
  | .binary op left right => by
      have operator : op.token.isPlain Token.endsItem = true := by cases op <;> rfl
      exact ((Expr.shows d left).parenthesizedIf _).append
        (.cons rfl (.cons operator (.cons rfl ((Expr.shows d right).parenthesizedIf _))))
  | .not operand => .cons rfl (.cons rfl ((Expr.shows d operand).parenthesizedIf _))
  | .isNull operand negated => by
      have words : Shows Token.endsItem d [] [.space, kw (if negated then .isNotNull else .isNull)] := by
        cases negated <;> exact .cons rfl (.cons rfl (.nil rfl))
      exact (Expr.shows d operand).before words
  | .paren inner => (Expr.shows d inner).parenthesized rfl
  | .call function arguments distinct => by
      have listed := (Expr.showsEach d arguments).commaSeparated
      cases distinct
      · exact .cons rfl (listed.parenthesized rfl)
      · have spelled := Shows.cons (t := kw .distinct) rfl (.cons (t := .space) rfl listed)
        exact .cons rfl (spelled.parenthesized rfl)
  | .caseWhen subject branches otherwise => by
      have ending : Shows Token.endsItem d [] [.space, kw .end] := .cons rfl (.cons rfl (.nil rfl))
      have subjects := Expr.showsPart d [.space] (.ofPlain rfl (by decide)) subject
      have others := Expr.showsPart d [.space, kw .else, .space] (.ofPlain rfl (by decide)) otherwise
      rw [Expr.tokens_caseWhen]
      exact .cons rfl (((subjects.append (Expr.showsBranches d branches)).append others).before ending)
  | .subquery query => (Query.showsParts d query).enclosed
  | .existsQuery query negated => by
      have asked := (Query.showsParts d query).enclosed
      cases negated
      · exact .cons rfl (.cons rfl asked)
      · exact .cons rfl (.cons rfl (.cons rfl (.cons rfl asked)))
  | .inList _ [] negated => by
      cases negated <;>
        exact .cons rfl (.cons rfl (.cons rfl (.cons rfl (.cons rfl (.nil rfl)))))
  | .inList operand (value :: values) negated => by
      have listed := (ShowsEach.cons (Expr.shows d value) (Expr.showsEach d values)).commaSeparated
      exact ((Expr.shows d operand).before (shows_notBefore negated)).append <| .cons rfl <| .cons rfl <|
        .cons rfl (listed.parenthesized rfl)
  | .inQuery operand query negated =>
      ((Expr.shows d operand).before (shows_notBefore negated)).append <| .cons rfl <| .cons rfl <|
        .cons rfl (Query.showsParts d query).enclosed
  | .likeEscape operand pattern escape negated => by
      have ending : Shows Token.endsItem d []
          [.space, kw .escape, .space, .literal (.text (String.singleton escape))] :=
        .cons rfl (.cons rfl (.cons rfl (.cons rfl (.nil rfl))))
      exact ((Expr.shows d operand).before (shows_notBefore negated)).append <| .cons rfl <| .cons rfl <|
        .cons rfl ((Expr.shows d pattern).before ending)

theorem Expr.showsEach (d : Dialect) : ∀ es : List Expr,
    ShowsEach Token.endsItem d (Expr.selectsOfEach d es) (Expr.tokensOfEach d es)
  | [] => .nil
  | e :: es => .cons (Expr.shows d e) (Expr.showsEach d es)

theorem Expr.showsPart (d : Dialect) (words : List Token) (plain : Shows Token.endsItem d [] words) :
    ∀ e : Option Expr, Shows Token.endsItem d (Expr.selectsOfOption d e) (optionTokens d words e)
  | none => .nil rfl
  | some e => plain.behind (Expr.shows d e)

theorem Expr.showsOption (d : Dialect) (word : Keyword) (plain : (kw word).isPlain Token.opensPage = true) :
    ∀ condition : Option Expr, Shows Token.opensPage d (Expr.selectsOfOption d condition)
      (clauseOption word (condition.map (Expr.tokens d)))
  | none => .nil rfl
  | some e => (Expr.shows d e).listed.clause word plain

theorem Expr.showsBranches (d : Dialect) : ∀ branches : List (Expr × Expr),
    Shows Token.endsItem d (Expr.selectsOfBranches d branches) (Expr.tokensOfBranches d branches)
  | [] => .nil rfl
  | (condition, result) :: branches =>
      .cons rfl <| .cons rfl <| .cons rfl <| (Expr.shows d condition).append <|
        .cons rfl <| .cons rfl <| .cons rfl <|
          (Expr.shows d result).append (Expr.showsBranches d branches)

theorem TableRef.shows (d : Dialect) : ∀ table : TableRef,
    Shows Token.endsItem d (table.selects d) (table.tokens d)
  | ⟨.stored _ _, label⟩ => .cons rfl (shows_aliasTokens label)
  | ⟨.derived query, label⟩ => (Query.showsParts d query).enclosed.before (shows_aliasTokens label)

theorem TableRef.showsOption (d : Dialect) : ∀ source : Option TableRef,
    Shows Token.opensPage d (TableRef.selectsOfOption d source)
      (clauseOption .from (source.map (TableRef.tokens d)))
  | none => .nil rfl
  | some table => (TableRef.shows d table).listed.clause .from rfl

theorem Join.showsEach (d : Dialect) : ∀ joins : List Join,
    Shows Token.opensPage d (Join.selectsOfEach d joins) (Join.tokensOfLines d joins)
  | [] => .nil rfl
  | ⟨kind, table, condition⟩ :: joins => by
      have joined :=
        (Expr.showsPart d [.space, kw .on, .space] (.ofPlain rfl (by decide)) condition).listed.inClause
      have named := (TableRef.shows d table).listed.inClause.append joined
      rw [Join.tokensOfLines, Join.tokens_eq]
      exact .cons rfl <| ((shows_joinKind kind).behind (.cons rfl (.cons rfl (.cons rfl named)))).append
        (Join.showsEach d joins)

theorem SelectItem.showsEach (d : Dialect) : ∀ items : List SelectItem,
    ShowsEach Token.endsItem d (SelectItem.selectsOfEach d items) (SelectItem.tokensOfEach d items)
  | [] => .nil
  | ⟨e, label⟩ :: items =>
      .cons ((Expr.shows d e).before (shows_aliasTokens label)) (SelectItem.showsEach d items)

theorem OrderItem.showsEach (d : Dialect) : ∀ items : List OrderItem,
    ShowsEach Token.endsItem d (OrderItem.selectsOfEach d items) (OrderItem.tokensOfEach d items)
  | [] => .nil
  | ⟨e, direction, nulls⟩ :: items =>
      .cons (((Expr.shows d e).before (shows_directionTokens direction)).before (shows_nullsTokens nulls))
        (OrderItem.showsEach d items)

theorem Query.showsParts (d : Dialect) : ∀ q : Query, q.ShowsParts d
  | ⟨select, _, source, joins, condition, groupBy, having, orderBy, _, _⟩ =>
      { clauses := (SelectItem.showsEach d select).selectListTokens
          |>.append (TableRef.showsOption d source)
          |>.append (Join.showsEach d joins)
          |>.append (Expr.showsOption d .where rfl condition)
          |>.append ((Expr.showsEach d groupBy).listClause .groupBy rfl)
          |>.append (Expr.showsOption d .having rfl having)
        order := OrderItem.showsEach d orderBy }

end

end RelQuery.Sql
