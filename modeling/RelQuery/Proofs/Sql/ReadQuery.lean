/-
Module: RelQuery.Proofs.Sql.ReadQuery
Purpose: Readers get back the queries that were written, clause by clause: each clause is read in front of
  the later ones, which never continue it. With that, whole expressions and statements are read back.
Main exports: Behind, Query.ReadsBack, readsBack_query, Query.readsBack, readCondition?_tokens,
  readStatement?_tokens
-/
import RelQuery.Proofs.Sql.Parameters
import RelQuery.Proofs.Sql.ReadExpr

namespace RelQuery.Sql

open Dialect

/-! ### Clauses -/

/-- The place of a clause or of the end of a query, by the token that it begins with. -/
def Token.place : Token → Nat
  | .keyword .from => 1
  | .keyword .inner => 2
  | .keyword .left => 2
  | .keyword .right => 2
  | .keyword .full => 2
  | .keyword .cross => 2
  | .keyword .where => 3
  | .keyword .orderBy => 4
  | .keyword .limit => 5
  | .keyword .offset => 5
  | .closeParen => 6
  | _ => 0

/-- What follows begins with a later clause, or the query ends there. -/
def Behind (n : Nat) (ts : List Token) : Prop := ∀ t ∈ ts.head?, n < t.place

theorem Behind.mono {m n : Nat} {ts : List Token} (behind : Behind n ts) (le : m ≤ n) : Behind m ts :=
  fun t member => Nat.lt_of_le_of_lt le (behind t member)

@[simp] theorem behind_nil {n : Nat} : Behind n [] := by simp [Behind]

@[simp] theorem behind_cons {n : Nat} {t : Token} {ts : List Token} : Behind n (t :: ts) ↔ n < t.place := by
  simp [Behind]

/-- No clause continues the expression before it. -/
theorem Behind.looser {n : Nat} {ts : List Token} (behind : Behind n ts) : LooserThan 1 ts := by
  intro t member
  have place := behind t member
  unfold Token.place at place
  split at place <;> first | exact absurd place (Nat.not_lt_zero n) | simp [Token.grip]

/-- What the reader of queries makes of the words of a query, in front of a closing parenthesis or of
    nothing. -/
def Query.ReadsBack (d : Dialect) (q : Query) : Prop :=
  ∀ ts, Behind 5 ts → ∃ more, words (q.tokens d) ++ ts = kw .select :: more ∧
    readSelect d more = some (q.readBack d, ts)

namespace Expr

variable {d : Dialect} {query : Query}

theorem readsBack_existsQuery (negated : Bool) (reads : query.ReadsBack d) :
    (Expr.existsQuery query negated).ReadsBack d := by
  have exists_ : ∀ ts, readOperand d (kw .exist :: .openParen :: (RelQuery.Sql.words (query.tokens d) ++
      .closeParen :: ts)) = some (.existsQuery (query.readBack d) false, ts) := by
    intro ts
    obtain ⟨more, opens, read⟩ := reads (.closeParen :: ts) (by simp [Token.place])
    simp [opens, readOperand, read]
  cases negated with
  | false =>
      refine .ofOperand rfl fun ts => ?_
      simpa [Expr.words, tokens, Token.isLayout, readBack] using exists_ ts
  | true =>
      refine .ofNegation (by simp [Expr.rank]) (by simp [Expr.rank]) fun ts looser => ?_
      have negation := readNot_eq d (exists_ ts)
      rw [readTest_stop d _ looser] at negation
      simp [Expr.words, tokens, Token.isLayout, readNot, negation, readBack]

theorem readsBack_inQuery {operand : Expr} (negated : Bool) (atom : operand.IsAtom)
    (reads : query.ReadsBack d) : (Expr.inQuery operand query negated).ReadsBack d := by
  have membersRead : ∀ ts, readMembers d operand negated (.openParen ::
      (RelQuery.Sql.words (query.tokens d) ++ .closeParen :: ts)) =
        some (.inQuery operand (query.readBack d) negated, ts) := by
    intro ts
    obtain ⟨more, opens, read⟩ := reads (.closeParen :: ts) (by simp [Token.place])
    simp [opens, readMembers, read]
  refine .ofTest operand ((if negated then [kw .not] else []) ++ kw .in :: .openParen ::
      (RelQuery.Sql.words (query.tokens d) ++ [.closeParen])) rfl (fun ts => ?_)
    (readsBack_of_isAtom atom) (rank_of_isAtom atom) fun ts => ?_
  · cases negated <;> simp [Expr.words, tokens, notBefore, Token.isLayout]
  · rw [readBack_of_isAtom d atom]
    cases negated <;> simp [readTest, membersRead, readBack]

end Expr

/-- What follows an item of a list is a comma or a later clause. -/
def EndsItem (ts : List Token) : Prop := ∀ t ∈ ts.head?, t = .comma ∨ 0 < t.place

theorem Behind.endsItem {n : Nat} {ts : List Token} (behind : Behind n ts) : EndsItem ts :=
  fun t member => .inr (Nat.zero_lt_of_lt (behind t member))

@[simp] theorem endsItem_comma (ts : List Token) : EndsItem (.comma :: ts) := by simp [EndsItem]

theorem expect_eq_none {token : Token} {ts : List Token} (apart : ∀ t ∈ ts.head?, t ≠ token) :
    expect token ts = none := by
  cases ts with
  | nil => rfl
  | cons t ts => simp [expect, apart t rfl]

theorem readAlias_words (label : Option String) {ts : List Token} (apart : ∀ t ∈ ts.head?, t ≠ kw .as) :
    readAlias (words (aliasTokens label) ++ ts) = (label, ts) := by
  cases label with
  | none =>
      rw [aliasTokens, words_nil, List.nil_append]
      unfold readAlias
      split
      · simp at apart
      · rfl
  | some label => simp [aliasTokens, Token.isLayout, readAlias]

theorem readDirection_words (direction : Option Direction) {ts : List Token}
    (apart : ∀ t ∈ ts.head?, t ≠ kw .asc ∧ t ≠ kw .desc) :
    readDirection (words (directionTokens direction) ++ ts) = (direction, ts) := by
  cases direction with
  | none =>
      rw [directionTokens, words_nil, List.nil_append]
      unfold readDirection
      split <;> first | rfl | simp at apart
  | some direction => cases direction <;> simp [directionTokens, Token.isLayout, readDirection]

theorem readNulls_words (nulls : Option NullsOrder) {ts : List Token}
    (apart : ∀ t ∈ ts.head?, t ≠ kw .nullsFirst ∧ t ≠ kw .nullsLast) :
    readNulls (words (nullsTokens nulls) ++ ts) = (nulls, ts) := by
  cases nulls with
  | none =>
      rw [nullsTokens, words_nil, List.nil_append]
      unfold readNulls
      split <;> first | rfl | simp at apart
  | some nulls => cases nulls <;> simp [nullsTokens, Token.isLayout, readNulls]

theorem readJoinKind_words (kind : JoinKind) (ts : List Token) :
    readJoinKind (words kind.tokens ++ kw .join :: ts) = some (kind, ts) := by
  cases kind <;> simp [JoinKind.tokens, Token.isLayout, readJoinKind]

theorem readJoinKind_eq_none {ts : List Token} (behind : Behind 2 ts) : readJoinKind ts = none := by
  unfold readJoinKind
  split <;> first | rfl | simp [Token.place] at behind

section

variable {d : Dialect}

/-- The words of a condition behind a keyword. -/
def conditionWords (d : Dialect) (word : Keyword) : Option Expr → List Token
  | some e => kw word :: e.words d
  | none => []

/-- The condition behind a keyword is read back. -/
theorem readCondition_words {word : Keyword} {condition : Option Expr}
    (reads : ∀ e ∈ condition, e.ReadsBack d) {ts : List Token} (looser : LooserThan 1 ts)
    (apart : ∀ t ∈ ts.head?, t ≠ kw word) :
    readCondition d word (conditionWords d word condition ++ ts) =
      some (Expr.readBackOption d condition, ts) := by
  cases condition with
  | none => simp [conditionWords, readCondition, expect_eq_none apart, Expr.readBackOption]
  | some e => simp [conditionWords, readCondition, (reads e rfl).whole looser, Expr.readBackOption]

/-! ### Table occurrences and joins -/

/-- A table occurrence is read back in front of anything but an alias. -/
def TableRef.ReadsBack (d : Dialect) (table : TableRef) : Prop :=
  ∀ ts, (∀ t ∈ ts.head?, t ≠ kw .as) →
    readTable d (words (table.tokens d) ++ ts) = some (table.readBack d, ts)

theorem readsBack_stored (schema : Option String) (name : String) (label : Option String) :
    TableRef.ReadsBack d ⟨.stored schema name, label⟩ := by
  intro ts apart
  simp [TableRef.tokens, TableSource.tokens, Token.isLayout, readTable, readAlias_words label apart,
    TableRef.readBack]

theorem Query.ReadsBack.derived {query : Query} (reads : query.ReadsBack d) (label : Option String) :
    TableRef.ReadsBack d ⟨.derived query, label⟩ := by
  intro ts apart
  obtain ⟨more, opens, read⟩ := reads (.closeParen :: (words (aliasTokens label) ++ ts))
    (by simp [Token.place])
  simp [TableRef.tokens, TableSource.tokens, opens, readTable, read, readAlias_words label apart,
    TableRef.readBack]

/-- Joins are read back in front of a later clause. -/
def JoinsReadBack (d : Dialect) (joins : List Join) : Prop :=
  ∀ ts, Behind 2 ts →
    readJoins d (words (Join.tokensOfLines d joins) ++ ts) = some (Join.readBackEach d joins, ts)

theorem joinsReadBack_nil : JoinsReadBack d [] := by
  intro ts behind
  simp [Join.tokensOfLines, readJoins, readJoinKind_eq_none behind, Join.readBackEach]

theorem words_joins_cons (kind : JoinKind) (table : TableRef) (condition : Option Expr)
    (joins : List Join) : words (Join.tokensOfLines d (⟨kind, table, condition⟩ :: joins)) =
      words kind.tokens ++ kw .join :: (words (table.tokens d) ++ (conditionWords d .on condition ++
        words (Join.tokensOfLines d joins))) := by
  cases condition <;>
    simp [Join.tokensOfLines, Join.tokens, conditionWords, Expr.words, Token.isLayout]

/-- Joins begin with the keyword of their kind. -/
theorem behind_joins (joins : List Join) {ts : List Token} (behind : Behind 2 ts) :
    Behind 1 (words (Join.tokensOfLines d joins) ++ ts) := by
  cases joins with
  | nil => exact behind.mono (by decide)
  | cons join joins =>
      obtain ⟨kind, table, condition⟩ := join
      rw [words_joins_cons]
      cases kind <;> simp [JoinKind.tokens, Token.isLayout, Token.place]

theorem JoinsReadBack.cons {kind : JoinKind} {table : TableRef} {condition : Option Expr}
    {joins : List Join} (readsTable : table.ReadsBack d) (reads : ∀ e ∈ condition, e.ReadsBack d)
    (others : JoinsReadBack d joins) : JoinsReadBack d (⟨kind, table, condition⟩ :: joins) := by
  intro ts behind
  have follows := behind_joins (d := d) joins behind
  have noAlias : ∀ t ∈ (conditionWords d .on condition ++ (words (Join.tokensOfLines d joins) ++ ts)).head?,
      t ≠ kw .as := by
    cases condition with
    | none =>
        rintro t member rfl
        simpa [Token.place] using follows _ member
    | some e => simp [conditionWords]
  have noOn : ∀ t ∈ (words (Join.tokensOfLines d joins) ++ ts).head?, t ≠ kw .on := by
    rintro t member rfl
    simpa [Token.place] using follows _ member
  rw [words_joins_cons, List.append_assoc, List.cons_append, readJoins, readJoinKind_words]
  simp [readsTable _ noAlias, readCondition_words reads follows.looser noOn, others ts behind,
    Join.readBackEach]

/-! ### Lists of items -/

theorem EndsItem.looser {ts : List Token} (ends : EndsItem ts) : LooserThan 1 ts := by
  intro t member
  rcases ends t member with rfl | place
  · decide
  · have behind : Behind 0 [t] := by simpa using place
    exact behind.looser t rfl

theorem EndsItem.apart {ts : List Token} (ends : EndsItem ts) (word : Keyword)
    (inside : (kw word).place = 0) : ∀ t ∈ ts.head?, t ≠ kw word := by
  rintro t member rfl
  rcases ends _ member with same | place
  · contradiction
  · exact absurd place (by rw [inside]; decide)

/-- The words of an item of a SELECT list. -/
theorem readOr_item {e : Expr} (atom : e.IsAtom) (label : Option String) {ts : List Token}
    (ends : EndsItem ts) :
    readOr d (words (e.tokens d ++ aliasTokens label) ++ ts) =
      some (e, words (aliasTokens label) ++ ts) := by
  rw [words_append, List.append_assoc]
  refine Expr.readOr_of_isAtom atom ?_
  cases label with
  | none => exact ends.looser
  | some label => simp [aliasTokens, Token.isLayout, Token.grip]

/-- The items of a SELECT list are read one by one. -/
theorem readItems_words {item : SelectItem} {items : List SelectItem}
    (atoms : ∀ i ∈ item :: items, i.expr.IsAtom) {ts : List Token} (behind : Behind 0 ts) :
    readItems d (words (commaSeparated (SelectItem.tokensOfEach d (item :: items))) ++ ts) =
      some (item :: items, ts) := by
  induction items generalizing item with
  | nil =>
      obtain ⟨e, label⟩ := item
      have atom : e.IsAtom := atoms ⟨e, label⟩ List.mem_cons_self
      have read := readOr_item (d := d) atom label behind.endsItem
      have aliased := readAlias_words label (behind.endsItem.apart .as rfl)
      rw [readItems, SelectItem.tokensOfEach, SelectItem.tokensOfEach, words_commaSeparated_singleton, read]
      simp only [Option.bind_eq_bind, Option.bind_some, aliased]
      split
      · simp [Token.place] at behind
      · rfl
  | cons next items ih =>
      obtain ⟨e, label⟩ := item
      obtain ⟨f, other⟩ := next
      have others := ih fun i member => atoms i (List.mem_cons_of_mem _ member)
      rw [SelectItem.tokensOfEach] at others
      have atom : e.IsAtom := atoms ⟨e, label⟩ List.mem_cons_self
      have read := fun ts => readOr_item (d := d) atom label (endsItem_comma ts)
      have aliased := fun ts => readAlias_words label ((endsItem_comma ts).apart .as rfl)
      rw [readItems, SelectItem.tokensOfEach, SelectItem.tokensOfEach, words_commaSeparated_cons,
        List.append_assoc, List.cons_append, read]
      simp [aliased, others]

/-- The words of an item of an ORDER BY list. -/
theorem readOr_term {e : Expr} (atom : e.IsAtom) (direction : Option Direction) (nulls : Option NullsOrder)
    {ts : List Token} (ends : EndsItem ts) :
    readOr d (words (e.tokens d ++ directionTokens direction ++ nullsTokens nulls) ++ ts) =
        some (e, words (directionTokens direction) ++ (words (nullsTokens nulls) ++ ts)) ∧
      readDirection (words (directionTokens direction) ++ (words (nullsTokens nulls) ++ ts)) =
        (direction, words (nullsTokens nulls) ++ ts) ∧
      readNulls (words (nullsTokens nulls) ++ ts) = (nulls, ts) := by
  refine ⟨?_, readDirection_words direction ?_, readNulls_words nulls fun t member =>
    ⟨ends.apart _ rfl t member, ends.apart _ rfl t member⟩⟩
  · rw [words_append, words_append, List.append_assoc, List.append_assoc]
    refine Expr.readOr_of_isAtom atom ?_
    cases direction with
    | some direction => cases direction <;> simp [directionTokens, Token.isLayout, Token.grip]
    | none =>
        cases nulls with
        | some nulls => cases nulls <;> simp [directionTokens, nullsTokens, Token.isLayout, Token.grip]
        | none => exact ends.looser
  · cases nulls with
    | some nulls => cases nulls <;> simp [nullsTokens, Token.isLayout]
    | none => exact fun t member => ⟨ends.apart _ rfl t member, ends.apart _ rfl t member⟩

/-- The items of an ORDER BY list are read one by one. -/
theorem readTerms_words {item : OrderItem} {items : List OrderItem}
    (atoms : ∀ i ∈ item :: items, i.expr.IsAtom) {ts : List Token} (behind : Behind 0 ts) :
    readTerms d (words (commaSeparated (OrderItem.tokensOfEach d (item :: items))) ++ ts) =
      some (item :: items, ts) := by
  induction items generalizing item with
  | nil =>
      obtain ⟨e, direction, nulls⟩ := item
      have atom : e.IsAtom := atoms ⟨e, direction, nulls⟩ List.mem_cons_self
      obtain ⟨read, directed, placed⟩ := readOr_term (d := d) atom direction nulls behind.endsItem
      rw [readTerms, OrderItem.tokensOfEach, OrderItem.tokensOfEach, words_commaSeparated_singleton, read]
      simp only [Option.bind_eq_bind, Option.bind_some, directed, placed]
      split
      · simp [Token.place] at behind
      · rfl
  | cons next items ih =>
      obtain ⟨e, direction, nulls⟩ := item
      obtain ⟨f, other, otherNulls⟩ := next
      have others := ih fun i member => atoms i (List.mem_cons_of_mem _ member)
      rw [OrderItem.tokensOfEach] at others
      have atom : e.IsAtom := atoms ⟨e, direction, nulls⟩ List.mem_cons_self
      have first := fun ts => readOr_term (d := d) atom direction nulls (endsItem_comma ts)
      rw [readTerms, OrderItem.tokensOfEach, OrderItem.tokensOfEach, words_commaSeparated_cons,
        List.append_assoc, List.cons_append, (first _).1]
      simp only [Option.bind_eq_bind, Option.bind_some, (first _).2.1, (first _).2.2, others]

/-! ### Pages -/

/-- The words of a trailing pagination clause. -/
def pageWords (d : Dialect) (limit offset : Option UInt64) : List Token :=
  if (topTokens? d limit offset).isNone && (limit.isSome || offset.isSome) then
    words (limitTokens d limit offset)
  else []

/-- Behind all clauses, a query ends with its tokens or with a closing parenthesis. -/
theorem Behind.ends {ts : List Token} (behind : Behind 5 ts) : ts = [] ∨ ∃ more, ts = .closeParen :: more := by
  cases ts with
  | nil => exact .inl rfl
  | cons t ts =>
      have place : 5 < t.place := by simpa using behind
      refine .inr ⟨ts, ?_⟩
      unfold Token.place at place
      split at place <;> first | rfl | omega

/-- The limit and the offset are read back from where the dialect writes them. -/
theorem readPage_words {limit offset : Option UInt64} (trailing : topTokens? d limit offset = none)
    {ts : List Token} (behind : Behind 5 ts) :
    readPage d (pageWords d limit offset ++ ts) = some ((meantLimit d limit offset, offset), ts) := by
  obtain rfl | ⟨more, rfl⟩ := behind.ends <;> cases d <;> cases limit <;> cases offset <;>
    simp [pageWords, topTokens?, limitTokens, limitOffsetTokens, offsetFetchTokens, unboundedLimit?,
      Token.isLayout, readPage, meantLimit] at trailing ⊢
  all_goals split <;> rfl

/-! ### Orderings -/

/-- The words of an ordering. -/
def orderWords (d : Dialect) (orderBy : List OrderItem) (limit offset : Option UInt64) : List Token :=
  words (if orderBy.isEmpty && needsOrderToPage d &&
      ((topTokens? d limit offset).isNone && (limit.isSome || offset.isSome)) then arbitraryOrder
    else listClause .orderBy (OrderItem.tokensOfEach d orderBy))

theorem isEmpty_tokensOfEach (items : List OrderItem) :
    (OrderItem.tokensOfEach d items).isEmpty = items.isEmpty := by
  cases items with
  | nil => rfl
  | cons item items =>
      obtain ⟨e, direction, nulls⟩ := item
      rfl

theorem words_orderAndLimitTokens (orderBy : List OrderItem) (limit offset : Option UInt64) :
    words (orderAndLimitTokens d (OrderItem.tokensOfEach d orderBy) limit offset) =
      orderWords d orderBy limit offset ++ pageWords d limit offset := by
  rw [orderAndLimitTokens, orderWords, pageWords, isEmpty_tokensOfEach, words_append]
  congr 1
  split <;> simp [Token.isLayout]

theorem orderWords_cons (item : OrderItem) (items : List OrderItem) (limit offset : Option UInt64) :
    orderWords d (item :: items) limit offset =
      kw .orderBy :: words (commaSeparated (OrderItem.tokensOfEach d (item :: items))) := by
  obtain ⟨e, direction, nulls⟩ := item
  rw [orderWords, List.isEmpty_cons, Bool.false_and, Bool.false_and, if_neg Bool.false_ne_true,
    OrderItem.tokensOfEach]
  simp [listClause, Token.isLayout]

/-- An ordering is read back in front of a later clause. -/
theorem readOrder_words {orderBy : List OrderItem} (atoms : ∀ item ∈ orderBy, item.expr.IsAtom)
    (limit offset : Option UInt64) {ts : List Token} (behind : Behind 4 ts) :
    readOrder d (orderWords d orderBy limit offset ++ ts) = some (orderBy, ts) := by
  cases orderBy with
  | nil =>
      rw [orderWords]
      split
      · simp [arbitraryOrder, clause, Token.isLayout, readOrder]
      · rw [OrderItem.tokensOfEach, listClause, words_nil, List.nil_append]
        unfold readOrder
        split <;> first | rfl | simp [Token.place] at behind
  | cons item items =>
      have read := readTerms_words (d := d) atoms (behind.mono (Nat.zero_le 4))
      rw [orderWords_cons, List.cons_append]
      obtain ⟨e, direction, nulls⟩ := item
      obtain ⟨t, more, begins, noParen, -⟩ :=
        Expr.head_of_isAtom d (atoms ⟨e, direction, nulls⟩ List.mem_cons_self)
      have first : words (e.tokens d ++ directionTokens direction ++ nullsTokens nulls) =
          t :: (more ++ words (directionTokens direction) ++ words (nullsTokens nulls)) := by
        rw [words_append, words_append, ← Expr.words, begins, List.cons_append, List.cons_append]
      obtain ⟨rest, spelled⟩ :=
        words_commaSeparated_begins _ (OrderItem.tokensOfEach d items) first
      rw [OrderItem.tokensOfEach, spelled, List.cons_append] at read ⊢
      rw [readOrder.eq_2 _ _ fun ts same => noParen (List.cons.inj same).1, read]

/-! ### Queries -/

/-- The items of a SELECT list stand behind commas. -/
theorem words_selectListTokens (items : List (List Token)) :
    words (selectListTokens items) = words (commaSeparated items) := by
  have separated : ∀ (item : List Token) (items : List (List Token)),
      words (List.intercalate [.comma, .newline, .indent 1] (item :: items)) =
        words (commaSeparated (item :: items)) := by
    intro item items
    induction items generalizing item with
    | nil => simp
    | cons next items ih =>
        rw [List.intercalate_cons_cons, words_append, words_append, ih, words_commaSeparated_cons]
        simp [Token.isLayout]
  cases items with
  | nil => rfl
  | cons item items =>
      rw [← separated]
      simp [selectListTokens, Token.isLayout]

/-- The words of TOP, if the dialect writes it. -/
def topWords (d : Dialect) (limit offset : Option UInt64) : List Token :=
  match topTokens? d limit offset with
  | some tokens => words tokens
  | none => []

theorem readDistinct_words (distinct : Bool) {ts : List Token} (apart : ∀ t ∈ ts.head?, t ≠ kw .distinct) :
    readDistinct ((if distinct then [kw .distinct] else []) ++ ts) = (distinct, ts) := by
  cases distinct with
  | true => rfl
  | false =>
      rw [if_neg Bool.false_ne_true, List.nil_append]
      unfold readDistinct
      split <;> first | rfl | simp at apart

/-- The limit is read back from TOP or from the trailing clause. -/
theorem readTop_words (limit offset : Option UInt64) {ts : List Token}
    (apart : ∀ t ∈ ts.head?, t ≠ kw .top) :
    ∃ top, readTop (topWords d limit offset ++ ts) = (top, ts) ∧
      ∀ rest, Behind 5 rest → ∃ trailing,
        readPage d (pageWords d limit offset ++ rest) = some ((trailing, offset), rest) ∧
        top.or trailing = meantLimit d limit offset := by
  cases written : topTokens? d limit offset with
  | none =>
      refine ⟨none, ?_, fun rest behind => ⟨_, readPage_words written behind, by simp⟩⟩
      rw [topWords, written]
      change readTop ts = _
      unfold readTop
      split <;> first | rfl | simp at apart
  | some tokens =>
      -- Only one dialect writes TOP, and it writes no trailing clause then.
      obtain ⟨rfl, n, rfl, rfl, rfl⟩ : d = .tsql ∧ ∃ n, limit = some n ∧ offset = none ∧
          tokens = [kw .top, .space, .count n] := by
        cases d <;> cases limit <;> cases offset <;> simp_all [topTokens?]
      refine ⟨some n, by simp [topWords, topTokens?, Token.isLayout, readTop], ?_⟩
      intro rest behind
      refine ⟨none, ?_, rfl⟩
      obtain rfl | ⟨more, rfl⟩ := behind.ends <;> simp [pageWords, topTokens?, readPage]

/-- The SELECT list is read back in front of FROM. -/
theorem readSelectList_words {select : List SelectItem} (atoms : ∀ item ∈ select, item.expr.IsAtom)
    (ts : List Token) :
    readSelectList d (words (selectListTokens (SelectItem.tokensOfEach d select)) ++ kw .from :: ts) =
        some (select, kw .from :: ts) ∧
    ∀ t ∈ (words (selectListTokens (SelectItem.tokensOfEach d select)) ++ kw .from :: ts).head?,
      t ≠ kw .distinct ∧ t ≠ kw .top := by
  rw [words_selectListTokens]
  cases select with
  | nil => simp [SelectItem.tokensOfEach, commaSeparated, readSelectList]
  | cons item items =>
      have follows : Behind 0 (kw .from :: ts) := by simp [Token.place]
      have read := readItems_words (d := d) atoms follows
      obtain ⟨e, label⟩ := item
      obtain ⟨t, more, begins, -, noKeyword⟩ := Expr.head_of_isAtom d (atoms ⟨e, label⟩ List.mem_cons_self)
      have first : words (e.tokens d ++ aliasTokens label) = t :: (more ++ words (aliasTokens label)) := by
        rw [words_append, ← Expr.words, begins, List.cons_append]
      obtain ⟨rest, spelled⟩ :=
        words_commaSeparated_begins _ (SelectItem.tokensOfEach d items) first
      rw [SelectItem.tokensOfEach, spelled, List.cons_append] at read ⊢
      constructor
      · rw [readSelectList.eq_2 _ _ fun ts same => noKeyword .from (List.cons.inj same).1, read]
      · rintro _ ⟨rfl⟩
        exact ⟨noKeyword .distinct, noKeyword .top⟩

/-! #### What the clauses begin with -/

theorem behind_page (limit offset : Option UInt64) {ts : List Token} (behind : Behind 5 ts) :
    Behind 4 (pageWords d limit offset ++ ts) := by
  have rest : Behind 4 ts := behind.mono (by decide)
  cases d <;> cases limit <;> cases offset <;>
    simp [pageWords, topTokens?, limitTokens, limitOffsetTokens, offsetFetchTokens, unboundedLimit?,
      Token.isLayout, Token.place, rest]

theorem behind_order (orderBy : List OrderItem) (limit offset : Option UInt64) {ts : List Token}
    (behind : Behind 4 ts) : Behind 3 (orderWords d orderBy limit offset ++ ts) := by
  cases orderBy with
  | nil =>
      rw [orderWords]
      split
      · simp [arbitraryOrder, clause, Token.isLayout, Token.place]
      · exact behind.mono (by decide)
  | cons item items =>
      rw [orderWords_cons]
      simp [Token.place]

theorem behind_condition (condition : Option Expr) {ts : List Token} (behind : Behind 3 ts) :
    Behind 2 (conditionWords d .where condition ++ ts) := by
  cases condition with
  | none => exact behind.mono (by decide)
  | some e => simp [conditionWords, Token.place]

theorem head_topWords (limit offset : Option UInt64) {ts : List Token} {t : Token}
    (member : t ∈ (topWords d limit offset ++ ts).head?) : t = kw .top ∨ t ∈ ts.head? := by
  cases d <;> cases limit <;> cases offset <;>
    simp_all [topWords, topTokens?, Token.isLayout]

theorem words_selectTokens (distinct : Bool) (limit offset : Option UInt64) :
    words (selectTokens distinct (topTokens? d limit offset)) =
      kw .select :: ((if distinct then [kw .distinct] else []) ++ topWords d limit offset) := by
  unfold topWords
  cases distinct <;> cases topTokens? d limit offset <;> simp [selectTokens, Token.isLayout]

/-- The words of a query, clause by clause. -/
theorem words_query (select : List SelectItem) (distinct : Bool) (source : TableRef) (joins : List Join)
    (condition : Option Expr) (orderBy : List OrderItem) (limit offset : Option UInt64) :
    words ((⟨select, distinct, some source, joins, condition, [], none, orderBy, limit, offset⟩ :
      Query).tokens d) =
      kw .select :: ((if distinct then [kw .distinct] else []) ++ (topWords d limit offset ++
        (words (selectListTokens (SelectItem.tokensOfEach d select)) ++ kw .from ::
          (words (source.tokens d) ++ (words (Join.tokensOfLines d joins) ++
            (conditionWords d .where condition ++
              (orderWords d orderBy limit offset ++ pageWords d limit offset))))))) := by
  cases condition <;>
    simp [Query.tokens, words_selectTokens, words_orderAndLimitTokens, clause, conditionWords, Expr.words,
      Expr.tokensOfEach, listClause, Token.isLayout]

/-- A query is read back, clause by clause. -/
theorem readsBack_query {select : List SelectItem} {distinct : Bool} {source : TableRef} {joins : List Join}
    {condition : Option Expr} {orderBy : List OrderItem} {limit offset : Option UInt64}
    (selected : ∀ item ∈ select, item.expr.IsAtom) (readsSource : source.ReadsBack d)
    (readsJoins : JoinsReadBack d joins) (reads : ∀ e ∈ condition, e.ReadsBack d)
    (sorted : ∀ item ∈ orderBy, item.expr.IsAtom) :
    Query.ReadsBack d
      ⟨select, distinct, some source, joins, condition, [], none, orderBy, limit, offset⟩ := by
  intro ts behind
  -- What stands behind each clause, from the end of the query to its beginning.
  have behindOrder := behind_page (d := d) limit offset behind
  have readOrdering := readOrder_words (d := d) sorted limit offset behindOrder
  obtain ⟨ordering, orderingIs⟩ : ∃ ordering, ordering = orderWords d orderBy limit offset ++
    (pageWords d limit offset ++ ts) := ⟨_, rfl⟩
  have behindCondition := behind_order (d := d) orderBy limit offset behindOrder
  rw [← orderingIs] at behindCondition readOrdering
  obtain ⟨conditions, conditionsIs⟩ : ∃ conditions, conditions =
    conditionWords d .where condition ++ ordering := ⟨_, rfl⟩
  have behindJoins := behind_condition (d := d) condition behindCondition
  have readWhere : readCondition d .where (conditionWords d .where condition ++ ordering) =
      some (Expr.readBackOption d condition, ordering) := by
    refine readCondition_words reads behindCondition.looser ?_
    rintro t member rfl
    simpa [Token.place] using behindCondition _ member
  rw [← conditionsIs] at behindJoins readWhere
  obtain ⟨joining, joiningIs⟩ : ∃ joining, joining =
    words (Join.tokensOfLines d joins) ++ conditions := ⟨_, rfl⟩
  have behindSource := behind_joins (d := d) joins behindJoins
  have readJoining := readsJoins _ behindJoins
  rw [← joiningIs] at behindSource readJoining
  have readSource : readTable d (words (source.tokens d) ++ joining) = some (source.readBack d, joining) := by
    refine readsSource joining ?_
    rintro t member rfl
    simpa [Token.place] using behindSource _ member
  obtain ⟨readList, apart⟩ := readSelectList_words (d := d) selected (words (source.tokens d) ++ joining)
  obtain ⟨top, readTopped, readRest⟩ := readTop_words (d := d) limit offset fun t member => (apart t member).2
  obtain ⟨trailing, readTrailing, limited⟩ := readRest ts behind
  refine ⟨(if distinct then [kw .distinct] else []) ++ (topWords d limit offset ++
    (words (selectListTokens (SelectItem.tokensOfEach d select)) ++ kw .from ::
      (words (source.tokens d) ++ joining))), ?_, ?_⟩
  · rw [words_query, joiningIs, conditionsIs, orderingIs]
    simp only [List.cons_append, List.append_assoc]
  · rw [readSelect, readDistinct_words distinct]
    · simp only [readTopped, readList, expect_cons, readSource, readJoining, readWhere, readOrdering,
        readTrailing, limited, Option.bind_eq_bind, Option.bind_some]
      rfl
    · intro t member
      rcases head_topWords limit offset member with rfl | member
      · simp
      · exact (apart t member).1

end

/-! ### Whole expressions and queries -/

mutual

/-- Readable expressions are read back. -/
theorem Expr.readsBack (d : Dialect) : ∀ e : Expr, e.Readable → e.ReadsBack d
  | .column none _, readable => absurd readable (by simp [Expr.Readable])
  | .column (some _) _, _ => Expr.readsBack_of_isAtom trivial
  | .literal _, _ => Expr.readsBack_of_isAtom trivial
  | .param _, _ => Expr.readsBack_of_isAtom trivial
  | .binary op left right, readable => by
      obtain ⟨readableLeft, readableRight, fits⟩ := readable
      have readsLeft := Expr.readsBack d left readableLeft
      have readsRight := Expr.readsBack d right readableRight
      cases op with
      | and => exact readsLeft.and readsRight
      | or => exact readsLeft.or readsRight
      | compare operator => exact readsLeft.compare readsRight fits.1 fits.2
      | like => contradiction
  | .not operand, readable => (Expr.readsBack d operand readable).not
  | .isNull _ negated, readable => Expr.readsBack_isNull negated readable
  | .caseWhen none branches (some _), readable =>
    (Expr.readsBack_branches d branches readable.1).caseWhen readable.2
  | .caseWhen none _ none, readable => absurd readable (by simp [Expr.Readable])
  | .caseWhen (some _) _ _, readable => absurd readable (by simp [Expr.Readable])
  | .existsQuery query negated, readable =>
    Expr.readsBack_existsQuery negated (Query.readsBack d query readable)
  | .inList _ _ negated, readable => Expr.readsBack_inList negated readable.1 readable.2
  | .inQuery _ query negated, readable =>
    Expr.readsBack_inQuery negated readable.1 (Query.readsBack d query readable.2)
  | .likeEscape _ _ escape negated, readable =>
    Expr.readsBack_likeEscape escape negated readable.1 readable.2
  | .subquery _, readable => absurd readable (by simp [Expr.Readable])
  | .call _ _ _, readable => absurd readable (by simp [Expr.Readable])
  | .star _, readable => absurd readable (by simp [Expr.Readable])
  | .paren _, readable => absurd readable (by simp [Expr.Readable])

theorem Expr.readsBack_option (d : Dialect) : ∀ condition : Option Expr, Expr.ReadableOption condition →
    ∀ e ∈ condition, e.ReadsBack d
  | none, _ => by simp
  | some e, readable => by
      rintro _ ⟨rfl⟩
      exact Expr.readsBack d e readable

theorem Expr.readsBack_branches (d : Dialect) : ∀ branches : List (Expr × Expr),
    Expr.ReadableBranches branches → Expr.BranchesReadBack d branches
  | [], _ => Expr.branchesReadBack_nil
  | (condition, _) :: branches, readable =>
    (Expr.readsBack_branches d branches readable.2.2).cons (Expr.readsBack d condition readable.1) readable.2.1

theorem TableRef.readsBack (d : Dialect) : ∀ table : TableRef, table.Readable → table.ReadsBack d
  | ⟨.stored schema name, label⟩, _ => readsBack_stored schema name label
  | ⟨.derived query, label⟩, readable => (Query.readsBack d query readable).derived label

theorem Join.readsBack_each (d : Dialect) : ∀ joins : List Join, Join.ReadableEach joins →
    JoinsReadBack d joins
  | [], _ => joinsReadBack_nil
  | ⟨_, table, condition⟩ :: joins, readable =>
    .cons (TableRef.readsBack d table readable.1) (Expr.readsBack_option d condition readable.2.1)
      (Join.readsBack_each d joins readable.2.2)

/-- Readable queries are read back. -/
theorem Query.readsBack (d : Dialect) : ∀ q : Query, q.Readable → q.ReadsBack d
  | ⟨_, _, none, _, _, _, _, _, _, _⟩, readable => absurd readable.2.1 (by simp [TableRef.ReadableOption])
  | ⟨_, _, some source, joins, condition, groupBy, having, _, _, _⟩, readable => by
      obtain ⟨selected, readableSource, readableJoins, readableCondition, rfl, rfl, sorted⟩ := readable
      exact readsBack_query selected (TableRef.readsBack d source readableSource)
        (Join.readsBack_each d joins readableJoins) (Expr.readsBack_option d condition readableCondition) sorted

end

/-- The condition that is read from the tokens of a readable one. -/
theorem readCondition?_tokens (d : Dialect) {e : Expr} (readable : e.Readable) :
    readCondition? d (e.tokens d) = some (e.readBack d) := by
  have ends : LooserThan 1 [] := by simp [LooserThan]
  have read := (e.readsBack d readable).whole ends
  rw [List.append_nil] at read
  rw [readCondition?, ← Expr.words, read]

/-- The statement that is read from the tokens of a readable query. -/
theorem readStatement?_tokens (d : Dialect) {q : Query} (readable : q.Readable) :
    readStatement? d (q.tokens d) = some (q.readBack d) := by
  obtain ⟨more, opens, read⟩ := q.readsBack d readable [] behind_nil
  rw [List.append_nil] at opens
  simp [readStatement?, opens, read]

end RelQuery.Sql
