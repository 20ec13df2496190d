/-
Module: RelQuery.Proofs.Sql.DecodeQuery
Purpose: The words of a query decode to its written form, clause by clause: each clause is read in front of
  the later ones, and seen to be missing where one of these stands in its place. With that, every expression
  whose operands hold together tightly enough decodes to its written form, so that two of them with the same
  tokens have the same written form.
Main exports: Query.Decodes, decodes_query, Expr.decodes, Query.decodes, Expr.asWritten_eq_of_tokens_eq
-/
import RelQuery.Proofs.Sql.Bracketed
import RelQuery.Proofs.Sql.DecodeList

namespace RelQuery.Sql

open Dialect

/-- What the decoder makes of the words of a query in parentheses. -/
def Query.Decodes (d : Dialect) (q : Query) : Prop :=
  ∀ ts, ∃ more, words (q.tokens d) ++ .closeParen :: ts = kw .select :: more ∧
    decodeQuery d more = some (q.asWritten d, .closeParen :: ts)

/-! ### Queries in expressions -/

namespace Expr

variable {d : Dialect} {query : Query}

theorem decodes_subquery (decodes : query.Decodes d) : (Expr.subquery query).Decodes d := by
  refine .ofOperand rfl fun ts _ => ?_
  obtain ⟨more, opens, read⟩ := decodes ts
  simp [Expr.words, tokens, opens, decodeOperand, read, asWritten]

theorem decodes_existsQuery (negated : Bool) (decodes : query.Decodes d) :
    (Expr.existsQuery query negated).Decodes d := by
  have plain : (Expr.existsQuery query false).Decodes d := by
    refine .ofOperand rfl fun ts _ => ?_
    obtain ⟨more, opens, read⟩ := decodes ts
    simp [Expr.words, tokens, opens, decodeOperand, read, asWritten, Token.isLayout]
  cases negated with
  | false => exact plain
  | true =>
      -- It has the words and the written form of the negation.
      have negation := plain.not
      exact ⟨negation.alone, negation.conjunct, negation.disjunct⟩

theorem decodes_inQuery {operand : Expr} (negated : Bool) (decodesOperand : operand.Decodes d)
    (holds : 4 ≤ operand.tightness) (decodes : query.Decodes d) :
    (Expr.inQuery operand query negated).Decodes d := by
  refine .ofMembers negated (.openParen :: (RelQuery.Sql.words (query.tokens d) ++ [.closeParen])) rfl
    decodesOperand holds ?_ fun ts => ?_
  · simp [Expr.words, tokens, words_notBefore, Token.isLayout]
  · obtain ⟨more, opens, read⟩ := decodes ts
    simp [opens, decodeMembers, read, asWritten]

end Expr

section

variable {d : Dialect} {ts : List Token}

/-! ### Table occurrences and joins -/

/-- A table occurrence decodes in front of anything but an alias. -/
def TableRef.Decodes (d : Dialect) (table : TableRef) : Prop :=
  ∀ ts, (∀ t ∈ ts.head?, t ≠ kw .as) →
    decodeTable d (words (table.tokens d) ++ ts) = some (table.asWritten d, ts)

theorem decodes_stored (schema : Option String) (name : String) (label : Option String) :
    TableRef.Decodes d ⟨.stored schema name, label⟩ := by
  intro ts apart
  simp [TableRef.tokens, TableSource.tokens, Token.isLayout, decodeTable, readAlias_words label apart,
    TableRef.asWritten]

theorem Query.Decodes.derived {query : Query} (decodes : query.Decodes d) (label : Option String) :
    TableRef.Decodes d ⟨.derived query, label⟩ := by
  intro ts apart
  obtain ⟨more, opens, read⟩ := decodes (words (aliasTokens label) ++ ts)
  simp [TableRef.tokens, TableSource.tokens, opens, decodeTable, read, readAlias_words label apart,
    TableRef.asWritten]

/-- The words of the FROM clause. -/
def sourceWords (d : Dialect) : Option TableRef → List Token
  | some table => kw .from :: words (table.tokens d)
  | none => []

theorem decodeSource_words {source : Option TableRef} (decodes : ∀ table ∈ source, table.Decodes d)
    (past : Past 1 ts) :
    decodeSource d (sourceWords d source ++ ts) = some (TableRef.asWrittenOption d source, ts) := by
  cases source with
  | none =>
      have missing : expect (kw .from) ts = none := expect_eq_none (past.apart (by decide))
      simp [sourceWords, decodeSource, missing, TableRef.asWrittenOption]
  | some table =>
      have read := decodes table rfl ts (past.apart (by decide))
      simp [sourceWords, decodeSource, read, TableRef.asWrittenOption]

/-- Joins decode in front of a later clause. -/
def JoinsDecode (d : Dialect) (joins : List Join) : Prop :=
  ∀ ts, Past 2 ts → decodeJoins d (words (Join.tokensOfLines d joins) ++ ts) =
    some (Join.asWrittenEach d joins, ts)

theorem readJoinKind_past (past : Past 2 ts) : readJoinKind ts = none := by
  unfold readJoinKind
  split <;> first | rfl | simp [Token.stage] at past

theorem joinsDecode_nil : JoinsDecode d [] := by
  intro ts past
  simp [Join.tokensOfLines, decodeJoins, readJoinKind_past past, Join.asWrittenEach]

/-- Joins begin with the keyword of their kind. -/
theorem past_joins (joins : List Join) (past : Past 2 ts) :
    Past 1 (words (Join.tokensOfLines d joins) ++ ts) := by
  cases joins with
  | nil => exact past.mono (by decide)
  | cons join joins =>
      obtain ⟨kind, table, condition⟩ := join
      rw [words_joins_cons]
      cases kind <;> simp [JoinKind.tokens, Token.isLayout, Token.stage]

theorem JoinsDecode.cons {kind : JoinKind} {table : TableRef} {condition : Option Expr} {joins : List Join}
    (decodesTable : table.Decodes d) (decodes : ∀ e ∈ condition, e.Decodes d)
    (others : JoinsDecode d joins) : JoinsDecode d (⟨kind, table, condition⟩ :: joins) := by
  intro ts past
  have follows := past_joins (d := d) joins past
  have noAlias : ∀ t ∈ (conditionWords d .on condition ++ (words (Join.tokensOfLines d joins) ++ ts)).head?,
      t ≠ kw .as := by
    cases condition with
    | none => exact follows.apart (by decide)
    | some e => simp [conditionWords]
  have noOn : ∀ t ∈ (words (Join.tokensOfLines d joins) ++ ts).head?, t ≠ kw .on := follows.apart (by decide)
  rw [words_joins_cons, List.append_assoc, List.cons_append, decodeJoins, readJoinKind_words]
  simp [decodesTable _ noAlias, Expr.decodeCondition_words decodes follows.pull noOn, others ts past,
    Join.asWrittenEach]

/-! ### Lists behind keywords -/

/-- The words of a clause that lists entries. -/
def clauseWords (d : Dialect) (word : Keyword) : List Entry → List Token
  | [] => []
  | entry :: entries => kw word :: listWords d (entry :: entries)

theorem decodeClause_words {word : Keyword} {entries : List Entry} (decodes : ∀ x ∈ entries, x.expr.Decodes d)
    (past : Past 0 ts) (apart : ∀ t ∈ ts.head?, t ≠ kw word) :
    decodeClause d word (clauseWords d word entries ++ ts) = some (entries.map (Entry.asWritten d), ts) := by
  cases entries with
  | nil => simp [clauseWords, decodeClause, expect_eq_none apart]
  | cons entry entries => simp [clauseWords, decodeClause, decodeEntries_words decodes past]

theorem words_groupBy (es : List Expr) :
    words (listClause .groupBy (Expr.tokensOfEach d es)) = clauseWords d .groupBy (es.map Entry.ofExpr) := by
  rw [Expr.tokensOfEach_eq]
  cases es with
  | nil => rfl
  | cons e es => simp [listClause, clauseWords, listWords, Token.isLayout]

theorem SelectItem.tokensOfEach_eq (items : List SelectItem) :
    SelectItem.tokensOfEach d items = (items.map Entry.ofSelect).map (Entry.tokens d) := by
  induction items with
  | nil => rfl
  | cons item items ih =>
      obtain ⟨e, label⟩ := item
      have alone : (Entry.ofSelect ⟨e, label⟩).tokens d = e.tokens d ++ aliasTokens label := by
        simp [Entry.tokens, Entry.ofSelect, directionTokens, nullsTokens]
      rw [SelectItem.tokensOfEach, List.map_cons, List.map_cons, ih, alone]

theorem SelectItem.asWrittenEach_eq (items : List SelectItem) :
    SelectItem.asWrittenEach d items =
      ((items.map Entry.ofSelect).map (Entry.asWritten d)).map Entry.toSelect := by
  induction items with
  | nil => rfl
  | cons item items ih =>
      obtain ⟨e, label⟩ := item
      rw [SelectItem.asWrittenEach, ih]
      rfl

theorem OrderItem.tokensOfEach_eq (items : List OrderItem) :
    OrderItem.tokensOfEach d items = (items.map Entry.ofOrder).map (Entry.tokens d) := by
  induction items with
  | nil => rfl
  | cons item items ih =>
      obtain ⟨e, direction, nulls⟩ := item
      have alone : (Entry.ofOrder ⟨e, direction, nulls⟩).tokens d =
          e.tokens d ++ directionTokens direction ++ nullsTokens nulls := by
        simp [Entry.tokens, Entry.ofOrder, aliasTokens]
      rw [OrderItem.tokensOfEach, List.map_cons, List.map_cons, ih, alone]

theorem OrderItem.asWrittenEach_eq (items : List OrderItem) :
    OrderItem.asWrittenEach d items =
      ((items.map Entry.ofOrder).map (Entry.asWritten d)).map Entry.toOrder := by
  induction items with
  | nil => rfl
  | cons item items ih =>
      obtain ⟨e, direction, nulls⟩ := item
      rw [OrderItem.asWrittenEach, ih]
      rfl

/-! ### Orderings -/

/-- A query is read from its clauses, one after the other. -/
theorem decodeQuery_of {distinct : Bool} {top limit offset : Option UInt64}
    {select groupBy orderBy : List Entry} {source : Option TableRef} {joins : List Join}
    {condition having : Option Expr}
    {ts₀ ts₁ ts₂ ts₃ ts₄ ts₅ ts₆ ts₇ ts₈ ts₉ ts₁₀ : List Token}
    (readsDistinct : readDistinct ts₀ = (distinct, ts₁)) (readsTop : readTop ts₁ = (top, ts₂))
    (readsSelect : decodeList d ts₂ = some (select, ts₃))
    (readsSource : decodeSource d ts₃ = some (source, ts₄))
    (readsJoins : decodeJoins d ts₄ = some (joins, ts₅))
    (readsCondition : decodeCondition d .where ts₅ = some (condition, ts₆))
    (readsGroupBy : decodeClause d .groupBy ts₆ = some (groupBy, ts₇))
    (readsHaving : decodeCondition d .having ts₇ = some (having, ts₈))
    (readsOrder : decodeOrder d ts₈ = some (orderBy, ts₉))
    (readsPage : readPage d ts₉ = some ((limit, offset), ts₁₀)) :
    decodeQuery d ts₀ = some (⟨select.map Entry.toSelect, distinct, source, joins, condition,
      groupBy.map Entry.expr, having, orderBy.map Entry.toOrder, top.or limit, offset⟩, ts₁₀) := by
  rw [decodeQuery]
  simp only [readsDistinct, readsTop, readsSelect, readsSource, readsJoins, readsCondition, readsGroupBy,
    readsHaving, readsOrder, readsPage, Option.bind_eq_bind, Option.bind_some]

/-- Behind the SELECT of an arbitrary ordering, no query goes on. -/
theorem decodeQuery_null (ts : List Token) :
    decodeQuery d (kw .null :: ts) = some (Query.empty, kw .null :: ts) := by
  have conditions : ∀ word : Keyword, Keyword.null ≠ word →
      decodeCondition d word (kw .null :: ts) = some (none, kw .null :: ts) := by
    intro word different
    simp [decodeCondition, expect, different]
  have lists : ∀ word : Keyword, Keyword.null ≠ word →
      decodeClause d word (kw .null :: ts) = some ([], kw .null :: ts) := by
    intro word different
    simp [decodeClause, expect, different]
  have noDistinct : readDistinct (kw .null :: ts) = (false, kw .null :: ts) := by simp [readDistinct]
  have noTop : readTop (kw .null :: ts) = (none, kw .null :: ts) := by simp [readTop]
  have noSelect : decodeList d (kw .null :: ts) = some ([], kw .null :: ts) := by
    rw [decodeList]
    rfl
  have noSource : decodeSource d (kw .null :: ts) = some (none, kw .null :: ts) := by
    rw [decodeSource]
    rfl
  have noJoins : decodeJoins d (kw .null :: ts) = some ([], kw .null :: ts) := by
    rw [decodeJoins]
    rfl
  have noOrder : decodeOrder d (kw .null :: ts) = some ([], kw .null :: ts) := by
    rw [decodeOrder, lists .orderBy (by decide)]
    simp
  have noPage : readPage d (kw .null :: ts) = some ((none, none), kw .null :: ts) := by simp [readPage]
  exact decodeQuery_of noDistinct noTop noSelect noSource noJoins (conditions .where (by decide))
    (lists .groupBy (by decide)) (conditions .having (by decide)) noOrder noPage

/-- The ordering that orders nothing is no list of entries. -/
theorem decodeEntries_arbitrary (ts : List Token) :
    decodeEntries d (.openParen :: kw .select :: kw .null :: ts) = none := by
  have noOperand : decodeOperand d (.openParen :: kw .select :: kw .null :: ts) = none := by
    simp [decodeOperand, decodeQuery_null, expect]
  have noExpr : decodeExpr d 1 (.openParen :: kw .select :: kw .null :: ts) = none := by
    simp [decodeExpr, noOperand]
  rw [decodeEntries, noExpr]
  rfl

/-- An ordering is read in front of a later clause. -/
theorem decodeOrder_words {orderBy : List OrderItem} (decodes : ∀ item ∈ orderBy, item.expr.Decodes d)
    (limit offset : Option UInt64) (past : Past 6 ts) :
    decodeOrder d (orderWords d orderBy limit offset ++ ts) =
      some ((orderBy.map Entry.ofOrder).map (Entry.asWritten d), ts) := by
  have decodesEntries : ∀ x ∈ orderBy.map Entry.ofOrder, x.expr.Decodes d := by
    simpa [Entry.ofOrder] using decodes
  have read : decodeClause d .orderBy (clauseWords d .orderBy (orderBy.map Entry.ofOrder) ++ ts) =
      some ((orderBy.map Entry.ofOrder).map (Entry.asWritten d), ts) :=
    decodeClause_words decodesEntries (past.mono (by decide)) (past.apart (by decide))
  cases orderBy with
  | nil =>
      rw [orderWords]
      split
      · simp [arbitraryOrder, clause, Token.isLayout, decodeOrder]
      · rw [OrderItem.tokensOfEach, listClause, words_nil, List.nil_append, decodeOrder]
        · exact read
        · rintro more rfl
          simp [Token.stage] at past
  | cons item items =>
      have listed := decodeEntries_words decodesEntries (past.mono (Nat.zero_le 6))
      have spelled : orderWords d (item :: items) limit offset =
          clauseWords d .orderBy ((item :: items).map Entry.ofOrder) := by
        rw [orderWords_cons, OrderItem.tokensOfEach_eq]
        rfl
      rw [spelled, decodeOrder]
      · exact read
      · intro more same
        have arbitrary : listWords d ((item :: items).map Entry.ofOrder) ++ ts =
            .openParen :: kw .select :: kw .null :: .closeParen :: more := (List.cons.inj same).2
        rw [List.map_cons] at arbitrary
        rw [arbitrary, decodeEntries_arbitrary] at listed
        cases listed

/-! ### Queries -/

theorem words_sourceOption (source : Option TableRef) :
    words (clauseOption .from (source.map (TableRef.tokens d))) = sourceWords d source := by
  cases source <;> simp [clauseOption, clause, sourceWords, Token.isLayout]

theorem words_conditionOption (word : Keyword) (condition : Option Expr) :
    words (clauseOption word (condition.map (Expr.tokens d))) = conditionWords d word condition := by
  cases condition <;> simp [clauseOption, clause, conditionWords, Expr.words, Token.isLayout]

/-- The words of a query, clause by clause. -/
theorem words_clauses (select : List SelectItem) (distinct : Bool) (source : Option TableRef)
    (joins : List Join) (condition : Option Expr) (groupBy : List Expr) (having : Option Expr)
    (orderBy : List OrderItem) (limit offset : Option UInt64) :
    words ((⟨select, distinct, source, joins, condition, groupBy, having, orderBy, limit, offset⟩ :
      Query).tokens d) =
      kw .select :: ((if distinct then [kw .distinct] else []) ++ (topWords d limit offset ++
        (listWords d (select.map Entry.ofSelect) ++ (sourceWords d source ++
          (words (Join.tokensOfLines d joins) ++ (conditionWords d .where condition ++
            (clauseWords d .groupBy (groupBy.map Entry.ofExpr) ++ (conditionWords d .having having ++
              (orderWords d orderBy limit offset ++ pageWords d limit offset))))))))) := by
  have listed : words (selectListTokens (SelectItem.tokensOfEach d select)) =
      listWords d (select.map Entry.ofSelect) := by
    rw [words_selectListTokens, SelectItem.tokensOfEach_eq]
    rfl
  rw [Query.tokens_eq]
  simp only [words_append, words_selectTokens, listed, words_sourceOption, words_conditionOption,
    words_groupBy, words_orderAndLimitTokens, List.append_assoc, List.cons_append]

theorem past_page (limit offset : Option UInt64) (past : Past 7 ts) :
    Past 6 (pageWords d limit offset ++ ts) := by
  have rest : Past 6 ts := past.mono (by decide)
  cases d <;> cases limit <;> cases offset <;>
    simp [pageWords, topTokens?, limitTokens, limitOffsetTokens, offsetFetchTokens, unboundedLimit?,
      Token.isLayout, Token.stage, rest]

theorem past_order (orderBy : List OrderItem) (limit offset : Option UInt64) (past : Past 6 ts) :
    Past 5 (orderWords d orderBy limit offset ++ ts) := by
  cases orderBy with
  | nil =>
      rw [orderWords]
      split
      · simp [arbitraryOrder, clause, Token.isLayout, Token.stage]
      · exact past.mono (by decide)
  | cons item items =>
      rw [orderWords_cons]
      simp [Token.stage]

/-- A condition begins with its keyword. -/
theorem past_condition {n : Nat} (word : Keyword) (condition : Option Expr) (past : Past (n + 1) ts)
    (stage : (kw word).stage = n + 1) : Past n (conditionWords d word condition ++ ts) := by
  cases condition with
  | none => exact past.mono (Nat.le_succ n)
  | some e => simp [conditionWords, stage]

/-- A clause that lists entries begins with its keyword. -/
theorem past_clause {n : Nat} (word : Keyword) (entries : List Entry) (past : Past (n + 1) ts)
    (stage : (kw word).stage = n + 1) : Past n (clauseWords d word entries ++ ts) := by
  cases entries with
  | nil => exact past.mono (Nat.le_succ n)
  | cons entry entries => simp [clauseWords, stage]

theorem past_source (source : Option TableRef) (past : Past 1 ts) : Past 0 (sourceWords d source ++ ts) := by
  cases source with
  | none => exact past.mono (Nat.zero_le 1)
  | some table => simp [sourceWords, Token.stage]

/-- A query is read clause by clause. -/
theorem decodes_query {select : List SelectItem} {distinct : Bool} {source : Option TableRef}
    {joins : List Join} {condition : Option Expr} {groupBy : List Expr} {having : Option Expr}
    {orderBy : List OrderItem} {limit offset : Option UInt64}
    (ofSelect : ∀ item ∈ select, item.expr.Decodes d) (ofSource : ∀ table ∈ source, table.Decodes d)
    (ofJoins : JoinsDecode d joins) (ofCondition : ∀ e ∈ condition, e.Decodes d)
    (ofGroupBy : ∀ e ∈ groupBy, e.Decodes d) (ofHaving : ∀ e ∈ having, e.Decodes d)
    (ofOrderBy : ∀ item ∈ orderBy, item.expr.Decodes d) :
    Query.Decodes d
      ⟨select, distinct, source, joins, condition, groupBy, having, orderBy, limit, offset⟩ := by
  intro ts
  have ofEntries : ∀ x ∈ select.map Entry.ofSelect, x.expr.Decodes d := by
    simpa [Entry.ofSelect] using ofSelect
  -- What stands behind each clause, from the end of the query to its beginning.
  have atEnd : Past 7 (.closeParen :: ts) := by simp [Token.stage]
  have ended : Behind 5 (.closeParen :: ts) := by simp [Token.place]
  have pastPage := past_page (d := d) limit offset atEnd
  have pastOrder := past_order (d := d) orderBy limit offset pastPage
  have pastHaving := past_condition (d := d) .having having pastOrder rfl
  have pastGroupBy := past_clause (d := d) .groupBy (groupBy.map Entry.ofExpr) pastHaving rfl
  have pastCondition := past_condition (d := d) .where condition pastGroupBy rfl
  have pastJoins := past_joins (d := d) joins pastCondition
  have pastSource := past_source (d := d) source pastJoins
  obtain ⟨top, readsTop, readsRest⟩ := readTop_words (d := d) limit offset
    (apart_of_list ofEntries pastSource (kw .top) rfl rfl)
  obtain ⟨trailing, readsPage, limited⟩ := readsRest _ ended
  have noDistinct := fun t member => (head_topWords (d := d) limit offset (t := t) member).elim
    (fun same => by simp [same]) (apart_of_list ofEntries pastSource (kw .distinct) rfl rfl t)
  have read := decodeQuery_of (readDistinct_words distinct noDistinct) readsTop
    (decodeList_words ofEntries pastSource) (decodeSource_words ofSource pastJoins) (ofJoins _ pastCondition)
    (Expr.decodeCondition_words ofCondition pastGroupBy.pull (pastGroupBy.apart (by decide)))
    (decodeClause_words (decodes_ofExpr ofGroupBy) (pastHaving.mono (by decide))
      (pastHaving.apart (by decide)))
    (Expr.decodeCondition_words ofHaving pastOrder.pull (pastOrder.apart (by decide)))
    (decodeOrder_words ofOrderBy limit offset pastPage) readsPage
  rw [limited, ← SelectItem.asWrittenEach_eq, ← Expr.asWrittenEach_eq, ← OrderItem.asWrittenEach_eq] at read
  refine ⟨_, ?_, read⟩
  rw [words_clauses]
  simp only [List.cons_append, List.append_assoc]

end

/-! ### Whole expressions and queries -/

mutual

/-- An expression whose operands hold together tightly enough decodes to its written form. -/
theorem Expr.decodes {V : Type} {engine : Engine V} (d : Dialect) : ∀ e : Expr, e.Bracketed engine →
    e.Decodes d
  | .column qualifier name, _ => Expr.decodes_column qualifier name
  | .literal value, _ => Expr.decodes_literal value
  | .param value, _ => Expr.decodes_param value
  | .star qualifier, _ => Expr.decodes_star qualifier
  | .binary op left right, ⟨apart, first, second⟩ => by
      have decodesLeft := Expr.decodes d left first
      have decodesRight := Expr.decodes d right second
      cases op with
      | and => exact decodesLeft.and decodesRight
      | or => exact decodesLeft.or decodesRight
      | compare operator => exact decodesLeft.compare decodesRight apart
      | like => exact decodesLeft.like decodesRight apart
  | .not operand, bracketed => (Expr.decodes d operand bracketed).not
  | .isNull operand negated, ⟨holds, bracketed⟩ => (Expr.decodes d operand bracketed).isNull negated holds
  | .paren inner, bracketed => (Expr.decodes d inner bracketed).paren
  | .call function arguments distinct, bracketed =>
    Expr.Decodes.call function distinct (Expr.decodes_each d arguments bracketed)
  | .caseWhen subject branches otherwise, ⟨first, second, third⟩ =>
    Expr.Decodes.caseWhen (Expr.decodes_option d subject first) (Expr.decodes_branches d branches second)
      (Expr.decodes_option d otherwise third)
  | .subquery query, bracketed => Expr.decodes_subquery (Query.decodes d query bracketed)
  | .existsQuery query negated, bracketed =>
    Expr.decodes_existsQuery negated (Query.decodes d query bracketed)
  | .inList operand [] negated, _ => Expr.decodes_inList_nil operand negated
  | .inList operand (value :: values) negated, ⟨holds, first, second, third⟩ => by
      have others := Expr.decodes_each d values third
      exact (Expr.decodes d operand first).inList negated holds
        (List.forall_mem_cons.2 ⟨Expr.decodes d value second, others⟩)
  | .inQuery operand query negated, ⟨holds, first, second⟩ =>
    Expr.decodes_inQuery negated (Expr.decodes d operand first) holds (Query.decodes d query second)
  | .likeEscape operand pattern escape negated, ⟨holds, tight, first, second⟩ =>
    (Expr.decodes d operand first).likeEscape escape negated holds (Expr.decodes d pattern second) tight

theorem Expr.decodes_each {V : Type} {engine : Engine V} (d : Dialect) : ∀ es : List Expr,
    Expr.BracketedEach engine es → ∀ e ∈ es, e.Decodes d
  | [], _ => by simp
  | e :: es, ⟨first, others⟩ =>
    List.forall_mem_cons.2 ⟨Expr.decodes d e first, Expr.decodes_each d es others⟩

theorem Expr.decodes_option {V : Type} {engine : Engine V} (d : Dialect) : ∀ condition : Option Expr,
    Expr.BracketedOption engine condition → ∀ e ∈ condition, e.Decodes d
  | none, _ => by simp
  | some e, bracketed => by
      rintro _ ⟨rfl⟩
      exact Expr.decodes d e bracketed

theorem Expr.decodes_branches {V : Type} {engine : Engine V} (d : Dialect) : ∀ branches : List (Expr × Expr),
    Expr.BracketedBranches engine branches → ∀ branch ∈ branches, branch.1.Decodes d ∧ branch.2.Decodes d
  | [], _ => by simp
  | (condition, result) :: branches, ⟨first, second, others⟩ =>
    List.forall_mem_cons.2 ⟨⟨Expr.decodes d condition first, Expr.decodes d result second⟩,
      Expr.decodes_branches d branches others⟩

theorem TableRef.decodes {V : Type} {engine : Engine V} (d : Dialect) : ∀ table : TableRef,
    table.Bracketed engine → table.Decodes d
  | ⟨.stored schema name, label⟩, _ => decodes_stored schema name label
  | ⟨.derived query, label⟩, bracketed => (Query.decodes d query bracketed).derived label

theorem TableRef.decodes_option {V : Type} {engine : Engine V} (d : Dialect) : ∀ source : Option TableRef,
    TableRef.BracketedOption engine source → ∀ table ∈ source, table.Decodes d
  | none, _ => by simp
  | some table, bracketed => by
      rintro _ ⟨rfl⟩
      exact TableRef.decodes d table bracketed

theorem Join.decodes_each {V : Type} {engine : Engine V} (d : Dialect) : ∀ joins : List Join,
    Join.BracketedEach engine joins → JoinsDecode d joins
  | [], _ => joinsDecode_nil
  | ⟨_, table, condition⟩ :: joins, ⟨first, second, others⟩ =>
    .cons (TableRef.decodes d table first) (Expr.decodes_option d condition second)
      (Join.decodes_each d joins others)

theorem SelectItem.decodes_each {V : Type} {engine : Engine V} (d : Dialect) : ∀ items : List SelectItem,
    SelectItem.BracketedEach engine items → ∀ item ∈ items, item.expr.Decodes d
  | [], _ => by simp
  | ⟨e, _⟩ :: items, ⟨first, others⟩ =>
    List.forall_mem_cons.2 ⟨Expr.decodes d e first, SelectItem.decodes_each d items others⟩

theorem OrderItem.decodes_each {V : Type} {engine : Engine V} (d : Dialect) : ∀ items : List OrderItem,
    OrderItem.BracketedEach engine items → ∀ item ∈ items, item.expr.Decodes d
  | [], _ => by simp
  | ⟨e, _, _⟩ :: items, ⟨first, others⟩ =>
    List.forall_mem_cons.2 ⟨Expr.decodes d e first, OrderItem.decodes_each d items others⟩

/-- A query whose expressions do so decodes to its written form. -/
theorem Query.decodes {V : Type} {engine : Engine V} (d : Dialect) : ∀ q : Query, q.Bracketed engine →
    q.Decodes d
  | ⟨select, _, source, joins, condition, groupBy, having, orderBy, _, _⟩,
      ⟨ofSelect, ofSource, ofJoins, ofCondition, ofGroupBy, ofHaving, ofOrderBy⟩ =>
    decodes_query (SelectItem.decodes_each d select ofSelect) (TableRef.decodes_option d source ofSource)
      (Join.decodes_each d joins ofJoins) (Expr.decodes_option d condition ofCondition)
      (Expr.decodes_each d groupBy ofGroupBy) (Expr.decodes_option d having ofHaving)
      (OrderItem.decodes_each d orderBy ofOrderBy)

end

/-- Expressions whose operands hold together tightly enough have the same written form where they have the
    same tokens. -/
theorem Expr.asWritten_eq_of_tokens_eq {V : Type} {engine : Engine V} {d : Dialect} {e f : Expr}
    (bracketed : e.Bracketed engine) (others : f.Bracketed engine) (same : e.tokens d = f.tokens d) :
    e.asWritten d = f.asWritten d := by
  have first : decodeExpr d 1 (e.words d ++ []) = some (e.asWritten d, []) :=
    (e.decodes d bracketed).whole rfl
  have second : decodeExpr d 1 (f.words d ++ []) = some (f.asWritten d, []) :=
    (f.decodes d others).whole rfl
  have spelled : e.words d = f.words d := congrArg RelQuery.Sql.words same
  rw [spelled, second] at first
  exact (Prod.mk.inj (Option.some.inj first)).1.symm

end RelQuery.Sql
