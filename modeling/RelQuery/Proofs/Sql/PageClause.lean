/-
Module: RelQuery.Proofs.Sql.PageClause
Purpose: What limits the rows of a SELECT. A reader that knows only what a dialect's page clause means and
  which counts the dialect takes, and nothing about how a clause is written, finds at each level the one clause
  that was asked for, or none. Any counts are written, also those that a dialect does not take.
Main exports: RowRange, Dialect.rowRange?, Dialect.TakesPage, PageClause, Query.Paged, Query.pages_as_asked,
  Query.page_refused
-/
import Mathlib.Data.List.TakeWhile
import RelQuery.Proofs.Sql.Levels
import RelQuery.Proofs.Sql.Parameters
import RelQuery.Proofs.Sql.Semantics

namespace RelQuery.Sql

/-! ### What a page clause means -/

/-- How many rows are skipped, and how many are kept behind them. -/
structure RowRange where
  skipped : Nat
  kept : Option Nat
deriving DecidableEq, Repr

/-- The rows of the range. -/
def RowRange.cut {α : Type} (range : RowRange) (rows : List α) : List α :=
  match range.kept with
  | some n => (rows.drop range.skipped).take n
  | none => rows.drop range.skipped

/-- How many rows the operand of SQLite's LIMIT keeps. A negative one keeps all. -/
def sqliteLimit? : Token → Option (Option Nat)
  | .count n => some (some n.toNat)
  | .literal (.int n) => some (if n < 0 then none else some n.toNat)
  | _ => none

/-- The range that a page clause asks for by its form in a dialect, if it has one of the dialect. MySQL and
    SQLite have no OFFSET without LIMIT, and SQL Server no LIMIT. Behind an OFFSET this fetches at least one
    row, while TOP may ask for none. -/
def Dialect.pageForm? (d : Dialect) (clause : List Token) : Option RowRange :=
  match d, clause with
  | _, [] => some ⟨0, none⟩
  | .postgres, [.keyword .limit, .space, .count n] => some ⟨0, some n.toNat⟩
  | .postgres, [.keyword .offset, .space, .count m] => some ⟨m.toNat, none⟩
  | .postgres, [.keyword .limit, .space, .count n, .space, .keyword .offset, .space, .count m] =>
    some ⟨m.toNat, some n.toNat⟩
  | .mysql, [.keyword .limit, .space, .count n] => some ⟨0, some n.toNat⟩
  | .mysql, [.keyword .limit, .space, .count n, .space, .keyword .offset, .space, .count m] =>
    some ⟨m.toNat, some n.toNat⟩
  | .sqlite, [.keyword .limit, .space, operand] => (sqliteLimit? operand).map fun kept => ⟨0, kept⟩
  | .sqlite, [.keyword .limit, .space, operand, .space, .keyword .offset, .space, .count m] =>
    (sqliteLimit? operand).map fun kept => ⟨m.toNat, kept⟩
  | .tsql, [.keyword .top, .space, .count n] => some ⟨0, some n.toNat⟩
  | .tsql, [.keyword .offset, .space, .count m, .space, .keyword .rows] => some ⟨m.toNat, none⟩
  | .tsql, [.keyword .offset, .space, .count m, .space, .keyword .rows, .space, .keyword .fetch, .space,
      .keyword .next, .space, .count n, .space, .keyword .rows, .space, .keyword .only] =>
    if n = 0 then none else some ⟨m.toNat, some n.toNat⟩
  | _, _ => none

/-- The greatest count that a dialect takes in a page clause. It is a signed integer of 64 bits, on MySQL an
    unsigned one. -/
def Dialect.maxPageCount : Dialect → Nat
  | .mysql => 18446744073709551615
  | .postgres | .sqlite | .tsql => 9223372036854775807

/-- The range that a dialect reads in a page clause: that of its form, if the counts are such as it takes. -/
def Dialect.rowRange? (d : Dialect) (clause : List Token) : Option RowRange :=
  (d.pageForm? clause).filter fun range =>
    range.skipped ≤ d.maxPageCount && range.kept.all (· ≤ d.maxPageCount)

/-- A dialect takes a limit and an offset: no count exceeds its greatest one, and beside an offset SQL Server
    is asked for a row. -/
structure Dialect.TakesPage (d : Dialect) (limit offset : Option UInt64) : Prop where
  limitFits : ∀ n ∈ limit, n.toNat ≤ d.maxPageCount
  offsetFits : ∀ n ∈ offset, n.toNat ≤ d.maxPageCount
  fetchesRow : d = .tsql → offset ≠ none → limit ≠ some 0

instance (d : Dialect) (limit offset : Option UInt64) : Decidable (d.TakesPage limit offset) :=
  decidable_of_iff (limit.all (·.toNat ≤ d.maxPageCount) ∧ offset.all (·.toNat ≤ d.maxPageCount) ∧
      (d = .tsql → offset ≠ none → limit ≠ some 0)) <| by
    simp only [Option.all_eq_true, decide_eq_true_eq]
    exact ⟨fun ⟨limitFits, offsetFits, fetchesRow⟩ => ⟨limitFits, offsetFits, fetchesRow⟩,
      fun takes => ⟨takes.limitFits, takes.offsetFits, takes.fetchesRow⟩⟩

/-! ### The page clause of a level -/

/-- The page clause at the level of a SELECT: there is no word of one, or TOP stands directly behind SELECT
    or SELECT DISTINCT, or the level ends in a line with LIMIT or OFFSET. No word of a page clause stands
    anywhere else. -/
inductive PageClause : (level clause : List Token) → Prop where
  | absent {level : List Token} (others : ∀ t ∈ level, t.opensPage = false) : PageClause level []
  | top (distinct : Bool) (n : UInt64) {rest : List Token} (others : ∀ t ∈ rest, t.opensPage = false) :
      PageClause ((if distinct then [.space, kw .distinct] else [])
        ++ .space :: kw .top :: .space :: .count n :: rest) [kw .top, .space, .count n]
  | trailing {before clause : List Token} (others : ∀ t ∈ before, t.opensPage = false)
      (opens : clause.head? = some (kw .limit) ∨ clause.head? = some (kw .offset)) :
      PageClause (before ++ .newline :: clause) clause

namespace PageClause

variable {level clause other : List Token}

/-- What stands at a level from the first word of a page clause on. -/
theorem dropWhile_eq (found : PageClause level clause) :
    (clause = [] ∧ level.dropWhile (fun t => !t.opensPage) = []) ∨
    (∃ n rest, clause = [kw .top, .space, .count n] ∧
      level.dropWhile (fun t => !t.opensPage) = clause ++ rest) ∨
    ((clause.head? = some (kw .limit) ∨ clause.head? = some (kw .offset)) ∧
      level.dropWhile (fun t => !t.opensPage) = clause) := by
  cases found with
  | absent others => exact .inl ⟨rfl, List.dropWhile_eq_nil_iff.2 (by simpa using others)⟩
  | @top distinct n rest _ => exact .inr (.inl ⟨n, rest, rfl, by cases distinct <;> rfl⟩)
  | @trailing before _ others opens =>
      have skipped : before.dropWhile (fun t => !t.opensPage) = [] :=
        List.dropWhile_eq_nil_iff.2 (by simpa using others)
      refine .inr (.inr ⟨opens, ?_⟩)
      rw [List.dropWhile_append, skipped]
      cases clause with
      | nil => rfl
      | cons t ts =>
          rcases opens with opens | opens <;>
            · obtain rfl : t = _ := by simpa using opens
              rfl

/-- A level has no other page clause. -/
theorem unique (found : PageClause level clause) (again : PageClause level other) : other = clause := by
  rcases found.dropWhile_eq with ⟨rfl, first⟩ | ⟨n, rest, rfl, first⟩ | ⟨opens, first⟩ <;>
    rcases again.dropWhile_eq with ⟨rfl, second⟩ | ⟨m, more, rfl, second⟩ | ⟨opensToo, second⟩ <;>
    grind

end PageClause

/-- A query is paged by a clause at its level: there is no other, it is there if something was asked for, and
    if the dialect takes the query's offset and limit, it keeps the rows that these leave. Where SQL Server
    skips rows, an ORDER BY of the same level stands before the clause, with no other clause between them. -/
structure Query.PagedBy (d : Dialect) (q : Query) (level clause : List Token) : Prop where
  found : PageClause level clause
  alone : ∀ other, PageClause level other → other = clause
  asked : clause = [] ↔ q.limit = none ∧ q.offset = none
  keeps : d.TakesPage q.limit q.offset → ∃ range, d.rowRange? clause = some range ∧
    ∀ {α : Type} (rows : List α), rows.length < UInt64.size → range.cut rows = window q.limit q.offset rows
  ordered : d = .tsql → kw .offset ∈ level → ∃ before terms rest,
    level = before ++ kw .orderBy :: (terms ++ .newline :: kw .offset :: rest) ∧
      ∀ t ∈ terms, t.opensClause = false

/-- A query is paged at its level as it asks for. -/
def Query.Paged (d : Dialect) (q : Query) (level : List Token) : Prop := ∃ clause, q.PagedBy d level clause

/-! ### The clause that is written -/

/-- The clause that is written for a limit and an offset. -/
def pageTokens (d : Dialect) (limit offset : Option UInt64) : List Token :=
  match topTokens? d limit offset with
  | some tokens => tokens
  | none => if pagesBehind d limit offset then limitTokens d limit offset else []

theorem pageTokens_eq_nil (d : Dialect) (limit offset : Option UInt64) :
    pageTokens d limit offset = [] ↔ limit = none ∧ offset = none := by
  cases d <;> cases limit <;> cases offset <;>
    simp [pageTokens, topTokens?, pagesBehind, limitTokens, limitOffsetTokens, offsetFetchTokens,
      unboundedLimit?]

/-- What the form of a clause is that is written for a limit: the limit itself, or on MySQL the stand-in for
    none. -/
def KeepsLimit (d : Dialect) (limit : Option UInt64) (kept : Option Nat) : Prop :=
  kept = limit.map UInt64.toNat ∨ d = .mysql ∧ limit = none ∧ kept = some d.maxPageCount

/-- By its form, the clause that is written for a dialect is what it was written for. -/
theorem pageForm?_pageTokens {d : Dialect} {limit offset : Option UInt64}
    (fetchesRow : d = .tsql → offset ≠ none → limit ≠ some 0) :
    ∃ kept, KeepsLimit d limit kept ∧
      d.pageForm? (pageTokens d limit offset) = some ⟨(offset.getD 0).toNat, kept⟩ := by
  cases limit with
  | some n =>
      refine ⟨some n.toNat, .inl rfl, ?_⟩
      cases offset with
      | none => cases d <;> rfl
      | some m =>
          cases d with
          | postgres | mysql | sqlite => rfl
          | tsql =>
              have row : n ≠ 0 := by simpa using fetchesRow rfl (by simp)
              exact if_neg row
  | none =>
      cases offset with
      | none => cases d <;> exact ⟨none, .inl rfl, rfl⟩
      | some m =>
          cases d with
          | mysql => exact ⟨_, .inr ⟨rfl, rfl, rfl⟩, rfl⟩
          | postgres | sqlite | tsql => exact ⟨none, .inl rfl, rfl⟩

/-- The counts of the clause fit a dialect exactly if those fit that were asked for. -/
theorem KeepsLimit.fits_iff {d : Dialect} {limit : Option UInt64} {kept : Option Nat}
    (keeps : KeepsLimit d limit kept) :
    kept.all (· ≤ d.maxPageCount) = true ↔ ∀ n ∈ limit, n.toNat ≤ d.maxPageCount := by
  rcases keeps with rfl | ⟨-, rfl, rfl⟩
  · cases limit <;> simp
  · simp

/-- A dialect that takes a limit and an offset reads the clause that is written for them as what it was
    written for. -/
theorem rowRange?_pageTokens {d : Dialect} {limit offset : Option UInt64} (takes : d.TakesPage limit offset) :
    ∃ range, d.rowRange? (pageTokens d limit offset) = some range ∧
      ∀ {α : Type} (rows : List α), rows.length < UInt64.size →
        range.cut rows = window limit offset rows := by
  obtain ⟨kept, keeps, form⟩ := pageForm?_pageTokens takes.fetchesRow
  have skips : (offset.getD 0).toNat ≤ d.maxPageCount := by
    cases offset with
    | none => exact Nat.zero_le _
    | some m => exact takes.offsetFits m rfl
  refine ⟨⟨(offset.getD 0).toNat, kept⟩, ?_, fun rows few => ?_⟩
  · rw [Dialect.rowRange?, form, Option.filter_some, keeps.fits_iff.2 takes.limitFits]
    simp [skips]
  · rcases keeps with rfl | ⟨rfl, rfl, rfl⟩
    · cases limit <;> rfl
    · have short : (rows.drop (offset.getD 0).toNat).length ≤ 18446744073709551615 := by
        have bound : rows.length < 18446744073709551616 := few
        rw [List.length_drop]
        omega
      exact List.take_of_length_le short

/-- A dialect does not take the clause that is written for any other limit and offset. -/
theorem rowRange?_pageTokens_eq_none {d : Dialect} {limit offset : Option UInt64}
    (refuses : ¬ d.TakesPage limit offset) : d.rowRange? (pageTokens d limit offset) = none := by
  by_cases fetchesRow : d = .tsql → offset ≠ none → limit ≠ some 0
  · obtain ⟨kept, keeps, form⟩ := pageForm?_pageTokens fetchesRow
    rw [Dialect.rowRange?, form, Option.filter_some, if_neg]
    intro fits
    rw [Bool.and_eq_true, decide_eq_true_eq, keeps.fits_iff] at fits
    refine refuses ⟨fits.2, ?_, fetchesRow⟩
    rintro m ⟨⟩
    exact fits.1
  · simp only [Classical.not_imp, not_not] at fetchesRow
    obtain ⟨rfl, asked, rfl⟩ := fetchesRow
    obtain ⟨m, rfl⟩ := Option.ne_none_iff_exists'.1 asked
    rfl

/-! ### The level of a query -/

/-- What stands at the level of a query between the words behind SELECT and the trailing clause. -/
def Query.betweenTokens (d : Dialect) (q : Query) : List Token :=
  levelTokens 0 (q.clauses d) ++
    levelTokens 0 (orderingTokens d (OrderItem.tokensOfEach d q.orderBy) q.limit q.offset)

theorem Query.levelTokens_eq (d : Dialect) (q : Query) :
    levelTokens 0 (q.tokens d).tail = openingTokens d q.distinct q.limit q.offset ++
      (q.betweenTokens d ++ trailingTokens d q.limit q.offset) := by
  have parts := Query.showsParts d q
  have opening := plain_openingTokens d q.distinct q.limit q.offset
  have first : Nested Token.opensQuery (openingTokens d q.distinct q.limit q.offset) :=
    (Shows.ofPlain (d := d) rfl opening).nested
  have ordering := (shows_orderingTokens parts.order q.limit q.offset).nested
  rw [Query.tokens_eq_parts, List.tail_cons, first.levelTokens_append, levelTokens_of_plain opening,
    parts.clauses.nested.levelTokens_append, ordering.levelTokens_append,
    levelTokens_of_plain (plain_trailingTokens d q.limit q.offset), betweenTokens, List.append_assoc]

/-- The clauses of a query and its ordering have no words of a page clause at their level. -/
theorem Query.opensPage_of_mem_betweenTokens (d : Dialect) (q : Query) :
    ∀ t ∈ q.betweenTokens d, t.opensPage = false := by
  intro t member
  have parts := Query.showsParts d q
  rcases List.mem_append.1 member with member | member
  · exact parts.clauses.nested.allowed_of_mem member
  · exact (shows_orderingTokens parts.order q.limit q.offset).nested.allowed_of_mem member

/-- The clause that is written is the page clause of its level. -/
theorem pageClause_written (d : Dialect) (distinct : Bool) (limit offset : Option UInt64)
    {between : List Token} (others : ∀ t ∈ between, t.opensPage = false) :
    PageClause (openingTokens d distinct limit offset ++ (between ++ trailingTokens d limit offset))
      (pageTokens d limit offset) := by
  obtain ⟨words, wordsEq⟩ : ∃ words, words = if distinct then [Token.space, kw .distinct] else [] :=
    ⟨_, rfl⟩
  have allowed : ∀ t ∈ words ++ between, t.opensPage = false := by
    intro t member
    rcases List.mem_append.1 member with member | member
    · rw [wordsEq] at member
      cases distinct
      · contradiction
      · exact (by decide : ∀ t ∈ [Token.space, kw .distinct], t.opensPage = false) t member
    · exact others t member
  -- TOP is all there is, or the clause is behind, or nothing was asked for.
  cases top : topTokens? d limit offset with
  | some tokens =>
      obtain ⟨n, rfl⟩ : ∃ n, tokens = [kw .top, .space, .count n] := by
        unfold topTokens? at top
        split at top
        · exact ⟨_, (Option.some.inj top).symm⟩
        · contradiction
      have form := PageClause.top distinct n others
      rw [← wordsEq] at form
      simpa [openingTokens, selectTokens, trailingTokens, pagesBehind, pageTokens, top, ← wordsEq] using form
  | none =>
      have opening : openingTokens d distinct limit offset = words := by
        simp [openingTokens, selectTokens, top, wordsEq]
      rw [opening, ← List.append_assoc]
      by_cases behind : pagesBehind d limit offset = true
      · simp only [trailingTokens, pageTokens, top, behind, if_true]
        refine .trailing allowed ?_
        cases d <;> cases limit <;> cases offset <;>
          first | contradiction | exact .inl rfl | exact .inr rfl
      · simpa [trailingTokens, pageTokens, top, behind] using PageClause.absent allowed

/-- Where SQL Server skips rows, the query is ordered, and nothing but the terms stands behind. -/
theorem orderingTokens_of_offset (orderBy : List OrderItem) (limit : Option UInt64) (n : UInt64) :
    ∃ terms, levelTokens 0 (orderingTokens .tsql (OrderItem.tokensOfEach .tsql orderBy) limit (some n)) =
        .newline :: kw .orderBy :: terms ∧ ∀ t ∈ terms, t.opensClause = false := by
  cases orderBy with
  | nil => exact ⟨[.space], by cases limit <;> rfl, by decide⟩
  | cons item items =>
      have listed := (OrderItem.showsEach .tsql (item :: items)).commaSeparated.nested
      refine ⟨.space :: levelTokens 0 (commaSeparated (OrderItem.tokensOfEach .tsql (item :: items))),
        ?_, List.forall_mem_cons.2 ⟨rfl, fun t => listed.allowed_of_mem⟩⟩
      obtain ⟨e, direction, nulls⟩ := item
      rfl

/-- Where SQL Server skips rows, an ORDER BY of the same level stands directly before the clause. -/
theorem Query.ordered_of_offset {q : Query} (skips : kw .offset ∈ levelTokens 0 (q.tokens .tsql).tail) :
    ∃ before terms rest,
      levelTokens 0 (q.tokens .tsql).tail =
        before ++ kw .orderBy :: (terms ++ .newline :: kw .offset :: rest) ∧
      ∀ t ∈ terms, t.opensClause = false := by
  rw [Query.levelTokens_eq] at skips ⊢
  cases offset : q.offset with
  | none =>
      have opening : kw .offset ∉ openingTokens .tsql q.distinct q.limit none := by
        cases q.distinct <;> cases q.limit <;> simp [openingTokens, selectTokens, topTokens?]
      have between : kw .offset ∉ q.betweenTokens .tsql := fun member =>
        absurd (q.opensPage_of_mem_betweenTokens .tsql _ member) (by decide)
      have trailing : trailingTokens .tsql q.limit none = [] := by cases q.limit <;> rfl
      rw [offset, trailing, List.append_nil, List.mem_append] at skips
      exact absurd skips (not_or.2 ⟨opening, between⟩)
  | some n =>
      obtain ⟨terms, ordering, inside⟩ := orderingTokens_of_offset q.orderBy q.limit n
      obtain ⟨rest, trailing⟩ : ∃ rest, trailingTokens .tsql q.limit (some n) =
          .newline :: kw .offset :: rest := by
        cases q.limit <;> exact ⟨_, rfl⟩
      refine ⟨openingTokens .tsql q.distinct q.limit (some n) ++ levelTokens 0 (q.clauses .tsql)
        ++ [.newline], terms, rest, ?_, inside⟩
      rw [betweenTokens, offset, ordering, trailing]
      simp only [List.append_assoc, List.cons_append, List.nil_append]

/-- A query is paged by the clause that is written for it. -/
theorem Query.paged_level (d : Dialect) (q : Query) : q.Paged d (levelTokens 0 (q.tokens d).tail) := by
  have found := pageClause_written d q.distinct q.limit q.offset (q.opensPage_of_mem_betweenTokens d)
  rw [← Query.levelTokens_eq] at found
  exact ⟨pageTokens d q.limit q.offset,
    { found := found
      alone := fun other again => found.unique again
      asked := pageTokens_eq_nil d q.limit q.offset
      keeps := rowRange?_pageTokens
      ordered := by
        rintro rfl
        exact Query.ordered_of_offset }⟩

/-- The query of an arbitrary ordering is not paged. -/
theorem Query.selectNull_paged (d : Dialect) : selectNull.Paged d [.space, kw .null] := by
  have others : ∀ t ∈ [Token.space, kw .null], t.opensPage = false := by decide
  exact ⟨[],
    { found := .absent others
      alone := fun other again => (PageClause.absent others).unique again
      asked := by decide
      keeps := fun _ => ⟨⟨0, none⟩, by cases d <;> rfl, fun _ _ => rfl⟩
      ordered := fun _ skips => absurd skips (by decide) }⟩

/-- Whatever is rendered pages as it was asked to. Its SELECTs are those of the query and of the queries
    inside it, at any depth; each has one page clause if its query has a limit or an offset, and none
    otherwise, and if the dialect takes the two, the clause keeps by its rules the rows that they leave. -/
theorem Query.pages_as_asked {d : Dialect} {q : Query} {tokens : List Token}
    (rendered : q.render d = .ok tokens) :
    List.Forall₂ (Query.Paged d) (q.selects d) (selectLevels tokens) := by
  rw [eq_of_accepted rendered]
  refine (Query.showsParts d q).selectLevels.2.imp fun part level spelled => ?_
  rcases spelled with rfl | ⟨rfl, rfl⟩
  · exact part.paged_level d
  · exact selectNull_paged d

/-- The ten latest posts, less three of them that no ordering chooses. -/
def Query.lessThree : Query :=
  { Query.empty with
    select := [.plain (.of "p" "id")]
    source := some (.derived
      { Query.empty with
        select := [.plain (.of "posts" "id")]
        source := some (.stored none "posts")
        orderBy := [⟨.of "posts" "id", some .desc, none⟩]
        limit := some 10 } "p")
    offset := some 3 }

/-- SQL Server reads TOP at the inner level and OFFSET at the outer one, and the ordering that it needs there
    is a query of its own. -/
theorem Query.lessThree_pages :
    Query.lessThree.render .tsql = .ok (Query.lessThree.tokens .tsql) ∧
    (Query.lessThree.selects .tsql).length = 3 ∧
    (∀ q ∈ Query.lessThree.selects .tsql, Dialect.TakesPage .tsql q.limit q.offset) ∧
    List.Forall₂ (Query.Paged .tsql) (Query.lessThree.selects .tsql)
      (selectLevels (Query.lessThree.tokens .tsql)) :=
  ⟨rfl, rfl, by decide, Query.pages_as_asked rfl⟩

/-- The clause at the level of a query, and no other one, is not read where the dialect does not take its limit
    and offset. -/
theorem Query.page_refused {d : Dialect} {q : Query} (refuses : ¬ d.TakesPage q.limit q.offset) :
    ∀ clause, PageClause (levelTokens 0 (q.tokens d).tail) clause → d.rowRange? clause = none := by
  have found := pageClause_written d q.distinct q.limit q.offset (q.opensPage_of_mem_betweenTokens d)
  rw [← Query.levelTokens_eq] at found
  intro clause again
  rw [found.unique again]
  exact rowRange?_pageTokens_eq_none refuses

/-- All posts, as many as can be asked for. -/
def Query.allPosts : Query :=
  { Query.empty with
    select := [.plain (.of "posts" "id")]
    source := some (.stored none "posts")
    limit := some 18446744073709551615 }

/-- None of the posts behind the fifth. -/
def Query.noPosts : Query := { Query.allPosts with limit := some 0, offset := some 5 }

/-- SQLite refuses a limit beyond its integers, and SQL Server to fetch no rows, though both queries are
    rendered. -/
theorem Query.unreadable_pages :
    (Query.allPosts.render .sqlite = .ok (Query.allPosts.tokens .sqlite) ∧
      ∃ level ∈ selectLevels (Query.allPosts.tokens .sqlite), ∀ clause, PageClause level clause →
        Dialect.rowRange? .sqlite clause = none) ∧
    Query.noPosts.render .tsql = .ok (Query.noPosts.tokens .tsql) ∧
      ∃ level ∈ selectLevels (Query.noPosts.tokens .tsql), ∀ clause, PageClause level clause →
        Dialect.rowRange? .tsql clause = none := by
  have own (d : Dialect) (q : Query) : levelTokens 0 (q.tokens d).tail ∈ selectLevels (q.tokens d) := by
    rw [Query.tokens_eq_parts, selectLevels, if_pos rfl]
    exact List.mem_cons_self
  exact ⟨⟨rfl, _, own _ _, Query.page_refused (by decide)⟩, rfl, _, own _ _, Query.page_refused (by decide)⟩

end RelQuery.Sql
