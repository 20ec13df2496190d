/-
Module: RelQuery.Proofs.Sql.Upsert
Purpose: What an upsert says when it is read back from its tokens: how many expressions each row has, which
  columns a MERGE takes from its source and which ones the source has, and what a conflict clause aims at.
  Rendering checks the widths of rows and that lists are not empty, but not that the columns by which and
  with which rows are updated are among the proposed ones, nor that PostgreSQL knows the conflict.
Main exports: rowWidths, mergeSource?, conflictTarget?, Dialect.UpsertClosed, Insert.Acceptable,
  Insert.accepted_upsert_closed_iff
-/
import RelQuery.Proofs.Sql.Levels
import RelQuery.Proofs.Sql.Parameters

namespace RelQuery.Sql

/-- The columns that an upsert updates. -/
def OnConflict.updates : OnConflict → List String
  | .keep _ => []
  | .update _ columns => columns

/-! ### Reading an upsert -/

/-- What follows the first use of a word outside of all parentheses, where `depth` of them are open. -/
def afterWord (word : Keyword) : (depth : Nat) → List Token → List Token
  | _, [] => []
  | depth, t :: ts =>
    if t = .openParen then afterWord word (depth + 1) ts
    else if t = .closeParen then afterWord word (depth - 1) ts
    else if depth = 0 ∧ t = kw word then ts
    else afterWord word depth ts

/-- The number of expressions in each of the rows that tokens begin with. The expressions of a row stand
    between commas, outside of all parentheses but those of the row, and no row is without one. -/
def rowWidths : (depth : Nat) → List Token → List Nat
  | _, [] => []
  | 0, t :: ts =>
    if t = .openParen then ((levelTokens 0 ts).count .comma + 1) :: rowWidths 1 ts
    else if t = .comma ∨ t = .space then rowWidths 0 ts
    else []
  | depth + 1, t :: ts =>
    if t = .openParen then rowWidths (depth + 2) ts
    else if t = .closeParen then rowWidths depth ts
    else rowWidths (depth + 1) ts

/-- The tokens behind VALUES, which a MERGE has inside of its source. -/
def behindValues : List Token → List Token
  | .keyword .merge :: tokens =>
    match afterWord .using 0 tokens with
    | .space :: .openParen :: .keyword .values :: ts => ts
    | _ => []
  | tokens => afterWord .values 0 tokens

/-- A list of names up to the parenthesis that closes it, and what follows. -/
def readNames : List Token → Option (List String × List Token)
  | .identifier name :: .closeParen :: ts => some ([name], ts)
  | .identifier name :: .comma :: .space :: ts =>
    (readNames ts).map fun (names, rest) => (name :: names, rest)
  | _ => none

/-- The columns that tokens take from one side of a merge. -/
def sideMentions (side : String) : List Token → List String
  | .identifier qualifier :: .dot :: .identifier column :: ts =>
    if qualifier = side then column :: sideMentions side ts else sideMentions side ts
  | _ :: ts => sideMentions side ts
  | [] => []

/-- The source of a MERGE: its name, the list of its columns, and the tokens behind the list. -/
structure MergeSource where
  side : String
  columns : List String
  behind : List Token
deriving DecidableEq, Repr

namespace MergeSource

/-- The columns of the source that the statement uses. -/
def mentions (source : MergeSource) : List String := sideMentions source.side source.behind

/-- The columns of the source by which rows are recognised. They are used before the first WHEN. -/
def keys (source : MergeSource) : List String :=
  sideMentions source.side (source.behind.takeWhile (· != kw .when))

end MergeSource

/-- The source of a MERGE stands behind USING, in parentheses, and is named behind AS. -/
def mergeSource? (tokens : List Token) : Option MergeSource :=
  match afterWord .as 0 (afterWord .using 0 tokens) with
  | .space :: .identifier side :: .space :: .openParen :: ts =>
    (readNames ts).map fun (columns, behind) => ⟨side, columns, behind⟩
  | _ => none

/-- The columns that a conflict clause aims at, and the tokens behind them. -/
def conflictTarget? (tokens : List Token) : Option (List String × List Token) :=
  match afterWord .conflict 0 tokens with
  | .space :: .openParen :: ts => readNames ts
  | ts => some ([], ts)

/-- An upsert that a dialect can make sense of. A MERGE of SQL Server recognises rows by something and uses
    only columns that its source has. PostgreSQL updates a row only where it is told which conflict to look
    for. -/
def Dialect.UpsertClosed (d : Dialect) (tokens : List Token) : Prop :=
  match d with
  | .tsql => ∃ source, mergeSource? tokens = some source ∧ source.keys ≠ [] ∧
      ∀ column ∈ source.mentions, column ∈ source.columns
  | .postgres => ∃ target action, conflictTarget? tokens = some (target, action) ∧
      (kw .update ∈ action → target ≠ [])
  | .mysql | .sqlite => True

namespace Nested

variable {forbidden : Token → Bool} {ts : List Token}

theorem afterWord_succ (nested : Nested forbidden ts) (word : Keyword) (depth : Nat) (rest : List Token) :
    afterWord word (depth + 1) (ts ++ rest) = afterWord word (depth + 1) rest := by
  induction nested generalizing depth rest with
  | nil => rfl
  | token opens closes _ _ ih => simp [afterWord, opens, closes, ih]
  | group _ _ insideIH restIH => simp [afterWord, insideIH, restIH]

/-- A word that does not stand before is found. -/
theorem afterWord_append {word : Keyword} (nested : Nested (· == kw word) ts) (rest : List Token) :
    afterWord word 0 (ts ++ kw word :: rest) = rest := by
  generalize same : (· == kw word : Token → Bool) = forbidden at nested
  induction nested with
  | nil => simp [afterWord]
  | token opens closes allowed _ ih =>
      subst same
      rw [beq_eq_false_iff_ne] at allowed
      simpa [afterWord, opens, closes, allowed] using ih rfl
  | group inside _ _ ih => simpa [afterWord, inside.afterWord_succ] using ih same

theorem rowWidths_succ (nested : Nested forbidden ts) (depth : Nat) (rest : List Token) :
    rowWidths (depth + 1) (ts ++ rest) = rowWidths (depth + 1) rest := by
  induction nested generalizing depth rest with
  | nil => rfl
  | token opens closes _ _ ih => simp [rowWidths, opens, closes, ih]
  | group _ _ insideIH restIH => simp [rowWidths, insideIH, restIH]

/-- A row in parentheses has one expression more than commas. -/
theorem rowWidths_parenthesized (nested : Nested forbidden ts) (rest : List Token) :
    rowWidths 0 (Sql.parenthesized ts ++ rest) =
      ((levelTokens 0 ts).count .comma + 1) :: rowWidths 0 rest := by
  simp [Sql.parenthesized, rowWidths, nested.levelTokens_closed, nested.rowWidths_succ]

end Nested

/-! ### Rows -/

theorem Nested.count_comma {ts : List Token} (nested : Nested Token.endsItem ts) :
    (levelTokens 0 ts).count .comma = 0 :=
  List.count_eq_zero.2 fun member => absurd (nested.allowed_of_mem member) (by decide)

/-- The commas outside of all parentheses separate the items of a list. -/
theorem count_comma_commaSeparated {item : List Token} {items : List (List Token)}
    (each : ∀ part ∈ item :: items, Nested Token.endsItem part) :
    (levelTokens 0 (commaSeparated (item :: items))).count .comma = items.length := by
  induction items generalizing item with
  | nil =>
      rw [List.forall_mem_singleton] at each
      simpa [commaSeparated, List.intercalate] using each.count_comma
  | cons next items ih =>
      rw [List.forall_mem_cons] at each
      have spelled : commaSeparated (item :: next :: items) =
          item ++ .comma :: .space :: commaSeparated (next :: items) := by
        rw [commaSeparated, List.intercalate_cons_cons, List.append_assoc]
        rfl
      have level : levelTokens 0 (.comma :: .space :: commaSeparated (next :: items)) =
          .comma :: .space :: levelTokens 0 (commaSeparated (next :: items)) := rfl
      rw [spelled, each.1.levelTokens_append, List.count_append, each.1.count_comma, level]
      simp [ih each.2]

section

variable {d : Dialect}

theorem ShowsEach.nested {queries : List Query} {items : List (List Token)}
    (shows : ShowsEach Token.endsItem d queries items) : ∀ item ∈ items, Nested Token.endsItem item := by
  induction shows with
  | nil => exact fun _ member => absurd member List.not_mem_nil
  | cons first _ ih => exact List.forall_mem_cons.2 ⟨first.nested, ih⟩

theorem Expr.length_tokensOfEach (es : List Expr) : (Expr.tokensOfEach d es).length = es.length := by
  induction es with
  | nil => rfl
  | cons _ _ ih => exact congrArg (· + 1) ih

/-- The tokens between the parentheses of a row. -/
theorem nested_row (row : List Expr) :
    Nested (fun _ => false) (commaSeparated (Expr.tokensOfEach d row)) :=
  (Expr.showsEach d row).commaSeparated.nested.balanced

/-- As many expressions are read in a row as it has. -/
theorem count_comma_row {row : List Expr} (filled : row ≠ []) :
    (levelTokens 0 (commaSeparated (Expr.tokensOfEach d row))).count .comma + 1 = row.length := by
  cases row with
  | nil => contradiction
  | cons e es =>
      have each := (Expr.showsEach d (e :: es)).nested
      rw [Expr.tokensOfEach] at each ⊢
      rw [count_comma_commaSeparated each, Expr.length_tokensOfEach, List.length_cons]

theorem rowTokens_cons_cons (row next : List Expr) (rows : List (List Expr)) :
    Insert.rowTokens d (row :: next :: rows) =
      .space :: (parenthesized (commaSeparated (Expr.tokensOfEach d row))
        ++ .comma :: Insert.rowTokens d (next :: rows)) := by
  simp [Insert.rowTokens, List.intercalate_cons_cons]

theorem rowTokens_singleton (row : List Expr) :
    Insert.rowTokens d [row] = .space :: parenthesized (commaSeparated (Expr.tokensOfEach d row)) := by
  simp [Insert.rowTokens, List.intercalate]

theorem nested_rowTokens {forbidden : Token → Bool} (comma : forbidden .comma = false)
    (space : forbidden .space = false) (rows : List (List Expr)) :
    Nested forbidden (Insert.rowTokens d rows) := by
  induction rows with
  | nil => exact .nil
  | cons row rows ih =>
      cases rows with
      | nil =>
          rw [rowTokens_singleton]
          exact .token nofun nofun space ((nested_row row).parenthesized forbidden)
      | cons next rows =>
          rw [rowTokens_cons_cons]
          exact .token nofun nofun space
            (((nested_row row).parenthesized forbidden).append (.token nofun nofun comma ih))

/-- As many expressions are read in each row as it has, up to where no row follows. -/
theorem rowWidths_rowTokens {rest : List Token} (ends : rowWidths 0 rest = []) {rows : List (List Expr)}
    (filled : ∀ row ∈ rows, row ≠ []) :
    rowWidths 0 (Insert.rowTokens d rows ++ rest) = rows.map List.length := by
  induction rows with
  | nil => exact ends
  | cons row rows ih =>
      rw [List.forall_mem_cons] at filled
      cases rows with
      | nil =>
          rw [rowTokens_singleton, List.cons_append]
          simp [rowWidths, (nested_row row).rowWidths_parenthesized, count_comma_row filled.1, ends]
      | cons next rows =>
          rw [rowTokens_cons_cons, List.cons_append, List.append_assoc, List.cons_append]
          simp [rowWidths, (nested_row row).rowWidths_parenthesized, count_comma_row filled.1, ih filled.2]

end

/-! ### Names and the columns of the source -/

theorem nameTokens_singleton (name : String) : Insert.nameTokens [name] = [.identifier name] := by
  simp [Insert.nameTokens, commaSeparated, List.intercalate]

theorem nameTokens_cons_cons (name next : String) (names : List String) :
    Insert.nameTokens (name :: next :: names) =
      .identifier name :: .comma :: .space :: Insert.nameTokens (next :: names) := by
  simp [Insert.nameTokens, commaSeparated, List.intercalate_cons_cons]

theorem nested_nameTokens (names : List String) : Nested (fun _ => false) (Insert.nameTokens names) := by
  induction names with
  | nil => exact .nil
  | cons name names ih =>
      cases names with
      | nil => exact .cons rfl .nil
      | cons next names =>
          rw [nameTokens_cons_cons]
          exact .cons rfl (.cons rfl (.cons rfl ih))

theorem readNames_nameTokens (name : String) (names : List String) (rest : List Token) :
    readNames (Insert.nameTokens (name :: names) ++ .closeParen :: rest) = some (name :: names, rest) := by
  induction names generalizing name with
  | nil => simp [nameTokens_singleton, readNames]
  | cons next names ih => simp [nameTokens_cons_cons, readNames, ih next]

/-- A list of names takes nothing from a side. -/
theorem sideMentions_names (side : String) (names : List String) (rest : List Token) :
    sideMentions side (Insert.nameTokens names ++ .closeParen :: rest) = sideMentions side rest := by
  induction names with
  | nil => rfl
  | cons name names ih =>
      cases names with
      | nil => rw [nameTokens_singleton]; rfl
      | cons next names =>
          rw [nameTokens_cons_cons]
          exact ih

/-- Parts that each take one column, between separators that take none, take these columns in order. -/
theorem sideMentions_intercalate (side : String) (separator : List Token) (part : String → List Token)
    (takesNone : ∀ rest, sideMentions side (separator ++ rest) = sideMentions side rest)
    (takesOne : ∀ column rest, sideMentions side (part column ++ rest) = column :: sideMentions side rest)
    (columns : List String) (rest : List Token) :
    sideMentions side (List.intercalate separator (columns.map part) ++ rest) =
      columns ++ sideMentions side rest := by
  induction columns with
  | nil => rfl
  | cons column columns ih =>
      cases columns with
      | nil => simp [List.intercalate, takesOne]
      | cons next columns =>
          rw [List.map_cons] at ih ⊢
          rw [List.map_cons, List.intercalate_cons_cons, List.append_assoc, List.append_assoc, takesOne,
            takesNone, ih]
          rfl

/-! ### The parts of a merge -/

namespace Insert

/-- The condition of a merge. -/
def matchTokens (keys : List String) : List Token :=
  List.intercalate [.space, kw .and, .space] (keys.map fun key =>
    sideColumn mergeTarget key ++ .space :: .comparison .eq :: .space :: sideColumn mergeSource key)

/-- What a merge does with a row that exists, up to the next WHEN. -/
def whenMatchedTokens : OnConflict → List Token
  | .keep _ => []
  | .update _ columns =>
    kw .when :: .space :: kw .matched :: .space :: kw .then :: .space :: kw .update :: .space :: kw .set
      :: .space :: (assignmentTokens columns (sideColumn mergeSource) ++ [.space])

/-- What a merge does with a row that does not exist. -/
def whenNotMatchedTokens (columns : List String) : List Token :=
  kw .when :: .space :: kw .not :: .space :: kw .matched :: .space :: kw .then :: .space :: kw .insert
    :: .space :: (parenthesized (nameTokens columns) ++ .space :: kw .values :: .space
    :: (parenthesized (commaSeparated (columns.map (sideColumn mergeSource))) ++ [.semicolon]))

/-- The tokens of a merge behind the columns of its source. -/
def mergeBehind (insert : Insert) (conflict : OnConflict) : List Token :=
  .space :: kw .on :: .space :: (matchTokens conflict.keys ++ .space
    :: (whenMatchedTokens conflict ++ whenNotMatchedTokens insert.columns))

/-- The words of a merge before its source. -/
def mergeHead (insert : Insert) : List Token :=
  [.space, kw .into, .space, .qualified insert.schema insert.table, .space, kw .as, .space,
    .identifier mergeTarget, .space]

theorem mergeTokens_eq (d : Dialect) (insert : Insert) (conflict : OnConflict) :
    insert.mergeTokens d conflict =
      kw .merge :: (insert.mergeHead ++ kw .using :: .space ::
        (parenthesized (kw .values :: rowTokens d insert.rows)
          ++ .space :: kw .as :: .space :: .identifier mergeSource :: .space
          :: (parenthesized (nameTokens insert.columns) ++ insert.mergeBehind conflict))) := by
  cases conflict <;>
    simp [mergeTokens, mergeHead, mergeBehind, matchTokens, whenMatchedTokens, whenNotMatchedTokens,
      OnConflict.keys]

section

variable (columns : List String) (rest : List Token)

theorem sideMentions_matchTokens : sideMentions mergeSource (matchTokens columns ++ rest) =
    columns ++ sideMentions mergeSource rest :=
  sideMentions_intercalate mergeSource [.space, kw .and, .space] _ (fun _ => rfl) (fun _ _ => rfl) columns rest

theorem sideMentions_assignmentTokens :
    sideMentions mergeSource (assignmentTokens columns (sideColumn mergeSource) ++ rest) =
      columns ++ sideMentions mergeSource rest :=
  sideMentions_intercalate mergeSource [.comma, .space] _ (fun _ => rfl) (fun _ _ => rfl) columns rest

theorem sideMentions_sourceColumns :
    sideMentions mergeSource (commaSeparated (columns.map (sideColumn mergeSource)) ++ rest) =
      columns ++ sideMentions mergeSource rest :=
  sideMentions_intercalate mergeSource [.comma, .space] _ (fun _ => rfl) (fun _ _ => rfl) columns rest

end

section

variable (insert : Insert) (conflict : OnConflict)

/-- A merge takes from its source the columns by which rows are recognised, those that are updated and those
    that are inserted. -/
theorem sideMentions_mergeBehind : sideMentions mergeSource (insert.mergeBehind conflict) =
    conflict.keys ++ (conflict.updates ++ insert.columns) := by
  have matched : ∀ rest, sideMentions mergeSource (whenMatchedTokens conflict ++ rest) =
      conflict.updates ++ sideMentions mergeSource rest := by
    intro rest
    cases conflict with
    | keep _ => rfl
    | update _ columns =>
        simp [whenMatchedTokens, OnConflict.updates, sideMentions, sideMentions_assignmentTokens]
  have notMatched : sideMentions mergeSource (whenNotMatchedTokens insert.columns) = insert.columns := by
    simp [whenNotMatchedTokens, parenthesized, sideMentions, sideMentions_names, sideMentions_sourceColumns]
  simp [mergeBehind, sideMentions, sideMentions_matchTokens, matched, notMatched]

/-- The condition of a merge has no WHEN. -/
theorem takeWhile_matchTokens (keys : List String) (rest : List Token) :
    (matchTokens keys ++ rest).takeWhile (· != kw .when) =
      matchTokens keys ++ rest.takeWhile (· != kw .when) := by
  induction keys with
  | nil => rfl
  | cons key keys ih =>
      cases keys with
      | nil => rfl
      | cons next keys =>
          have spelled : matchTokens (key :: next :: keys) =
              sideColumn mergeTarget key ++ .space :: .comparison .eq :: .space ::
                (sideColumn mergeSource key ++ .space :: kw .and :: .space :: matchTokens (next :: keys)) := by
            simp [matchTokens, List.intercalate_cons_cons]
          rw [spelled]
          simpa [sideColumn] using ih

/-- The columns that a merge uses before its first WHEN are those by which rows are recognised. -/
theorem sideMentions_takeWhile_mergeBehind :
    sideMentions mergeSource ((insert.mergeBehind conflict).takeWhile (· != kw .when)) = conflict.keys := by
  have behind : (whenMatchedTokens conflict ++ whenNotMatchedTokens insert.columns).takeWhile
      (· != kw .when) = [] := by
    cases conflict <;> rfl
  have before : (insert.mergeBehind conflict).takeWhile (· != kw .when) =
      .space :: kw .on :: .space :: (matchTokens conflict.keys ++ [.space]) := by
    simp [mergeBehind, takeWhile_matchTokens, behind]
  simp [before, sideMentions, sideMentions_matchTokens]

end

theorem nested_mergeHead (insert : Insert) : Nested (· == kw .using) insert.mergeHead :=
  .cons rfl (.cons rfl (.cons rfl (.cons rfl (.cons rfl (.cons rfl (.cons rfl (.cons rfl
    (.cons rfl .nil))))))))

theorem mergeSource?_mergeTokens (d : Dialect) {insert : Insert} (columns : insert.columns ≠ [])
    (conflict : OnConflict) :
    mergeSource? (insert.mergeTokens d conflict) =
      some ⟨mergeSource, insert.columns, insert.mergeBehind conflict⟩ := by
  have head : Nested (· == kw .using) (kw .merge :: insert.mergeHead) := .cons rfl (nested_mergeHead insert)
  have values : Nested (fun _ => false) (kw .values :: rowTokens d insert.rows) :=
    .cons rfl (nested_rowTokens rfl rfl insert.rows)
  have source : Nested (· == kw .as)
      (.space :: (parenthesized (kw .values :: rowTokens d insert.rows) ++ [.space])) :=
    .cons rfl ((values.parenthesized _).append (.cons rfl .nil))
  obtain ⟨name, names, listed⟩ := List.exists_cons_of_ne_nil columns
  have behindUsing := head.afterWord_append (.space :: (parenthesized (kw .values :: rowTokens d insert.rows)
    ++ .space :: kw .as :: .space :: .identifier mergeSource :: .space
    :: (parenthesized (nameTokens insert.columns) ++ insert.mergeBehind conflict)))
  have behindAs := source.afterWord_append (.space :: .identifier mergeSource :: .space
    :: (parenthesized (nameTokens insert.columns) ++ insert.mergeBehind conflict))
  rw [List.cons_append] at behindUsing
  simp only [List.cons_append, List.append_assoc, List.nil_append] at behindAs
  rw [mergeSource?, mergeTokens_eq, behindUsing, behindAs]
  simp [parenthesized, listed, readNames_nameTokens]

/-- A merge is closed if it has a key, and if keys and updated columns are among those that are inserted. -/
theorem upsertClosed_mergeTokens (d : Dialect) {insert : Insert} (columns : insert.columns ≠ [])
    (conflict : OnConflict) :
    Dialect.tsql.UpsertClosed (insert.mergeTokens d conflict) ↔
      conflict.keys ≠ [] ∧ ∀ column ∈ conflict.keys ++ conflict.updates, column ∈ insert.columns := by
  have keys : (MergeSource.mk mergeSource insert.columns (insert.mergeBehind conflict)).keys =
      conflict.keys := sideMentions_takeWhile_mergeBehind insert conflict
  have mentions : (MergeSource.mk mergeSource insert.columns (insert.mergeBehind conflict)).mentions =
      conflict.keys ++ (conflict.updates ++ insert.columns) := sideMentions_mergeBehind insert conflict
  simp only [Dialect.UpsertClosed, mergeSource?_mergeTokens d columns, Option.some.injEq, exists_eq_left',
    keys, mentions]
  simp only [List.mem_append, or_imp, forall_and, imp_self, and_true]

theorem rowWidths_mergeTokens (d : Dialect) (insert : Insert) (conflict : OnConflict)
    (filled : ∀ row ∈ insert.rows, row ≠ []) :
    rowWidths 0 (behindValues (insert.mergeTokens d conflict)) = insert.rows.map List.length := by
  have behind : ∃ rest, behindValues (insert.mergeTokens d conflict) =
      rowTokens d insert.rows ++ .closeParen :: rest := by
    rw [mergeTokens_eq, behindValues, (nested_mergeHead insert).afterWord_append, parenthesized]
    simp only [List.cons_append, List.append_assoc]
    exact ⟨_, rfl⟩
  obtain ⟨rest, behind⟩ := behind
  rw [behind]
  exact rowWidths_rowTokens rfl filled

/-! ### The parts of a plain insertion -/

/-- The words of an insertion before VALUES. -/
def insertHead (insert : Insert) (ignore : Bool) : List Token :=
  kw .insert :: .space :: ((if ignore then [kw .ignore, .space] else []) ++
    kw .into :: .space :: .qualified insert.schema insert.table :: .space ::
      (parenthesized (nameTokens insert.columns) ++ [.space]))

theorem insertTokens_eq (d : Dialect) (insert : Insert) (ignore : Bool) :
    insertTokens d insert ignore = insert.insertHead ignore ++ kw .values :: rowTokens d insert.rows := by
  simp [insertTokens, insertHead]

theorem nested_insertHead {word : Keyword} (other : word = .values ∨ word = .conflict) (insert : Insert)
    (ignore : Bool) : Nested (· == kw word) (insert.insertHead ignore) := by
  have names := (nested_nameTokens insert.columns).parenthesized (· == kw word)
  rcases other with rfl | rfl <;> cases ignore <;>
    first
    | exact .cons rfl (.cons rfl (.cons rfl (.cons rfl (.cons rfl (.cons rfl
        (names.append (.cons rfl .nil)))))))
    | exact .cons rfl (.cons rfl (.cons rfl (.cons rfl (.cons rfl (.cons rfl (.cons rfl (.cons rfl
        (names.append (.cons rfl .nil)))))))))

theorem rowWidths_insertTokens (d : Dialect) (insert : Insert) (ignore : Bool)
    (filled : ∀ row ∈ insert.rows, row ≠ []) {rest : List Token} (ends : rowWidths 0 rest = []) :
    rowWidths 0 (behindValues (insertTokens d insert ignore ++ rest)) = insert.rows.map List.length := by
  have head := nested_insertHead (.inl rfl) insert ignore
  have behind : behindValues (insertTokens d insert ignore ++ rest) = rowTokens d insert.rows ++ rest := by
    rw [insertTokens_eq, List.append_assoc, List.cons_append]
    exact head.afterWord_append (rowTokens d insert.rows ++ rest)
  rw [behind, rowWidths_rowTokens ends filled]

/-- What a conflict clause aims at. -/
def targetTokens : List String → List Token
  | [] => []
  | keys => .space :: parenthesized (nameTokens keys)

/-- What a conflict clause does, behind what it aims at. -/
def conflictAction : OnConflict → List Token
  | .keep _ => [.space, kw .do, .space, kw .nothing]
  | .update _ columns =>
    .space :: kw .do :: .space :: kw .update :: .space :: kw .set :: .space
      :: assignmentTokens columns fun column => [kw .excluded, .dot, .identifier column]

theorem onConflictTokens_eq (conflict : OnConflict) :
    onConflictTokens conflict = .space :: kw .on :: .space :: kw .conflict ::
      (targetTokens conflict.keys ++ conflictAction conflict) := by
  cases conflict <;> rfl

theorem conflictTarget?_insertTokens (d : Dialect) (insert : Insert) (conflict : OnConflict) :
    conflictTarget? (insertTokens d insert false ++ onConflictTokens conflict) =
      some (conflict.keys, conflictAction conflict) := by
  have before : Nested (· == kw .conflict) (insertTokens d insert false ++ [.space, kw .on, .space]) := by
    rw [insertTokens_eq]
    exact ((nested_insertHead (.inr rfl) insert false).append (.cons rfl (nested_rowTokens rfl rfl _))).append
      (.cons rfl (.cons rfl (.cons rfl .nil)))
  have behind := before.afterWord_append
  simp only [List.append_assoc, List.cons_append, List.nil_append] at behind
  rw [conflictTarget?, onConflictTokens_eq, behind]
  cases keys : conflict.keys with
  | nil => cases conflict <;> rfl
  | cons key keys => simp [targetTokens, parenthesized, readNames_nameTokens]

/-- Every dialect but SQL Server inserts, and some of them say behind the rows what happens to a row that
    exists. -/
theorem tokens_of_not_merge {d : Dialect} (other : d.upsertStyle ≠ .merge) (insert : Insert) :
    ∃ ignore rest, insert.tokens d = insertTokens d insert ignore ++ rest ∧ rowWidths 0 rest = [] := by
  obtain ⟨schema, table, columns, rows, conflict⟩ := insert
  rcases conflict with _ | _ | _ <;> cases d <;> first
    | exact absurd rfl other
    | exact ⟨_, [], (List.append_nil _).symm, rfl⟩
    | exact ⟨_, _, rfl, rfl⟩

/-! ### What is accepted -/

theorem constructsOf_rowTokens (d : Dialect) (rows : List (List Expr)) :
    constructsOf (rowTokens d rows) = rows.flatMap Expr.constructsOfEach := by
  have plain : constructsOf [.comma] = [] := rfl
  rw [rowTokens, constructsOf_intercalate plain, List.flatMap_map]
  congr 1
  funext row
  simp [Token.construct?, Expr.constructs_tokensOfEach d row]

/-- Tokens that each belong to no construct have none between separators that have none. -/
theorem constructsOf_intercalate_map {separator : List Token} (plain : constructsOf separator = [])
    {part : String → List Token} (each : ∀ name, constructsOf (part name) = []) (names : List String) :
    constructsOf (List.intercalate separator (names.map part)) = [] := by
  rw [constructsOf_intercalate plain, List.flatMap_map, List.flatMap_eq_nil_iff]
  exact fun name _ => each name

theorem constructsOf_nameTokens (names : List String) : constructsOf (nameTokens names) = [] :=
  constructsOf_intercalate_map rfl (fun _ => rfl) names

theorem constructsOf_insertTokens (d : Dialect) (insert : Insert) (ignore : Bool) :
    constructsOf (insertTokens d insert ignore) = insert.rows.flatMap Expr.constructsOfEach := by
  cases ignore <;>
    simp [insertTokens, constructsOf_nameTokens, constructsOf_rowTokens, Token.construct?]

theorem constructsOf_onConflictTokens (conflict : OnConflict) :
    constructsOf (onConflictTokens conflict) = [] := by
  have aimed : constructsOf (targetTokens conflict.keys) = [] := by
    cases conflict.keys with
    | nil => rfl
    | cons key keys => simp [targetTokens, constructsOf_nameTokens, Token.construct?]
  have assigned (columns : List String) : constructsOf (assignmentTokens columns
      fun column => [kw .excluded, .dot, .identifier column]) = [] :=
    constructsOf_intercalate_map rfl (fun _ => rfl) columns
  rw [onConflictTokens_eq]
  cases conflict <;> simp [aimed, conflictAction, assigned, Token.construct?]

theorem constructsOf_onDuplicateKeyTokens (conflict : OnConflict) :
    constructsOf (onDuplicateKeyTokens conflict) = [] := by
  cases conflict with
  | keep _ => rfl
  | update _ columns =>
      have assigned : constructsOf (assignmentTokens columns
          fun column => kw .values :: parenthesized [.identifier column]) = [] :=
        constructsOf_intercalate_map rfl (fun _ => rfl) columns
      simp [onDuplicateKeyTokens, assigned, Token.construct?]

theorem constructsOf_mergeTokens (d : Dialect) (insert : Insert) (conflict : OnConflict) :
    constructsOf (insert.mergeTokens d conflict) = insert.rows.flatMap Expr.constructsOfEach := by
  have matching : constructsOf (matchTokens conflict.keys) = [] :=
    constructsOf_intercalate_map rfl (fun _ => rfl) conflict.keys
  have assigned (columns : List String) :
      constructsOf (assignmentTokens columns (sideColumn mergeSource)) = [] :=
    constructsOf_intercalate_map rfl (fun _ => rfl) columns
  have inserted : constructsOf (commaSeparated (insert.columns.map (sideColumn mergeSource))) = [] :=
    constructsOf_intercalate_map rfl (fun _ => rfl) insert.columns
  rw [mergeTokens_eq]
  cases conflict <;>
    simp [mergeHead, mergeBehind, whenMatchedTokens, whenNotMatchedTokens, matching, assigned, inserted,
      constructsOf_nameTokens, constructsOf_rowTokens, Token.construct?]

/-- The constructs of an insertion are those of its rows. -/
theorem constructsOf_tokens (d : Dialect) (insert : Insert) :
    constructsOf (insert.tokens d) = insert.rows.flatMap Expr.constructsOfEach := by
  unfold tokens
  split
  · exact constructsOf_insertTokens d insert false
  · rw [constructsOf_append, constructsOf_insertTokens, constructsOf_onConflictTokens, List.append_nil]
  · exact constructsOf_insertTokens d insert true
  · rw [constructsOf_append, constructsOf_insertTokens, constructsOf_onDuplicateKeyTokens, List.append_nil]
  · exact constructsOf_mergeTokens d insert _

/-- What rendering checks of an upsert. -/
structure Acceptable (d : Dialect) (insert : Insert) (conflict : OnConflict) : Prop where
  columns : insert.columns ≠ []
  rows : insert.rows ≠ []
  widths : ∀ row ∈ insert.rows, row.length = insert.columns.length
  updates : ∀ keys, conflict ≠ .update keys []
  keys : d = .tsql → conflict.keys ≠ []
  constructs : ∀ row ∈ insert.rows, ∀ construct ∈ Expr.constructsOfEach row, d.supports construct = true

section

variable {insert : Insert} {conflict : OnConflict}

theorem fault?_eq_none (upsert : insert.onConflict = some conflict) :
    insert.fault? = none ↔ (insert.columns ≠ [] ∧ insert.rows ≠ []) ∧
      (∀ row ∈ insert.rows, row.length = insert.columns.length) ∧ ∀ keys, conflict ≠ .update keys [] := by
  have filled : (insert.columns.isEmpty || insert.rows.isEmpty) = false ↔
      insert.columns ≠ [] ∧ insert.rows ≠ [] := by
    simp
  have narrow : (insert.rows.find? fun row => row.length != insert.columns.length) = none ↔
      ∀ row ∈ insert.rows, row.length = insert.columns.length := by
    simp
  rw [← filled, ← narrow, fault?]
  cases insert.columns.isEmpty || insert.rows.isEmpty with
  | true => simp
  | false =>
      cases insert.rows.find? fun row => row.length != insert.columns.length with
      | some _ => simp
      | none =>
          rw [upsert]
          cases conflict with
          | keep _ => simp
          | update _ columns => cases columns <;> simp

theorem lacksConflictColumns_eq_false (upsert : insert.onConflict = some conflict) (d : Dialect) :
    insert.lacksConflictColumns d = false ↔ (d = .tsql → conflict.keys ≠ []) := by
  cases d <;> simp [lacksConflictColumns, upsert, Dialect.supports]

/-- An upsert is rendered if it is acceptable, and then as its tokens. -/
theorem render_eq_ok (upsert : insert.onConflict = some conflict) (d : Dialect) (tokens : List Token) :
    insert.render d = .ok tokens ↔ insert.Acceptable d conflict ∧ tokens = insert.tokens d := by
  have sensible := fault?_eq_none upsert
  have keyed := lacksConflictColumns_eq_false upsert d
  have able := accepted_eq_ok d (insert.tokens d)
  rw [constructsOf_tokens] at able
  simp only [List.mem_flatMap, forall_exists_index, and_imp] at able
  constructor
  · intro rendered
    cases fault : insert.fault? with
    | some _ => simp [render, fault] at rendered
    | none =>
        cases lacks : insert.lacksConflictColumns d with
        | true => simp [render, fault, lacks] at rendered
        | false =>
            have taken : accepted d (insert.tokens d) = .ok tokens := by
              simpa [render, fault, lacks] using rendered
            obtain rfl := eq_of_accepted taken
            obtain ⟨⟨columns, rows⟩, widths, updates⟩ := sensible.1 fault
            have constructs := able.1 taken
            exact ⟨⟨columns, rows, widths, updates, keyed.1 lacks, fun row inside construct =>
              constructs construct row inside⟩, rfl⟩
  · rintro ⟨acceptable, rfl⟩
    have fault := sensible.2 ⟨⟨acceptable.columns, acceptable.rows⟩, acceptable.widths, acceptable.updates⟩
    have lacks := keyed.2 acceptable.keys
    have taken := able.2 fun construct row inside => acceptable.constructs row inside construct
    simp [render, fault, lacks, taken]

/-- The rows of an accepted upsert are as wide as its list of columns. -/
theorem rowWidths_tokens (upsert : insert.onConflict = some conflict) {d : Dialect}
    (acceptable : insert.Acceptable d conflict) :
    rowWidths 0 (behindValues (insert.tokens d)) =
      List.replicate insert.rows.length insert.columns.length := by
  have filled : ∀ row ∈ insert.rows, row ≠ [] := by
    rintro row inside rfl
    exact acceptable.columns (List.length_eq_zero_iff.1 (acceptable.widths [] inside).symm)
  have widths : insert.rows.map List.length = List.replicate insert.rows.length insert.columns.length :=
    List.eq_replicate_iff.2 ⟨List.length_map _, by simpa using acceptable.widths⟩
  rw [← widths]
  by_cases merges : d.upsertStyle = .merge
  · have merged : insert.tokens d = insert.mergeTokens d conflict := by simp [tokens, upsert, merges]
    rw [merged, rowWidths_mergeTokens d insert conflict filled]
  · obtain ⟨ignore, rest, written, ends⟩ := tokens_of_not_merge merges insert
    rw [written, rowWidths_insertTokens d insert ignore filled ends]

end

/-- Whether the columns by which and with which an upsert updates rows are among those that are proposed, where
    a MERGE takes them from there, and whether PostgreSQL is told which conflict to look for. -/
def Fits (d : Dialect) (insert : Insert) (conflict : OnConflict) : Prop :=
  match d, conflict with
  | .tsql, _ => ∀ column ∈ conflict.keys ++ conflict.updates, column ∈ insert.columns
  | .postgres, .update keys _ => keys ≠ []
  | _, _ => True

/-- What an upsert says is closed if its lists fit. -/
theorem upsertClosed_tokens {d : Dialect} {insert : Insert} {conflict : OnConflict}
    (upsert : insert.onConflict = some conflict) (acceptable : insert.Acceptable d conflict) :
    d.UpsertClosed (insert.tokens d) ↔ insert.Fits d conflict := by
  cases d with
  | tsql =>
      have merged : insert.tokens .tsql = insert.mergeTokens .tsql conflict := by
        simp [tokens, upsert, Dialect.upsertStyle]
      rw [merged, upsertClosed_mergeTokens .tsql acceptable.columns]
      exact and_iff_right (acceptable.keys rfl)
  | postgres =>
      have written : insert.tokens .postgres =
          insertTokens .postgres insert false ++ onConflictTokens conflict := by
        simp [tokens, upsert, Dialect.upsertStyle]
      simp only [Dialect.UpsertClosed, written, conflictTarget?_insertTokens, Option.some.injEq, Prod.mk.injEq]
      cases conflict with
      | keep keys =>
          have keeps : kw .update ∉ conflictAction (.keep keys) := by simp [conflictAction]
          exact iff_of_true ⟨_, _, ⟨rfl, rfl⟩, fun updates => absurd updates keeps⟩ trivial
      | update keys columns =>
          have updates : kw .update ∈ conflictAction (.update keys columns) := by simp [conflictAction]
          constructor
          · rintro ⟨_, _, ⟨rfl, rfl⟩, aimed⟩
            exact aimed updates
          · intro aimed
            exact ⟨_, _, ⟨rfl, rfl⟩, fun _ => aimed⟩
  | mysql | sqlite => cases conflict <;> exact Iff.rfl

/-- An upsert is rendered exactly if it is acceptable, and is an error else. Each of its rows then has one
    expression for each column; but the statement is closed only if its lists fit, which nothing checks. -/
theorem accepted_upsert_closed_iff {insert : Insert} {conflict : OnConflict}
    (upsert : insert.onConflict = some conflict) (d : Dialect) :
    (insert.Acceptable d conflict → insert.render d = .ok (insert.tokens d)) ∧
    (¬ insert.Acceptable d conflict → ∃ fault, insert.render d = .error fault) ∧
    ∀ tokens, insert.render d = .ok tokens →
      rowWidths 0 (behindValues tokens) = List.replicate insert.rows.length insert.columns.length ∧
      (d.UpsertClosed tokens ↔ insert.Fits d conflict) := by
  refine ⟨fun acceptable => (render_eq_ok upsert d _).2 ⟨acceptable, rfl⟩, fun fails => ?_, ?_⟩
  · cases rendered : insert.render d with
    | error fault => exact ⟨fault, rfl⟩
    | ok tokens => exact absurd ((render_eq_ok upsert d tokens).1 rendered).1 fails
  · intro tokens rendered
    obtain ⟨acceptable, rfl⟩ := (render_eq_ok upsert d tokens).1 rendered
    exact ⟨rowWidths_tokens upsert acceptable, upsertClosed_tokens upsert acceptable⟩

/-- An upsert that updates the address of a user. -/
def emailUpsert (values : List (String × Literal)) (keys : List String) : Insert where
  schema := none
  table := "users"
  columns := values.map Prod.fst
  rows := [values.map fun value => .param value.2]
  onConflict := some (.update keys ["email"])

/-- A MERGE that recognises rows by a column that it inserts is closed. -/
theorem emailUpsert_by_id_closed :
    (emailUpsert [("id", .int 1), ("email", .text "ada@example.com")] ["id"]).onConflict =
      some (.update ["id"] ["email"]) ∧
    rowWidths 0 (behindValues
      ((emailUpsert [("id", .int 1), ("email", .text "ada@example.com")] ["id"]).tokens .tsql)) = [2] ∧
    Dialect.tsql.UpsertClosed
      ((emailUpsert [("id", .int 1), ("email", .text "ada@example.com")] ["id"]).tokens .tsql) := by
  have upsert : (emailUpsert [("id", .int 1), ("email", .text "ada@example.com")] ["id"]).onConflict =
      some (.update ["id"] ["email"]) := rfl
  have fits : ∀ column ∈ ["id", "email"], column ∈ ["id", "email"] := fun _ member => member
  obtain ⟨widths, closed⟩ := (accepted_upsert_closed_iff upsert .tsql).2.2 _ rfl
  exact ⟨upsert, widths, closed.2 fits⟩

/-- What is rendered although its lists do not fit is not closed. -/
theorem not_upsertClosed_of_render {d : Dialect} {insert : Insert} {conflict : OnConflict}
    (upsert : insert.onConflict = some conflict) {tokens : List Token} (rendered : insert.render d = .ok tokens)
    (misfit : ¬ insert.Fits d conflict) : ¬ d.UpsertClosed tokens := by
  obtain ⟨acceptable, rfl⟩ := (render_eq_ok upsert d tokens).1 rendered
  exact fun closed => misfit ((upsertClosed_tokens upsert acceptable).1 closed)

/-- A MERGE is rendered that recognises rows by a column which its source lacks, and so is an upsert of
    PostgreSQL that updates rows without a conflict to look for. -/
theorem open_upserts_rendered :
    (∃ tokens, (emailUpsert [("email", .text "ada@example.com")] ["id"]).render .tsql = .ok tokens ∧
      ¬ Dialect.tsql.UpsertClosed tokens) ∧
    (∃ tokens, (emailUpsert [("email", .text "ada@example.com")] []).render .postgres = .ok tokens ∧
      ¬ Dialect.postgres.UpsertClosed tokens) := by
  have byId : (emailUpsert [("email", .text "ada@example.com")] ["id"]).onConflict =
      some (.update ["id"] ["email"]) := rfl
  have byNothing : (emailUpsert [("email", .text "ada@example.com")] []).onConflict =
      some (.update [] ["email"]) := rfl
  have lacks : ¬ ∀ column ∈ ["id", "email"], column ∈ ["email"] := by decide
  have aimless : ¬ ([] : List String) ≠ [] := by decide
  exact ⟨⟨_, rfl, not_upsertClosed_of_render byId rfl lacks⟩,
    ⟨_, rfl, not_upsertClosed_of_render byNothing rfl aimless⟩⟩

end Insert

end RelQuery.Sql
