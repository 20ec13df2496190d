/-
Module: RelQuery.Sql.Insert
Purpose: INSERT statements and upserts. Where an existing row is to be updated or kept, PostgreSQL and
  SQLite write a conflict clause, MySQL a clause for duplicate keys, and SQL Server a MERGE statement.
Main exports: OnConflict, Insert, Insert.render, Insert.compile
-/
import RelQuery.Sql.Render

namespace RelQuery.Sql

/-- What happens to a row whose key exists already. -/
inductive OnConflict where
  /-- The existing row is kept. -/
  | keep (keys : List String)
  /-- The named columns of the existing row get the proposed values. -/
  | update (keys columns : List String)
deriving DecidableEq, Repr, Inhabited

/-- The columns whose values conflict. -/
def OnConflict.keys : OnConflict → List String
  | .keep keys => keys
  | .update keys _ => keys

/-- The insertion of rows into a table. -/
structure Insert where
  schema : Option String
  table : String
  columns : List String
  rows : List (List Expr)
  onConflict : Option OnConflict

namespace Insert

/-- The first reason why an insertion makes no sense in any dialect. -/
def fault? (insert : Insert) : Option RequestFault :=
  if insert.columns.isEmpty || insert.rows.isEmpty then some (.emptyInsert insert.table)
  else
    match insert.rows.find? fun row => row.length != insert.columns.length with
    | some row => some (.rowWidth insert.table row.length insert.columns.length)
    | none =>
      match insert.onConflict with
      | some (.update _ []) => some .noUpdateColumns
      | _ => none

/-- Column names with commas between them. -/
def nameTokens (names : List String) : List Token :=
  commaSeparated (names.map fun name => [.identifier name])

/-- The rows, each between parentheses. -/
def rowTokens (d : Dialect) (rows : List (List Expr)) : List Token :=
  List.intercalate [.comma]
    (rows.map fun row => .space :: parenthesized (commaSeparated (Expr.tokensOfEach d row)))

/-- Assignments of expressions to columns, with commas between them. -/
def assignmentTokens (columns : List String) (value : String → List Token) : List Token :=
  commaSeparated (columns.map fun column =>
    .identifier column :: .space :: .comparison .eq :: .space :: value column)

/-- The clause for conflicting rows that names their key. -/
def onConflictTokens (conflict : OnConflict) : List Token :=
  let target : List Token :=
    match conflict.keys with
    | [] => []
    | keys => .space :: parenthesized (nameTokens keys)
  let action : List Token :=
    match conflict with
    | .keep _ => [kw .nothing]
    | .update _ columns =>
      kw .update :: .space :: kw .set :: .space
        :: assignmentTokens columns fun column => [kw .excluded, .dot, .identifier column]
  .space :: kw .on :: .space :: kw .conflict :: (target ++ .space :: kw .do :: .space :: action)

/-- The clause for duplicate keys. Rows that are to be kept need none. -/
def onDuplicateKeyTokens : OnConflict → List Token
  | .keep _ => []
  | .update _ columns =>
    .space :: kw .on :: .space :: kw .duplicate :: .space :: kw .key :: .space :: kw .update :: .space
      :: assignmentTokens columns fun column =>
        kw .values :: parenthesized [.identifier column]

/-- The tokens of a plain insertion up to its rows; `ignore` skips rows that exist. -/
def insertTokens (d : Dialect) (insert : Insert) (ignore : Bool) : List Token :=
  kw .insert :: .space :: ((if ignore then [kw .ignore, .space] else [])
    ++ kw .into :: .space :: .qualified insert.schema insert.table :: .space
    :: (parenthesized (nameTokens insert.columns)
      ++ .space :: kw .values :: rowTokens d insert.rows))

/-- The name of the table that rows are merged into. -/
def mergeTarget : String := "target"

/-- The name of the rows that are merged. -/
def mergeSource : String := "source"

/-- A column of one of the two sides of a merge. -/
def sideColumn (side column : String) : List Token := [.identifier side, .dot, .identifier column]

/-- The tokens of a merge. It always ends in a semicolon. -/
def mergeTokens (d : Dialect) (insert : Insert) (conflict : OnConflict) : List Token :=
  let matching := List.intercalate [.space, kw .and, .space] (conflict.keys.map fun key =>
    sideColumn mergeTarget key ++ .space :: .comparison .eq :: .space :: sideColumn mergeSource key)
  let whenMatched : List Token :=
    match conflict with
    | .keep _ => []
    | .update _ columns =>
      .space :: kw .when :: .space :: kw .matched :: .space :: kw .then :: .space :: kw .update
        :: .space :: kw .set :: .space :: assignmentTokens columns (sideColumn mergeSource)
  kw .merge :: .space :: kw .into :: .space :: .qualified insert.schema insert.table :: .space
    :: kw .as :: .space :: .identifier mergeTarget :: .space :: kw .using :: .space
    :: (parenthesized (kw .values :: rowTokens d insert.rows)
      ++ .space :: kw .as :: .space :: .identifier mergeSource :: .space
      :: (parenthesized (nameTokens insert.columns)
        ++ .space :: kw .on :: .space :: (matching ++ whenMatched
          ++ .space :: kw .when :: .space :: kw .not :: .space :: kw .matched :: .space :: kw .then
          :: .space :: kw .insert :: .space :: (parenthesized (nameTokens insert.columns)
            ++ .space :: kw .values :: .space
            :: (parenthesized (commaSeparated (insert.columns.map (sideColumn mergeSource)))
              ++ [.semicolon])))))

/-- The tokens of an insertion in a style of upsert. -/
def tokens (d : Dialect) (insert : Insert) : List Token :=
  match insert.onConflict, d.upsertStyle with
  | none, _ => insertTokens d insert false
  | some conflict, .onConflict => insertTokens d insert false ++ onConflictTokens conflict
  | some (.keep _), .onDuplicateKey => insertTokens d insert true
  | some conflict, .onDuplicateKey => insertTokens d insert false ++ onDuplicateKeyTokens conflict
  | some conflict, .merge => mergeTokens d insert conflict

/-- Whether an upsert lacks the columns by which a dialect recognises conflicts. -/
def lacksConflictColumns (d : Dialect) (insert : Insert) : Bool :=
  match insert.onConflict with
  | some conflict => conflict.keys.isEmpty && !d.supports .upsertWithoutConflictColumns
  | none => false

/-- The tokens of an insertion that makes sense, in a dialect that can express it. -/
def render (d : Dialect) (insert : Insert) : Except QueryError (List Token) :=
  match insert.fault? with
  | some fault => .error (.invalidQuery fault)
  | none =>
    if insert.lacksConflictColumns d then .error (.unsupported d .upsertWithoutConflictColumns)
    else accepted d (insert.tokens d)

/-- The statement of an insertion. -/
def compile (d : Dialect) (insert : Insert) : Except QueryError Statement :=
  (insert.render d).map (Statement.ofTokens d)

end Insert

end RelQuery.Sql
