/-
Module: RelQuery.Sql.Dialect
Purpose: The four dialects of SQL and where they differ: names, quoting, literals, placeholders, the
  joins and orderings they lack, and how they spell an upsert.
Main exports: Dialect, Dialect.parse?, Dialect.ofConfigName?, Construct, Dialect.supports, UpsertStyle
-/
import RelQuery.Sql.Quoting
import RelQuery.Text.Case

namespace RelQuery.Sql

/-- The supported dialects. -/
inductive Dialect where
  | postgres
  | mysql
  | sqlite
  | tsql
deriving DecidableEq, Repr, Inhabited

namespace Dialect

/-- All dialects in their order of presentation. -/
def all : List Dialect := [.postgres, .mysql, .sqlite, .tsql]

/-- The name of a dialect in messages and in configuration. -/
def name : Dialect → String
  | .postgres => "postgres"
  | .mysql => "mysql"
  | .sqlite => "sqlite"
  | .tsql => "tsql"

/-- The dialect that a lower-case name or one of its common synonyms stands for. -/
def ofLowerName? : String → Option Dialect
  | "postgres" | "postgresql" | "pg" => some .postgres
  | "mysql" | "mariadb" => some .mysql
  | "sqlite" | "sqlite3" => some .sqlite
  | "tsql" | "mssql" | "sqlserver" => some .tsql
  | _ => none

/-- The dialect named on a command line, in any case; a failure returns the name in lower case. -/
def parse (text : String) : Except String Dialect :=
  let lower := Text.lowercase text
  match ofLowerName? lower with
  | some dialect => .ok dialect
  | none => .error lower

/-- The message for a name that stands for no dialect. -/
def unknownMessage (lower : String) : String := "unknown dialect: " ++ lower

/-- The dialect named in a configuration file, where fewer synonyms exist and case matters. -/
def ofConfigName? : String → Option Dialect
  | "postgres" => some .postgres
  | "mysql" | "mariadb" => some .mysql
  | "sqlite" => some .sqlite
  | "tsql" | "mssql" | "sqlserver" => some .tsql
  | _ => none

/-! ### Quoting -/

/-- The marks around an identifier. -/
def identifierMarks : Dialect → Char × Char
  | .postgres => ('"', '"')
  | .mysql => (Char.ofNat 0x60, Char.ofNat 0x60)
  | .sqlite => ('"', '"')
  | .tsql => ('[', ']')

/-- A quoted identifier. -/
def identifier (d : Dialect) (name : String) : String :=
  let (opening, closing) := d.identifierMarks
  enclosed opening closing name

/-- Text between single quotes. -/
def singleQuoted (s : String) : String := enclosed '\'' '\'' s

/-- A string literal. SQL Server marks one that is not ASCII as Unicode text. -/
def string (d : Dialect) (s : String) : String :=
  match d with
  | .tsql =>
    if s.toList.all fun c => c.toNat < 128 then singleQuoted s else "N" ++ singleQuoted s
  | _ => singleQuoted s

/-- A boolean literal: a keyword on PostgreSQL and a number elsewhere. -/
def bool (d : Dialect) (b : Bool) : String :=
  match d with
  | .postgres => if b then "true" else "false"
  | _ => if b then "1" else "0"

/-- The null literal. -/
def null (_ : Dialect) : String := "NULL"

/-- Whether date and timestamp literals carry the name of their type. -/
def typesDates : Dialect → Bool
  | .postgres | .mysql => true
  | .sqlite | .tsql => false

/-- A date literal. -/
def date (d : Dialect) (s : String) : String :=
  if d.typesDates then "DATE " ++ singleQuoted s else singleQuoted s

/-- A timestamp literal. -/
def timestamp (d : Dialect) (s : String) : String :=
  if d.typesDates then "TIMESTAMP " ++ singleQuoted s else singleQuoted s

/-- The placeholder of the parameter with the given number, counted from one. -/
def placeholder (d : Dialect) (number : Nat) : String :=
  match d with
  | .postgres => "$" ++ toString number
  | .mysql => "?"
  | .sqlite => "?"
  | .tsql => "@p" ++ toString number

end Dialect

/-! ### Constructs that some dialects lack -/

/-- A construct that not every dialect can express. -/
inductive Construct where
  | rightJoin
  | fullOuterJoin
  | nullsFirst
  | nullsLast
  | upsertWithoutConflictColumns
deriving DecidableEq, Repr, Inhabited

/-- How a construct is named in messages. -/
def Construct.name : Construct → String
  | .rightJoin => "RIGHT JOIN"
  | .fullOuterJoin => "FULL OUTER JOIN"
  | .nullsFirst => "NULLS FIRST"
  | .nullsLast => "NULLS LAST"
  | .upsertWithoutConflictColumns => "upsert without conflict columns"

/-- Whether a dialect can express a construct. -/
def Dialect.supports : Dialect → Construct → Bool
  | .postgres, _ => true
  | .mysql, .rightJoin => true
  | .mysql, .fullOuterJoin => false
  | .mysql, .nullsFirst => false
  | .mysql, .nullsLast => false
  | .mysql, .upsertWithoutConflictColumns => true
  | .sqlite, .rightJoin => false
  | .sqlite, .fullOuterJoin => false
  | .sqlite, .nullsFirst => true
  | .sqlite, .nullsLast => true
  | .sqlite, .upsertWithoutConflictColumns => true
  | .tsql, .rightJoin => true
  | .tsql, .fullOuterJoin => true
  | .tsql, .nullsFirst => false
  | .tsql, .nullsLast => false
  | .tsql, .upsertWithoutConflictColumns => false

/-- How a dialect spells an insertion that updates or skips rows which exist already. -/
inductive UpsertStyle where
  /-- A clause that names the conflicting columns. -/
  | onConflict
  /-- A clause for any duplicate key. -/
  | onDuplicateKey
  /-- A statement that merges a source into a target. -/
  | merge
deriving DecidableEq, Repr, Inhabited

/-- The upsert style of a dialect. -/
def Dialect.upsertStyle : Dialect → UpsertStyle
  | .postgres => .onConflict
  | .mysql => .onDuplicateKey
  | .sqlite => .onConflict
  | .tsql => .merge

end RelQuery.Sql
