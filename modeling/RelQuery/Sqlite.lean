/-
Module: RelQuery.Sqlite
Purpose: What a SQLite database makes of values and of transactions. It has no booleans, dates or numbers
  that are no number, its texts need not be valid UTF-8, and transactions do not nest.
Main exports: Sqlite.Value, Value.ofLiteral, Value.toJson, parameterRow, Connection, Connection.control
-/
import RelQuery.Error
import RelQuery.Hydrate
import RelQuery.Sql.Literal
import RelQuery.Text.Utf8

namespace RelQuery.Sqlite

open Sql (Literal)

/-- A value of a column. -/
inductive Value where
  | null
  | integer (value : Int)
  | real (value : Float)
  | text (bytes : List UInt8)
  | blob (bytes : List UInt8)
deriving DecidableEq, Repr, Inhabited

/-- A text as a value. -/
def Value.ofString (s : String) : Value := .text s.toUTF8.toList

/-- What is stored for a literal. -/
def Value.ofLiteral : Literal → Value
  | .int n => .integer n
  | .float x => if x.isNaN then .null else .real x
  | .text s => .ofString s
  | .bool b => .integer (if b then 1 else 0)
  | .date s => .ofString s
  | .timestamp s => .ofString s
  | .null => .null

/-- A value in a row of a result. An infinite number has no JSON form, and a blob is the array of its
    bytes. -/
def Value.toJson : Value → Json
  | .null => .null
  | .integer n => Json.int n
  | .real x => if x.isFinite then .number (.float x) else .null
  | .text bytes => .string (Text.decodeUtf8 bytes)
  | .blob bytes => .array (bytes.map fun byte => Json.int byte.toNat)

/-- The row of a statement that selects its parameters under the names `c0`, `c1` and so on. -/
def parameterRow (params : List Literal) : Row :=
  params.zipIdx.map fun (value, index) => ("c" ++ toString index, (Value.ofLiteral value).toJson)

/-- A command that controls transactions. -/
inductive Control where
  | begin
  | commit
  | rollback
deriving DecidableEq, Repr, Inhabited

/-- The spelling of a command. -/
def Control.text : Control → String
  | .begin => "BEGIN"
  | .commit => "COMMIT"
  | .rollback => "ROLLBACK"

/-- A connection. -/
structure Connection where
  inTransaction : Bool
deriving DecidableEq, Repr, Inhabited

/-- Why a command is refused. -/
def Connection.refusal? (connection : Connection) : Control → Option String
  | .begin =>
    if connection.inTransaction then some "cannot start a transaction within a transaction" else none
  | .commit =>
    if connection.inTransaction then none else some "cannot commit - no transaction is active"
  | .rollback =>
    if connection.inTransaction then none else some "cannot rollback - no transaction is active"

/-- Executes a command. One that is refused changes nothing. -/
def Connection.control (command : Control) (connection : Connection) :
    Except ExecutorError Unit × Connection :=
  match connection.refusal? command with
  | some reason => (.error (.transaction (command.text ++ ": " ++ reason)), connection)
  | none => (.ok (), ⟨command = .begin⟩)

end RelQuery.Sqlite
