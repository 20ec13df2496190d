/-
Module: RelQuery.Session.Run
Purpose: Executing selections: the nested objects of a selection, the number of its roots, and one page of
  them.
Main exports: Output, Selection.execute, Selection.count, Selection.countRows, Selection.executePage
-/
import RelQuery.Session.Executor
import RelQuery.Select.Build
import RelQuery.Page

namespace RelQuery

open Sql

/-- The objects of an executed selection, and the plan that they follow. -/
structure Output where
  plan : Projection
  rows : List Json

/-- A decimal text as an unsigned 64-bit integer. A plus sign may precede the digits. -/
def countOfText? (text : String) : Option UInt64 :=
  let digits := match text.toList with
    | '+' :: digits => digits
    | digits => digits
  if digits.isEmpty ∨ !digits.all Char.isDigit then none
  else
    let value := Json.digitsValue digits
    if value ≤ maxCount then some value.toUInt64 else none

/-- A JSON value as a count: an integer, or its decimal text. -/
def countOfJson? (value : Json) : Option UInt64 :=
  match value with
  | .string text => countOfText? text
  | value => value.toUnsigned?

/-- The count in the result of a counting statement. -/
def readCount (rows : List Row) : Except QueryError UInt64 :=
  let count := match rows with
    | [] => none
    | row :: _ => (Json.Members.get? row countColumn).bind countOfJson?
  match count with
  | some n => .ok n
  | none => .error (.executor (.database "count query returned no count"))

namespace Selection

variable {σ : Type}

/-- Executes the statement of a selection. Deferred relations are left as placeholders. -/
def execute (registry : Registry) (executor : Executor σ) (selection : Selection) :
    SessionM σ Output := do
  let built ← SessionM.ofExcept (selection.build registry)
  let statement ← SessionM.ofExcept (built.query.compile executor.dialect)
  let rows ← executor.run statement
  return ⟨built.plan, hydrate built.plan rows⟩

/-- The number of roots of a selection, whatever its limit and offset. -/
def count (registry : Registry) (executor : Executor σ) (selection : Selection) :
    SessionM σ UInt64 := do
  let query ← SessionM.ofExcept (selection.countQuery registry)
  let statement ← SessionM.ofExcept (query.compile executor.dialect)
  let rows ← executor.run statement
  SessionM.ofExcept (readCount rows)

/-- The number of rows that the statement of a selection returns. -/
def countRows (registry : Registry) (executor : Executor σ) (selection : Selection) :
    SessionM σ Nat := do
  let statement ← SessionM.ofExcept (selection.compile registry executor.dialect)
  let rows ← executor.run statement
  return rows.length

/-- One page of roots and the number of all roots. The latter is asked for first. -/
def executePage (registry : Registry) (executor : Executor σ) (selection : Selection)
    (request : PageRequest) : SessionM σ (Page × Output) := do
  if request.size = 0 then SessionM.ofExcept (.error (.invalidQuery .pageSize))
  else
    let total ← selection.count registry executor
    let window := { selection with limit := some request.size, offset := some request.offset }
    let output ← window.execute registry executor
    return (⟨output.rows, total, request⟩, output)

end Selection

end RelQuery
