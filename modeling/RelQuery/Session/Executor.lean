/-
Module: RelQuery.Session.Executor
Purpose: Databases as seen by a session: whatever answers statements and transaction commands, with a state
  of its own. The scripted executor answers from a list and keeps what it was asked.
Main exports: Executor, SessionM, run, Script, Executor.scripted
-/
import RelQuery.Hydrate
import RelQuery.Error
import RelQuery.Sql.Token

namespace RelQuery

open Sql

/-- A database with states in `σ`. Each answer may change the state. -/
structure Executor (σ : Type) where
  dialect : Dialect
  execute : Statement → σ → Except ExecutorError (List Row) × σ
  begin : σ → Except ExecutorError Unit × σ
  commit : σ → Except ExecutorError Unit × σ
  rollback : σ → Except ExecutorError Unit × σ

/-- Computations that use a database and may fail. A failure keeps the changes made before it. -/
abbrev SessionM (σ : Type) := ExceptT QueryError (StateM σ)

/-- A computation that uses no database. -/
def SessionM.ofExcept {σ α : Type} (result : Except QueryError α) : SessionM σ α := ExceptT.mk (pure result)

/-- An answer of a database as a computation. -/
def SessionM.ask {σ α : Type} (answer : σ → Except ExecutorError α × σ) : SessionM σ α :=
  ExceptT.mk fun state =>
    match answer state with
    | (.ok value, state) => (.ok value, state)
    | (.error error, state) => (.error (.executor error), state)

/-- Executes a statement. -/
def Executor.run {σ : Type} (executor : Executor σ) (statement : Statement) : SessionM σ (List Row) :=
  SessionM.ask (executor.execute statement)

/-! ### Scripted executors -/

/-- What an executor is asked. -/
inductive Call where
  | statement (statement : Statement)
  | begin
  | commit
  | rollback
deriving DecidableEq, Repr, Inhabited

/-- The answers that are left, and the calls so far, latest first. -/
structure Script where
  answers : List (Except ExecutorError (List Row))
  calls : List Call

/-- Answers a call with the next answer; when none is left, with no rows. -/
def Script.answer (script : Script) (call : Call) : Except ExecutorError (List Row) × Script :=
  match script.answers with
  | [] => (.ok [], ⟨[], call :: script.calls⟩)
  | answer :: answers => (answer, ⟨answers, call :: script.calls⟩)

/-- Answers a command, which returns no rows. -/
def Script.command (call : Call) (script : Script) : Except ExecutorError Unit × Script :=
  let (answer, script) := script.answer call
  (answer.map fun _ => (), script)

/-- The executor that answers from a script. -/
def Executor.scripted (dialect : Dialect) : Executor Script where
  dialect := dialect
  execute := fun statement script => script.answer (.statement statement)
  begin := Script.command .begin
  commit := Script.command .commit
  rollback := Script.command .rollback

end RelQuery
