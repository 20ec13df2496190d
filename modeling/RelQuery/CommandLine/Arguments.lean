/-
Module: RelQuery.CommandLine.Arguments
Purpose: The arguments of the command line. Options stand after the command they belong to, each at most
  once; the place of the settings may be given before the command, too.
Main exports: Command, Invocation, Invocation.ofArguments?, usage
-/
import RelQuery.Sql.Dialect

namespace RelQuery.CommandLine

open Sql (Dialect)

/-- What is to be done. -/
inductive Command where
  /-- Writes the statement of a request. -/
  | compile (query : String) (schema : Option String) (dialect : Option Dialect) (inline : Bool)
  /-- Checks table definitions. -/
  | check (schema : Option String)
deriving DecidableEq, Repr, Inhabited

/-- A command and the place of the settings. -/
structure Invocation where
  config : Option String
  command : Command
deriving DecidableEq, Repr, Inhabited

/-- An argument by its form. -/
inductive Argument where
  | word (text : String)
  | option (name : String) (value : Option String)
deriving DecidableEq, Repr, Inhabited

/-- The name of an option that is abbreviated to one letter. -/
def longName : Char → String
  | 'c' => "config"
  | 'q' => "query"
  | 's' => "schema"
  | 'd' => "dialect"
  | letter => "-" ++ letter.toString

/-- Classifies an argument. The value of an option may be attached, with or without an equals sign after
    a letter, and with one after a name. -/
def Argument.of (text : String) : Argument :=
  match text.toList with
  | '-' :: '-' :: rest =>
    let name := String.ofList (rest.takeWhile (· != '='))
    match rest.dropWhile (· != '=') with
    | [] => .option name none
    | _ :: value => .option name (some (String.ofList value))
  | ['-', letter] => .option (longName letter) none
  | '-' :: letter :: '=' :: value => .option (longName letter) (some (String.ofList value))
  | '-' :: letter :: value => .option (longName letter) (some (String.ofList value))
  | _ => .word text

/-- What has been read of the arguments. -/
structure Fields where
  command : Option String
  options : List (String × String)
  inline : Bool
deriving DecidableEq, Repr, Inhabited

/-- Adds an option with its value. -/
def Fields.set? (fields : Fields) (name value : String) : Option Fields :=
  if name ∉ ["config", "query", "schema", "dialect"] then none
  else if (fields.options.lookup name).isSome then none
  else if fields.command.isNone ∧ name ≠ "config" then none
  else some { fields with options := fields.options ++ [(name, value)] }

/-- Reads arguments in order. -/
def collect : Fields → List String → Option Fields
  | fields, [] => some fields
  | fields, argument :: arguments =>
    match Argument.of argument with
    | .word text =>
      match fields.command with
      | none => collect { fields with command := some text } arguments
      | some _ => none
    | .option "inline" none =>
      if fields.command.isSome ∧ !fields.inline then collect { fields with inline := true } arguments
      else none
    | .option name (some value) => (fields.set? name value).bind fun fields => collect fields arguments
    | .option name none =>
      match arguments with
      | [] => none
      | value :: arguments =>
        match Argument.of value with
        | .word value => (fields.set? name value).bind fun fields => collect fields arguments
        | .option _ _ => none

/-- The dialect that an option names. -/
def dialectOption? (name : String) : Option Dialect := Dialect.all.find? fun d => d.name == name

/-- The invocation of arguments. -/
def Invocation.ofArguments? (arguments : List String) : Option Invocation := do
  let fields ← collect ⟨none, [], false⟩ arguments
  let option (name : String) : Option String := fields.options.lookup name
  match ← fields.command with
  | "compile" =>
    let query ← option "query"
    let dialect ← match option "dialect" with
      | none => some none
      | some name => (dialectOption? name).map some
    return ⟨option "config", .compile query (option "schema") dialect fields.inline⟩
  | "check" =>
    if (option "query").isSome ∨ (option "dialect").isSome ∨ fields.inline then none
    else return ⟨option "config", .check (option "schema")⟩
  | _ => none

/-- What is shown for arguments that make no invocation. -/
def usage : String :=
  "usage: [--config FILE] compile --query FILE|- [--schema FILE] [--dialect NAME] [--inline]\n"
    ++ "       [--config FILE] check [--schema FILE]"

end RelQuery.CommandLine
