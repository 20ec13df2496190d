/-
Module: RelQuery.CommandLine.Run
Purpose: Running an invocation on a host, which has files, variables and an input. The first thing that
  fails is reported: settings, table definitions, dialect, request, statement.
Main exports: FileContent, Host, CommandError, run
-/
import RelQuery.CommandLine.Arguments
import RelQuery.Settings.Basic
import RelQuery.Schema.Toml
import RelQuery.Select.Request
import RelQuery.Select.Build
import RelQuery.Json.Printer

namespace RelQuery.CommandLine

open Sql

/-- What a path leads to. -/
inductive FileContent where
  | absent
  | text (content : String)
  | unreadable (reason : String)
deriving DecidableEq, Repr, Inhabited

/-- What an invocation runs on. -/
structure Host (m : Type → Type) where
  environment : String → m (Option String)
  file : String → m FileContent
  input : m String

/-- What is reported when an invocation fails. -/
inductive CommandError where
  | settings (error : SettingsError)
  | noSchema
  | schema (path : String) (error : SchemaError)
  | requestFile (path reason : String)
  | request (error : QueryError)
  | statement (error : QueryError)
deriving DecidableEq, Repr, Inhabited

/-- The message of a report. -/
def CommandError.message : CommandError → String
  | .settings error => "Config error: " ++ error.message
  | .noSchema => "No schema given: pass --schema or set schema.path"
  | .schema path error => "Schema error in '" ++ path ++ "': " ++ error.message
  | .requestFile path reason => "Error reading file '" ++ path ++ "': " ++ reason
  | .request error => "Query error: " ++ error.message
  | .statement error => "Compilation error: " ++ error.message

/-- Why a file cannot be read that does not exist. -/
def absentReason : String := "No such file or directory (os error 2)"

/-! ### What depends on file contents only -/

/-- The settings in a file. -/
def settingsOfFile (path : String) : FileContent → Except CommandError Settings
  | .absent => .error (.settings (.fileNotFound path))
  | .unreadable reason => .error (.settings (.unreadable reason))
  | .text content => (Settings.ofToml content).mapError .settings

/-- The tables in a file. -/
def registryOfFile (path : String) : FileContent → Except CommandError Registry
  | .absent => .error (.schema path (.fileNotFound path))
  | .unreadable reason => .error (.schema path (.unreadable reason))
  | .text content => (Registry.ofToml content).mapError (.schema path)

/-- The request in a file. -/
def requestOfFile (path : String) : FileContent → Except CommandError String
  | .absent => .error (.requestFile path absentReason)
  | .unreadable reason => .error (.requestFile path reason)
  | .text content => .ok content

/-- The statement of a request: with its parameters in place, or with placeholders and a comment that
    lists the parameters. -/
def compileText (registry : Registry) (dialect : Dialect) (inline : Bool) (request : String) :
    Except CommandError String := do
  let selection ← (do (← Request.ofText request).selection registry).mapError CommandError.request
  let tokens ← (do (← selection.build registry).query.render dialect).mapError CommandError.statement
  if inline then return inlineText dialect tokens ++ "\n"
  else
    let statement := Statement.ofTokens dialect tokens
    let params := Json.array (statement.params.map Literal.toJson)
    return statement.sql ++ "\n-- params: " ++ params.text ++ "\n"

/-- What is shown for tables that are in order. -/
def checkText (registry : Registry) : String :=
  let line (table : Table) : String :=
    "  - " ++ table.name ++ " (" ++ toString table.columns.length ++ " columns, "
      ++ toString table.relations.length ++ " relations)\n"
  "OK: " ++ toString registry.tables.length ++ " tables\n" ++ String.join (registry.tables.map line)

/-! ### Running -/

/-- The name under which settings are kept. -/
def settingsName : String := "relmap"

/-- The variable that holds the place of the settings. -/
def settingsVariable : String := Text.uppercase settingsName ++ "_CONFIG"

section

variable {m : Type → Type} [Monad m] (host : Host m)

/-- The directory for the settings of a user. One that is not absolute is passed over. -/
def userDirectory : m (Option String) := do
  let configured ← host.environment "XDG_CONFIG_HOME"
  match configured.filter fun path => path.startsWith "/" with
  | some path => return some path
  | none =>
    let home ← host.environment "HOME"
    return (home.filter fun path => !path.isEmpty).map fun path => path ++ "/.config"

/-- The settings in the directory of the user, if there are any. -/
def userSettings : m (Except CommandError Settings) := do
  match ← userDirectory host with
  | none => return .ok Settings.standard
  | some directory =>
    let path := directory ++ "/" ++ settingsName ++ "/config.toml"
    match ← host.file path with
    | .absent => return .ok Settings.standard
    | content => return settingsOfFile path content

/-- The settings: from the given file, else from the one that a variable names, else from the working
    directory, else from the directory of the user. -/
def findSettings (config : Option String) : m (Except CommandError Settings) := do
  let named ← host.environment settingsVariable
  match config.or named with
  | some path => return settingsOfFile path (← host.file path)
  | none =>
    let path := settingsName ++ ".toml"
    match ← host.file path with
    | .absent => userSettings host
    | content => return settingsOfFile path content

/-- The place of the table definitions: the given one, else the configured one. -/
def findSchemaPath (settings : Settings) (schema : Option String) : m (Except CommandError String) := do
  match schema with
  | some path => return .ok path
  | none =>
    let names := (settings.schemaPath.map Template.references).getD []
    let values ← names.mapM fun name => do return (name, ← host.environment name)
    match settings.expandedSchemaPath fun name => (values.lookup name).join with
    | .error error => return .error (.settings error)
    | .ok none => return .error .noSchema
    | .ok (some path) => return .ok path

/-- The tables. -/
def findRegistry (settings : Settings) (schema : Option String) : ExceptT CommandError m Registry := do
  let path ← ExceptT.mk (findSchemaPath host settings schema)
  registryOfFile path (← host.file path)

/-- The text of a request, from a file or from the input. -/
def findRequest (path : String) : ExceptT CommandError m String := do
  if path = "-" then host.input else requestOfFile path (← host.file path)

/-- Runs an invocation. -/
def run (invocation : Invocation) : ExceptT CommandError m String := do
  let settings ← ExceptT.mk (findSettings host invocation.config)
  match invocation.command with
  | .check schema => return checkText (← findRegistry host settings schema)
  | .compile query schema dialect inline =>
    let registry ← findRegistry host settings schema
    let dialect ← match dialect with
      | some dialect => pure dialect
      | none => settings.dialect.mapError CommandError.settings
    compileText registry dialect inline (← findRequest host query)

end

end RelQuery.CommandLine
