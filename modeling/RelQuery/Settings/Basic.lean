/-
Module: RelQuery.Settings.Basic
Purpose: Settings: the default dialect, the bounds of pages and the place of the table definitions. They are
  read from TOML, where all of them may be left out.
Main exports: Settings, SettingsError, Settings.standard, Settings.ofToml, Settings.expandedSchemaPath
-/
import RelQuery.Settings.Template
import RelQuery.Page
import RelQuery.Sql.Dialect
import RelQuery.Toml.Reader
import RelQuery.Toml.Record

namespace RelQuery

open Toml (asString? asUnsigned? fields? withDefault)

/-- What can be wrong with settings. -/
inductive SettingsError where
  | fileNotFound (path : String)
  | unreadable (reason : String)
  | malformed
  | missingVariable (name : String)
  | unsupportedDialect (name : String)
  | noPageSize
deriving DecidableEq, Repr, Inhabited

/-- The message of an error in settings. -/
def SettingsError.message : SettingsError → String
  | .fileNotFound path => "Config file not found: " ++ path
  | .unreadable reason => "Failed to read config file: " ++ reason
  | .malformed => "Failed to parse config file: not a table of settings"
  | .missingVariable name => "Missing environment variable: " ++ name
  | .unsupportedDialect name => "Unsupported dialect: " ++ name
  | .noPageSize => "Invalid configuration: pagination.max_page_size must be at least 1"

/-- Settings. The dialect is kept as it was written. -/
structure Settings where
  dialectName : String
  bounds : PageBounds
  /-- Where the table definitions are, as a template over the environment. -/
  schemaPath : Option String
deriving DecidableEq, Repr, Inhabited

namespace Settings

/-- The settings that hold where nothing is configured. -/
def standard : Settings := ⟨"postgres", PageBounds.standard, none⟩

/-- The dialect that is named. -/
def dialect (settings : Settings) : Except SettingsError Sql.Dialect :=
  match Sql.Dialect.parse settings.dialectName with
  | .ok dialect => .ok dialect
  | .error _ => .error (.unsupportedDialect settings.dialectName)

/-- The bounds of pages. -/
def boundsOfToml? (value : Toml) : Option PageBounds := do
  let fields ← fields? ["default_page_size", "max_page_size"] value
  let default ← withDefault fields "default_page_size" standard.bounds.defaultSize asUnsigned?
  let max ← withDefault fields "max_page_size" standard.bounds.maxSize asUnsigned?
  return ⟨default, max⟩

/-- The place of the table definitions. -/
def schemaPathOfToml? (value : Toml) : Option (Option String) := do
  let fields ← fields? ["path"] value
  withDefault fields "path" none fun v => some <$> asString? v

/-- The settings of a text, unchecked. -/
def ofText? (text : String) : Option Settings := do
  let members ← Toml.ofText? text
  let dialectName ← withDefault members "dialect" standard.dialectName asString?
  let bounds ← withDefault members "pagination" standard.bounds boundsOfToml?
  let schemaPath ← withDefault members "schema" none schemaPathOfToml?
  return ⟨dialectName, bounds, schemaPath⟩

/-- Checks that the dialect exists and that pages may hold something. -/
def validate (settings : Settings) : Except SettingsError Unit := do
  let _ ← settings.dialect
  if settings.bounds.maxSize = 0 then throw .noPageSize

/-- The settings of a text. -/
def ofToml (text : String) : Except SettingsError Settings :=
  match ofText? text with
  | none => .error .malformed
  | some settings => do
    settings.validate
    return settings

/-- The place of the table definitions in an environment. -/
def expandedSchemaPath (settings : Settings) (environment : String → Option String) :
    Except SettingsError (Option String) :=
  match settings.schemaPath with
  | none => .ok none
  | some template =>
    match Template.expand environment template with
    | .ok path => .ok (some path)
    | .error name => .error (.missingVariable name)

end Settings

end RelQuery
