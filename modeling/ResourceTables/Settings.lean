/-
# `ResourceTables.Settings` — what a compilation can be told
-/
import ResourceTables.Naming
import ResourceTables.Text.Quoted

namespace ResourceTables

/-- The settings of a compiler. -/
structure Settings where
  /-- The base that every model lists after its mixins. -/
  modelBase : String := "Model"
  /-- The database schema that table names are qualified with. -/
  schema : Option String := none
  /-- Whether resources without a primary key are given one. -/
  autoPrimaryKey : Bool := true
  primaryKeyColumn : String := "id"
  /-- The name of the generator for tables that are not named otherwise. -/
  generatorName : String := Naming.defaultGeneratorName
  deriving DecidableEq

/-- A setting with a value that it cannot have. -/
structure SettingIssue where
  field : String
  code : String
  message : String
  deriving DecidableEq

/-- Why settings were not accepted. -/
inductive SettingsError where
  /-- A variable of the environment is no text. -/
  | environment (bytes : List UInt8)
  /-- A value, or a file of values, cannot be read. -/
  | unreadable (field value reason : String)
  /-- Some settings have values that they cannot have. -/
  | invalid (issues : List SettingIssue)
  deriving DecidableEq

/-- An issue in words. -/
def SettingIssue.text (issue : SettingIssue) : String := s!"{issue.field}: {issue.message}"

namespace SettingsError

/-- The wording of an error. -/
def message : SettingsError → String
  | environment bytes =>
    "Environment variable error: environment variable was not valid unicode: "
      ++ Text.quotedBytes bytes
  | unreadable field value reason => s!"Parse error for {field}: {value} - {reason}"
  | invalid issues => "Validation error: " ++ "\n".intercalate (issues.map (·.text))

end SettingsError

namespace Settings

/-- What is wrong with the settings, sorted by field. -/
def issues (s : Settings) : List SettingIssue :=
  let empty (field : String) (value : String) (message : String) : List SettingIssue :=
    if value.isEmpty then [⟨field, "length", message⟩] else []
  empty "model_base" s.modelBase "Model base cannot be empty"
    ++ empty "primary_key_column" s.primaryKeyColumn "Primary key column cannot be empty"
    ++ (match s.schema with
        | some schema => empty "schema" schema "Schema cannot be empty when set"
        | none => [])
    ++ (if Naming.isKnownGenerator s.generatorName then []
        else [⟨"tablename_generator", "unknown_tablename_generator",
          s!"Unknown table name generator '{s.generatorName}'"⟩])

/-- Accepts settings without issues. -/
def validate (s : Settings) : Except SettingsError Settings :=
  match s.issues with
  | [] => .ok s
  | issues => .error (.invalid issues)

/-! ## From the environment -/

/-- The environment: the bytes of a variable, if it is set. -/
abbrev Environment := String → Option (List UInt8)

/-- The text of a variable, if it is set. -/
def textIn (environment : Environment) (name : String) :
    Except SettingsError (Option String) :=
  match environment name with
  | none => .ok none
  | some bytes =>
    match Text.text? bytes with
    | some text => .ok (some text)
    | none => .error (.environment bytes)

/-- The truth value in a variable; an unset one means yes. -/
def flagVariable (environment : Environment) (name : String) : Except SettingsError Bool := do
  match (← textIn environment name).getD "true" with
  | "true" => return true
  | "false" => return false
  | value =>
    throw (.unreadable name value "provided string was not `true` or `false`")

/-- The settings in the environment; a variable that is not set leaves its default. -/
def ofEnvironment (environment : Environment) : Except SettingsError Settings := do
  let defaults : Settings := {}
  let modelBase ← textIn environment "EMBER_MODEL_BASE"
  let schema ← textIn environment "EMBER_SCHEMA"
  let autoPrimaryKey ← flagVariable environment "EMBER_AUTO_PRIMARY_KEY"
  let primaryKeyColumn ← textIn environment "EMBER_PRIMARY_KEY_COLUMN"
  let generatorName ← textIn environment "EMBER_TABLENAME_GENERATOR"
  validate
    { modelBase := modelBase.getD defaults.modelBase
      schema := schema
      autoPrimaryKey := autoPrimaryKey
      primaryKeyColumn := primaryKeyColumn.getD defaults.primaryKeyColumn
      generatorName := generatorName.getD defaults.generatorName }

end Settings

end ResourceTables
