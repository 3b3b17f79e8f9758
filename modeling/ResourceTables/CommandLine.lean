/-
# `ResourceTables.CommandLine` — what the arguments of the program ask for, and what it reports

Arguments are read in order, and the first one that is wrong or asks for help decides.
-/
import ResourceTables.Compiler
import ResourceTables.Source

namespace ResourceTables

/-- The form of the compiled schema. -/
inductive OutputFormat where
  | json
  | sql
  deriving DecidableEq

/-- The words for the forms. -/
def OutputFormat.words : List (String × OutputFormat) := [("json", json), ("sql", sql)]

/-- A schema in one of the forms. -/
def OutputFormat.text (format : OutputFormat) (schema : Schema) : String :=
  match format with
  | json => schema.jsonText
  | sql => schema.sql

namespace CommandLine

/-! ## Options -/

/-- An option with a value, or one that stands alone. -/
structure CommandOption where
  name : String
  /-- What the value is called; none if the option stands alone. -/
  value : Option String := none
  description : String
  /-- Whether the value is one that the option can have. -/
  accepts : String → Bool := fun _ => true

/-- The options of the program. -/
def options : List CommandOption := [
    { name := "schema", value := "SCHEMA", accepts := (!·.isEmpty)
      description := "YAML file with resource declarations" },
    { name := "format", value := "FORMAT"
      accepts := (OutputFormat.words.lookup · |>.isSome)
      description :=
        "Output format of the compiled schema [default: sql] [possible values: json, sql]" },
    { name := "model-base", value := "MODEL_BASE"
      description := "Common base recorded on every generated model [default: Model]" },
    { name := "db-schema", value := "DB_SCHEMA"
      description := "Database schema used to qualify table names" },
    { name := "no-auto-primary-key"
      description := "Do not add an \x60id\x60 primary key to resources that declare none" },
    { name := "primary-key-column", value := "PRIMARY_KEY_COLUMN"
      description := "Column name of automatically added primary keys [default: id]" },
    { name := "tablename-generator", value := "TABLENAME_GENERATOR"
      description := "Default table name generator (snake_case, lower_case, upper_snake_case, "
        ++ "identity) [default: snake_case]" }]

/-- The option of a name. -/
def option? (name : String) : Option CommandOption := options.find? (·.name == name)

/-! ## Arguments -/

/-- An argument by its form. -/
inductive Argument where
  /-- Two dashes and a name, with a value if there is an equals sign. -/
  | long (name : String) (value : Option String)
  /-- One dash and some letters. -/
  | short (first : Char)
  /-- Two dashes alone. -/
  | dashes
  | plain

/-- The form of an argument; a dash alone is plain. -/
def Argument.ofText (text : String) : Argument :=
  match text.toList with
  | ['-', '-'] => dashes
  | '-' :: '-' :: chars =>
    let name := String.ofList (chars.takeWhile (· != '='))
    match chars.dropWhile (· != '=') with
    | [] => long name none
    | _ :: value => long name (some (String.ofList value))
  | '-' :: first :: _ => short first
  | _ => plain

/-- Whether an argument can be a value. -/
def isPlain (text : String) : Bool :=
  match Argument.ofText text with
  | .plain => true
  | _ => false

/-- Options with their values. -/
abbrev Given := List (String × String)

/-- What the program is asked for. -/
inductive Request where
  | compile (given : Given) (path : String)
  | help
  | version
  /-- The arguments make no sense. -/
  | misuse

/-- The request of options that are complete. -/
def Request.ofGiven (given : Given) : Request :=
  match given.lookup "schema" with
  | some path => .compile given path
  | none => .misuse

/-- Adds an option with its value; no option may be given twice. -/
def give (given : Given) (option : CommandOption) (value : String) : Option Given :=
  if (given.lookup option.name).isSome || !option.accepts value then none
  else some ((option.name, value) :: given)

/-- The value of an option, and the arguments after it. -/
def valueOf? (option : CommandOption) (attached : Option String) (rest : List String) :
    Option (String × List String) :=
  match option.value, attached, rest with
  | none, none, rest => some ("", rest)
  | some _, some value, rest => some (value, rest)
  | some _, none, value :: rest => if isPlain value then some (value, rest) else none
  | _, _, _ => none

theorem length_le_of_valueOf? {option : CommandOption} {attached : Option String}
    {rest others : List String} {value : String}
    (h : valueOf? option attached rest = some (value, others)) :
    others.length ≤ rest.length := by
  unfold valueOf? at h
  split at h
  · simp_all
  · simp_all
  · split at h <;> simp_all
  · simp at h

/-- What the arguments ask for, after options that are given already. -/
def request (given : Given) : List String → Request
  | [] => .ofGiven given
  | arg :: rest =>
    match Argument.ofText arg with
    | .long "help" none | .short 'h' => .help
    | .long "version" none | .short 'V' => .version
    | .dashes => if rest.isEmpty then .ofGiven given else .misuse
    | .long name attached =>
      match option? name with
      | none => .misuse
      | some option =>
        match _h : valueOf? option attached rest with
        | none => .misuse
        | some (value, others) =>
          match give given option value with
          | none => .misuse
          | some given => request given others
    | .short _ | .plain => .misuse
termination_by args => args.length
decreasing_by
  have := length_le_of_valueOf? _h
  simp only [List.length_cons]
  omega

/-- The settings that the options ask for. -/
def settings (given : Given) : Settings :=
  let defaults : Settings := {}
  { modelBase := (given.lookup "model-base").getD defaults.modelBase
    schema := given.lookup "db-schema"
    autoPrimaryKey := (given.lookup "no-auto-primary-key").isNone
    primaryKeyColumn := (given.lookup "primary-key-column").getD defaults.primaryKeyColumn
    generatorName := (given.lookup "tablename-generator").getD defaults.generatorName }

/-- The form that the options ask for. -/
def format (given : Given) : OutputFormat :=
  ((given.lookup "format").bind fun word => OutputFormat.words.lookup word).getD .sql

/-! ## Reports -/

/-- What a run prints, and how it ends. -/
structure Report where
  code : UInt8
  output : String := ""
  complaint : String := ""
  notes : List Note := []

/-- The lines of a text, all but the first moved to the right. -/
def indentLines (columns : Nat) (text : String) : String :=
  ("\n" ++ String.ofList (List.replicate columns ' ')).intercalate (text.splitOn "\n")

/-- A failure with its causes, the nearest first; more than one are numbered. -/
def complaint (context : String) (causes : List String) : String :=
  let shown := match causes with
    | [cause] => ["    " ++ indentLines 4 cause]
    | causes => causes.zipIdx.map fun (cause, i) => s!"    {i}: " ++ indentLines 7 cause
  s!"Error: {context}\n\nCaused by:\n" ++ "\n".intercalate shown ++ "\n"

/-- The report of a failure. -/
def failed (context : String) (causes : List String) (notes : List Note) : Report :=
  { code := 1, complaint := complaint context causes, notes }

/-- The causes of refused settings: the error, and the issues that it lists. -/
def settingsCauses : SettingsError → List String
  | .invalid issues =>
    [SettingsError.message (.invalid issues), "\n".intercalate (issues.map (·.text))]
  | error => [error.message]

/-- The name of the program. -/
def programName : String := "ember"

/-- The text about the program and its options. -/
def helpText : String :=
  let line (o : CommandOption) : String :=
    let value := match o.value with
      | some name => s!" <{name}>"
      | none => ""
    s!"      --{o.name}{value}\n          {o.description}\n"
  "Ember - compile resource declarations into relational table models\n\n"
    ++ s!"Usage: {programName} [OPTIONS] --schema <SCHEMA>\n\nOptions:\n"
    ++ String.join (options.map line)
    ++ "  -h, --help\n          Print help\n  -V, --version\n          Print version\n"

/-- The report on a request to compile. -/
def compile (given : Given) (path : String) (content : FileContent) : Report :=
  match (settings given).validate with
  | .error e => failed "Invalid compiler configuration" (settingsCauses e) []
  | .ok settings =>
    match Declarations.ofFile content with
    | .error e => failed s!"Failed to load {path}" [e.message] []
    | .ok declarations =>
      let declared := Compiler.declareAll 0 declarations (Compiler.new settings)
      match declared.result with
      | .error e => failed "Failed to declare resources" [e.message] declared.notes
      | .ok _ =>
        let host : Application := { name := declarations.name.getD programName }
        let compiled := Compiler.initApp (declared.state, host)
        let notes := declared.notes ++ compiled.notes
        match compiled.result with
        | .error e => failed "Failed to compile resources" [e.message] notes
        | .ok schema => { code := 0, output := (format given).text schema ++ "\n", notes }

/-- The report on a request, given what files hold. -/
def Request.report (contentOf : String → FileContent) : Request → Report
  | compile given path => CommandLine.compile given path (contentOf path)
  | help => { code := 0, output := helpText }
  | version => { code := 0, output := s!"{programName} 0.3.0-dev\n" }
  | misuse =>
    { code := 2
      complaint :=
        s!"error: the arguments make no sense\n\nUsage: {programName} [OPTIONS] --schema <SCHEMA>\n" }

end CommandLine

end ResourceTables
