/-
# `ResourceTables.Source` — declarations and settings in YAML texts and files
-/
import ResourceTables.Yaml.Reading

namespace ResourceTables

/-- Why a path leads to no bytes. -/
inductive PathFault where
  | missing
  | denied
  /-- What would have to be a directory is none. -/
  | notDirectory
  /-- The path ends at a directory. -/
  | isDirectory
  | nameTooLong
  | other (reason : String)

/-- The wording of a fault, with its number. -/
def PathFault.message : PathFault → String
  | missing => "No such file or directory (os error 2)"
  | denied => "Permission denied (os error 13)"
  | notDirectory => "Not a directory (os error 20)"
  | isDirectory => "Is a directory (os error 21)"
  | nameTooLong => "File name too long (os error 36)"
  | other reason => reason

/-- The bytes of a file, or the reason why there are none. -/
abbrev FileContent := Except PathFault (List UInt8)

/-- The text of a file. -/
def FileContent.text (content : FileContent) : Except String String := do
  match Text.text? (← content.mapError PathFault.message) with
  | some text => return text
  | none => throw "stream did not contain valid UTF-8"

/-- The declarations in a YAML text. -/
def Declarations.ofYaml (text : String) : Except Error Declarations :=
  match Yaml.decode? Declarations.decode text with
  | some declarations => .ok declarations
  | none => .error (.declarationsUnparsed "the text does not declare resources")

/-- The declarations in a YAML file. -/
def Declarations.ofFile (content : FileContent) : Except Error Declarations :=
  match content.text with
  | .ok text => ofYaml text
  | .error reason => .error (.declarationsUnread reason)

/-- The settings in a YAML file; what is absent keeps its default. -/
def Settings.ofFile (content : FileContent) : Except SettingsError Settings := do
  match content.text with
  | .ok text =>
    match Yaml.decode? Settings.decode text with
    | some settings => settings.validate
    | none => throw (.unreadable "yaml_content" text "the text does not hold settings")
  | .error reason => throw (.unreadable "yaml_file" "file read failed" reason)

end ResourceTables
