/-
# `ResourceTables.Application` — the host that carries a compiled schema

A host has named extensions of any type; the schema is one of them.
-/
import ResourceTables.Error
import ResourceTables.Roster
import ResourceTables.Schema

namespace ResourceTables

/-- What a host can carry under a name. -/
inductive Extension where
  | schema (schema : Schema)
  | text (text : String)
  | number (number : Int)

/-- The extensions of a host. -/
abbrev Extensions := Roster Extension

namespace Extensions

/-- The text under a name, if there is one. -/
def text? (extensions : Extensions) (name : String) : Option String :=
  match extensions.get? name with
  | some (.text text) => some text
  | _ => none

/-- The number under a name, if there is one. -/
def number? (extensions : Extensions) (name : String) : Option Int :=
  match extensions.get? name with
  | some (.number number) => some number
  | _ => none

/-- The schema under a name, if there is one. -/
def schema? (extensions : Extensions) (name : String) : Option Schema :=
  match extensions.get? name with
  | some (.schema schema) => some schema
  | _ => none

/-- The names that are taken, sorted. -/
def sortedNames (extensions : Extensions) : List String :=
  extensions.names.mergeSort fun a b => a ≤ b

end Extensions

/-- A host application. -/
structure Application where
  name : String
  extensions : Extensions := .empty

namespace Application

/-- The name under which a host carries its schema. -/
def schemaName : String := "ember"

/-- The schema that a host carries. -/
def schema (app : Application) : Except Error Schema :=
  match app.extensions.schema? schemaName with
  | some schema => .ok schema
  | none => .error .notInitialized

end Application

end ResourceTables
