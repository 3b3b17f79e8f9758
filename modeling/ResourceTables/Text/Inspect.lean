/-
# `ResourceTables.Text.Inspect` — one-line texts that show a value with its parts
-/
import ResourceTables.Text.Quoted

namespace ResourceTables.Text

/-- A named value with its parts in braces, each after its name and a colon. -/
def record (name : String) (parts : List (String × String)) : String :=
  let shown := parts.map fun (part, value) => part ++ ": " ++ value
  name ++ " \x7b " ++ ", ".intercalate shown ++ " \x7d"

/-- Texts in square brackets. -/
def listed (items : List String) : String := "[" ++ ", ".intercalate items ++ "]"

/-- A list of names, each between quotes. -/
def quotedNames (names : List String) : String := listed (names.map quoted)

/-- A value that may be missing. -/
def possible : Option String → String
  | none => "None"
  | some value => s!"Some({value})"

/-- A truth value. -/
def truth (b : Bool) : String := if b then "true" else "false"

end ResourceTables.Text
