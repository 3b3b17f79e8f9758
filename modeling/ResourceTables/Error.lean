/-
# `ResourceTables.Error` — what can be wrong with a declaration, and how it is said

Errors are causes; `Error.message` is the one place that words them.
-/
namespace ResourceTables

/-- Why a declaration, a generation or the reading of declarations failed. -/
inductive Error where
  /-- A resource holds a property of that name already. -/
  | duplicateProperty (resource property : String)
  /-- A name refers to nothing that is declared. -/
  | unresolvedTarget (target : String)
  /-- A key has to be copied from a table that has none. -/
  | missingPrimaryKey (table context : String)
  /-- A name refers to a resource without a table. -/
  | abstractTarget (target : String)
  /-- The chain of parents loops or leaves the declared resources. -/
  | brokenHierarchy (resource reason : String)
  /-- The sides of a relationship do not agree on who hosts the key. -/
  | invalidPrimarySide (resource relationship reason : String)
  /-- The sides of a relationship do not name each other. -/
  | invalidInverse (resource relationship inverse reason : String)
  /-- A name is no identifier. -/
  | invalidIdentifier (kind name : String)
  | unknownPhase (phase : String)
  | unknownGenerator (name : String)
  /-- An application carries no compiled schema. -/
  | notInitialized
  | declarationsUnread (detail : String)
  | declarationsUnparsed (detail : String)
  | invalidDeclarations (message : String)
  deriving DecidableEq

namespace Error

/-- The wording of an error. -/
def message : Error → String
  | duplicateProperty resource property =>
    s!"Property '{property}' already exists in resource '{resource}'."
  | unresolvedTarget target => s!"Couldn't resolve target: '{target}'"
  | missingPrimaryKey table context =>
    s!"No primary key found in table '{table}'\n  Context: {context}"
  | abstractTarget target => s!"Target '{target}' is abstract and has no table to reference"
  | brokenHierarchy resource reason =>
    s!"Cannot walk the inheritance chain of resource '{resource}': {reason}"
  | invalidPrimarySide resource relationship reason =>
    s!"Invalid primary side for relationship '{resource}.{relationship}': {reason}"
  | invalidInverse resource relationship inverse reason =>
    s!"Invalid inverse '{inverse}' for relationship '{resource}.{relationship}': {reason}"
  | invalidIdentifier kind name => s!"Invalid {kind} name '{name}': expected [A-Za-z_][A-Za-z0-9_]*"
  | unknownPhase phase => s!"Unknown build phase '{phase}'"
  | unknownGenerator name => s!"Unknown table name generator '{name}'"
  | notInitialized =>
    "The ember extension was not registered to the application. Call init_app first."
  | declarationsUnread detail => s!"Failed to read resource declarations: {detail}"
  | declarationsUnparsed detail => s!"Failed to parse resource declarations: {detail}"
  | invalidDeclarations message => s!"Invalid resource declarations: {message}"

/-- A target that nothing is declared for, and where it was named. -/
def unresolvedTargetIn (target context : String) : Error :=
  .unresolvedTarget s!"{target}\n  Context: {context}"

/-- Whether an error concerns the pairing of relationships with their targets. -/
def isResolution : Error → Bool
  | unresolvedTarget _ | invalidInverse .. | invalidPrimarySide .. => true
  | _ => false

end Error

end ResourceTables
