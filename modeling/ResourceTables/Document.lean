/-
# `ResourceTables.Document` — reading values from a document, whatever it is written in

A `Dialect` says what the nodes of one kind of document can be read as.  The readers of
declarations and settings are written once, over any dialect.
-/
namespace ResourceTables

/-- A reading step; it may fail, and so it does when it follows more references than it may.  Its
state is the number of those that are left. -/
abbrev Decode := StateT Nat Option

namespace Decode

variable {α : Type}

/-- The step that fails. -/
def fail : Decode α := fun _ => none

/-- The step that gives a value that is already read, and fails where there is none. -/
def ofOption : Option α → Decode α
  | some a => pure a
  | none => fail

/-- The step that uses up one reference. -/
def useReference : Decode Unit
  | 0 => none
  | left + 1 => some ((), left)

/-- The value that a reading gives if it follows at most `limit` references. -/
def run? (limit : Nat) (step : Decode α) : Option α := (step limit).map (·.1)

end Decode

/-- The known parts of a composite node. -/
structure Members (ν : Type) where
  values : List (String × ν)
  /-- The parts are given by their order and not by name. -/
  positional : Bool

/-- What the nodes of a document can be read as. -/
structure Dialect (ν : Type) where
  text : ν → Decode String
  flag : ν → Decode Bool
  natural : ν → Decode Nat
  /-- The node of a place that may be left empty. -/
  possible : ν → Decode (Option ν)
  items : ν → Decode (List ν)
  /-- The parts with one of the given names; no name may occur twice. -/
  members : List String → ν → Decode (Members ν)
  /-- One of the given words, as the case of an enumeration. -/
  word : List String → ν → Decode String

namespace Dialect

variable {ν α : Type}

/-- A part that has to be there. -/
def required (parts : Members ν) (name : String) (read : ν → Decode α) : Decode α :=
  match parts.values.lookup name with
  | some node => read node
  | none => Decode.fail

/-- A part with a value for its absence. -/
def orElse (parts : Members ν) (name : String) (absent : α) (read : ν → Decode α) : Decode α :=
  match parts.values.lookup name with
  | some node => read node
  | none => pure absent

/-- A node that may be left empty. -/
def maybe (d : Dialect ν) (read : ν → Decode α) (node : ν) : Decode (Option α) := do
  match ← d.possible node with
  | some inner => return some (← read inner)
  | none => return none

/-- A part that may be absent or left empty. -/
def optional (d : Dialect ν) (parts : Members ν) (name : String) (read : ν → Decode α) :
    Decode (Option α) :=
  orElse parts name none (d.maybe read)

/-- A part that may be left empty, and absent where parts are given by name. -/
def nullable (d : Dialect ν) (parts : Members ν) (name : String) (read : ν → Decode α) :
    Decode (Option α) :=
  if parts.positional then required parts name (d.maybe read) else d.optional parts name read

/-- Reads every node of a list. -/
def each (read : ν → Decode α) : List ν → Decode (List α)
  | [] => pure []
  | node :: rest => do
    let first ← read node
    return first :: (← each read rest)

/-- A list whose items are all read the same way. -/
def list (d : Dialect ν) (read : ν → Decode α) (node : ν) : Decode (List α) := do
  each read (← d.items node)

/-- A word that stands for a value. -/
def choice (d : Dialect ν) (words : List (String × α)) (node : ν) : Decode α := do
  Decode.ofOption (words.lookup (← d.word (words.map (·.1)) node))

end Dialect

end ResourceTables
