/-
# `ResourceTables.Json.Reading` — what JSON documents can be read as

Composite values come as objects, or as arrays of their parts in order.  A case of an
enumeration comes as a word, or as an object from the word to what the case takes.
-/
import ResourceTables.Decoding

namespace ResourceTables

namespace Json

/-- A text. -/
def readText : Json → Decode String
  | string text => pure text
  | _ => Decode.fail

/-- A truth value. -/
def readFlag : Json → Decode Bool
  | bool value => pure value
  | _ => Decode.fail

/-- A whole number of 32 bits. -/
def readNatural : Json → Decode Nat
  | number mantissa 0 =>
    if 0 ≤ mantissa && mantissa.toNat < UInt32.size then pure mantissa.toNat else Decode.fail
  | _ => Decode.fail

/-- Anything but `null`. -/
def readPossible : Json → Decode (Option Json)
  | null => pure none
  | value => pure (some value)

/-- The items of an array. -/
def readItems : Json → Decode (List Json)
  | array items => pure items
  | _ => Decode.fail

/-- The known parts of an object, or of an array that has no more items than there are parts. -/
def readMembers (names : List String) : Json → Decode (Members Json)
  | object members => pure ⟨members.filter (names.contains ·.1), false⟩
  | array items =>
    if items.length ≤ names.length then pure ⟨names.zip items, true⟩ else Decode.fail
  | _ => Decode.fail

/-- A case of an enumeration: its word, and what it takes if anything is given. -/
def readCase : Json → Decode (String × Option Json)
  | string word => pure (word, none)
  | object [(word, payload)] => pure (word, some payload)
  | _ => Decode.fail

/-- A case that takes nothing. -/
def readWord (words : List String) (node : Json) : Decode String := do
  match ← readCase node with
  | (word, none) | (word, some null) => if words.contains word then pure word else Decode.fail
  | _ => Decode.fail

/-- JSON as a dialect. -/
def dialect : Dialect Json :=
  { text := readText, flag := readFlag, natural := readNatural, possible := readPossible,
    items := readItems, members := readMembers, word := readWord }

/-- What a reading gives for a document. -/
def decode? {α : Type} (read : Json → Decode α) (document : Json) : Option α :=
  (read document).run? 0

end Json

open Dialect (required orElse)

/-- The storage types that take nothing. -/
def StorageType.words : List (String × StorageType) :=
  [("Integer", integer), ("BigInteger", bigInteger), ("SmallInteger", smallInteger),
    ("Float", float), ("Text", text), ("Boolean", boolean), ("Date", date),
    ("DateTime", dateTime), ("Binary", binary)]

/-- Reads a storage type; the parts of a numeric type have to be named. -/
def StorageType.ofJson (node : Json) : Decode StorageType := do
  match ← Json.readCase node with
  | ("Numeric", some (.object payload)) =>
    let parts ← Json.readMembers ["precision", "scale"] (.object payload)
    return .numeric (← required parts "precision" Json.readNatural)
      (← required parts "scale" Json.readNatural)
  | ("String", some payload) => return .string (← Json.dialect.maybe Json.readNatural payload)
  | ("Custom", some payload) => return .custom (← Json.readText payload)
  | _ => Json.dialect.choice words node

/-- Reads column options; what is absent keeps its default. -/
def ColumnOptions.ofJson (node : Json) : Decode ColumnOptions := do
  let parts ← Json.readMembers ["primary_key", "nullable", "unique", "index", "default"] node
  return {
    primaryKey := ← orElse parts "primary_key" false Json.readFlag
    nullable := ← Json.dialect.optional parts "nullable" Json.readFlag
    unique := ← orElse parts "unique" false Json.readFlag
    index := ← orElse parts "index" false Json.readFlag
    fallback := ← Json.dialect.optional parts "default" Json.readText }

/-- Reads a column. -/
def Column.ofJson (node : Json) : Decode Column := do
  let parts ← Json.readMembers ["name", "sql_type", "options"] node
  return {
    name := ← required parts "name" Json.readText
    type := ← required parts "sql_type" StorageType.ofJson
    options := ← required parts "options" ColumnOptions.ofJson }

/-- Reads a foreign key. -/
def ForeignKey.ofJson (node : Json) : Decode ForeignKey := do
  let parts ← Json.readMembers
    ["name", "columns", "referred_table", "referred_columns", "on_update", "on_delete"] node
  let d := Json.dialect
  return {
    name := ← required parts "name" Json.readText
    columns := ← required parts "columns" (d.list Json.readText)
    referredTable := ← required parts "referred_table" Json.readText
    referredColumns := ← required parts "referred_columns" (d.list Json.readText)
    onUpdate := ← d.nullable parts "on_update" (KeyAction.decode d)
    onDelete := ← d.nullable parts "on_delete" (KeyAction.decode d) }

/-- Reads a table. -/
def Table.ofJson (node : Json) : Decode Table := do
  let parts ← Json.readMembers ["name", "schema", "columns", "constraints"] node
  let d := Json.dialect
  return {
    name := ← required parts "name" Json.readText
    schema := ← d.nullable parts "schema" Json.readText
    columns := ← required parts "columns" (d.list Column.ofJson)
    constraints := ← required parts "constraints" (d.list ForeignKey.ofJson) }

/-- Reads a join. -/
def JoinClause.ofJson (node : Json) : Decode JoinClause := do
  let parts ← Json.readMembers ["local", "remote"] node
  return {
    own := ← required parts "local" Json.readText
    remote := ← required parts "remote" Json.readText }

/-- Reads a way of loading; inside a property the word may lead to an empty object. -/
def Loading.ofJson (node : Json) : Decode Loading :=
  match node with
  | .object [(word, .object [])] => Json.dialect.choice Loading.words (.string word)
  | _ => Json.dialect.choice Loading.words node

/-- Reads the parts of a relation. -/
def Relation.ofJson (node : Json) : Decode Relation := do
  let parts ← Json.readMembers
    ["name", "target", "lazy", "use_list", "back_populates", "join_clauses"] node
  let d := Json.dialect
  return {
    name := ← required parts "name" Json.readText
    target := ← required parts "target" Json.readText
    loading := ← required parts "lazy" Loading.ofJson
    useList := ← required parts "use_list" Json.readFlag
    backPopulates := ← d.nullable parts "back_populates" Json.readText
    joinClauses := ← required parts "join_clauses" (d.list JoinClause.ofJson) }

/-- The kind of a property and the rest of its document. -/
def MappedProperty.kindOf? : Json → Option (Json × Json)
  | .object members =>
    (members.lookup "kind").map fun kind => (kind, .object (members.filter (·.1 != "kind")))
  | .array (kind :: rest) => some (kind, .array rest)
  | _ => none

/-- Reads a property of a model. -/
def MappedProperty.ofJson (node : Json) : Decode MappedProperty := do
  match kindOf? node with
  | some (.string "column", rest) =>
    let parts ← Json.readMembers ["name", "column"] rest
    return .column (← required parts "name" Json.readText)
      (← required parts "column" Json.readText)
  | some (.string "relation", rest) => return .relation (← Relation.ofJson rest)
  | _ => Decode.fail

end ResourceTables
