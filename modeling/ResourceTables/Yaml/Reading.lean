/-
# `ResourceTables.Yaml.Reading` — what YAML documents can be read as

Plain scalars are texts, and also whatever else they look like.  A reference is followed when its
node is read; what no one reads is not followed.
-/
import ResourceTables.Decoding
import ResourceTables.Text.Utf8
import ResourceTables.Yaml.Node

namespace ResourceTables

namespace Yaml

/-- A tag of the core vocabulary. -/
def coreTag (name : String) : Uri := Uri.ofText s!"tag:yaml.org,2002:{name}"

/-- The plain scalars that mean nothing. -/
def nullWords : List String := ["null", "Null", "NULL", "~"]

/-- The plain scalars that are truth values. -/
def flagWords : List (String × Bool) :=
  [("true", true), ("True", true), ("TRUE", true),
    ("false", false), ("False", false), ("FALSE", false)]

/-- The number written with some digits of a radix. -/
def digits? (radix : Nat) : List Char → Option Nat
  | [] => none
  | chars => chars.foldlM (fun value c => do
      let digit ← hexDigit? c
      if digit < radix then return value * radix + digit else none) 0

/-- The number of an unsigned scalar.  Decimal digits do not begin with a zero. -/
def unsigned? : List Char → Option Nat
  | '0' :: 'x' :: digits => digits? 16 digits
  | '0' :: 'o' :: digits => digits? 8 digits
  | '0' :: 'b' :: digits => digits? 2 digits
  | ['0'] => some 0
  | '0' :: _ => none
  | digits => digits? 10 digits

/-- The number of a scalar. -/
def natural? (text : String) : Option Nat :=
  match text.toList with
  | '+' :: digits => unsigned? digits
  | digits => unsigned? digits

/-- The nodes that references can stand for, by number. -/
abbrev Anchors := Std.HashMap Nat Node

namespace Node

/-- The node itself, or the one that it stands for. -/
def follow (anchors : Anchors) : Node → Decode Node
  | reference number => do
    Decode.useReference
    Decode.ofOption anchors[number]?
  | node => pure node

/-- Whether a scalar is written so that it can be more than a text. -/
def isTyped (core : String) (tag : Option Uri) : Style → Bool
  | .plain => true
  | .literal => tag == some (coreTag core)
  | .other => false

/-- A text: any scalar. -/
def readText (anchors : Anchors) (node : Node) : Decode String := do
  match ← follow anchors node with
  | scalar _ _ _ text => return text
  | _ => Decode.fail

/-- A truth value. -/
def readFlag (anchors : Anchors) (node : Node) : Decode Bool := do
  match ← follow anchors node with
  | scalar _ tag style text =>
    if isTyped "bool" tag style then Decode.ofOption (flagWords.lookup text) else Decode.fail
  | _ => Decode.fail

/-- A whole number of 32 bits. -/
def readNatural (anchors : Anchors) (node : Node) : Decode Nat := do
  match ← follow anchors node with
  | scalar _ tag style text =>
    if isTyped "int" tag style then
      Decode.ofOption ((natural? text).filter (· < UInt32.size))
    else Decode.fail
  | _ => Decode.fail

/-- Anything but an empty or null plain scalar.  One with another tag than that of null is
something, and one with that tag has to be null. -/
def readPossible (anchors : Anchors) (node : Node) : Decode (Option Node) := do
  let node ← follow anchors node
  match node with
  | scalar _ none .plain text =>
    return if text.isEmpty || nullWords.contains text then none else some node
  | scalar _ (some tag) .plain text =>
    if tag == coreTag "null" then
      if nullWords.contains text then return none else Decode.fail
    else return some node
  | _ => return some node

/-- The items of a list; an empty plain scalar has none. -/
def readItems (anchors : Anchors) (node : Node) : Decode (List Node) := do
  match ← follow anchors node with
  | list _ items => return items
  | scalar _ _ .plain "" => return []
  | _ => Decode.fail

/-- The entries with known keys; every key has to be a text. -/
def knownEntries (anchors : Anchors) (names : List String) :
    List (Node × Node) → Decode (List (String × Node))
  | [] => return []
  | (key, value) :: rest => do
    let name ← readText anchors key
    let others ← knownEntries anchors names rest
    return if names.contains name then (name, value) :: others else others

/-- The known parts of a map, none of them given twice; an empty plain scalar has none. -/
def readMembers (anchors : Anchors) (names : List String) (node : Node) :
    Decode (Members Node) := do
  match ← follow anchors node with
  | map _ entries =>
    let values ← knownEntries anchors names entries
    if (values.map (·.1)).Nodup then return ⟨values, false⟩ else Decode.fail
  | scalar _ _ .plain "" => return ⟨[], false⟩
  | _ => Decode.fail

/-- The word in a tag: what follows its exclamation mark.  Other tags hold no word. -/
def tagWord? : Uri → Option String
  | 33 :: word => Text.text? word
  | _ => none

/-- A word: a scalar, or the word in the tag of an empty or null plain scalar. -/
def readWord (anchors : Anchors) (words : List String) (node : Node) : Decode String := do
  match ← follow anchors node with
  | scalar _ tag style text =>
    let (word, valid) := match tag.bind tagWord? with
      | some word => (word, style == .plain && (text.isEmpty || nullWords.contains text))
      | none => (text, true)
    if valid && words.contains word then return word else Decode.fail
  | _ => Decode.fail

/-- The nodes of a document as a dialect, given those that references can stand for. -/
def dialect (anchors : Anchors) : Dialect Node :=
  { text := readText anchors
    flag := readFlag anchors
    natural := readNatural anchors
    possible := readPossible anchors
    items := readItems anchors
    members := readMembers anchors
    word := readWord anchors }

end Node

/-- What a reading gives for a text.  No more references may be followed than a hundred times the
size of the document. -/
def decode? {α : Type} (read : Dialect Node → Node → Decode α) (text : String) : Option α := do
  let document ← Node.ofText? text
  (read (Node.dialect document.anchors) document).run? (100 * document.size)

end Yaml

end ResourceTables
