/-
# `ResourceTables.Yaml.Node` — the node that the tokens of a YAML document describe

Anchors are numbered while nodes are read.  A number is the count of names at that time, so a name
that is given twice can share the number of a later one; the last node with a number has it.
-/
import ResourceTables.Yaml.Token
import Std.Data.HashMap

namespace ResourceTables.Yaml

/-- A node of a document. -/
inductive Node where
  | scalar (anchor : Option Nat) (tag : Option Uri) (style : Style) (text : String)
  | list (anchor : Option Nat) (items : List Node)
  | map (anchor : Option Nat) (entries : List (Node × Node))
  /-- The node with the anchor of this number. -/
  | reference (number : Nat)
  deriving Inhabited

namespace Node

/-- The number of starts and ends in a node. -/
def size : Node → Nat
  | scalar .. | reference _ => 1
  | list _ items => 2 + sizes items
  | map _ entries => 2 + entrySizes entries
where
  sizes : List Node → Nat
    | [] => 0
    | node :: rest => size node + sizes rest
  entrySizes : List (Node × Node) → Nat
    | [] => 0
    | (key, value) :: rest => size key + size value + entrySizes rest

/-- The nodes with anchors, each before the ones inside it. -/
def anchored (node : Node) : List (Nat × Node) :=
  match node with
  | scalar anchor _ _ _ => own anchor node
  | reference _ => []
  | list anchor items => own anchor node ++ anchoredIn items
  | map anchor entries => own anchor node ++ anchoredInEntries entries
where
  own (anchor : Option Nat) (node : Node) : List (Nat × Node) :=
    anchor.toList.map fun number => (number, node)
  anchoredIn : List Node → List (Nat × Node)
    | [] => []
    | node :: rest => anchored node ++ anchoredIn rest
  anchoredInEntries : List (Node × Node) → List (Nat × Node)
    | [] => []
    | (key, value) :: rest => anchored key ++ anchored value ++ anchoredInEntries rest

/-- The nodes with anchors by their numbers; of several with one number, the last. -/
def anchors (document : Node) : Std.HashMap Nat Node := .ofList document.anchored

/-- The node that is read where nothing stands. -/
def empty : Node := scalar none none .plain ""

end Node

/-! ## Reading tokens -/

/-- What is left of a document. -/
structure Remaining where
  tokens : List Token
  /-- The names of anchors with their numbers. -/
  anchors : List (String × Nat) := []
  /-- The handles of tags with what they stand for. -/
  handles : List (String × Uri) := []

/-- A step of reading a document; it may fail. -/
abbrev Parse := StateT Remaining Option

namespace Parse

/-- The step that fails. -/
def fail {α : Type} : Parse α := fun _ => none

/-- The next token, if there is one. -/
def peek : Parse (Option Token) := fun s => some (s.tokens.head?, s)

/-- Goes to the next token. -/
def advance : Parse Unit := modify fun s => { s with tokens := s.tokens.tail }

/-- Gives an anchor its number. -/
def enter : Option String → Parse (Option Nat)
  | none => pure none
  | some name => do
    let anchors := (← get).anchors
    modify fun s => { s with anchors := (name, anchors.length) :: anchors.filter (·.1 != name) }
    return some anchors.length

/-- The number of an anchor that is known. -/
def numberOf (name : String) : Parse Nat := do
  match (← get).anchors.lookup name with
  | some number => return number
  | none => fail

/-- The tag that a written one stands for. -/
def resolveTag (name : TagName) : Parse Uri := do
  if name.handle.isEmpty then return name.suffix
  match (← get).handles.lookup name.handle with
  | some start => return start ++ name.suffix
  | none => fail

/-- The anchor before a node, if there is one. -/
def anchor : Parse (Option String) := do
  match ← peek with
  | some (.anchor name) => do advance; return some name
  | _ => return none

/-- The tag before a node, if there is one. -/
def tag : Parse (Option TagName) := do
  match ← peek with
  | some (.tag name) => do advance; return some name
  | _ => return none

/-- The anchor and the tag before a node, in either order. -/
def properties : Parse (Option String × Option Uri) := do
  let first ← anchor
  let name ← tag
  let anchor ← match first with
    | none => anchor
    | some _ => pure first
  return (anchor, ← name.mapM resolveTag)

/-- Whether an entry of a block map is left empty before this token. -/
def leavesEntry : Option Token → Bool
  | some .key | some .value | some .blockEnd => true
  | _ => false

/-- Whether an entry of a block list is left empty before this token. -/
def leavesItem : Option Token → Bool
  | some .blockEntry | some .blockEnd => true
  | _ => false

/-- Whether an entry of a list that is not indented is left empty before this token. -/
def leavesFlatItem : Option Token → Bool
  | some .blockEntry | some .key | some .value | some .blockEnd => true
  | _ => false

/-- Whether the key in a flow map is left empty before this token. -/
def leavesFlowKey : Option Token → Bool
  | some .value | some .flowEntry | some .flowMapEnd => true
  | _ => false

/-- Whether the value in a flow collection is left empty before this token. -/
def leavesFlowValue : Option Token → Bool
  | some .flowEntry | some .flowListEnd | some .flowMapEnd => true
  | _ => false

mutual

/-- Reads a node.  Block collections may stand only where blocks may, and a list that is not
indented only inside a block map. -/
def node (inBlock flat : Bool) : Nat → Parse Node
  | 0 => fail
  | fuel + 1 => do
    if let some (.reference name) ← peek then
      advance
      return .reference (← numberOf name)
    let (name, tag) ← properties
    match ← peek with
    | some .blockEntry =>
      if flat then return .list (← enter name) (← flatItems fuel) else emptyNode name tag
    | some (.scalar style text) =>
      advance
      return .scalar (← enter name) tag style text
    | some .flowListStart =>
      advance
      return .list (← enter name) (← flowItems true fuel)
    | some .flowMapStart =>
      advance
      return .map (← enter name) (← flowEntries true fuel)
    | some .blockListStart =>
      if inBlock then advance; return .list (← enter name) (← blockItems fuel)
      else emptyNode name tag
    | some .blockMapStart =>
      if inBlock then advance; return .map (← enter name) (← blockEntries fuel)
      else emptyNode name tag
    | _ => emptyNode name tag
where
  /-- A node of which only the anchor or the tag is there. -/
  emptyNode (name : Option String) (tag : Option Uri) : Parse Node :=
    if name.isSome || tag.isSome then do return .scalar (← enter name) tag .plain "" else fail

/-- Reads a node, or nothing where the next token shows that nothing is there. -/
def nodeUnless (leaves : Option Token → Bool) (inBlock flat : Bool) : Nat → Parse Node
  | 0 => fail
  | fuel + 1 => do
    if leaves (← peek) then return .empty else node inBlock flat fuel

/-- Reads the entries of a block list. -/
def blockItems : Nat → Parse (List Node)
  | 0 => fail
  | fuel + 1 => do
    match ← peek with
    | some .blockEntry =>
      advance
      let item ← nodeUnless leavesItem true false fuel
      return item :: (← blockItems fuel)
    | some .blockEnd => advance; return []
    | _ => fail

/-- Reads the entries of a list that is not indented. -/
def flatItems : Nat → Parse (List Node)
  | 0 => fail
  | fuel + 1 => do
    match ← peek with
    | some .blockEntry =>
      advance
      let item ← nodeUnless leavesFlatItem true false fuel
      return item :: (← flatItems fuel)
    | _ => return []

/-- Reads the entries of a block map. -/
def blockEntries : Nat → Parse (List (Node × Node))
  | 0 => fail
  | fuel + 1 => do
    match ← peek with
    | some .key =>
      advance
      let key ← nodeUnless leavesEntry true true fuel
      let value ← match ← peek with
        | some .value => advance; nodeUnless leavesEntry true true fuel
        | _ => pure Node.empty
      return (key, value) :: (← blockEntries fuel)
    | some .blockEnd => advance; return []
    | _ => fail

/-- Reads the value after a key in a flow collection, if there is one. -/
def flowValue : Nat → Parse Node
  | 0 => fail
  | fuel + 1 => do
    match ← peek with
    | some .value => advance; nodeUnless leavesFlowValue false false fuel
    | _ => return .empty

/-- Reads the key and the value of a map that is written without braces in a flow list.  If the key
is left empty, the token that shows it is passed over. -/
def flowPair : Nat → Parse Node
  | 0 => fail
  | fuel + 1 => do
    let key ← match ← peek with
      | some .value | some .flowEntry | some .flowListEnd => do advance; pure Node.empty
      | _ => node false false fuel
    let value ← flowValue fuel
    return .map none [(key, value)]

/-- Reads the entries of a flow list; all but the first begin with a comma. -/
def flowItems (first : Bool) : Nat → Parse (List Node)
  | 0 => fail
  | fuel + 1 => do
    if let some .flowListEnd ← peek then
      advance
      return []
    unless first do
      match ← peek with
      | some .flowEntry => advance
      | _ => fail
    match ← peek with
    | some .flowListEnd => advance; return []
    | some .key =>
      advance
      let item ← flowPair fuel
      return item :: (← flowItems false fuel)
    | _ =>
      let item ← node false false fuel
      return item :: (← flowItems false fuel)

/-- Reads the entries of a flow map; all but the first begin with a comma. -/
def flowEntries (first : Bool) : Nat → Parse (List (Node × Node))
  | 0 => fail
  | fuel + 1 => do
    if let some .flowMapEnd ← peek then
      advance
      return []
    unless first do
      match ← peek with
      | some .flowEntry => advance
      | _ => fail
    match ← peek with
    | some .flowMapEnd => advance; return []
    | some .key =>
      advance
      let key ← nodeUnless leavesFlowKey false false fuel
      let value ← flowValue fuel
      return (key, value) :: (← flowEntries false fuel)
    | _ =>
      let key ← node false false fuel
      return (key, .empty) :: (← flowEntries false fuel)

end

end Parse

/-! ## Documents -/

/-- The handles that every document has, unless it says otherwise. -/
def defaultHandles : List (String × Uri) :=
  [("!", Uri.ofText "!"), ("!!", Uri.ofText "tag:yaml.org,2002:")]

/-- Reads the directives before a document; none may be repeated. -/
def directives? (versioned : Bool) (handles : List (String × Uri)) :
    List Token → Option (List (String × Uri) × List Token)
  | .directive .version :: rest => if versioned then none else directives? true handles rest
  | .directive (.handle name start) :: rest =>
    if (handles.lookup name).isSome then none
    else directives? versioned ((name, start) :: handles) rest
  | rest => some (handles, rest)

/-- Whether a document with a start mark is left empty before this token. -/
def leavesDocument : Option Token → Bool
  | none | some (.directive _) | some .documentStart | some .documentEnd => true
  | _ => false

/-- Reads the node of a document. -/
def Parse.root (leaves : Option Token → Bool) (handles : List (String × Uri))
    (tokens : List Token) : Option (Node × List Token) := do
  let (node, left) ← Parse.nodeUnless leaves true false (4 * tokens.length + 4)
    { tokens, handles := handles ++ defaultHandles }
  return (node, left.tokens)

/-- Reads the first document: one with directives or a start mark, or a node alone. -/
def Parse.document (tokens : List Token) : Option (Node × List Token) := do
  let (handles, rest) ← directives? false [] tokens
  match rest with
  | .documentStart :: rest => Parse.root leavesDocument handles rest
  | _ =>
    match tokens with
    | .directive _ :: _ => none
    | _ => Parse.root (·.isNone) [] tokens

/-- Whether nothing but end marks is left. -/
def isOver (tokens : List Token) : Bool :=
  tokens.all fun
    | .documentEnd => true
    | _ => false

/-- The node of a text that holds one document. -/
def Node.ofText? (text : String) : Option Node := do
  let (node, rest) ← Parse.document (← tokens? text)
  if isOver rest then return node else none

end ResourceTables.Yaml
