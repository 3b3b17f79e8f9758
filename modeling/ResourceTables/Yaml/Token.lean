/-
# `ResourceTables.Yaml.Token` — the tokens of a YAML text, and how they are found

Indentation and keys become tokens of their own.  That something is a key shows only at the colon
after it, so the place where a key may begin is kept, and the token for it is put there later.
-/
import ResourceTables.Yaml.Scalar
import ResourceTables.Yaml.Tag

namespace ResourceTables.Yaml

/-- A token.  The starts and the end of block collections are shown by indentation alone. -/
inductive Token where
  | directive (directive : Directive)
  | documentStart
  | documentEnd
  | blockListStart
  | blockMapStart
  | blockEnd
  | flowListStart
  | flowListEnd
  | flowMapStart
  | flowMapEnd
  | blockEntry
  | flowEntry
  | key
  | value
  | reference (name : String)
  | anchor (name : String)
  | tag (name : TagName)
  | scalar (style : Style) (text : String)

/-- A place where a key may begin. -/
structure KeyPlace where
  /-- Nothing but a key can stand here. -/
  required : Bool
  /-- The number of tokens before it. -/
  number : Nat
  line : Nat
  column : Nat
  /-- The number of bytes before it in its line. -/
  offset : Nat

/-- A text that is read up to some place. -/
structure Lexer where
  rest : List Glyph
  /-- The tokens found so far, latest first. -/
  found : List Token := []
  /-- The number of tokens found so far. -/
  count : Nat := 0
  /-- The columns of the open block collections, innermost first. -/
  columns : List Nat := []
  /-- Whether a key may begin here. -/
  keyAllowed : Bool := true
  /-- The place where the last key may begin, outside flow collections. -/
  key : Option KeyPlace := none
  /-- The same for the collections around the innermost open flow collection. -/
  outerKeys : List (Option KeyPlace) := []

namespace Lexer

/-- Whether a flow collection is open. -/
def inFlow (x : Lexer) : Bool := !x.outerKeys.isEmpty

/-- Adds a token. -/
def emit (token : Token) (x : Lexer) : Lexer :=
  { x with found := token :: x.found, count := x.count + 1 }

/-- Goes on from another place. -/
def goto (rest : List Glyph) (x : Lexer) : Lexer := { x with rest }

/-- Leaves some characters behind. -/
def skip (length : Nat) (x : Lexer) : Lexer := { x with rest := x.rest.drop length }

/-- Puts a token behind the first `number` tokens. -/
def insertAt (number : Nat) (token : Token) (x : Lexer) : Lexer :=
  { x with found := x.found.insertIdx (x.count - number) token, count := x.count + 1 }

/-! ## Keys -/

/-- Whether a key that began at a place cannot be finished at the next character: a key has one
line and 1024 bytes at most. -/
def isOver (x : Lexer) (key : KeyPlace) : Bool :=
  match x.rest with
  | [] => true
  | g :: _ => key.line < g.line || key.offset + 1024 < g.offset

/-- Forgets the place where the last key may begin. -/
def dropKey? (x : Lexer) : Option Lexer :=
  if x.key.any (·.required) then none else some { x with key := none }

/-- Forgets that place if no key can be finished any more.  The places outside the innermost flow
collection can wait until it ends, since a key that is over stays so. -/
def dropOver? (x : Lexer) : Option Lexer := if x.key.any x.isOver then x.dropKey? else some x

/-- The column of the next character. -/
def column (x : Lexer) : Nat :=
  match x.rest with
  | [] => 0
  | g :: _ => g.column

/-- Remembers that a key may begin here, if one may. -/
def markKey? (x : Lexer) : Option Lexer :=
  match x.rest with
  | g :: _ =>
    if x.keyAllowed then do
      let required := !x.inFlow && x.columns.head? == some g.column
      let x ← x.dropKey?
      return { x with key := some ⟨required, x.count, g.line, g.column, g.offset⟩ }
    else some x
  | [] => some x

/-! ## Indentation -/

/-- Whether a block collection at this column would be deeper than the open ones. -/
def isDeeper (x : Lexer) (column : Nat) : Bool := !x.inFlow && x.columns.all (· < column)

/-- Opens a block collection at this column, if there is none yet, behind `number` tokens. -/
def openBlock (column number : Nat) (token : Token) (x : Lexer) : Lexer :=
  if x.isDeeper column then { x.insertAt number token with columns := column :: x.columns } else x

/-- Opens a block collection here, where the line has to begin. -/
def openBlockHere? (token : Token) (x : Lexer) : Option Lexer :=
  if x.inFlow then some x
  else if x.keyAllowed then some (x.openBlock x.column x.count token)
  else none

/-- Closes the block collections that do not reach to the left as far as `column`; all of them, if
none is given. -/
def closeBlocks (column : Option Nat) (x : Lexer) : Lexer :=
  if x.inFlow then x
  else
    let stays (c : Nat) : Bool := column.any (c ≤ ·)
    let closed := x.columns.takeWhile (!stays ·)
    { x with
      found := closed.map (fun _ => .blockEnd) ++ x.found
      count := x.count + closed.length
      columns := x.columns.drop closed.length }

/-! ## Tokens by their first character -/

/-- A mark or a directive at the border of a document ends all blocks. -/
def leaveDocument? (x : Lexer) : Option Lexer := do
  let x ← (x.closeBlocks none).dropKey?
  return { x with keyAllowed := false }

/-- The start or the end of a document. -/
def documentMark? (token : Token) (x : Lexer) : Option Lexer := do
  return ((← x.leaveDocument?).skip 3).emit token

/-- A directive. -/
def directiveToken? (x : Lexer) : Option Lexer := do
  let x ← x.leaveDocument?
  let (directive, rest) ← directive? x.rest.tail
  return (x.emit (.directive directive)).goto rest

/-- The start of a flow collection. -/
def openFlow? (token : Token) (x : Lexer) : Option Lexer := do
  let x ← x.markKey?
  return { (x.emit token).skip 1 with
    key := none, outerKeys := x.key :: x.outerKeys, keyAllowed := true }

/-- The end of a flow collection.  Whether it is at a right place shows only when nodes are read:
an empty key in a flow list takes the next bracket, and the list needs another one. -/
def closeFlow? (token : Token) (x : Lexer) : Option Lexer := do
  let x ← x.dropKey?
  return { (x.emit token).skip 1 with
    key := x.outerKeys.head?.join, outerKeys := x.outerKeys.tail, keyAllowed := false }

/-- The comma between the entries of a flow collection. -/
def flowEntry? (x : Lexer) : Option Lexer := do
  let x ← x.dropKey?
  return { (x.emit .flowEntry).skip 1 with keyAllowed := true }

/-- The dash before an entry of a block list. -/
def blockEntry? (x : Lexer) : Option Lexer := do
  let x ← (← x.openBlockHere? .blockListStart).dropKey?
  return { (x.emit .blockEntry).skip 1 with keyAllowed := true }

/-- The question mark before a key. -/
def explicitKey? (x : Lexer) : Option Lexer := do
  let x ← (← x.openBlockHere? .blockMapStart).dropKey?
  return { (x.emit .key).skip 1 with keyAllowed := !x.inFlow }

/-- The colon before a value.  If a key could begin before, it did. -/
def value? (x : Lexer) : Option Lexer :=
  match x.key with
  | some key =>
    let x := (x.insertAt key.number .key).openBlock key.column key.number .blockMapStart
    some { (x.emit .value).skip 1 with key := none, keyAllowed := false }
  | none => do
    let x ← x.openBlockHere? .blockMapStart
    return { (x.emit .value).skip 1 with keyAllowed := !x.inFlow }

/-- The name after the sign of an anchor or a reference to one. -/
def nameToken? (token : String → Token) (x : Lexer) : Option Lexer := do
  let x ← x.markKey?
  let (name, rest) := word x.rest.tail
  if name.isEmpty || !(endsWord rest || nextIs "?:,]\x7d%@\x60".toList.contains rest) then none
  else return { (x.emit (token name)).goto rest with keyAllowed := false }

/-- A tag. -/
def tagToken? (x : Lexer) : Option Lexer := do
  let x ← x.markKey?
  let (name, rest) ← tag? x.inFlow x.rest.tail
  return { (x.emit (.tag name)).goto rest with keyAllowed := false }

/-- A token for a scalar. -/
def emitScalar (style : Style) (found : Found) (x : Lexer) : Lexer :=
  (x.emit (.scalar style (String.ofList found.chars))).goto found.rest

/-- A block scalar. -/
def blockToken? (literal : Bool) (x : Lexer) : Option Lexer := do
  let x ← x.dropKey?
  let found ← block? literal x.columns.head? x.rest.tail
  return { x.emitScalar (if literal then .literal else .other) found with keyAllowed := true }

/-- A scalar in quotes. -/
def quotedToken? (read : List Glyph → Option Found) (x : Lexer) : Option Lexer := do
  let x ← x.markKey?
  let found ← read x.rest.tail
  return { x.emitScalar .other found with keyAllowed := false }

/-- A plain scalar.  After one that ends on a later line, a key may begin. -/
def plainToken? (x : Lexer) : Option Lexer := do
  let x ← x.markKey?
  let least := match x.columns with
    | [] => 0
    | column :: _ => column + 1
  let found ← plain? x.inFlow least .none x.rest
  return { x.emitScalar .plain found.toFound with keyAllowed := found.broken }

/-- Whether a plain scalar may begin with a character. -/
def startsPlain (inFlow : Bool) (c : Char) (rest : List Glyph) : Bool :=
  if c == '-' then !nextIs isBlank rest
  else if c == '?' || c == ':' then !inFlow && !endsWord rest
  else !isFlowMark c && !"#&*!|>'\"%@\x60".toList.contains c && !isBlank c

/-- The next token, which begins at the next character. -/
def token? (x : Lexer) : Option Lexer :=
  match x.rest with
  | [] => none
  | g :: rest =>
    let indicates (c : Char) : Bool := g.char == c && (x.inFlow || endsWord rest)
    if g.column == 0 && g.char == '%' then x.directiveToken?
    else if startsLine '-' x.rest then x.documentMark? .documentStart
    else if startsLine '.' x.rest then x.documentMark? .documentEnd
    else if g.char == '[' then x.openFlow? .flowListStart
    else if g.char == '\x7b' then x.openFlow? .flowMapStart
    else if g.char == ']' then x.closeFlow? .flowListEnd
    else if g.char == '\x7d' then x.closeFlow? .flowMapEnd
    else if g.char == ',' then x.flowEntry?
    else if g.char == '-' && endsWord rest then x.blockEntry?
    else if indicates '?' then x.explicitKey?
    else if indicates ':' then x.value?
    else if g.char == '*' then x.nameToken? .reference
    else if g.char == '&' then x.nameToken? .anchor
    else if g.char == '!' then x.tagToken?
    else if !x.inFlow && g.char == '|' then x.blockToken? true
    else if !x.inFlow && g.char == '>' then x.blockToken? false
    else if g.char == '\'' then x.quotedToken? (single? .none)
    else if g.char == '"' then x.quotedToken? (double? (.gap .none))
    else if startsPlain x.inFlow g.char rest then x.plainToken?
    else none

/-! ## The whole text -/

/-- Goes to the next token over byte order marks, blanks, comments and line breaks.  Outside flow
collections a key may begin on a new line; a tab cannot stand before it. -/
def toToken (inFlow : Bool) (inComment keyAllowed : Bool) : List Glyph → Bool × List Glyph
  | [] => (keyAllowed, [])
  | g :: rest =>
    if isBreak g.char then toToken inFlow false (keyAllowed || !inFlow) rest
    else if isOrderMark g || inComment || g.char == ' ' || (g.char == '\t' && (inFlow || !keyAllowed)) then
      toToken inFlow inComment keyAllowed rest
    else if g.char == '#' then toToken inFlow true keyAllowed rest
    else (keyAllowed, g :: rest)

/-- Reads tokens to the end of the text, which has no more than `fuel` of them. -/
def run? : Nat → Lexer → Option (List Token)
  | 0, _ => none
  | fuel + 1, x => do
    let (keyAllowed, rest) := toToken x.inFlow false x.keyAllowed x.rest
    let x ← ({ x with keyAllowed, rest } : Lexer).dropOver?
    match rest with
    | [] => return (← x.leaveDocument?).found.reverse
    | g :: _ => run? fuel (← (x.closeBlocks (some g.column)).token?)

end Lexer

/-- The tokens of a text. -/
def tokens? (text : String) : Option (List Token) := do
  let rest ← glyphs? text
  Lexer.run? (rest.length + 1) { rest }

end ResourceTables.Yaml
