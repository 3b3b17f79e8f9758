/-
# `ResourceTables.Yaml.Scalar` — plain, quoted and block scalars

Every reader goes through the text once and answers with the characters that are meant and with
the text after the scalar.
-/
import ResourceTables.Yaml.Gap

namespace ResourceTables.Yaml

/-- How a scalar is written, as far as it matters for its meaning. -/
inductive Style where
  | plain
  | literal
  /-- Quoted or folded. -/
  | other
  deriving DecidableEq

/-- Characters that were read and the text after them. -/
structure Found where
  chars : List Char
  rest : List Glyph

/-- The same with more characters before. -/
def Found.after (found : Found) (chars : List Char) : Found :=
  { found with chars := chars ++ found.chars }

/-! ## Plain scalars -/

/-- A plain scalar, and whether it ends on a later line. -/
structure PlainFound extends Found where
  broken : Bool

/-- Whether a plain scalar cannot go on with this character after a gap. -/
def stopsAfterGap (inFlow : Bool) (least : Nat) (gap : Gap) (text : List Glyph) : Bool :=
  gap != .none
    && (nextIs (· == '#') text || atDocumentMark text
      || (!inFlow && text.head?.any (·.column < least)))

/-- A character that opens, parts or closes flow collections. -/
def isFlowMark (c : Char) : Bool := [',', '[', ']', '\x7b', '\x7d'].contains c

/-- Whether a plain scalar ends before this character. -/
def stopsPlain (inFlow : Bool) (c : Char) (rest : List Glyph) : Bool :=
  (c == ':' && endsWord rest) || (inFlow && isFlowMark c)

/-- Whether a colon inside a flow collection is neither text nor the start of a value. -/
def isMisplacedColon (inFlow : Bool) (c : Char) (rest : List Glyph) : Bool :=
  inFlow && c == ':' && nextIs (fun d => isFlowMark d || d == '?') rest

/-- Reads a plain scalar from a gap on; its lines have to start at column `least` or later. -/
def plain? (inFlow : Bool) (least : Nat) (gap : Gap) : List Glyph → Option PlainFound
  | [] => some ⟨⟨[], []⟩, gap.isBroken⟩
  | g :: rest =>
    if isBlank g.char || isBreak g.char then
      if gap.isBroken && g.char == '\t' && g.column < least then none
      else plain? inFlow least (gap.extend g.char) rest
    else if stopsAfterGap inFlow least gap (g :: rest) || stopsPlain inFlow g.char rest then
      some ⟨⟨[], g :: rest⟩, gap.isBroken⟩
    else if isMisplacedColon inFlow g.char rest then none
    else do
      let found ← plain? inFlow least .none rest
      return { found with toFound := found.after (gap.text ++ [g.char]) }

/-! ## Quoted scalars -/

/-- Reads a scalar in single quotes, after its opening quote and from a gap on. -/
def single? (gap : Gap) : List Glyph → Option Found
  | [] => none
  | g :: rest =>
    if isBlank g.char || isBreak g.char then single? (gap.extend g.char) rest
    else if atDocumentMark (g :: rest) then none
    else if g.char == '\'' then
      match rest with
      | [] => some ⟨gap.text, []⟩
      | h :: others =>
        if h.char == '\'' then (single? .none others).map (·.after (gap.text ++ ['\'']))
        else some ⟨gap.text, h :: others⟩
    else (single? .none rest).map (·.after (gap.text ++ [g.char]))

/-- The character that is meant by a letter after a backslash. -/
def escaped? : Char → Option Char
  | '0' => some '\x00'
  | 'a' => some '\x07'
  | 'b' => some '\x08'
  | 't' | '\t' => some '\t'
  | 'n' => some '\n'
  | 'v' => some '\x0B'
  | 'f' => some '\x0C'
  | 'r' => some '\r'
  | 'e' => some '\x1B'
  | ' ' => some ' '
  | '"' => some '"'
  | '/' => some '/'
  | '\\' => some '\\'
  | 'N' => some '\x85'
  | '_' => some '\xA0'
  | 'L' => some '\u2028'
  | 'P' => some '\u2029'
  | _ => none

/-- The number of hexadecimal digits that follow a letter after a backslash. -/
def escapeDigits? : Char → Option Nat
  | 'x' => some 2
  | 'u' => some 4
  | 'U' => some 8
  | _ => none

/-- What was read last inside double quotes. -/
inductive Pending where
  | gap (gap : Gap)
  | backslash
  /-- Some digits of a code point; `missing` more follow. -/
  | code (missing value : Nat)

/-- Reads a scalar in double quotes, after its opening quote. -/
def double? : Pending → List Glyph → Option Found
  | _, [] => none
  | .gap gap, g :: rest =>
    if isBlank g.char || isBreak g.char then double? (.gap (gap.extend g.char)) rest
    else if atDocumentMark (g :: rest) then none
    else if g.char == '"' then some ⟨gap.text, rest⟩
    else if g.char == '\\' then (double? .backslash rest).map (·.after gap.text)
    else (double? (.gap .none) rest).map (·.after (gap.text ++ [g.char]))
  | .backslash, g :: rest =>
    if isBreak g.char then double? (.gap (.lines none [])) rest
    else
      match escapeDigits? g.char with
      | some digits => double? (.code digits 0) rest
      | none => do
        let c ← escaped? g.char
        (double? (.gap .none) rest).map (·.after [c])
  | .code missing value, g :: rest => do
    let value := value * 16 + (← hexDigit? g.char)
    if missing ≤ 1 then
      if value.isValidChar then (double? (.gap .none) rest).map (·.after [Char.ofNat value])
      else none
    else double? (.code (missing - 1) value) rest

/-! ## Block scalars -/

/-- What is kept of the line breaks at the end of a block scalar. -/
inductive Chomping where
  | strip | clip | keep
  deriving DecidableEq

/-- The chomping that is asked for here, if any, and the text after it. -/
def chomping : List Glyph → Option Chomping × List Glyph
  | g :: rest =>
    if g.char == '+' then (some .keep, rest)
    else if g.char == '-' then (some .strip, rest)
    else (none, g :: rest)
  | [] => (none, [])

/-- The indentation that is asked for here, if any, and the text after it. -/
def indentation? : List Glyph → Option (Option Nat × List Glyph)
  | g :: rest =>
    if g.char == '0' then none
    else if g.char.isDigit then some (some (g.char.toNat - '0'.toNat), rest)
    else some (none, g :: rest)
  | [] => some (none, [])

/-- The line breaks before the first line of a block scalar. -/
structure Margin where
  breaks : List Char
  /-- The greatest column that the lines reach with spaces alone. -/
  deepest : Nat
  rest : List Glyph

/-- Reads empty lines; tabs cannot stand for spaces. -/
def margin? (deepest : Nat) : List Glyph → Option Margin
  | [] => some ⟨[], deepest, []⟩
  | g :: rest =>
    if g.char == ' ' then margin? deepest rest
    else if g.char == '\t' then none
    else if isBreak g.char then
      (margin? (max deepest g.column) rest).map fun m => { m with breaks := g.char :: m.breaks }
    else some ⟨[], max deepest g.column, g :: rest⟩

/-- What was read last of a block scalar. -/
structure BlockState where
  inLine : Bool := false
  /-- Whether the last line starts with a blank. -/
  indented : Bool := false
  /-- The break that ended the last line. -/
  lead : Option Char := none
  /-- The breaks of the empty lines after it, latest first. -/
  breaks : List Char

/-- What is read for the breaks before a line that starts with `c`.  Lines that start with a blank
are not folded. -/
def BlockState.joint (literal : Bool) (c : Char) (state : BlockState) : List Char :=
  if !literal && state.lead == some '\n' && !state.indented && !isBlank c then
    if state.breaks.isEmpty then [' '] else state.breaks.reverse
  else state.lead.toList ++ state.breaks.reverse

/-- The breaks that are kept at the end. -/
def BlockState.tail (state : BlockState) : Chomping → List Char
  | .strip => []
  | .clip => state.lead.toList
  | .keep => state.lead.toList ++ state.breaks.reverse

/-- Reads the lines of a block scalar that start at column `indent`. -/
def blockLines? (literal : Bool) (chomping : Chomping) (indent : Nat) (state : BlockState) :
    List Glyph → Option Found
  | [] => some ⟨state.tail chomping, []⟩
  | g :: rest =>
    if state.inLine then
      if isBreak g.char then
        blockLines? literal chomping indent
          { state with inLine := false, lead := some g.char, breaks := [] } rest
      else (blockLines? literal chomping indent state rest).map (·.after [g.char])
    else if isBreak g.char then
      blockLines? literal chomping indent { state with breaks := g.char :: state.breaks } rest
    else if g.column < indent && g.char == ' ' then
      blockLines? literal chomping indent state rest
    else if g.column < indent && g.char == '\t' then none
    else if g.column == indent then
      (blockLines? literal chomping indent
          { inLine := true, indented := isBlank g.char, breaks := [] } rest).map
        (·.after (state.joint literal g.char ++ [g.char]))
    else some ⟨state.tail chomping, g :: rest⟩

/-- Reads a block scalar after its indicator, inside a block of column `parent`. -/
def block? (literal : Bool) (parent : Option Nat) (text : List Glyph) : Option Found := do
  let (before, text) := chomping text
  let (indent, text) ← indentation? text
  let (after, text) := if before.isNone then chomping text else (none, text)
  let ending := (before.or after).getD .clip
  let text ← nextLine? text
  match indent with
  | some columns => blockLines? literal ending (parent.getD 0 + columns) { breaks := [] } text
  | none =>
    let margin ← margin? 0 text
    let least := match parent with
      | some column => column + 1
      | none => 1
    blockLines? literal ending (max margin.deepest least) { breaks := margin.breaks.reverse }
      margin.rest

end ResourceTables.Yaml
