/-
# `ResourceTables.Yaml.Glyph` — the characters of a YAML text, each with its place

Indentation is meant by place, so the text is read as a list of placed characters.
-/
namespace ResourceTables.Yaml

/-- A character of a text and its place.  A line break is one glyph, whatever it is written with. -/
structure Glyph where
  char : Char
  line : Nat
  /-- The number of characters before it in its line. -/
  column : Nat
  /-- The number of bytes before it in its line. -/
  offset : Nat
  deriving DecidableEq

/-! ## Classes of characters -/

/-- A character that ends a line. -/
def isBreak (c : Char) : Bool :=
  c == '\n' || c == '\r' || c == '\x85' || c == '\u2028' || c == '\u2029'

/-- A space or a tab. -/
def isBlank (c : Char) : Bool := c == ' ' || c == '\t'

/-- A character of directive names, tag handles and anchors. -/
def isWord (c : Char) : Bool := c.isAlphanum || c == '_' || c == '-'

/-- A character that a text may hold: no control characters and no noncharacters of the first
plane. -/
def isAllowed (c : Char) : Bool :=
  isBreak c || c == '\t' || (' ' ≤ c && c ≤ '~') || ('\xA0' ≤ c && c ≤ '\uFFFD')
    || '\uFFFF' < c

/-- The value of a hexadecimal digit. -/
def hexDigit? (c : Char) : Option Nat :=
  if c.isDigit then some (c.toNat - '0'.toNat)
  else if 'a' ≤ c && c ≤ 'f' then some (c.toNat - 'a'.toNat + 10)
  else if 'A' ≤ c && c ≤ 'F' then some (c.toNat - 'A'.toNat + 10)
  else none

/-! ## Placing -/

/-- The line break that is read for a written one. -/
def unifiedBreak (c : Char) : Char := if c == '\u2028' || c == '\u2029' then c else '\n'

/-- Places characters from a given place on. -/
def placed (line column offset : Nat) : List Char → List Glyph
  | [] => []
  | '\r' :: '\n' :: rest => ⟨'\n', line, column, offset⟩ :: placed (line + 1) 0 0 rest
  | c :: rest =>
    if isBreak c then ⟨unifiedBreak c, line, column, offset⟩ :: placed (line + 1) 0 0 rest
    else ⟨c, line, column, offset⟩ :: placed line (column + 1) (offset + c.utf8Size) rest

/-- The glyphs of a text. -/
def glyphs? (text : String) : Option (List Glyph) :=
  if text.toList.all isAllowed then some (placed 0 0 0 text.toList) else none

/-! ## Looking ahead -/

/-- Whether the next character is of a class. -/
def nextIs (p : Char → Bool) : List Glyph → Bool
  | [] => false
  | g :: _ => p g.char

/-- Whether nothing stands here that could continue a word. -/
def endsWord : List Glyph → Bool
  | [] => true
  | g :: _ => isBlank g.char || isBreak g.char

/-- Whether a glyph is a byte order mark that begins a line.  It has a place but is not read. -/
def isOrderMark (g : Glyph) : Bool := g.column == 0 && g.char == '\uFEFF'

/-- Whether a line begins here that starts with three times a given character. -/
def startsLine (c : Char) : List Glyph → Bool
  | g :: h :: i :: rest =>
    g.column == 0 && g.char == c && h.char == c && i.char == c && endsWord rest
  | _ => false

/-- Whether a line begins here that starts or ends a document. -/
def atDocumentMark (text : List Glyph) : Bool := startsLine '-' text || startsLine '.' text

/-- The word that starts here, and the text after it. -/
def word (text : List Glyph) : String × List Glyph :=
  (String.ofList ((text.takeWhile (isWord ·.char)).map (·.char)), text.dropWhile (isWord ·.char))

/-- The text without the blanks at its start. -/
def skipBlanks (text : List Glyph) : List Glyph := text.dropWhile (isBlank ·.char)

/-- The next line, if no more than blanks and a comment is left of this one. -/
def nextLine? (text : List Glyph) : Option (List Glyph) :=
  let text := skipBlanks text
  let text := if nextIs (· == '#') text then text.dropWhile (!isBreak ·.char) else text
  match text with
  | [] => some []
  | g :: rest => if isBreak g.char then some rest else none

end ResourceTables.Yaml
