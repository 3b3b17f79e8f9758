/-
# `ResourceTables.Yaml.Tag` — tags of nodes, and the directives that shorten them
-/
import ResourceTables.Yaml.Glyph

namespace ResourceTables.Yaml

/-- The bytes of a tag, or of a part of one. -/
abbrev Uri := List UInt8

/-- A text of ASCII characters as bytes. -/
def Uri.ofText (text : String) : Uri := text.toList.map (·.toNat.toUInt8)

/-- What counts of the bytes of a tag: a zero byte ends them. -/
def Uri.ended (uri : Uri) : Uri := uri.takeWhile (· != 0)

/-- A character that stands for itself in a tag.  Between angle brackets and in directives some
more do. -/
def isUriChar (wide : Bool) (c : Char) : Bool :=
  isWord c || ";/?:@&=+$.!~*'()".toList.contains c || (wide && ",[]".toList.contains c)

/-- The number of bytes that follow a byte of a UTF-8 sequence in which `missing` are missing. -/
def following? (missing byte : Nat) : Option Nat :=
  if missing == 0 then
    if byte < 0x80 then some 0
    else if byte < 0xC0 then none
    else if byte < 0xE0 then some 1
    else if byte < 0xF0 then some 2
    else if byte < 0xF8 then some 3
    else none
  else if 0x80 ≤ byte && byte < 0xC0 then some (missing - 1)
  else none

/-- Reads the longest run of tag characters; a byte may be written in hexadecimal after a percent
sign. -/
def uri? (wide : Bool) (missing : Nat) : List Glyph → Option (Uri × List Glyph)
  | [] => if missing == 0 then some ([], []) else none
  | g :: rest =>
    if g.char == '%' then
      match rest with
      | a :: b :: others => do
        let byte := (← hexDigit? a.char) * 16 + (← hexDigit? b.char)
        let (uri, after) ← uri? wide (← following? missing byte) others
        return (byte.toUInt8 :: uri, after)
      | _ => none
    else if missing != 0 then none
    else if isUriChar wide g.char then do
      let (uri, after) ← uri? wide 0 rest
      return (g.char.toNat.toUInt8 :: uri, after)
    else some ([], g :: rest)

/-- Reads a run that is not empty, though nothing of it may count. -/
def someUri? (wide : Bool) (text : List Glyph) : Option (Uri × List Glyph) := do
  let (uri, text) ← uri? wide 0 text
  if uri.isEmpty then none else return (uri.ended, text)

/-- A tag as it is written: the handle of a directive, if any, and the rest of the tag. -/
structure TagName where
  handle : String
  suffix : Uri

/-- Reads a tag after its exclamation mark. -/
def tagName? (text : List Glyph) : Option (TagName × List Glyph) := do
  if nextIs (· == '<') text then
    let (uri, text) ← someUri? true text.tail
    if nextIs (· == '>') text then return (⟨"", uri⟩, text.tail) else none
  else
    let (name, text) := word text
    if nextIs (· == '!') text then
      let (suffix, text) ← someUri? false text.tail
      return (⟨s!"!{name}!", suffix⟩, text)
    else
      let (suffix, text) ← uri? false 0 text
      match (Uri.ofText name ++ suffix).ended with
      | [] => return (⟨"", Uri.ofText "!"⟩, text)
      | suffix => return (⟨"!", suffix⟩, text)

/-- Reads a tag that ends where it may end. -/
def tag? (inFlow : Bool) (text : List Glyph) : Option (TagName × List Glyph) := do
  let (name, text) ← tagName? text
  if endsWord text || (inFlow && nextIs (· == ',') text) then return (name, text) else none

/-! ## Directives -/

/-- What a directive before a document says. -/
inductive Directive where
  /-- The version of the format, one that can be read. -/
  | version
  /-- What a handle stands for. -/
  | handle (name : String) (start : Uri)

/-- Reads a number of at most nine digits. -/
def versionNumber? (text : List Glyph) : Option (Nat × List Glyph) :=
  let digits := (text.takeWhile (·.char.isDigit)).map (·.char.toNat - '0'.toNat)
  if digits.isEmpty || 9 < digits.length then none
  else some (digits.foldl (10 * · + ·) 0, text.drop digits.length)

/-- Reads a version, which has to be 1.1 or 1.2. -/
def version? (text : List Glyph) : Option (List Glyph) := do
  let (major, text) ← versionNumber? text
  if nextIs (· == '.') text then
    let (minor, text) ← versionNumber? text.tail
    if major == 1 && (minor == 1 || minor == 2) then return text else none
  else none

/-- Reads a handle: a word between exclamation marks, or one such mark alone. -/
def handle? (text : List Glyph) : Option (String × List Glyph) := do
  if nextIs (· == '!') text then
    let (name, text) := word text.tail
    if nextIs (· == '!') text then return (s!"!{name}!", text.tail)
    else if name.isEmpty then return ("!", text)
    else none
  else none

/-- Reads a directive after its percent sign. -/
def directive? (text : List Glyph) : Option (Directive × List Glyph) := do
  let (name, text) := word text
  if !endsWord text then none
  else if name == "YAML" then
    let text ← version? (skipBlanks text)
    return (.version, ← nextLine? text)
  else if name == "TAG" then
    let (handle, text) ← handle? (skipBlanks text)
    if nextIs isBlank text then
      let (start, text) ← someUri? true (skipBlanks text)
      if endsWord text then return (.handle handle start, ← nextLine? text) else none
    else none
  else none

end ResourceTables.Yaml
