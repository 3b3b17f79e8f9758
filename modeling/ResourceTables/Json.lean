/-
# `ResourceTables.Json` — documents of the JSON format, and their text on indented lines

Members of an object keep their order.
-/
namespace ResourceTables

/-- A JSON document.  A number is `mantissa` with the decimal point moved left by `places`. -/
inductive Json where
  | null
  | bool (value : Bool)
  | number (mantissa : Int) (places : Nat)
  | string (text : String)
  | array (items : List Json)
  | object (members : List (String × Json))
  deriving Inhabited

namespace Json

/-- A whole number. -/
def nat (n : Nat) : Json := number n 0

/-- A list of texts. -/
def strings (texts : List String) : Json := array (texts.map string)

/-- A value that may be missing. -/
def possible {α : Type} (encode : α → Json) : Option α → Json
  | none => null
  | some a => encode a

/-- A control character by its code, as in `\u001f`. -/
def escapedCode (c : Char) : String :=
  let digits := Nat.toDigits 16 c.toNat
  "\\u" ++ String.ofList (List.replicate (4 - digits.length) '0' ++ digits)

/-- A character inside a JSON string. -/
def escapedChar (c : Char) : String :=
  if c == '"' then "\\\""
  else if c == '\\' then "\\\\"
  else if c == '\n' then "\\n"
  else if c == '\r' then "\\r"
  else if c == '\t' then "\\t"
  else if c.toNat == 8 then "\\b"
  else if c.toNat == 12 then "\\f"
  else if c.toNat < 32 then escapedCode c
  else c.toString

/-- A JSON string. -/
def stringText (text : String) : String :=
  "\"" ++ String.join (text.toList.map escapedChar) ++ "\""

/-- A number in decimal notation. -/
def numberText (mantissa : Int) (places : Nat) : String :=
  if places == 0 then toString mantissa
  else
    let digits := Nat.toDigits 10 mantissa.natAbs
    let padded := List.replicate (places + 1 - digits.length) '0' ++ digits
    let whole := padded.take (padded.length - places)
    let sign := if mantissa < 0 then "-" else ""
    sign ++ String.ofList whole ++ "." ++ String.ofList (padded.drop whole.length)

/-- Two blanks for every level. -/
def margin (level : Nat) : String := String.ofList (List.replicate (2 * level) ' ')

mutual

/-- The text of a document whose first line is at the given level. -/
def textAt (level : Nat) : Json → String
  | null => "null"
  | bool value => if value then "true" else "false"
  | number mantissa places => numberText mantissa places
  | string text => stringText text
  | array [] => "[]"
  | array (item :: items) =>
    "[\n" ++ margin (level + 1) ++ textAt (level + 1) item ++ itemsText (level + 1) items
      ++ "\n" ++ margin level ++ "]"
  | object [] => "\x7b\x7d"
  | object ((key, value) :: members) =>
    "\x7b\n" ++ margin (level + 1) ++ stringText key ++ ": " ++ textAt (level + 1) value
      ++ membersText (level + 1) members ++ "\n" ++ margin level ++ "\x7d"

/-- The text of the items after the first. -/
def itemsText (level : Nat) : List Json → String
  | [] => ""
  | item :: items => ",\n" ++ margin level ++ textAt level item ++ itemsText level items

/-- The text of the members after the first. -/
def membersText (level : Nat) : List (String × Json) → String
  | [] => ""
  | (key, value) :: members =>
    ",\n" ++ margin level ++ stringText key ++ ": " ++ textAt level value
      ++ membersText level members

end

/-- The text of a document, indented by two blanks a level. -/
def text (document : Json) : String := textAt 0 document

end Json

end ResourceTables
