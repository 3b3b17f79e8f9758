/-
# `ResourceTables.Text.Quoted` — text between quotes, with whatever cannot be seen spelled out
-/
import ResourceTables.Text.ClusterTable
import ResourceTables.Text.PrintableTable
import ResourceTables.Text.Utf8

namespace ResourceTables.Text

/-- A character by its code point, as in `\u{301}`. -/
def spelledOut (c : Char) : String :=
  "\\u\x7b" ++ String.ofList (Nat.toDigits 16 c.toNat) ++ "\x7d"

/-- Whether a character sits on the one before it.  The sound marks of half width extend a
character too, but stand beside it. -/
def sitsOnLast (c : Char) : Bool := marks.has c && !(c == '\uFF9E' || c == '\uFF9F')

/-- A character inside quotes.  One that would sit on the quote is spelled out. -/
def quotedChar (c : Char) : String :=
  if c == '\t' then "\\t"
  else if c == '\r' then "\\r"
  else if c == '\n' then "\\n"
  else if c == '\\' then "\\\\"
  else if c == '"' then "\\\""
  else if c.toNat == 0 then "\\0"
  else if sitsOnLast c || unprintable.has c then spelledOut c
  else c.toString

/-- A text between double quotes. -/
def quoted (text : String) : String :=
  "\"" ++ String.join (text.toList.map quotedChar) ++ "\""

/-- A stray byte inside quotes, as in `\xFF`. -/
def quotedByte (byte : UInt8) : String :=
  let digits := (Nat.toDigits 16 byte.toNat).map Char.toUpper
  "\\x" ++ String.ofList (if digits.length == 1 then '0' :: digits else digits)

/-- A byte sequence between double quotes. -/
def quotedBytes (bytes : List UInt8) : String :=
  let piece : Piece → String
    | .char c => quotedChar c
    | .stray byte => quotedByte byte
  "\"" ++ String.join ((pieces bytes).map piece) ++ "\""

end ResourceTables.Text
