/-
# `ResourceTables.Text.Blank` — blank characters and the text between them
-/
import ResourceTables.Text.CodeRanges

namespace ResourceTables.Text

/-- The characters of the property White_Space. -/
def blanks : CodeRanges := [
    (0x9, 0xD), (0x20, 0x20), (0x85, 0x85), (0xA0, 0xA0), (0x1680, 0x1680), (0x2000, 0x200A),
    (0x2028, 0x2029), (0x202F, 0x202F), (0x205F, 0x205F), (0x3000, 0x3000)]

/-- The text without the blanks before and after it. -/
def trimmed (text : String) : String :=
  String.ofList ((text.toList.dropWhile blanks.has).reverse.dropWhile blanks.has).reverse

end ResourceTables.Text
