/-
# `ResourceTables.Yaml.Gap` — blanks and line breaks inside a scalar, and how lines are folded
-/
import ResourceTables.Yaml.Glyph

namespace ResourceTables.Yaml

/-- The blanks and line breaks since the last visible character of a scalar. -/
inductive Gap where
  /-- Blanks within one line, latest first. -/
  | blanks (chars : List Char)
  /-- The break that ended the line, unless it was escaped, and the breaks of the empty lines
  after it, latest first. -/
  | lines (first : Option Char) (more : List Char)
  deriving DecidableEq

namespace Gap

/-- No gap at all. -/
def none : Gap := blanks []

/-- The gap with one more blank or line break.  Blanks next to a line break do not count. -/
def extend (gap : Gap) (c : Char) : Gap :=
  match gap with
  | blanks chars => if isBreak c then lines (some c) [] else blanks (c :: chars)
  | lines first more => if isBreak c then lines first (c :: more) else gap

/-- Whether a line ended. -/
def isBroken : Gap → Bool
  | blanks _ => false
  | lines .. => true

/-- What is read for a gap: a single line break is a space, more of them are all but the
first. -/
def text : Gap → List Char
  | blanks chars => chars.reverse
  | lines (some '\n') [] => [' ']
  | lines (some '\n') more => more.reverse
  | lines first more => first.toList ++ more.reverse

end Gap

end ResourceTables.Yaml
