/-
# `ResourceTables.Text.CodeRanges` — sets of characters, given by ranges of code points
-/
namespace ResourceTables.Text

/-- Closed ranges of code points, in rising order. -/
abbrev CodeRanges := List (Nat × Nat)

/-- Whether a code point lies in one of the ranges; the search ends at the first range above it. -/
def CodeRanges.hasCode : CodeRanges → Nat → Bool
  | [], _ => false
  | (low, high) :: rest, code =>
    if code < low then false else decide (code ≤ high) || CodeRanges.hasCode rest code

/-- Whether a character lies in one of the ranges. -/
def CodeRanges.has (ranges : CodeRanges) (c : Char) : Bool := ranges.hasCode c.toNat

end ResourceTables.Text
