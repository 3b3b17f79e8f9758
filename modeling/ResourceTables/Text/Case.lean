/-
# `ResourceTables.Text.Case` — upper and lower case of any text

A character may have a form of several characters, and a sigma that ends a word is written in
its final form.
-/
import ResourceTables.Text.CaseTable

namespace ResourceTables.Text

/-- The form of a code point in a run, if the run has one for it. -/
def CaseRun.form? (run : CaseRun) (code : Nat) : Option Nat :=
  if run.first ≤ code && code ≤ run.last && (code - run.first) % run.step == 0 then
    some (run.target + (code - run.first))
  else none

/-- The form of a character under the given sequences and runs; a character without one is kept. -/
def caseForm (sequences : List (Nat × List Nat)) (runs : List CaseRun) (c : Char) : List Char :=
  match sequences.lookup c.toNat with
  | some codes => codes.map Char.ofNat
  | none =>
    match runs.findSome? (·.form? c.toNat) with
    | some code => [Char.ofNat code]
    | none => [c]

/-- The upper form of a character. -/
def upperChar (c : Char) : List Char :=
  if c.toNat < 0x80 then [c.toUpper] else caseForm upperSequences upperRuns c

/-- The lower form of a character that stands alone. -/
def lowerChar (c : Char) : List Char :=
  if c.toNat < 0x80 then [c.toLower] else caseForm lowerSequences lowerRuns c

/-- Whether the first character that is not skipped over has a case. -/
def meetsCased (cs : List Char) : Bool :=
  match cs.dropWhile caseIgnorable.has with
  | [] => false
  | c :: _ => cased.has c

/-- The lower form of a text after `before`, which is given backwards.  A sigma is final when a
cased character comes before it and none after it. -/
def lowerFrom (before : List Char) : List Char → List Char
  | [] => []
  | c :: rest =>
    let form :=
      if c == 'Σ' then [if meetsCased before && !meetsCased rest then 'ς' else 'σ']
      else lowerChar c
    form ++ lowerFrom (c :: before) rest

/-- The text in upper case. -/
def upper (text : String) : String := String.ofList (text.toList.flatMap upperChar)

/-- The text in lower case. -/
def lower (text : String) : String := String.ofList (lowerFrom [] text.toList)

end ResourceTables.Text
