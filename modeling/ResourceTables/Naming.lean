/-
# `ResourceTables.Naming` — identifiers, and table names made from resource names

Snake case cuts a name into words and joins them with underscores: at dashes, underscores and
spaces, which vanish, and wherever the case changes or a digit begins or ends a run.
-/
import ResourceTables.Error
import ResourceTables.Text.Case
import ResourceTables.Text.Cluster

namespace ResourceTables.Naming

open Text

/-! ## Identifiers -/

/-- Whether a character may begin an identifier. -/
def isIdentifierStart (c : Char) : Bool := c.isAlpha || c == '_'

/-- Whether a character may stand inside an identifier. -/
def isIdentifierRest (c : Char) : Bool := c.isAlphanum || c == '_'

/-- Whether a text is a letter or underscore followed by letters, digits and underscores. -/
def isIdentifier (name : String) : Bool :=
  match name.toList with
  | [] => false
  | c :: rest => isIdentifierStart c && rest.all isIdentifierRest

/-- Accepts identifiers; the error names the kind of name that was wrong. -/
def checkIdentifier (kind name : String) : Except Error Unit :=
  if isIdentifier name then .ok () else .error (.invalidIdentifier kind name)

/-! ## Words of a name -/

/-- A cluster that has a case and is in upper case. -/
def isUpperCluster (g : List Char) : Bool :=
  let up := g.flatMap upperChar
  up != lowerFrom [] g && g == up

/-- A cluster that has a case and is in lower case. -/
def isLowerCluster (g : List Char) : Bool :=
  let low := lowerFrom [] g
  g.flatMap upperChar != low && g == low

/-- A cluster of ASCII digits. -/
def isDigitCluster (g : List Char) : Bool := g.all Char.isDigit

/-- A cluster that separates words and belongs to none. -/
def isSeparator (g : List Char) : Bool := g == ['-'] || g == ['_'] || g == [' ']

/-- Whether a word begins between two neighbouring clusters, by their cases alone. -/
def caseChanges (a b : List Char) : Bool :=
  (isLowerCluster a && isUpperCluster b)
    || (isUpperCluster a && isDigitCluster b) || (isDigitCluster a && isUpperCluster b)
    || (isDigitCluster a && isLowerCluster b) || (isLowerCluster a && isDigitCluster b)

/-- Whether the second of three clusters begins the word that goes on in lower case. -/
def acronymEnds (a b c : List Char) : Bool :=
  isUpperCluster a && isUpperCluster b && isLowerCluster c

/-- Whether a word begins at the first of the clusters `rest`, which `before` precedes. -/
def wordBegins (before : Option (List Char)) (rest : List (List Char)) : Bool :=
  match before, rest with
  | some a, [b] => caseChanges a b
  | some a, b :: c :: _ => caseChanges a b || acronymEnds a b c
  | _, _ => false

/-- The words of a sequence of clusters; `current` holds the open word backwards. -/
def wordsFrom (before : Option (List Char)) (current : List Char) :
    List (List Char) → List (List Char)
  | [] => [current.reverse]
  | g :: rest =>
    if isSeparator g then current.reverse :: wordsFrom (some g) [] rest
    else if wordBegins before (g :: rest) then current.reverse :: wordsFrom (some g) g.reverse rest
    else wordsFrom (some g) (g.reverse ++ current) rest

/-- The words of a name. -/
def wordsOf (name : String) : List String :=
  ((wordsFrom none [] (clusters name.toList)).filter (!·.isEmpty)).map String.ofList

/-! ## Table-name generators -/

/-- The words of a name in lower case, joined by underscores. -/
def snakeCase (name : String) : String := "_".intercalate ((wordsOf name).map lower)

/-- The words of a name in upper case, joined by underscores. -/
def upperSnakeCase (name : String) : String := "_".intercalate ((wordsOf name).map upper)

/-- A function from resource names to table names. -/
abbrev Generator := String → String

/-- The generators that can be asked for by name, sorted by name. -/
def generators : List (String × Generator) :=
  [("identity", id), ("lower_case", lower), ("snake_case", snakeCase),
    ("upper_snake_case", upperSnakeCase)]

/-- The name of the generator that is used where none is asked for. -/
def defaultGeneratorName : String := "snake_case"

/-- Whether a generator of that name exists. -/
def isKnownGenerator (name : String) : Bool := generators.any (·.1 == name)

/-- The generator of a name. -/
def generatorNamed (name : String) : Except Error Generator :=
  match generators.lookup name with
  | some generator => .ok generator
  | none => .error (.unknownGenerator name)

end ResourceTables.Naming
