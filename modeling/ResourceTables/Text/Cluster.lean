/-
# `ResourceTables.Text.Cluster` — what a reader takes for one character

A text falls into clusters: a base character with its marks, a syllable, consonants tied by a
linking mark, a pair of regional indicators, pictographs glued by a joiner.  Most edges are
decided by the two characters beside them; `ClusterEdge` keeps what the others ask of the text
before.
-/
import ResourceTables.Text.ClusterTable

namespace ResourceTables.Text

/-- What a character does at the edge of a cluster. -/
inductive ClusterClass where
  | carriageReturn | lineFeed | control | mark | joiner | regional | prepended | spacing
  | leading | vowel | trailing | openSyllable | closedSyllable | other
  deriving DecidableEq

/-- Whether a code point lies between two others. -/
def codeIn (low high : Nat) (c : Char) : Bool := low ≤ c.toNat && c.toNat ≤ high

/-- The class of a letter that syllables are composed of: a Hangul letter or syllable, or a vowel
sign of Kirat Rai, which joins its neighbours as a Hangul vowel does. -/
def syllableClass? (c : Char) : Option ClusterClass :=
  if codeIn 0x1100 0x115F c || codeIn 0xA960 0xA97C c then some .leading
  else if codeIn 0x1160 0x11A7 c || codeIn 0xD7B0 0xD7C6 c then some .vowel
  else if codeIn 0x16D63 0x16D63 c || codeIn 0x16D67 0x16D6A c then some .vowel
  else if codeIn 0x11A8 0x11FF c || codeIn 0xD7CB 0xD7FB c then some .trailing
  else if codeIn 0xAC00 0xD7A3 c then
    some (if (c.toNat - 0xAC00) % 28 == 0 then .openSyllable else .closedSyllable)
  else none

/-- The class of a character. -/
def clusterClass (c : Char) : ClusterClass :=
  if c == '\r' then .carriageReturn
  else if c == '\n' then .lineFeed
  else if codeIn 0x20 0x7E c then .other
  else if c.toNat == 0x200D then .joiner
  else if marks.has c || codeIn 0x1F3FB 0x1F3FF c then .mark
  else if controls.has c then .control
  else if codeIn 0x1F1E6 0x1F1FF c then .regional
  else if prepended.has c then .prepended
  else if spacingMarks.has c then .spacing
  else (syllableClass? c).getD .other

/-- Whether a character may stand between a consonant and the one tied to it: any mark or joiner
but the one that asks for the letters to be kept apart. -/
def staysInConjunct (c : Char) : Bool :=
  (clusterClass c == .mark || clusterClass c == .joiner) && c.toNat != 0x200C

/-- What has to be known of the text so far to decide whether a cluster goes on. -/
structure ClusterEdge where
  last : ClusterClass
  /-- The text ends in a pictograph and marks. -/
  pictograph : Bool
  /-- The text ends in a pictograph, marks and a joiner. -/
  joined : Bool
  /-- The text ends in a consonant and marks. -/
  consonant : Bool
  /-- The text ends in a consonant and marks, one of which ties a following consonant to it. -/
  linked : Bool
  /-- The text ends in an odd number of regional indicators. -/
  oddRegional : Bool

/-- The edge after the first character of a text. -/
def ClusterEdge.first (c : Char) : ClusterEdge :=
  { last := clusterClass c, pictograph := pictographs.has c, joined := false,
    consonant := consonants.has c, linked := false, oddRegional := clusterClass c == .regional }

/-- The edge after one more character. -/
def ClusterEdge.next (edge : ClusterEdge) (c : Char) : ClusterEdge :=
  { last := clusterClass c
    pictograph := pictographs.has c || (edge.pictograph && clusterClass c == .mark)
    joined := edge.pictograph && clusterClass c == .joiner
    consonant := consonants.has c || (edge.consonant && staysInConjunct c)
    linked := edge.consonant && staysInConjunct c && (edge.linked || linkers.has c)
    oddRegional := clusterClass c == .regional && !edge.oddRegional }

/-- Whether a character belongs to the cluster that ends at the edge. -/
def ClusterEdge.takes (edge : ClusterEdge) (c : Char) : Bool :=
  match edge.last, clusterClass c with
  | .carriageReturn, .lineFeed => true
  | .carriageReturn, _ | .lineFeed, _ | .control, _ => false
  | _, .carriageReturn | _, .lineFeed | _, .control => false
  | _, .mark | _, .joiner | _, .spacing => true
  | .prepended, _ => true
  | .leading, .leading | .leading, .vowel | .leading, .openSyllable
  | .leading, .closedSyllable => true
  | .openSyllable, .vowel | .openSyllable, .trailing | .vowel, .vowel | .vowel, .trailing => true
  | .closedSyllable, .trailing | .trailing, .trailing => true
  | .regional, .regional => edge.oddRegional
  | _, _ => (edge.joined && pictographs.has c) || (edge.linked && consonants.has c)

/-- The clusters of a text that goes on after an open cluster, which is given backwards. -/
def clustersFrom (edge : ClusterEdge) (current : List Char) : List Char → List (List Char)
  | [] => [current.reverse]
  | c :: rest =>
    if edge.takes c then clustersFrom (edge.next c) (c :: current) rest
    else current.reverse :: clustersFrom (edge.next c) [c] rest

/-- The clusters of a text, in order. -/
def clusters : List Char → List (List Char)
  | [] => []
  | c :: rest => clustersFrom (.first c) [c] rest

end ResourceTables.Text
