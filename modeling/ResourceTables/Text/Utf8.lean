/-
# `ResourceTables.Text.Utf8` — characters and stray bytes of a byte sequence
-/
namespace ResourceTables.Text

/-- A character, or a byte that belongs to no character. -/
inductive Piece where
  | char (c : Char)
  | stray (byte : UInt8)

/-- The payload of a continuation byte. -/
def continuation? (byte : UInt8) : Option Nat :=
  if 0x80 ≤ byte && byte < 0xC0 then some (byte.toNat - 0x80) else none

/-- The code point that `count` continuation bytes complete from the payload read so far. -/
def complete? : Nat → Nat → List UInt8 → Option Nat
  | 0, code, _ => some code
  | _ + 1, _, [] => none
  | count + 1, code, byte :: rest => do
    complete? count (code * 64 + (← continuation? byte)) rest

/-- The character that a byte opens together with the bytes after it, and how many of those it
takes.  A code point has one encoding only, the shortest, and a surrogate has none. -/
def opened? (byte : UInt8) (rest : List UInt8) : Option (Char × Nat) :=
  let read (lead least count : Nat) : Option (Char × Nat) := do
    let code ← complete? count (byte.toNat - lead) rest
    if least ≤ code && code.isValidChar then some (Char.ofNat code, count) else none
  if byte < 0x80 then some (Char.ofNat byte.toNat, 0)
  else if byte < 0xC0 then none
  else if byte < 0xE0 then read 0xC0 0x80 1
  else if byte < 0xF0 then read 0xE0 0x800 2
  else if byte < 0xF8 then read 0xF0 0x10000 3
  else none

/-- The pieces of a byte sequence whose first `skip` bytes are already read. -/
def piecesFrom : Nat → List UInt8 → List Piece
  | _, [] => []
  | skip + 1, _ :: rest => piecesFrom skip rest
  | 0, byte :: rest =>
    match opened? byte rest with
    | some (c, count) => .char c :: piecesFrom count rest
    | none => .stray byte :: piecesFrom 0 rest

/-- The pieces of a byte sequence, in order. -/
def pieces (bytes : List UInt8) : List Piece := piecesFrom 0 bytes

/-- The text of a byte sequence without stray bytes. -/
def text? (bytes : List UInt8) : Option String :=
  let char? : Piece → Option Char
    | .char c => some c
    | .stray _ => none
  ((pieces bytes).mapM char?).map String.ofList

end ResourceTables.Text
