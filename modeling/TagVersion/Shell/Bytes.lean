import TagVersion.Text.Lossy

/-!
# Texts of the shell

The shell knows texts as bytes. Here a byte is the character with its number, so that a text of
the shell is a list of characters below 256.
-/

namespace TagVersion.Shell

/-- A text as the shell knows it. -/
abbrev Bytes := List Char

/-- Bytes as the shell knows them. -/
def ofBytes (bytes : List UInt8) : Bytes :=
  bytes.map fun b => Char.ofNat b.toNat

/-- The bytes of a text of the shell. -/
def toBytes (cs : Bytes) : List UInt8 :=
  cs.map fun c => UInt8.ofNat c.toNat

/-- A text as the shell knows it. -/
def ofText (text : String) : Bytes :=
  ofBytes text.toUTF8.toList

/-- The text of bytes, with a mark in place of those that make no text. -/
def toText (cs : Bytes) : String :=
  Text.lossy ⟨(toBytes cs).toArray⟩

/-- Whether one text comes no later than another in the order of their bytes. -/
def notAfter (a b : Bytes) : Bool :=
  (compare a b).isLE

/-- A decimal numeral. -/
def numeral (n : Nat) : Bytes :=
  (toString n).toList

/-- A decimal numeral with its sign. -/
def signedNumeral (n : Int) : Bytes :=
  (toString n).toList

/-- The lines of a text, each without its end; what follows the last end counts only if there is
anything. -/
def linesOf (cs : Bytes) : List Bytes :=
  let lines := cs.splitOn '\n'
  if lines.getLast? = some [] then lines.dropLast else lines

end TagVersion.Shell
