/-!
# Reading bytes as text

Bytes from a program need not be text. Each maximal start of a character that breaks off, and
each byte that starts none, is replaced by one replacement character.
-/

namespace TagVersion.Text

/-- The character that stands for bytes which are no text. -/
def replacementChar : Char := '\uFFFD'

/-- The bytes that may follow the lead byte of a character, and how many follow in all. -/
def leadByte? (b : UInt8) : Option (Nat × UInt8 × UInt8) :=
  if 0xC2 ≤ b ∧ b ≤ 0xDF then some (1, 0x80, 0xBF)
  else if b = 0xE0 then some (2, 0xA0, 0xBF)
  else if b = 0xED then some (2, 0x80, 0x9F)
  else if 0xE1 ≤ b ∧ b ≤ 0xEF then some (2, 0x80, 0xBF)
  else if b = 0xF0 then some (3, 0x90, 0xBF)
  else if b = 0xF4 then some (3, 0x80, 0x8F)
  else if 0xF1 ≤ b ∧ b ≤ 0xF3 then some (3, 0x80, 0xBF)
  else none

/-- The bits that a lead byte gives to its character. -/
def leadBits (b : UInt8) : Nat :=
  if b < 0xE0 then b.toNat % 0x20 else if b < 0xF0 then b.toNat % 0x10 else b.toNat % 0x08

/-- Reads bytes in the middle of a character: the bytes still owed, the bounds of the next one
and the bits so far; none owed means between characters. -/
def lossyFrom (owed : Nat) (low high : UInt8) (bits : Nat) : List UInt8 → List Char
  | [] => if owed = 0 then [] else [replacementChar]
  | b :: bs =>
    if owed ≠ 0 ∧ low ≤ b ∧ b ≤ high then
      let bits := bits * 0x40 + b.toNat % 0x40
      if owed = 1 then Char.ofNat bits :: lossyFrom 0 0x80 0xBF 0 bs
      else lossyFrom (owed - 1) 0x80 0xBF bits bs
    else
      (if owed = 0 then [] else [replacementChar]) ++
        if b < 0x80 then Char.ofNat b.toNat :: lossyFrom 0 0x80 0xBF 0 bs
        else
          match leadByte? b with
          | some (count, low, high) => lossyFrom count low high (leadBits b) bs
          | none => replacementChar :: lossyFrom 0 0x80 0xBF 0 bs

/-- The text of bytes, with replacement characters for what is no text. -/
def lossy (bytes : ByteArray) : String :=
  String.ofList (lossyFrom 0 0x80 0xBF 0 bytes.toList)

end TagVersion.Text
