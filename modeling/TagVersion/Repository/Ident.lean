/-!
# Marks of identity

Attributes can say that a file shows which file it is: a mark in it, a dollar sign with `Id` after it,
is filled in up to the next dollar sign when the file is checked out. A repository keeps the file with
the mark empty. Binary files have no marks.
-/

namespace TagVersion.Ident

/-- The sign with which marks begin and end. -/
def dollar : UInt8 := 0x24

/-- What follows the sign with which a mark begins. -/
def lead : List UInt8 := [0x49, 0x64]

/-- A mark with nothing in it. -/
def emptyMark : List UInt8 := dollar :: lead ++ [dollar]

/-- Cuts the bytes of a file at the start of the first mark. A dollar sign is passed over if it begins
no mark, but not the one that has just three bytes after it. -/
def cutLead : List UInt8 → Option (List UInt8 × List UInt8)
  | [] => none
  | b :: rest =>
    if b = dollar && rest.length < 3 then none
    else if b = dollar && (lead.isPrefixOf rest || rest.length == 3) then
      some ([], rest.drop lead.length)
    else (cutLead rest).map fun (before, after) => (b :: before, after)

/-- Empties the first mark. One without an end is no mark. -/
def emptied (bytes : List UInt8) : List UInt8 :=
  match cutLead bytes with
  | none => bytes
  | some (before, after) =>
    match after.dropWhile (· != dollar) with
    | [] => bytes
    | _ :: after => before ++ emptyMark ++ after

/-! ### Binary files -/

/-- What a file of bytes in the usual order begins with, if it says so. -/
def byteMark : List UInt8 := [0xEF, 0xBB, 0xBF]

/-- What files of wide characters begin with. -/
def wideMarks : List (List UInt8) := [[0xFE, 0xFF], [0xFF, 0xFE]]

/-- The bytes that can be shown, and some that show in no other way. -/
def isPrintable (b : UInt8) : Bool :=
  (b > 0x1F && b != 0x7F) || b == 0x08 || b == 0x1B || b == 0x0C

def isBlank (b : UInt8) : Bool :=
  b == 0x20 || (0x09 ≤ b && b ≤ 0x0D)

/-- Whether a file is none of characters: it begins with a mark of wide ones, holds the byte zero, or
holds more than a few bytes that cannot be shown. -/
def isBinary (bytes : List UInt8) : Bool :=
  let body := if byteMark.isPrefixOf bytes then bytes.drop byteMark.length else bytes
  let others := body.filter fun b => !isPrintable b && !isBlank b
  wideMarks.any (·.isPrefixOf bytes) || body.contains 0 ||
    (body.filter isPrintable).length / 128 < others.length

/-- The bytes that a repository keeps of a file with a mark. -/
def stored (bytes : List UInt8) : List UInt8 :=
  if isBinary bytes then bytes else emptied bytes

end TagVersion.Ident
