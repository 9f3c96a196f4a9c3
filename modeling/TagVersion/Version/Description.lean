import TagVersion.Text.Blank
import TagVersion.Text.Cut
import TagVersion.Version.Facts

/-!
# Descriptions of a checkout

A commit is described by its nearest tag, the number of commits since that tag and its own
abbreviated id, as in `v1.2.3-4-gabc1234`, with `-dirty` at the end when tracked files have
pending changes. A description is read from its end: neither an id nor a distance contains a
hyphen, so the cuts are unique and every hyphen further left belongs to the tag.
-/

namespace TagVersion

/-- A commit as described by its nearest tag. -/
structure Description where
  tag : List Char
  distance : UInt64
  /-- The hexadecimal digits of the abbreviated id. -/
  id : List Char
  dirty : Bool
deriving DecidableEq, Repr

namespace Description

/-- The mark at the end of the description of a checkout with pending changes. -/
def dirtyMark : List Char :=
  ['-', 'd', 'i', 'r', 't', 'y']

/-- Hexadecimal digits in either case. -/
def isHexDigit (c : Char) : Bool :=
  c.isDigit || ('a' ≤ c && c ≤ 'f') || ('A' ≤ c && c ≤ 'F')

/-- The written form of a description. -/
def chars (d : Description) : List Char :=
  d.tag ++ '-' :: Text.numeral d.distance ++ '-' :: 'g' :: d.id ++
    (if d.dirty then dirtyMark else [])

/-- Takes the mark of pending changes off the end. -/
def cutDirtyMark (cs : List Char) : List Char × Bool :=
  if dirtyMark.isSuffixOf cs then (cs.take (cs.length - dirtyMark.length), true) else (cs, false)

/-- Reads a description. The tag holds at least one character and no line end, the distance is
a word and the id holds at least one digit. -/
def ofChars? (cs : List Char) : Option Description := do
  let (body, dirty) := cutDirtyMark cs
  let (front, mark) ← Text.cutLast '-' body
  let (tag, digits) ← Text.cutLast '-' front
  let distance ← Text.word? digits
  match mark with
  | 'g' :: id =>
    if !id.isEmpty && id.all isHexDigit && !tag.isEmpty && !tag.contains '\n' then
      some { tag, distance, id, dirty }
    else none
  | _ => none

/-- The facts that a description states. -/
def facts (d : Description) : VersionFacts :=
  VersionFacts.ofTag d.tag d.distance (some (String.ofList ('g' :: d.id))) d.dirty

end Description

/-- Reads the facts of a checkout off its description; white space around it is dropped. -/
def VersionFacts.ofDescription? (text : String) : Option VersionFacts :=
  let line := Text.trim text.toList
  (Description.ofChars? line).map fun d => { d.facts with described := some (String.ofList line) }

end TagVersion
