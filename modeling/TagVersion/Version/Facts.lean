import TagVersion.Version.Triplet

/-!
# Version facts

What a checkout says about its version: the text of the nearest version tag, the number of
commits since it, the commit checked out, and whether tracked files have pending changes.
-/

namespace TagVersion

/-- The facts that version texts are made of. -/
structure VersionFacts where
  /-- The tag without its leading version letters. -/
  main : String
  triplet : Triplet
  /-- The number of commits since the tag. -/
  distance : UInt64
  /-- The abbreviated commit id, after the letter that marks it. -/
  commitId : Option String
  /-- Whether tracked files have pending changes. -/
  dirty : Bool
  /-- The description that the facts were read from. -/
  described : Option String
deriving DecidableEq, Repr, Inhabited

namespace VersionFacts

/-- The letters that may stand before the number in a version tag. -/
def isVersionLetter (c : Char) : Bool :=
  c == 'v' || c == 'V'

/-- A tag without its leading version letters. -/
def mainOfTag (tag : List Char) : List Char :=
  tag.dropWhile isVersionLetter

/-- The facts of a checkout `distance` commits after `tag`. -/
def ofTag (tag : List Char) (distance : UInt64) (commitId : Option String) (dirty : Bool) :
    VersionFacts where
  main := String.ofList (mainOfTag tag)
  triplet := Triplet.ofChars (mainOfTag tag)
  distance
  commitId
  dirty
  described := none

/-- The facts of a clean checkout of the release `t` itself. -/
def ofTriplet (t : Triplet) : VersionFacts :=
  ofTag t.chars 0 none false

end VersionFacts

end TagVersion
