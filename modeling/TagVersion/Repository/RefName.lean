import TagVersion.Files.Tree
import TagVersion.Text.Cut

/-!
# Names of references

A repository keeps its branches and tags as references. Their names are paths, and since a
repository may store them as files, names that would make bad paths are refused.
-/

namespace TagVersion.RefName

/-- The characters that no reference name contains: controls, the blank, and signs with a
meaning in expressions for commits. -/
def isForbidden (c : Char) : Bool :=
  c ≤ ' ' || ['~', '^', ':', '?', '*', '[', '\\'].contains c

/-- The end that is kept for lock files. -/
def lockEnding : List Char := ['.', 'l', 'o', 'c', 'k']

/-- Whether a text can stand between slashes in a reference name. -/
def isSegment (cs : List Char) : Bool :=
  !cs.isEmpty && cs.head? != some '.' && !cs.any isForbidden &&
    !Text.hasInfix ['.', '.'] cs && !Text.hasInfix ['@', '\x7b'] cs && !lockEnding.isSuffixOf cs

/-- Whether a text is the name of a reference. -/
def isValid (name : String) : Bool :=
  let cs := name.toList
  (cs.splitOn '/').all isSegment && cs.getLast? != some '.'

/-- A name without the slashes that meet in it. A slash at its end stays. -/
def joined (name : String) : String :=
  let segments := name.toList.splitOn '/'
  String.ofList
    (['/'].intercalate (segments.dropLast.filter (· != []) ++ segments.getLast?.toList))

/-- The number of bytes that the names of files may have beyond those of a segment: what a file
is called while it is written. -/
def lockBytes : Nat := lockEnding.length

/-- Whether the segments of a name are short enough to be the names of files. -/
def isStorable (name : String) : Bool :=
  let sizes := (name.toList.splitOn '/').map fun segment => (String.ofList segment).utf8ByteSize
  sizes.dropLast.all (· ≤ FileTree.maxNameBytes) &&
    sizes.getLast?.all (· + lockBytes ≤ FileTree.maxNameBytes)

/-- The name of a branch as a reference. -/
def ofBranch (branch : String) : String := "refs/heads/" ++ branch

/-- Where tags are kept. -/
def tagLead : String := "refs/tags/"

/-- The name of a tag as a reference. -/
def ofTag (tag : String) : String := tagLead ++ tag

/-- The name under which the branch of a remote is followed. -/
def ofTracked (remote branch : String) : String := "refs/remotes/" ++ remote ++ "/" ++ branch

/-- The rest of a name after a lead. -/
def after? (lead name : String) : Option String :=
  if lead.toList.isPrefixOf name.toList then
    some (String.ofList (name.toList.drop lead.toList.length))
  else none

/-- The tag that a reference stands for. -/
def tag? (name : String) : Option String := after? tagLead name

/-- The branch that a reference stands for. -/
def branch? (name : String) : Option String := after? "refs/heads/" name

/-- Whether one of two names would need the other as a directory. -/
def conflicts (a b : String) : Bool :=
  (a ++ "/").toList.isPrefixOf b.toList || (b ++ "/").toList.isPrefixOf a.toList

end TagVersion.RefName
