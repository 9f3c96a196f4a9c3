import TagVersion.Text.Cut

/-!
# Paths

A path is a text of names between slashes. It is read from a starting directory; a path with a
slash at its front starts at the top of the file system instead.
-/

namespace TagVersion

/-- Where a file or directory lies, as the names on the way down from the working directory. -/
abbrev Location := List String

namespace Path

def isAbsolute (path : String) : Bool :=
  path.toList.head? == some '/'

/-- The names of a path; an empty name stands where slashes meet or end the path. -/
def names (path : String) : List String :=
  (path.toList.splitOn '/').map String.ofList

/-- The path of something inside a directory. An absolute path stands for itself. -/
def join (directory path : String) : String :=
  if isAbsolute path || directory == "" then path
  else if directory.toList.getLast? == some '/' then directory ++ path
  else directory ++ "/" ++ path

/-- The path of a location. -/
def ofLocation (loc : Location) : String :=
  "/".intercalate loc

end Path

end TagVersion
