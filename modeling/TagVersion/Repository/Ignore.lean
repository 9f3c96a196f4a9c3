import TagVersion.Repository.PathRule
import TagVersion.Repository.Snapshot

/-!
# Ignored files

A directory can hold a list of patterns for files that are not to be tracked. Of the rules for a
path those in the nearest directory come first, and of these the last one; a path without a rule
is ignored if its directory is. An exception is kept only if it may concern a rule before it in
the same list. A symbolic link is no list.
-/

namespace TagVersion

namespace PathRule

/-- Whether an exception without regard to wildcards takes something back from a rule: the
patterns are the same, or one of them is a name at the end of the other. -/
def takesBack (rule exception : PathRule) : Bool :=
  let endsWithName (long short : List UInt8) : Bool :=
    short.length < long.length && !short.contains NameGlob.slash &&
      (NameGlob.slash :: short).isSuffixOf long
  !rule.isException && exception.isException &&
    (rule.pattern == exception.pattern || endsWithName rule.pattern exception.pattern ||
      endsWithName exception.pattern rule.pattern)

/-- Whether an exception may concern a rule. A rule with wildcards is tried on the pattern of
the exception as if that were a path. -/
def mayConcern (exception rule : PathRule) : Bool :=
  if rule.hasWildcards then
    NameGlob.accepts rule.isForPaths
      (NameGlob.parts rule.isForPaths (rule.directory ++ rule.pattern))
      (exception.directory ++ exception.pattern)
  else takesBack rule exception

end PathRule

/-- The rules of a list in the order of its lines. -/
abbrev IgnoreList := List PathRule

namespace IgnoreList

/-- Adds a rule, unless it is an exception from nothing. -/
def add (rules : IgnoreList) (rule : PathRule) : IgnoreList :=
  if rule.isException && !rules.any rule.mayConcern then rules else rules ++ [rule]

/-- Whether a line holds no pattern. -/
def isEmptyLine (bytes : List UInt8) : Bool :=
  match bytes with
  | [] => true
  | [b] => b == PathRule.newline || b == PathRule.numberSign
  | b :: c :: _ =>
    b == PathRule.newline || b == PathRule.numberSign ||
      (b == PathRule.carriageReturn && c == PathRule.newline)

/-- Reads the lines of a list. -/
def ofLines (directory : List UInt8) (rules : IgnoreList) : Nat → List UInt8 → IgnoreList
  | 0, _ => rules
  | fuel + 1, bytes =>
    if bytes = [] then rules
    else if isEmptyLine bytes then ofLines directory rules fuel (PathRule.nextLine bytes)
    else
      let (rule, rest) := PathRule.cut directory true bytes
      ofLines directory (rule.elim rules rules.add) fuel (PathRule.nextLine rest)

/-- The rules of a list in a directory. -/
def read (directory : List UInt8) (content : ByteArray) : IgnoreList :=
  let bytes := patternListBytes content.toList
  ofLines directory [] (bytes.length + 1) bytes

/-- What the last rule for a path says. -/
def verdict? (rules : IgnoreList) (path : List UInt8) (isDirectory : Bool) : Option Bool :=
  (rules.reverse.find? (·.accepts path isDirectory)).map (!·.isException)

end IgnoreList

/-- The lists of ignored files in a working tree, each with its directory. -/
structure IgnoreLists where
  lists : List (Location × IgnoreList)
  /-- The list of the repository itself, which comes last. -/
  shared : IgnoreList

/-- A path below the working tree as bytes. -/
def pathBytes (names : Location) : List UInt8 :=
  (Path.ofLocation names).toUTF8.toList

/-- The path of a directory as the start of the paths below it. -/
def leadBytes (names : Location) : List UInt8 :=
  if names = [] then [] else pathBytes names ++ [NameGlob.slash]

namespace IgnoreLists

/-- What the lists in a directory and above it say about a path. -/
def verdictFrom (l : IgnoreLists) (path : List UInt8) (isDirectory : Bool) (directory : Location) :
    Option Bool :=
  ((List.range (directory.length + 1)).reverse.findSome? fun n =>
      (l.lists.lookup (directory.take n)).bind (·.verdict? path isDirectory)) <|>
    l.shared.verdict? path isDirectory

/-- Whether a path is ignored, by a rule for it or for a directory above it. -/
def isIgnored (l : IgnoreLists) (names : Location) (isDirectory : Bool) : Bool :=
  match l.verdictFrom (pathBytes names) isDirectory names.dropLast with
  | some ignored => ignored
  | none =>
    match names with
    | [] => false
    | name :: below => l.isIgnored (name :: below).dropLast true
  termination_by names.length

end IgnoreLists

namespace FileTree

/-- The name of a list of ignored files. -/
def ignoreListName : String := ".gitignore"

/-- Where the repository in a working tree keeps its own list. -/
def sharedIgnoreList : Location := [repositoryName, "info", "exclude"]

/-- The lists of ignored files in a working tree. -/
def ignoreLists (t : FileTree) (workdir : Location) : IgnoreLists where
  lists := t.nodes.filterMap fun (loc, node) =>
    match node with
    | .file content _ =>
      if loc.getLast? = some ignoreListName && workdir.isPrefixOf loc then
        let directory := loc.dropLast.drop workdir.length
        some (directory, IgnoreList.read (leadBytes directory) content)
      else none
    | _ => none
  shared :=
    match t.node? (workdir ++ sharedIgnoreList) with
    | some (.file content _) => IgnoreList.read [] content
    | _ => []

end FileTree

end TagVersion
