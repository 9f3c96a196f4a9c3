import TagVersion.Diagnostic
import TagVersion.Repository.Checkout
import TagVersion.Text.Lossy

/-!
# Finding the repository of a project

A working directory can hold repositories, each in a directory of its own. The repository of a
project is the one kept in the project's directory or else in the nearest directory above it; a
file in place of the repository's directory says where the repository is. What is checked out
stands in a file of the repository, which may be written like any other file.
-/

namespace TagVersion

/-- A working directory with the repositories that are kept in it. -/
structure Site where
  files : FileTree
  repositories : List (Location × Repository)

namespace Site

/-! ### The directory of a repository -/

/-- The file that says what is checked out. -/
def headFile : Location := [FileTree.repositoryName, "HEAD"]

/-- The directories of an empty repository. -/
def layout : List Location :=
  [[], ["hooks"], ["info"], ["objects"], ["objects", "info"], ["objects", "pack"], ["refs"],
    ["refs", "heads"], ["refs", "tags"]].map (FileTree.repositoryName :: ·)

/-- What the file of the checked out branch begins with. -/
def headLead : String := "ref: "

/-- What a text says of what is checked out, if it names a branch. -/
def head? (text : String) : Option Head :=
  if headLead.toList.isPrefixOf text.toList then
    let name := (text.toList.drop headLead.length).takeWhile (· != '\n')
    (RefName.branch? (String.ofList (Text.dropEndWhile Text.isBlank name))).map .branch
  else none

/-- The files with those of a repository in which nothing was done yet. -/
def withLayout (files : FileTree) (workdir : Location) (branch : String) : FileTree :=
  let files := layout.foldl (fun t loc => t.place (workdir ++ loc) .directory) files
  files.place (workdir ++ headFile)
    (.file (headLead ++ RefName.ofBranch branch ++ "\n").toUTF8 FileTree.newFileMode)

/-- Whether a directory has what every repository has. -/
def isRepository (files : FileTree) (directory : Location) : Bool :=
  (match files.node? (directory ++ ["HEAD"]) with
    | some (.file ..) => true
    | _ => false) &&
  files.node? (directory ++ ["objects"]) == some .directory &&
  files.node? (directory ++ ["refs"]) == some .directory

/-- The working tree of the repository in a directory. -/
def workdirOf? (s : Site) (directory : Location) : Option Location :=
  let workdir := directory.dropLast
  if directory.getLast? = some FileTree.repositoryName && (s.repositories.lookup workdir).isSome &&
      isRepository s.files directory then some workdir
  else none

/-! ### Finding a repository -/

/-- What begins a file that says where a repository is. -/
def linkLead : String := "gitdir:"

/-- The working tree of the repository that a file points to. -/
def linked? (s : Site) (loc : Location) (content : ByteArray) : Option Location :=
  let text := Text.dropEndWhile Text.isBlank (Text.lossy content).toList
  if linkLead.toList.isPrefixOf text && linkLead.length < text.length then
    let path := (text.drop linkLead.length).dropWhile Text.isBlank
    match s.files.resolveFrom loc.dropLast (String.ofList path) with
    | .ok directory => s.workdirOf? directory
    | .error _ => none
  else none

/-- The working tree of the repository that lies at a location itself: none if nothing of the
kind lies there, and an error for a file that points to no repository. -/
def at? (s : Site) (loc : Location) : Option (Except Error Location) :=
  match s.files.node? loc with
  | some .directory => (s.workdirOf? loc).map .ok
  | some (.file content _) =>
    if loc.getLast? = some FileTree.repositoryName then
      match s.linked? loc content with
      | some workdir => some (.ok workdir)
      | none => some (.error (.scm .repository))
    else none
  | _ => none

/-- The directories from a location up to the working directory. -/
def upwards (loc : Location) : List Location :=
  (List.range (loc.length + 1)).reverse.map fun n => loc.take n

/-- The working tree of the repository that a path belongs to. -/
def discover (s : Site) (path : String) : Except Error Location :=
  match s.files.resolve (if path = "" then "." else path) with
  | .error _ => .error (.scm .repository)
  | .ok loc =>
    if (s.files.node? loc).isNone then .error (.scm .repository)
    else
      ((upwards loc).findSome? fun l =>
        s.at? (l ++ [FileTree.repositoryName]) <|> s.at? l).getD (.error (.scm .repository))

/-- The working tree of the repository that is kept in a directory itself. -/
def kept (s : Site) (loc : Location) : Except Error Location :=
  (s.at? (loc ++ [FileTree.repositoryName])).getD (.error (.scm .repository))

/-- The repository of the project in a directory, if the directory keeps one itself. -/
def ofProject (s : Site) (root : String) : Option Location × List LogRecord :=
  if s.files.isDirectory (Path.join root FileTree.repositoryName) then
    ((s.discover root).toOption, [])
  else
    (none, [.trace ("could not determine SCM for '" ++ root ++ "'")])

/-! ### Changes -/

/-- The repository in a working tree, as long as it is whole. -/
def repository? (s : Site) (workdir : Location) : Option Repository :=
  if isRepository s.files (workdir ++ [FileTree.repositoryName]) then
    s.repositories.lookup workdir
  else none

/-- Changes the repository in a working tree. -/
def update (s : Site) (workdir : Location) (change : Repository → Repository) : Site :=
  { s with
    repositories := s.repositories.map fun (l, r) =>
      if l == workdir then (l, change r) else (l, r) }

/-- Makes a repository in a directory. One that is already there stays as it is, but may come to
know who makes commits. -/
def init (s : Site) (loc : Location) (branch : String) (hasIdentity : Bool) : Site :=
  if (s.repository? loc).isSome then
    s.update loc fun r => { r with hasIdentity := r.hasIdentity || hasIdentity }
  else
    { files := withLayout s.files loc branch
      repositories :=
        s.repositories.filter (·.1 != loc) ++ [(loc, Repository.init branch hasIdentity)] }

/-- Puts a node at a location. Where this is the file of what is checked out, another branch may
be from then on. -/
def place (s : Site) (loc : Location) (node : FileNode) : Site :=
  let s := { s with files := s.files.place loc node }
  let workdir := loc.take (loc.length - headFile.length)
  match node with
  | .file content _ =>
    if workdir ++ headFile = loc then
      match head? (Text.lossy content) with
      | some head => s.update workdir ({ · with head })
      | none => s
    else s
  | _ => s

/-- Takes away what is at a location and below it, and with it the repositories there. -/
def remove (s : Site) (loc : Location) : Site :=
  { files := s.files.remove loc
    repositories := s.repositories.filter fun (workdir, _) =>
      !loc.isPrefixOf (workdir ++ [FileTree.repositoryName]) }

end Site

end TagVersion
