import TagVersion.Repository.Conversion

/-!
# Staging files

Before files are committed they are staged: what a repository keeps of them is put into a
snapshot under their paths. Whole working trees are staged path by path; a path that cannot be
staged ends this, and what was staged before it stays.

Files, directories and symbolic links are as the working tree has them. What a library for
repositories may do otherwise on request is left out: to take no notice of permissions, of the case
of names or of files that are marked so, to keep links as files, to refuse line ends that it could not
bring back, to keep another repository below by its commit, and filters of its own besides those of
`Conversion`.
-/

namespace TagVersion

/-! ### Paths in snapshots -/

namespace IndexPath

/-- Whether a name could be taken for that of the directory of a repository on some file
system. -/
def isRepositoryLike (name : List Char) : Bool :=
  let isTail (rest : List Char) : Bool :=
    rest.head? = some '\\' || rest.head? = some ':' || rest.all fun c => c == ' ' || c == '.'
  [".git", "git~1"].any fun lead =>
    lead.toList == (name.take lead.length).map Char.toLower && isTail (name.drop lead.length)

/-- Whether a path can stand in a snapshot. -/
def isValid (path : String) : Bool :=
  (path.toList.splitOn '/').all fun name =>
    !(name = [] || name = ['.'] || name = ['.', '.'] || isRepositoryLike name)

end IndexPath

namespace Snapshot

/-- Whether there are files below a directory. -/
def hasBelow (s : Snapshot) (path : String) : Bool :=
  let lead := (path ++ "/").toList
  s.any fun (p, _) => lead.isPrefixOf p.toList

/-- Takes the file at a path away. -/
def erase (s : Snapshot) (path : String) : Snapshot :=
  s.filter fun (p, _) => p != path

end Snapshot

namespace FileTree

/-- What a repository keeps of a file at a path, or of a link, besides what is staged already. -/
def stored (t : FileTree) (settings : StorageSettings) (workdir : Location) (index : Snapshot)
    (path : String) (blob : Blob) : Blob :=
  let conversion :=
    Conversion.ofAttributes settings (t.attributeLists workdir index) (Path.names path)
  if blob.kind = .link ∨ conversion = .none then blob
  else
    let hasReturns := (index.lookup path).any fun b =>
      b.kind == .link || b.content.toList.contains 0x0D
    { blob with content := ⟨(conversion.stored hasReturns blob.content.toList).toArray⟩ }

/-- What a repository keeps of what lies at a path, besides what is staged already. -/
def storedBlob? (t : FileTree) (settings : StorageSettings) (workdir : Location) (index : Snapshot)
    (path : String) : Option Blob :=
  (t.blobAt? workdir path).map (t.stored settings workdir index path)

/-- Stages what a path leads to. -/
def stage (t : FileTree) (settings : StorageSettings) (workdir : Location) (path : String)
    (index : Snapshot) : Option Snapshot :=
  if IndexPath.isValid path then
    (t.blobAlong? workdir path).map fun blob =>
      index.add path (t.stored settings workdir index path blob)
  else none

/-! ### Whole working trees -/

/-- Whether a directory that is not ignored holds a repository of its own. -/
def holdsRepository (t : FileTree) (workdir names : Location) : Bool :=
  (t.node? (workdir ++ names ++ [repositoryName])).isSome

/-- The path to stage for a file that is not tracked: none if it or a directory above it is
ignored, and the directory instead if it holds a repository. A directory with tracked files is
always entered. -/
def untrackedPath? (t : FileTree) (workdir : Location) (ignored : IgnoreLists) (index : Snapshot)
    (path : String) : Option String :=
  let names := Path.names path
  let outcome := (List.range names.length).findSome? fun n =>
    let directory := names.take n
    let lead := Path.ofLocation directory
    if n = 0 || index.hasBelow lead then none
    else if ignored.isIgnored directory true then some none
    else if t.holdsRepository workdir directory then some (some (lead ++ "/"))
    else none
  match outcome with
  | some result => result
  | none => if ignored.isIgnored names false then none else some path

/-- The paths at which the working tree may differ from what is staged, in ascending order. -/
def changedPaths (t : FileTree) (workdir : Location) (index : Snapshot) : List String :=
  let ignored := t.ignoreLists workdir
  let untracked := (t.snapshot workdir).filterMap fun (path, _) =>
    if (index.lookup path).isSome then none else t.untrackedPath? workdir ignored index path
  (untracked ++ index.map (·.1)).mergeSort (fun a b => a ≤ b)

/-- Stages the given paths, where a path without a file is dropped. The flag tells whether all
could be staged. -/
def stageChanges (t : FileTree) (settings : StorageSettings) (workdir : Location)
    (index : Snapshot) : List String → Snapshot × Bool
  | [] => (index, true)
  | path :: rest =>
    if !IndexPath.isValid path then (index, false)
    else
      match t.storedBlob? settings workdir index path with
      | some blob => stageChanges t settings workdir (index.add path blob) rest
      | none => stageChanges t settings workdir (index.erase path) rest

/-- Stages all files of the working tree and drops those that are gone. A file that is ignored
is staged only if it is tracked already. -/
def stageAll (t : FileTree) (settings : StorageSettings) (workdir : Location) (index : Snapshot) :
    Snapshot × Bool :=
  stageChanges t settings workdir index (t.changedPaths workdir index)

end FileTree

end TagVersion
