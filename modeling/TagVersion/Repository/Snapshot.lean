import TagVersion.Files.Tree

/-!
# Snapshots

A commit keeps the files of a working tree as a snapshot: for each path the contents, and whether
it is a file that the owner may execute. A symbolic link is kept with the path along which it leads
for its contents.
-/

namespace TagVersion

/-- What lies at a path of a snapshot. -/
inductive BlobKind where
  | file
  /-- A file that its owner may execute. -/
  | executable
  | link
deriving DecidableEq, Repr

namespace BlobKind

/-- The kind of a file with the given permissions. -/
def ofMode (mode : Nat) : BlobKind :=
  if mode &&& 0o100 = 0 then .file else .executable

end BlobKind

/-- A file or a link in a snapshot. -/
structure Blob where
  content : ByteArray
  kind : BlobKind

namespace Blob

theorem eq_iff {a b : Blob} :
    a = b ↔ a.content.data = b.content.data ∧ a.kind = b.kind := by
  cases a
  cases b
  simp [ByteArray.ext_iff]

/-- Blobs are equal when their bytes and their kinds are. -/
instance : DecidableEq Blob := fun _ _ => decidable_of_iff _ eq_iff.symm

end Blob

/-- Files by their paths, in ascending order of the paths. -/
abbrev Snapshot := List (String × Blob)

namespace Snapshot

/-- Puts a file under its path, in place of what is there. -/
def insert (s : Snapshot) (path : String) (blob : Blob) : Snapshot :=
  match s with
  | [] => [(path, blob)]
  | (p, b) :: rest =>
    if path < p then (path, blob) :: (p, b) :: rest
    else if path = p then (path, blob) :: rest
    else (p, b) :: insert rest path blob

/-- Puts a file under its path and drops the files that would need that path as a directory,
or lie in its way. -/
def add (s : Snapshot) (path : String) (blob : Blob) : Snapshot :=
  insert
    (s.filter fun (p, _) =>
      !((p ++ "/").toList.isPrefixOf path.toList || (path ++ "/").toList.isPrefixOf p.toList))
    path blob

end Snapshot

/-- The blob of a file, whatever else its permissions are, or of a link. -/
def FileNode.blob? : FileNode → Option Blob
  | .file content mode => some ⟨content, .ofMode mode⟩
  | .link target => some ⟨target.toUTF8, .link⟩
  | .directory => none

namespace FileTree

/-- The name of the directory in which a repository is kept. -/
def repositoryName : String := ".git"

/-- Whether a name is that of a repository, in whatever case it is written. -/
def isRepositoryName (name : String) : Bool :=
  name.toList.map Char.toLower == repositoryName.toList

/-- The path of a location below a directory, unless it leads into a repository. -/
def workPath? (directory loc : Location) : Option String :=
  if directory.isPrefixOf loc then
    let below := loc.drop directory.length
    if below.any isRepositoryName then none else some (Path.ofLocation below)
  else none

/-- The snapshot of all files below a directory. -/
def snapshot (t : FileTree) (directory : Location) : Snapshot :=
  t.nodes.foldl (fun s (loc, node) =>
    match workPath? directory loc, node.blob? with
    | some path, some blob => s.insert path blob
    | _, _ => s) []

/-- The blob of what lies at a path below a directory. No link is followed. -/
def blobAt? (t : FileTree) (directory : Location) (path : String) : Option Blob :=
  (t.node? (directory ++ Path.names path)).bind (·.blob?)

/-- The blob of what a path leads to from a directory. Links on the way are followed, but not one at
the end of it. -/
def blobAlong? (t : FileTree) (directory : Location) (path : String) : Option Blob :=
  let names := Path.names path
  match t.walk maxLinks directory names.dropLast with
  | .error _ => none
  | .ok above =>
    match t.node? above, names.getLast?.map (step above) with
    | some .directory, some (.ok loc) => (t.node? loc).bind (·.blob?)
    | _, _ => none

end FileTree

end TagVersion
