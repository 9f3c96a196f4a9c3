import TagVersion.Error
import TagVersion.Repository.CommitIds
import TagVersion.Repository.RefName
import TagVersion.Repository.Staging

/-!
# Repositories

A repository is a history of commits, each with a snapshot of the files and the commit before
it, with references into the history and a staging area for the next commit. Commits are
numbered in the order in which they were made.
-/

namespace TagVersion

/-- A commit. -/
structure Commit where
  parent : Option Nat
  message : String
  snapshot : Snapshot

/-- What an annotated tag says. -/
structure TagNote where
  /-- The name that the tag was given, which its reference may have in another form. -/
  name : String
  message : String
  /-- When the tag was made. -/
  time : Nat
deriving DecidableEq, Repr

/-- A name for a commit. -/
structure Ref where
  name : String
  target : Nat
  note : Option TagNote
deriving DecidableEq, Repr

/-- What is checked out. -/
inductive Head where
  | branch (name : String)
  | detached (commit : Nat)
deriving DecidableEq, Repr

/-- A repository with a working tree. -/
structure Repository where
  commits : List Commit
  head : Head
  /-- The references in ascending order of their names. -/
  refs : List Ref
  /-- The files staged for the next commit, as they are saved. -/
  index : Snapshot
  /-- Whether it is known who makes commits. -/
  hasIdentity : Bool
  /-- The remotes with their references; none for a remote that cannot be reached. -/
  remotes : List (String × Option (List Ref))
  /-- The ids of the commits, those of commits to come included. -/
  ids : CommitIds := .numbered
  settings : StorageSettings := {}

namespace Repository

/-- An empty repository with the given branch checked out. -/
def init (branch : String) (hasIdentity : Bool) : Repository where
  commits := []
  head := .branch branch
  refs := []
  index := []
  hasIdentity
  remotes := []

/-! ### References -/

/-- Puts a reference in its place in the order, in place of one of the same name. -/
def putRef (refs : List Ref) (r : Ref) : List Ref :=
  match refs with
  | [] => [r]
  | s :: rest =>
    if r.name < s.name then r :: s :: rest
    else if r.name = s.name then r :: rest
    else s :: putRef rest r

def ref? (refs : List Ref) (name : String) : Option Ref :=
  refs.find? (·.name == name)

/-- The commit that is checked out, if there is any yet. -/
def headCommit? (r : Repository) : Option Nat :=
  match r.head with
  | .branch name => (ref? r.refs (RefName.ofBranch name)).map (·.target)
  | .detached commit => some commit

/-- The commit and all before it, the newest first. -/
def ancestry (commits : List Commit) (n : Nat) : List Nat :=
  n :: match (commits[n]?).bind (·.parent) with
    | some p => if p < n then ancestry commits p else []
    | none => []
  termination_by n

/-- The history of what is checked out, the newest commit first. -/
def history (r : Repository) : List Nat :=
  match r.headCommit? with
  | some n => ancestry r.commits n
  | none => []

/-- The snapshot that is checked out. -/
def headSnapshot (r : Repository) : Snapshot :=
  ((r.headCommit?.bind fun n => r.commits[n]?).map (·.snapshot)).getD []

/-! ### Changes -/

/-- Whether tracked files have changes that no commit holds, staged or not. Files that are not
tracked do not count. -/
def isDirty (r : Repository) (index : Snapshot) (files : FileTree) (workdir : Location) : Bool :=
  index != r.headSnapshot ||
    index.any fun (path, blob) =>
      files.storedBlob? r.settings workdir index path != some blob

/-- Makes a commit of the staged files after the one that is checked out. -/
def commit (r : Repository) (message : String) : Repository :=
  let n := r.commits.length
  let commits := r.commits ++ [{ parent := r.headCommit?, message, snapshot := r.index }]
  match r.head with
  | .branch name =>
    { r with commits, refs := putRef r.refs ⟨RefName.ofBranch name, n, none⟩ }
  | .detached _ => { r with commits, head := .detached n }

/-- Makes a commit of all files of the working tree, if they can be staged. -/
def commitAll (r : Repository) (files : FileTree) (workdir : Location) (message : String) :
    Repository :=
  match files.stageAll r.settings workdir r.index with
  | (index, true) => { r with index }.commit message
  | (_, false) => r

/-- Stages the file at a path, if it can be staged. -/
def stage (r : Repository) (files : FileTree) (workdir : Location) (path : String) : Repository :=
  { r with index := (files.stage r.settings workdir path r.index).getD r.index }

/-- Names the commit that is checked out, unless the name is no name or taken. -/
def tag (r : Repository) (name : String) (note : Option TagNote) : Option Repository :=
  match r.headCommit? with
  | some target =>
    let full := RefName.joined (RefName.ofTag name)
    if RefName.isValid full && RefName.isStorable full &&
        !r.refs.any (fun s => s.name == full || RefName.conflicts s.name full)
    then some { r with refs := putRef r.refs ⟨full, target, note⟩ }
    else none
  | none => none

/-- Makes a branch at the commit that is checked out and checks it out. -/
def switchToNew (r : Repository) (branch : String) : Repository :=
  match r.headCommit? with
  | some target =>
    { r with head := .branch branch, refs := putRef r.refs ⟨RefName.ofBranch branch, target, none⟩ }
  | none => { r with head := .branch branch }

/-- Checks out the present commit without a branch. -/
def detach (r : Repository) : Repository :=
  match r.headCommit? with
  | some target => { r with head := .detached target }
  | none => r

/-- Adds a remote, which is empty if it can be reached. -/
def addRemote (r : Repository) (name : String) (reachable : Bool) : Repository :=
  { r with remotes := r.remotes ++ [(name, if reachable then some [] else none)] }

/-- Puts the references of a remote in place of those it had. -/
def putRemote (remotes : List (String × Option (List Ref))) (name : String) (refs : List Ref) :
    List (String × Option (List Ref)) :=
  remotes.map fun (n, old) => if n == name then (n, some refs) else (n, old)

/-- Sends a reference to a remote, which is known to be there. A branch that was sent is
followed from then on. -/
def push (r : Repository) (remote : String) (target : Option (List Ref)) (name : String) :
    Except Error Repository :=
  match target, ref? r.refs name with
  | some refs, some sent =>
    let r := { r with remotes := putRemote r.remotes remote (putRef refs sent) }
    match RefName.branch? name with
    | some branch =>
      .ok { r with refs := putRef r.refs ⟨RefName.ofTracked remote branch, sent.target, none⟩ }
    | none => .ok r
  | _, _ => .error (.scm .repository)

end Repository

end TagVersion
