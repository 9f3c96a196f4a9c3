import TagVersion.Repository.Describe
import TagVersion.Workspace

/-!
# Releasing from a repository

A checkout is a repository together with its working tree and the remote to which releases are
published. It is the backend for projects that are kept in a repository. It reads the staged
files once and works on what it read; only when it looks for changes does it see that they were
saved anew, and then it forgets what it has not saved itself.
-/

namespace TagVersion

/-- The staged files as a checkout works on them. -/
structure Staging where
  entries : Snapshot
  /-- The saved files that this goes back to. -/
  saved : Snapshot

/-- A repository, where its working tree lies and where its releases go. -/
structure Checkout where
  repository : Repository
  /-- The staged files, once they were read. -/
  staging : Option Staging
  workdir : Location
  remote : String
  /-- The present time, for the tags that are made. -/
  now : Nat

namespace Checkout

/-- The remote to which releases are published unless another one is named. -/
def defaultRemote : String := "origin"

/-- The paths that stand for the whole working tree. -/
def stageAllPath : String := "."

def releaseTag (version : String) : String := "v" ++ version

def releaseMessage (version : String) : String := "Version " ++ version

/-- A refused request; what was already done remains. -/
def refused (c : Checkout) (log : List LogRecord) : Reply Checkout :=
  ⟨.error (.scm .repository), c, log⟩

/-- Publishes a reference. A remote that was never set up is no reason to fail. -/
def publish (c : Checkout) (name : String) (log : List LogRecord) : Reply Checkout :=
  match c.repository.remotes.lookup c.remote with
  | none =>
    ⟨.ok (), c, log ++ [.info ("No remote named '" ++ c.remote ++ "', not pushing")]⟩
  | some target =>
    match c.repository.push c.remote target name with
    | .ok repository => ⟨.ok (), { c with repository }, log⟩
    | .error e => ⟨.error e, c, log⟩

/-- The complaint about a text that a repository cannot store. -/
def unstorable : ScmFault :=
  .stated "data contained a nul byte that could not be represented as a string"

/-- Whether a repository can store a text. -/
def isStorable (text : String) : Bool :=
  !text.toList.contains '\x00'

/-- Tags the present commit as the release of a version. -/
def applyTag (c : Checkout) (commit : Bool) (version : String) : Reply Checkout :=
  let tag := releaseTag version
  let message := releaseMessage version
  if !commit then
    ⟨.ok (), c,
      [.info ("Would run: git tag -a " ++ tag ++ " -m \"" ++ message ++ "\""),
       .info ("Would run: git push " ++ c.remote ++ " " ++ tag)]⟩
  else if c.repository.headCommit?.isNone || !c.repository.hasIdentity then c.refused []
  else if !isStorable version then ⟨.error (.scm unstorable), c, []⟩
  else
    match c.repository.tag tag (some ⟨tag, message, c.now⟩) with
    | none => c.refused []
    | some repository =>
      { c with repository }.publish (RefName.ofTag tag) [.info ("Created tag " ++ tag)]

/-! ### Staging -/

/-- The staged files as the checkout works on them. -/
def read (c : Checkout) : Staging :=
  c.staging.getD ⟨c.repository.index, c.repository.index⟩

/-- Reads the staged files again if they were saved anew. -/
def refresh (c : Checkout) : Checkout :=
  if c.repository.headCommit?.isNone then c
  else
    let s := c.read
    { c with
      staging := some (if s.saved = c.repository.index then s else ⟨c.repository.index, c.repository.index⟩) }

/-- Saves the staged files. -/
def save (c : Checkout) (entries : Snapshot) : Checkout :=
  { c with repository := { c.repository with index := entries }, staging := some ⟨entries, entries⟩ }

/-- What is wrong with a path as the path of a file in a repository. -/
def pathFault? (path : String) : Option ScmFault :=
  let cs := path.toList
  if !isStorable path then some unstorable
  else
    match (cs.splitOn '/').filter (· != []) with
    | [] =>
      some (.stated
        (if cs = [] then "repo path should not be empty"
         else "repo path \x60" ++ path ++ "\x60 should be relative"))
    | first :: _ =>
      if cs.head? = some '/' then
        some (.stated ("repo path \x60" ++ path ++ "\x60 should be relative"))
      else if first = ['.'] then
        some (.stated ("repo path \x60" ++ path ++ "\x60 should not start with \x60.\x60"))
      else if first = ['.', '.'] then
        some (.stated ("repo path \x60" ++ path ++ "\x60 should not start with \x60..\x60"))
      else none

/-- Stages the files at the given paths one after the other. A path that cannot be staged ends
this; the files before it stay staged. -/
def stagePaths (files : FileTree) (settings : StorageSettings) (workdir : Location)
    (index : Snapshot) : List String → Snapshot × Except Error Unit
  | [] => (index, .ok ())
  | path :: rest =>
    match pathFault? path with
    | some fault => (index, .error (.scm fault))
    | none =>
      match files.stage settings workdir path index with
      | some index => stagePaths files settings workdir index rest
      | none => (index, .error (.scm .repository))

/-- Stages the given paths, or everything if the path of the whole working tree is among
them. -/
def stagePathsOrAll (files : FileTree) (settings : StorageSettings) (workdir : Location)
    (index : Snapshot) (paths : List String) : Snapshot × Except Error Unit :=
  if paths.contains stageAllPath then
    match files.stageAll settings workdir index with
    | (index, true) => (index, .ok ())
    | (index, false) => (index, .error (.scm .repository))
  else stagePaths files settings workdir index paths

/-- The name of the branch that is checked out; a checkout without a branch has a name of its
own. -/
def branch (c : Checkout) : Except Error String :=
  match c.repository.head, c.repository.headCommit? with
  | _, none => .error (.scm .repository)
  | .branch name, some _ => .ok name
  | .detached _, some _ => .ok "HEAD"

/-- Commits the given files as the release of a version. The files are staged before it is known
whether the commit can be made. -/
def commitFiles (c : Checkout) (files : FileTree) (commit : Bool) (paths : List String)
    (version : String) : Reply Checkout :=
  let message := releaseMessage version
  if !commit then
    ⟨.ok (), c,
      [.info ("Would run: git add " ++ " ".intercalate paths),
       .info ("Would run: git commit -m \"" ++ message ++ "\""),
       .info ("Would run: git push " ++ c.remote)]⟩
  else
    match stagePathsOrAll files c.repository.settings c.workdir c.read.entries paths with
    | (entries, .error e) =>
      ⟨.error e, { c with staging := some { c.read with entries } }, []⟩
    | (entries, .ok ()) =>
      let c := c.save entries
      if c.repository.headCommit?.isNone || !c.repository.hasIdentity then c.refused []
      else if !isStorable version then ⟨.error (.scm unstorable), c, []⟩
      else
        let c := { c with repository := c.repository.commit message }
        let log := [LogRecord.info ("Committed " ++ message)]
        match c.branch with
        | .ok name => c.publish (RefName.ofBranch name) log
        | .error e => ⟨.error e, c, log⟩

instance : VersionControl Checkout where
  refresh := refresh
  facts c files := c.repository.facts c.refresh.read.entries files c.workdir
  branch := branch
  applyTag := applyTag
  commitFiles := commitFiles

end Checkout

end TagVersion
