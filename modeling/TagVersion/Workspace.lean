import TagVersion.Diagnostic
import TagVersion.Error
import TagVersion.Files.Tree
import TagVersion.Environment.Lookup
import TagVersion.Version.Facts

/-!
# Workspaces

A project is worked on in a workspace: its files, the state of its source control and the log.
An operation changes the workspace step by step; when it fails, the steps before the failure
remain. The journal lists the steps that touch anything outside the operation itself, each
recorded as it is taken.
-/

namespace TagVersion

/-- What a source control backend answers to a request that may change its state. -/
structure Reply (σ : Type) where
  result : Except Error Unit
  state : σ
  log : List LogRecord

/-- What versioning needs from source control. A request that is not to be
committed only reports what it would do. -/
class VersionControl (σ : Type) where
  /-- What a look at the files of the checkout leaves of what was read before. -/
  refresh : σ → σ
  /-- The version facts of the present checkout. -/
  facts : σ → FileTree → Except Error VersionFacts
  /-- The name of the branch that is checked out. -/
  branch : σ → Except Error String
  /-- Tags the present commit as the release of a version and publishes the tag. -/
  applyTag : σ → (commit : Bool) → (version : String) → Reply σ
  /-- Commits files as the release of a version. -/
  commitFiles : σ → FileTree → (commit : Bool) → (paths : List String) → (version : String) →
    Reply σ

/-- A step that touches the project. -/
inductive Step where
  | write (path content : String)
  | commitFiles (commit : Bool) (paths : List String) (version : String)
  | applyTag (commit : Bool) (version : String)
  | runHook (path : String) (environment : Environment)
deriving DecidableEq, Repr

/-- What the operating system has against reading or writing a file, whatever lies there. It may
change its mind with every step. A write is refused when the file is opened, which leaves it alone;
one that is broken off later, with a part of the contents in the file, is left out. -/
structure Faults where
  read? : List Step → String → Option SystemError
  write? : List Step → String → Option SystemError

/-- An operating system that has nothing against anything. -/
def Faults.none : Faults where
  read? _ _ := Option.none
  write? _ _ := Option.none

/-- A project while it is worked on. -/
structure Workspace (σ : Type) where
  files : FileTree
  /-- The state of source control, if there is any. -/
  scm : Option σ
  log : List LogRecord
  journal : List Step
  faults : Faults := .none

namespace Workspace

variable {σ : Type}

/-- The text of a file, unless reading fails. -/
def readText (w : Workspace σ) (path : String) : Except SystemError String :=
  match w.faults.read? w.journal path with
  | some e => .error e
  | none => w.files.readText path

/-- The files after a write, unless it fails. -/
def writeText (w : Workspace σ) (path content : String) : Except SystemError FileTree :=
  match w.faults.write? w.journal path with
  | some e => .error e
  | none => w.files.writeText path content

end Workspace

/-- An operation on a workspace. -/
abbrev Action (σ : Type) := EStateM Error (Workspace σ)

namespace Action

variable {σ : Type}

/-- Appends records to the log. -/
def note (records : List LogRecord) : Action σ Unit :=
  modify fun w => { w with log := w.log ++ records }

/-- Records a remark and passes it on. -/
def remark (d : Diagnostic) : Action σ Diagnostic := do
  note [d.record]
  return d

/-- Enters a step in the journal. -/
def enter (s : Step) : Action σ Unit :=
  modify fun w => { w with journal := w.journal ++ [s] }

/-- Passes on an answer. -/
def ofExcept {α : Type} : Except Error α → Action σ α
  | .ok a => pure a
  | .error e => throw e

/-- Takes over what a backend answers. -/
def accept (reply : Reply σ) : Action σ Unit := do
  modify fun w => { w with scm := some reply.state, log := w.log ++ reply.log }
  ofExcept reply.result

/-- Has the backend look at the files of the checkout. -/
def look [VersionControl σ] : Action σ Unit :=
  modify fun w => { w with scm := w.scm.map VersionControl.refresh }

/-- The version facts of the present checkout. -/
def facts [VersionControl σ] (scm : σ) : Action σ VersionFacts := do
  look
  ofExcept (VersionControl.facts scm (← get).files)

/-- Replaces the text of a file. -/
def writeText (path content : String) : Action σ Unit := do
  match (← get).writeText path content with
  | .ok files =>
    enter (.write path content)
    modify fun w => { w with files }
  | .error e => throw (.source ("cannot write " ++ path ++ ": " ++ e.message))

end Action

end TagVersion
