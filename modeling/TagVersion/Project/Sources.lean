import TagVersion.Metadata
import TagVersion.Project.SourceLine
import TagVersion.Workspace

/-!
# Rewriting version sources

A definition points to lines of files. Each line is given the next version in turn, in the file
as the lines before left it, and the files that changed are committed together.
-/

namespace TagVersion

/-- Which files were changed, or would have been, and what was remarked on the way. -/
structure SourceUpdate where
  modified : List String
  diagnostics : List Diagnostic
deriving DecidableEq, Repr

namespace Sources

variable {σ : Type}

/-- The text with the line of a number changed, with that line; nothing if there is no such line
or it is already right. Lines are counted from one. -/
def revised? (text version : List Char) (line : UInt64) : Option (List Char × List Char) :=
  let ls := Text.lines text
  let i := line.toNat - 1
  match ls[i]? with
  | none => none
  | some old =>
    let new := SourceLine.updated old version
    if new = old then none else some ((ls.set i new).flatten, new)

/-- Adds a path to the list of those that are modified, once. -/
def addModified (modified : List String) (path : String) : List String :=
  if modified.contains path then modified else modified ++ [path]

/-- Gives one line the next version. -/
def updateLine (root version : String) (commit : Bool) (source path : String) (line : UInt64)
    (done : SourceUpdate) : Action σ SourceUpdate := do
  let full := Path.join root path
  match (← get).readText full with
  | .error e => throw (.source ("cannot read " ++ full ++ ": " ++ e.message))
  | .ok text =>
    match revised? text.toList version.toList line with
    | none =>
      let d ← Action.remark (.alreadyCorrect source)
      return { done with diagnostics := done.diagnostics ++ [d] }
    | some (content, new) =>
      let modified := addModified done.modified path
      let shown := String.ofList (Text.trim new)
      if commit then
        Action.writeText full (String.ofList content)
        Action.note [.info ("Updated " ++ source ++ " with '" ++ shown ++ "'")]
        return { done with modified }
      else
        let d ← Action.remark (.wouldUpdate source shown)
        return { modified, diagnostics := done.diagnostics ++ [d] }

/-- Gives the lines of all entries the next version; entries that point to no line are passed
over. -/
def updateLines (root version : String) (commit : Bool) :
    List SourceEntry → SourceUpdate → Action σ SourceUpdate
  | [], done => return done
  | e :: rest, done =>
    match e.filePointer? with
    | none => updateLines root version commit rest done
    | some (path, line) => do
      let done ← updateLine root version commit e.source path line done
      updateLines root version commit rest done

end Sources

/-- The complaint about a project without source control. -/
def noScmProblem : String := "project not under a supported SCM"

namespace Action

variable {σ : Type} [VersionControl σ]

/-- The state of source control, which has to be there. -/
def scm : Action σ σ := do
  match (← get).scm with
  | some s => return s
  | none => throw (.disabled noScmProblem)

/-- Asks source control to commit files. -/
def commitFiles (commit : Bool) (paths : List String) (version : String) : Action σ Unit := do
  let s ← scm
  enter (.commitFiles commit paths version)
  accept (VersionControl.commitFiles s (← get).files commit paths version)

/-- Asks source control to tag the release. -/
def applyTag (commit : Bool) (version : String) : Action σ Unit := do
  let s ← scm
  enter (.applyTag commit version)
  accept (VersionControl.applyTag s commit version)

/-- Rewrites the sources of a definition to the next version and commits the files that
changed, or with them the whole working tree. -/
def updateSources (root version : String) (commit commitAll : Bool) (d : Definition) :
    Action σ SourceUpdate := do
  let _ ← scm
  let update ← Sources.updateLines root version commit d.sources ⟨[], []⟩
  if update.modified = [] then return update
  commitFiles commit (if commitAll then ["."] else update.modified) version
  return update

end Action

end TagVersion
