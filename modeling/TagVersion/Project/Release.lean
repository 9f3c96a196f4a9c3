import TagVersion.Project.Versioning

/-!
# Releasing the next version

A release bumps one component of the version. All checks come first, in a fixed order, and none
of them touches the project. Then the sources are rewritten and committed, the release is
tagged, and the hook is run.
-/

namespace TagVersion

/-- What is asked of a release. -/
structure BumpRequest where
  component : Component
  /-- Whether anything is to be persisted. -/
  commit : Bool
  /-- Whether the whole working tree is to be committed. -/
  commitAll : Bool
  /-- The branch to assume in place of the one that is checked out. -/
  simulatedBranch : Option String
deriving DecidableEq, Repr

/-- What a release did, or would have done. -/
structure BumpReport where
  version : String
  branch : String
  modified : List String
  diagnostics : List Diagnostic
deriving DecidableEq, Repr

/-- What the checks of a release find out. -/
structure BumpPlan where
  version : String
  branch : String
deriving DecidableEq, Repr

namespace Versioning

variable {σ : Type} [VersionControl σ]

/-- The branch of a release. -/
def releaseBranch (request : BumpRequest) (scm : σ) : Except Error String :=
  match request.simulatedBranch with
  | some branch => .ok branch
  | none => VersionControl.branch scm

/-- The checks of a release that need no look at the files: the strategy, the backend and the
branch of the release. -/
def releaseTarget (v : Versioning) (request : BumpRequest) (scm : Option σ) :
    Except Error (Strategy × σ × String) := do
  match v.problem with
  | some problem => throw (.disabled problem)
  | none =>
    match v.strategy, scm with
    | some strategy, some scm =>
      let branch ← releaseBranch request scm
      unless strategy.branches.contains branch do
        throw (.branchNotAllowed branch strategy.branches)
      return (strategy, scm, branch)
    | _, _ => throw (.disabled notEnabledProblem)

/-- The checks of a release. -/
def plan (environment : Environment) (v : Versioning) (request : BumpRequest)
    (scm : Option σ) (files : FileTree) : Except Error BumpPlan := do
  let (strategy, scm, branch) ← v.releaseTarget request scm
  let facts ← VersionControl.facts scm files
  if request.commit && facts.dirty && !request.commitAll then
    throw .pendingChanges
  let version ← strategy.bump environment request.component facts
  return { version, branch }

/-- Runs the hook of a project after a release. One that may not be executed is passed over. -/
def runHook (host : Host) (base : String) (v : Versioning) (request : BumpRequest)
    (p : BumpPlan) : Action σ (List Diagnostic) := do
  let path := Path.join v.root Hook.fileName
  let files := (← get).files
  if files.isExecutable path then
    Hook.execute host base path v.root
      { version := p.version, component := request.component, branch := p.branch
        dryRun := !request.commit }
    return []
  else if files.pathExists path then
    return [← Action.remark (.hookSkipped path)]
  else
    return []

/-- Remarks that nothing will be persisted, unless the release is to be committed. -/
def notice (request : BumpRequest) : Action σ (List Diagnostic) :=
  if request.commit then return [] else return [← Action.remark .notCommitting]

/-- Rewrites the sources of the version, if it is defined. -/
def updateVersion (v : Versioning) (m : Metadata) (request : BumpRequest) (version : String) :
    Action σ SourceUpdate :=
  match m.definition? Metadata.versionKey with
  | some d => Action.updateSources v.root version request.commit request.commitAll d
  | none => return ⟨[], []⟩

/-- What a release does once all checks are passed: the sources are rewritten and committed, the
release is tagged and the hook is run. -/
def carryOut (host : Host) (base : String) (v : Versioning) (m : Metadata)
    (request : BumpRequest) (p : BumpPlan) : Action σ BumpReport := do
  let remarks ← notice request
  let update ← v.updateVersion m request p.version
  Action.applyTag request.commit p.version
  let skipped ← v.runHook host base request p
  return { version := p.version
           branch := p.branch
           modified := update.modified
           diagnostics := remarks ++ update.diagnostics ++ skipped }

/-- Releases the next version of a project. -/
def bump (host : Host) (base : String) (v : Versioning) (m : Metadata) (request : BumpRequest) :
    Action σ BumpReport := do
  let remarks ← v.strategyRemarks
  let w ← get
  if (v.releaseTarget request w.scm).isOk then Action.look
  let p ← Action.ofExcept (v.plan host.environment request w.scm w.files)
  let report ← v.carryOut host base m request p
  return { report with diagnostics := remarks ++ report.diagnostics }

end Versioning

end TagVersion
