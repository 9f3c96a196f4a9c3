import TagVersion.Project.Draft
import TagVersion.Project.Hook
import TagVersion.Project.Sources
import TagVersion.Strategy.Rendering

/-!
# Versioning a project

The strategy that a project declares, joined with its source control and metadata: filling in
the version from the facts of the checkout, and releasing the next version.
-/

namespace TagVersion

/-- The strategy of a project and what stands in its way. -/
structure Versioning where
  strategy : Option Strategy
  /-- Where the project lies. -/
  root : String
  enabled : Bool
  problem : Option String

/-- The complaint about a project that declares no versioning. -/
def notEnabledProblem : String := "versioning not enabled"

/-- The build system whose versions are not filled in. -/
def alternateBuildSource : String := "pygradle"

namespace Versioning

/-- Reads the declaration of a project. A missing declaration comes before missing source
control, and that before what is wrong with the strategy. -/
def ofDeclaration (d : Option Declaration) (hasScm : Bool) (root : String) : Versioning :=
  let strategy := d.bind Strategy.ofDeclaration?
  { strategy
    root
    enabled := strategy.any (·.problem?.isNone)
    problem :=
      match strategy with
      | none => some notEnabledProblem
      | some s => if hasScm then s.problem? else some noScmProblem }

/-- The record of a declaration that was read. -/
def record (v : Versioning) (d : Option Declaration) : LogRecord :=
  .trace
    ("versioning given: '" ++ (d.map (·.display)).getD "" ++
      "', strategy: [" ++ (v.strategy.map (·.display)).getD "" ++
      "], problem: [" ++ v.problem.getD "" ++ "]")

variable {σ : Type}

/-- Reads the declaration in the metadata of a project. -/
def read (m : Metadata) (root : String) : Action σ Versioning := do
  let v := ofDeclaration m.versioning (← get).scm.isSome root
  Action.note [v.record m.versioning]
  return v

/-- Remarks on keys of the declaration that mean nothing. -/
def strategyRemarks (v : Versioning) : Action σ (List Diagnostic) := do
  match v.strategy with
  | some s =>
    if s.ignoredFields = [] then return []
    else return [← Action.remark (.ignoredFields s.ignoredFields)]
  | none => return []

/-! ### Filling in the version -/

/-- Whether the version belongs to another build system that has declared it. -/
def isOwnedElsewhere (d : Definition) : Bool :=
  d.source == alternateBuildSource && d.declared?.any (· != "")

/-- The first declared value with its source, unless it is empty. -/
def declared? (d : Definition) : Option SourceEntry :=
  d.sources.head?.filter (·.value != "")

/-- The remark about a declared value that the version text does not start with. -/
def mismatch? (declared : Option SourceEntry) (rendered : String) : Option Diagnostic :=
  match declared with
  | some e =>
    if rendered = "" ∨ e.value.toList.isPrefixOf rendered.toList then none
    else
      some (.versionMismatch e.source
        (String.ofList (rendered.toList.take e.value.length)) e.value)
  | none => none

/-- Seeds a version that nothing declares, when it cannot be filled in. -/
def seed (declared : Option SourceEntry) : Filling σ Unit :=
  if declared.isSome then return ()
  else Filling.fillIn Metadata.versionKey ⟨"missing", "0.0.0"⟩ false

open Filling (work)

/-- Fills in the version text of the present facts. -/
def fillFromFacts [VersionControl σ] (host : Host) (strategy : Strategy) (scm : σ)
    (declared : Option SourceEntry) : Filling σ (List Diagnostic) := do
  let facts ← work (Action.facts scm)
  let rendered := strategy.render host.environment facts true
  let remarks ←
    match mismatch? declared rendered with
    | some d => do pure [← work (Action.remark d)]
    | none => pure []
  Filling.fillIn Metadata.versionKey ⟨"git", rendered⟩ true
  return remarks

/-- Seeds the version and reports what stands in the way of filling it in. -/
def reportProblem (v : Versioning) (declared : Option SourceEntry) :
    Filling σ (List Diagnostic) := do
  seed declared
  match v.problem with
  | none => return []
  | some text =>
    let remarks ←
      if v.strategy.isSome then do pure [← work (Action.remark (.problem text))] else pure []
    work (Action.note [.trace ("not auto-filling version due to problem: [" ++ text ++ "]")])
    return remarks

/-- Fills in the version of a project from the facts of its checkout. -/
def fillVersion [VersionControl σ] (host : Host) (v : Versioning) :
    Filling σ (List Diagnostic) := do
  let remarks ← work v.strategyRemarks
  if !v.enabled then
    work (Action.note [.trace "not auto-filling version, versioning is disabled"])
    return remarks
  let definition := (← get).metadata.definition? Metadata.versionKey
  if definition.any isOwnedElsewhere then
    work (Action.note [.trace ("not auto-filling version for " ++ alternateBuildSource)])
    return remarks
  let declared := definition.bind declared?
  match v.strategy, (← get).workspace.scm, v.problem with
  | some strategy, some scm, none => return remarks ++ (← fillFromFacts host strategy scm declared)
  | _, _, _ => return remarks ++ (← v.reportProblem declared)

/-- Fills in the version in the given metadata, which is handed back. -/
def autoFill [VersionControl σ] (host : Host) (v : Versioning) (m : Metadata) :
    Action σ (Metadata × List Diagnostic) := fun w =>
  match v.fillVersion host ⟨w, m⟩ with
  | .ok remarks p => .ok (p.metadata, remarks) p.workspace
  | .error e p => .error e p.workspace

end Versioning

end TagVersion
