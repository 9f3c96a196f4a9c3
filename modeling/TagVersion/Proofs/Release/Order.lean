import TagVersion.Proofs.Release.Checks
import TagVersion.Proofs.Sources
import TagVersion.Scm.Recorder

/-!
# The order of a release

Once its checks are passed, a release that is to be committed takes its steps in a fixed order: it
writes the sources that change, commits them, tags the release and runs the hook. Any of these may
fail, and then none of the later steps is taken.

* **`releaseSteps`**: the steps, told in advance from the files as they are before the release.
* **`releaseAttempts`**: the steps with the reads that come in between.
* **`follows_carryOut`**: what the checks allow makes these attempts.
* **`bump_steps`**: a whole release does.
-/

namespace TagVersion

open TagVersion.Action

section

variable {σ : Type} [VersionControl σ] {host : Host} {w : Workspace σ}

/-! ## Running the hook -/

/-- A hook that is not only simulated is run once, whatever comes of it. -/
theorem Hook.follows_execute (base path directory : String) {context : HookContext}
    (hrun : context.dryRun = false) :
    Follows host directory (Hook.execute host base path directory context) w
      [.step (.runHook path context.environment)] fun _ _ => True := by
  have hfiles : w.unlogged.files = w.files := rfl
  unfold Hook.execute
  refine .of_get ?_
  unfold Follows
  rw [Workspace.attemptAll_singleton]
  unfold Workspace.attempt
  simp only [hfiles]
  -- a path that leads to no file is refused before the run is entered
  cases w.files.resolve path with
  | error e => rfl
  | ok location =>
    cases w.files.isFile path with
    | false => rfl
    | true =>
      simp only [hrun, Bool.not_true, Bool.false_eq_true, ↓reduceIte]
      -- the verdict on the run comes after its effect
      cases Hook.verdict path
        (host.start { location, directory, extra := context.environment } w.files).2 with
      | ok _ => exact ⟨rfl, trivial⟩
      | error e => rfl

namespace Versioning

/-- The run of the hook of a project, if it may be executed. -/
def hookStep (root : String) (request : BumpRequest) (p : BumpPlan) (files : FileTree) :
    List Step :=
  let path := Path.join root Hook.fileName
  if files.isExecutable path then
    [.runHook path
      [("BUMP_VERSION", p.version), ("BUMP_COMPONENT", request.component.name),
        ("BUMP_BRANCH", p.branch), ("BUMP_DRYRUN", "0")]]
  else []

theorem hookStep_of_sameShape {files files' : FileTree} (h : files.SameShape files')
    (root : String) (request : BumpRequest) (p : BumpPlan) :
    hookStep root request p files' = hookStep root request p files := by
  unfold hookStep
  simp only [h.isExecutable_eq]

theorem follows_runHook (base : String) (v : Versioning) {request : BumpRequest}
    (hcommit : request.commit = true) (p : BumpPlan) :
    Follows host v.root (v.runHook host base request p) w
      ((hookStep v.root request p w.files).map .step) fun _ _ => True := by
  unfold runHook hookStep
  refine .of_get ?_
  by_cases hexecutable : w.files.isExecutable (Path.join v.root Hook.fileName) = true
  · simp only [hexecutable, hcommit, Bool.not_true, ↓reduceIte]
    exact (Hook.follows_execute base _ v.root rfl).bind fun _ _ _ => .of_pure rfl rfl trivial
  · -- a file that may not be executed is only remarked on
    simp only [if_neg hexecutable]
    by_cases hpath : w.files.pathExists (Path.join v.root Hook.fileName) = true
    · simp only [if_pos hpath]
      exact (follows_remark _).bind_of_nil fun _ _ _ => .of_pure rfl rfl trivial
    · simp only [if_neg hpath]
      exact .of_pure rfl rfl trivial

/-! ## The whole release -/

/-- The sources of the version, if it is defined. -/
def versionSources (m : Metadata) : List SourceEntry :=
  match m.definition? Metadata.versionKey with
  | some d => d.sources
  | none => []

/-- The changes that a release makes to the sources of the version. -/
def releaseChanges (root version : String) (m : Metadata) (files : FileTree) :
    List (String × String) :=
  Sources.changes root version files (versionSources m)

theorem follows_updateVersion (v : Versioning) (m : Metadata) {request : BumpRequest}
    (hcommit : request.commit = true) (version : String) (hscm : w.scm.isSome) :
    Follows host v.root (v.updateVersion m request version) w
      (Sources.attempts v.root version w.files (versionSources m) ++
        (commitStep request.commitAll version
          (releaseChanges v.root version m w.files)).map .step)
      fun update w' =>
        w.files.SameShape w'.files ∧
          update.modified = Sources.modified (releaseChanges v.root version m w.files) := by
  unfold updateVersion releaseChanges versionSources
  cases m.definition? Metadata.versionKey with
  | none => exact .of_pure rfl rfl ⟨.refl w.files, rfl⟩
  | some d =>
    rw [hcommit]
    exact follows_updateSources v.root version request.commitAll d hscm

/-- The steps of a release: the sources that change are written in their order and committed, the
release is tagged, and the hook is run if it may be executed. -/
def releaseSteps (root : String) (m : Metadata) (request : BumpRequest) (p : BumpPlan)
    (files : FileTree) : List Step :=
  let changes := releaseChanges root p.version m files
  Sources.writes root changes ++ commitStep request.commitAll p.version changes ++
    [.applyTag true p.version] ++ hookStep root request p files

/-- What is attempted for a release: each source is read before it is written, and the other steps
follow. -/
def releaseAttempts (root : String) (m : Metadata) (request : BumpRequest) (p : BumpPlan)
    (files : FileTree) : List Attempt :=
  let changes := releaseChanges root p.version m files
  Sources.attempts root p.version files (versionSources m) ++
    (commitStep request.commitAll p.version changes).map .step ++
    [.step (.applyTag true p.version)] ++ (hookStep root request p files).map .step

theorem steps_releaseAttempts (root : String) (m : Metadata) (request : BumpRequest)
    (p : BumpPlan) (files : FileTree) :
    Attempt.steps (releaseAttempts root m request p files) =
      releaseSteps root m request p files := by
  unfold releaseAttempts releaseSteps
  rw [Attempt.steps_append, Attempt.steps_append, Attempt.steps_append, Attempt.steps_map_step,
    Attempt.steps_map_step, Sources.steps_attempts]
  rfl

/-- **What the checks allow** makes the attempts of a release. -/
theorem follows_carryOut (base : String) (v : Versioning) (m : Metadata) {request : BumpRequest}
    (hcommit : request.commit = true) (p : BumpPlan) (hscm : w.scm.isSome) :
    Follows host v.root (v.carryOut host base m request p) w
      (releaseAttempts v.root m request p w.files) fun report _ =>
        report.version = p.version ∧
          report.modified = Sources.modified (releaseChanges v.root p.version m w.files) := by
  have hnotice : Follows host v.root (notice request) w [] fun _ w' => w' = w := by
    unfold notice
    rw [if_pos hcommit]
    exact .of_pure rfl rfl rfl
  unfold carryOut releaseAttempts
  refine hnotice.bind_of_nil fun _ w₁ hw₁ => ?_
  subst hw₁
  rw [List.append_assoc]
  refine (follows_updateVersion v m hcommit p.version hscm).bind fun update w₂ hupdate => ?_
  obtain ⟨hshape, hmodified⟩ := hupdate
  rw [hcommit]
  refine (follows_applyTag true p.version).bind fun _ w₃ hfiles => ?_
  -- neither the writes nor the requests since have changed who may execute the hook
  rw [← hookStep_of_sameShape hshape, ← hfiles]
  exact (follows_runHook base v hcommit p).bind_pure fun _ _ _ => ⟨rfl, hmodified⟩

/-- **A release** that passes its checks and is to be committed makes its attempts, up to the first
that fails: it succeeds with all of its steps taken, or ends in the error of an attempt with all
before it made and none after it. The version in the steps is the one that the strategy makes of
the facts of the checkout. -/
theorem bump_steps (host : Host) (base : String) (m : Metadata) (root : String)
    {request : BumpRequest} (w : Workspace σ) {p : BumpPlan} (hcommit : request.commit = true)
    (hplan : (ofDeclaration m.versioning w.scm.isSome root).plan host.environment request w.scm
      w.files = .ok p) :
    let v := ofDeclaration m.versioning w.scm.isSome root
    let start : Workspace σ := { w.unlogged with scm := w.scm.map VersionControl.refresh }
    let attempts := releaseAttempts root m request p w.files
    let steps := releaseSteps root m request p w.files
    (∃ s k facts, v.strategy = some s ∧ w.scm = some k ∧
        VersionControl.facts k w.files = .ok facts ∧
        s.bump host.environment request.component facts = .ok p.version) ∧
      Attempt.steps attempts = steps ∧
      match v.bump host base m request w with
      | .ok report w' =>
        start.attemptAll host root attempts = .ok () w'.unlogged ∧
          w'.journal = w.journal ++ steps ∧
          report.version = p.version ∧
          report.modified = Sources.modified (releaseChanges root p.version m w.files)
      | .error e w' =>
        start.attemptAll host root attempts = .error e w'.unlogged ∧
          (∃ done a rest w₁, attempts = done ++ a :: rest ∧
            start.attemptAll host root done = .ok () w₁ ∧
            w₁.attempt host root a = .error e w'.unlogged) ∧
          ∃ taken, taken <+: steps ∧ w'.journal = w.journal ++ taken := by
  intro v start attempts steps
  obtain ⟨htarget, hversion⟩ := exists_bump_of_plan hplan
  have hsteps : Attempt.steps attempts = steps := steps_releaseAttempts root m request p w.files
  refine ⟨hversion, hsteps, ?_⟩
  have hscm : (v.checked request w).scm.isSome := by
    obtain ⟨s, k, facts, -, hk, -⟩ := hversion
    unfold checked
    rw [htarget, hk]
    rfl
  have hrun : Follows host root (v.release host base m request p) (v.checked request w) attempts
      fun report _ =>
        report.version = p.version ∧
          report.modified = Sources.modified (releaseChanges root p.version m w.files) :=
    (follows_carryOut base v m hcommit p hscm).bind_pure fun _ _ hreport => hreport
  -- the checks leave a trace in the log only, and the backend has looked at the checkout
  have hstart : (v.checked request w).unlogged = start := by
    unfold checked
    rw [htarget]
    rfl
  have hentered := @Workspace.entered_attemptAll _ _ host root start attempts
  rw [hsteps] at hentered
  unfold Follows at hrun
  rw [hstart] at hrun
  rw [bump_eq, hplan]
  show match v.release host base m request p (v.checked request w) with
    | .ok .. => _
    | .error .. => _
  cases hrelease : v.release host base m request p (v.checked request w) with
  | ok report w' =>
    rw [hrelease] at hrun
    obtain ⟨hall, hreport⟩ := hrun
    rw [hall] at hentered
    exact ⟨hall, hentered, hreport⟩
  | error e w' =>
    rw [hrelease] at hrun
    have hall : start.attemptAll host root attempts = .error e w'.unlogged := hrun
    rw [hall] at hentered
    exact ⟨hall, Workspace.exists_of_attemptAll_eq_error hall, hentered⟩

end Versioning

end

/-! ### A release whose tag is refused -/

namespace Versioning

namespace RefusedTag

/-- A source of the version and a hook. -/
def files : FileTree :=
  ⟨[(["setup.py"], .file "version = '1.2.3'\n".toUTF8 0o644),
    (["bump-hook"], .file "#!/bin/sh\n".toUTF8 0o755)]⟩

/-- The version stands in the first line of the source; there is no seventh. -/
def metadata : Metadata where
  versioning := some (.switch true)
  definitions :=
    [⟨"version", "1.2.3", "setup.py:1", [⟨"setup.py:1", "1.2.3"⟩, ⟨"setup.py:7", "1.2.3"⟩]⟩]

def recorder : Recorder where
  facts := .ofTriplet ⟨1, 2, 3⟩
  branch := "master"
  refuses := [.applyTag]
  tags := []
  commits := []

def workspace : Workspace Recorder where
  files
  scm := some recorder
  log := []
  journal := []

def host : Host where
  environment := []
  start _ files := (files, .error .notFound)

def request : BumpRequest where
  component := .minor
  commit := true
  commitAll := false
  simulatedBranch := none

end RefusedTag

open RefusedTag in
/-- The source is written and committed before the tag is refused, and the hook is not run. The
second entry leaves the file as the first one has written it. -/
theorem bump_steps_refusedTag :
    let v := ofDeclaration metadata.versioning workspace.scm.isSome ""
    request.commit = true ∧
      v.plan host.environment request workspace.scm workspace.files = .ok ⟨"1.3.0", "master"⟩ ∧
      match v.bump host "" metadata request workspace with
      | .ok _ _ => False
      | .error _ w =>
        w.journal =
          [.write "setup.py" "version = '1.3.0'\n",
            .commitFiles true ["setup.py"] "1.3.0",
            .applyTag true "1.3.0"] := by
  intro v
  have hplan : v.plan host.environment request workspace.scm workspace.files =
      .ok ⟨"1.3.0", "master"⟩ := by cbv
  have hattempts :
      releaseAttempts "" metadata request ⟨"1.3.0", "master"⟩ workspace.files =
        [.read "setup.py",
          .step (.write "setup.py" "version = '1.3.0'\n"),
          .read "setup.py",
          .step (.commitFiles true ["setup.py"] "1.3.0"),
          .step (.applyTag true "1.3.0"),
          .step (.runHook "bump-hook"
            [("BUMP_VERSION", "1.3.0"), ("BUMP_COMPONENT", "minor"), ("BUMP_BRANCH", "master"),
              ("BUMP_DRYRUN", "0")])] := by
    decide +kernel
  refine ⟨rfl, hplan, ?_⟩
  obtain ⟨-, -, h⟩ := @bump_steps _ _ host "" metadata "" request workspace _ rfl hplan
  rw [hattempts] at h
  cases hbump : v.bump host "" metadata request workspace with
  | ok report w =>
    rw [hbump] at h
    obtain ⟨hall, -⟩ := h
    injection hall
  | error e w =>
    rw [hbump] at h
    obtain ⟨hall, -⟩ := h
    -- the attempts tell the workspace in which the release ends
    injection hall with _ hw
    exact (congrArg Workspace.journal hw).symm

end Versioning

end TagVersion
