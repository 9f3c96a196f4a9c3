import TagVersion.Proofs.Release.Order
import TagVersion.Proofs.Sources.Simulation

/-!
# What a dry run predicts

A dry run passes the checks of the release, reads the sources that the release would read, and makes
its requests without a commit. Where none of the steps of either run fails, both have the same
outcome.

* **`follows_simulate`**: what a dry run attempts.
* **`failure?_runAttempts`**: where a run fails.
* **`bump_predicts`**: a dry run and a release agree.
-/

namespace TagVersion

open TagVersion.Action
open Workspace (failure?)

namespace Versioning

section

variable {σ : Type} [VersionControl σ] {host : Host} {base : String} {v : Versioning}
  {m : Metadata} {request : BumpRequest} {w : Workspace σ} {p : BumpPlan}

/-! ## What a dry run attempts -/

/-- The files that a dry run lists as modified. -/
def simulatedChanges (root version : String) (m : Metadata) (files : FileTree) : List String :=
  Sources.wouldModify root version files (versionSources m) []

/-- The requests of a dry run. -/
def simulatedSteps (root : String) (m : Metadata) (request : BumpRequest) (p : BumpPlan)
    (files : FileTree) : List Step :=
  let modified := simulatedChanges root p.version m files
  (if modified = [] then []
    else [.commitFiles false (if request.commitAll then ["."] else modified) p.version]) ++
    [.applyTag false p.version]

/-- What is attempted for a dry run: the sources are read, and the requests follow. -/
def simulatedAttempts (root : String) (m : Metadata) (request : BumpRequest) (p : BumpPlan)
    (files : FileTree) : List Attempt :=
  Sources.reads root (versionSources m) ++ (simulatedSteps root m request p files).map .step

/-- The hook of a dry run is there if it may be executed, and is not started. -/
theorem follows_simulateHook (hdry : request.commit = false) (p : BumpPlan) :
    Follows host v.root (v.runHook host base request p) w [] fun _ _ => True := by
  unfold runHook
  refine .of_get ?_
  by_cases hexecutable : w.files.isExecutable (Path.join v.root Hook.fileName) = true
  · simp only [if_pos hexecutable, hdry]
    have hexecute : Follows host v.root
        (Hook.execute host base (Path.join v.root Hook.fileName) v.root
          { version := p.version, component := request.component, branch := p.branch
            dryRun := true }) w [] fun _ _ => True := by
      obtain ⟨location, hresolve, hfile⟩ := FileTree.exists_resolve_of_isExecutable hexecutable
      unfold Hook.execute
      refine .of_get ?_
      simp only [hresolve, hfile, Bool.not_true, Bool.false_eq_true, ↓reduceIte]
      exact (follows_note _).mono fun _ _ _ => trivial
    exact hexecute.bind_of_nil fun _ _ _ => .of_pure rfl rfl trivial
  · simp only [if_neg hexecutable]
    by_cases hpath : w.files.pathExists (Path.join v.root Hook.fileName) = true
    · simp only [if_pos hpath]
      exact (follows_remark _).bind_of_nil fun _ _ _ => .of_pure rfl rfl trivial
    · simp only [if_neg hpath]
      exact .of_pure rfl rfl trivial

theorem follows_simulateVersion (hdry : request.commit = false) (version : String)
    (hscm : w.scm.isSome) :
    Follows host v.root (v.updateVersion m request version) w
      (Sources.reads v.root (versionSources m) ++
        (if simulatedChanges v.root version m w.files = [] then []
          else [Step.commitFiles false (if request.commitAll then ["."]
            else simulatedChanges v.root version m w.files) version]).map .step)
      fun update _ => update.modified = simulatedChanges v.root version m w.files := by
  unfold updateVersion simulatedChanges versionSources
  cases m.definition? Metadata.versionKey with
  | none => exact .of_pure rfl rfl rfl
  | some d =>
    rw [hdry]
    unfold Action.updateSources
    refine (follows_scm hscm).bind_of_nil fun _ w₁ hw₁ => ?_
    subst hw₁
    refine (Sources.follows_simulateLines v.root version d.sources ⟨[], []⟩).bind
      fun update w₂ hupdate => ?_
    obtain ⟨-, hmodified⟩ := hupdate
    have hmodified : update.modified =
        Sources.wouldModify v.root version w₁.files d.sources [] := hmodified
    rw [← hmodified]
    by_cases hnil : update.modified = []
    · simp only [if_pos hnil]
      exact .of_pure rfl rfl rfl
    · simp only [if_neg hnil]
      exact (follows_commitFiles _ _ _).bind_pure fun _ _ _ => rfl

/-- **What the checks allow** of a dry run makes these attempts. -/
theorem follows_simulate (hdry : request.commit = false) (p : BumpPlan) (hscm : w.scm.isSome) :
    Follows host v.root (v.carryOut host base m request p) w
      (simulatedAttempts v.root m request p w.files) fun report _ =>
        report.version = p.version ∧
          report.modified = simulatedChanges v.root p.version m w.files := by
  have hnotice : Follows host v.root (notice request) w [] fun _ w' =>
      w'.files = w.files ∧ w'.scm = w.scm := by
    unfold notice
    rw [hdry]
    exact .of_pure rfl rfl ⟨rfl, rfl⟩
  unfold carryOut simulatedAttempts simulatedSteps
  refine hnotice.bind_of_nil fun _ w₁ hw₁ => ?_
  obtain ⟨hfiles, hsame⟩ := hw₁
  rw [← hfiles, List.map_append, ← List.append_assoc]
  rw [← hsame] at hscm
  refine (follows_simulateVersion hdry p.version hscm).bind fun update w₂ hmodified => ?_
  rw [hdry, ← List.append_nil (List.map _ _)]
  refine (follows_applyTag false p.version).bind fun _ w₃ _ => ?_
  exact (follows_simulateHook hdry p).bind_pure fun _ _ _ => ⟨rfl, hmodified⟩

/-! ## Both runs -/

/-- The report of a release names the version and the branch that its checks have found. -/
theorem of_carryOut_eq_ok {w' : Workspace σ} {report : BumpReport}
    (h : v.carryOut host base m request p w = .ok report w') :
    report.version = p.version ∧ report.branch = p.branch := by
  unfold carryOut at h
  obtain ⟨remarks, w₁, -, h⟩ := of_bind_eq_ok h
  obtain ⟨update, w₂, -, h⟩ := of_bind_eq_ok h
  obtain ⟨_, w₃, -, h⟩ := of_bind_eq_ok h
  obtain ⟨skipped, w₄, -, h⟩ := of_bind_eq_ok h
  injection h with hreport
  rw [← hreport]
  exact ⟨rfl, rfl⟩

/-- Whether anything is to be committed does not matter to the checks of a clean checkout, nor to
those of a release that commits everything. -/
theorem plan_of_clean (environment : Environment) {files : FileTree} {scm : Option σ}
    (hclean : ∀ k facts, scm = some k → VersionControl.facts k files = .ok facts →
      facts.dirty = false ∨ request.commitAll = true) (commit : Bool) :
    v.plan environment { request with commit } scm files =
      v.plan environment { request with commit := false } scm files := by
  have htarget : v.releaseTarget { request with commit } scm =
      v.releaseTarget { request with commit := false } scm := rfl
  cases hfalse : v.releaseTarget { request with commit := false } scm with
  | error e =>
    rw [plan_of_refusal environment hfalse, plan_of_refusal environment (htarget.trans hfalse)]
  | ok target =>
    obtain ⟨s, k, branch⟩ := target
    rw [plan_of_target environment hfalse, plan_of_target environment (htarget.trans hfalse)]
    cases hfacts : VersionControl.facts k files with
    | error e => rfl
    | ok facts =>
      have hpending : ∀ c, ¬ (c ∧ facts.dirty = true ∧ ¬ request.commitAll = true) := by
        rintro c ⟨-, hdirty, hall⟩
        rcases hclean k facts (of_releaseTarget_eq_ok hfalse).2 hfacts with h | h
        · exact absurd (hdirty.symm.trans h) (by simp)
        · exact hall h
      simp only [if_neg (hpending _)]

/-- What a run attempts after its checks: a release if it is to be committed, and a dry run
otherwise. -/
def runAttempts (root : String) (m : Metadata) (request : BumpRequest) (p : BumpPlan)
    (files : FileTree) : List Attempt :=
  if request.commit then releaseAttempts root m request p files
  else simulatedAttempts root m request p files

theorem follows_run (hscm : w.scm.isSome)
    (hapart : Sources.NamedApart v.root w.files (versionSources m)) :
    Follows host v.root (v.carryOut host base m request p) w
      (runAttempts v.root m request p w.files) fun report _ =>
        report.version = p.version ∧
          report.modified = simulatedChanges v.root p.version m w.files := by
  unfold runAttempts
  cases hcommit : request.commit with
  | false => exact follows_simulate hcommit p hscm
  | true =>
    refine (follows_carryOut base v m hcommit p hscm).mono fun report w' hreport => ?_
    refine ⟨hreport.1, hreport.2.trans ?_⟩
    exact Sources.foldl_changes_eq (.refl w.files) hapart fun _ _ _ => rfl

/-- **A run whose steps are granted** fails at the first file that could not be read before. -/
theorem failure?_runAttempts (hsteady : w.SteadyReads)
    (hgrants : w.grants host v.root (runAttempts v.root m request p w.files) = true) :
    failure? (w.attemptAll host v.root (runAttempts v.root m request p w.files)) =
      Sources.unreadable? v.root w (versionSources m) := by
  unfold runAttempts at hgrants ⊢
  cases hcommit : request.commit with
  | false =>
    simp only [hcommit, Bool.false_eq_true, ↓reduceIte] at hgrants ⊢
    unfold simulatedAttempts at hgrants ⊢
    rw [Workspace.failure?_append_of_grants hgrants, Sources.attemptAll_reads]
    cases Sources.unreadable? v.root w (versionSources m) <;> rfl
  | true =>
    simp only [hcommit, ↓reduceIte] at hgrants ⊢
    -- after the sources come steps only
    have hsteps : ∃ steps : List Step, releaseAttempts v.root m request p w.files =
        Sources.attempts v.root p.version w.files (versionSources m) ++ steps.map .step := by
      refine ⟨commitStep request.commitAll p.version (releaseChanges v.root p.version m w.files) ++
        [.applyTag true p.version] ++ hookStep v.root request p w.files, ?_⟩
      unfold releaseAttempts
      rw [List.map_append, List.map_append, ← List.append_assoc, ← List.append_assoc]
      rfl
    obtain ⟨steps, hsteps⟩ := hsteps
    rw [hsteps] at hgrants ⊢
    rw [Workspace.failure?_append_of_grants hgrants]
    exact Sources.failure?_attempts hsteady (Workspace.grants_append hgrants).1

/-- The outcome of a run, in terms of the workspace before it. -/
def Foretold (v : Versioning) (m : Metadata) (p : BumpPlan) (w : Workspace σ) :
    EStateM.Result Error (Workspace σ) BumpReport → Prop
  | .ok report _ =>
    Sources.unreadable? v.root w (versionSources m) = none ∧
      report.version = p.version ∧ report.branch = p.branch ∧
      report.modified = simulatedChanges v.root p.version m w.files
  | .error e _ => Sources.unreadable? v.root w (versionSources m) = some e

theorem foretold_carryOut (hscm : w.scm.isSome) (hsteady : w.SteadyReads)
    (hapart : Sources.NamedApart v.root w.files (versionSources m))
    (hgrants : w.unlogged.grants host v.root (runAttempts v.root m request p w.files) = true) :
    v.Foretold m p w (v.carryOut host base m request p w) := by
  have hrun := @follows_run _ _ host base v m request w p hscm hapart
  have hsteady' : w.unlogged.SteadyReads := hsteady
  have hfailure := @failure?_runAttempts _ _ host v m request w.unlogged p hsteady' hgrants
  have hunlogged : w.unlogged.files = w.files := rfl
  rw [hunlogged] at hfailure
  unfold Follows at hrun
  unfold Foretold
  cases hcarry : v.carryOut host base m request p w with
  | ok report w' =>
    rw [hcarry] at hrun
    obtain ⟨hall, -, hmodified⟩ := hrun
    rw [hall] at hfailure
    obtain ⟨hversion, hbranch⟩ := of_carryOut_eq_ok hcarry
    exact ⟨hfailure.symm, hversion, hbranch, hmodified⟩
  | error e w' =>
    rw [hcarry] at hrun
    have hall : w.unlogged.attemptAll host v.root (runAttempts v.root m request p w.files) =
        .error e w'.unlogged := hrun
    rw [hall] at hfailure
    exact hfailure.symm

/-- Both runs succeed, with the same version, branch and list of modified files, or both end in the
same error. -/
def Agree (dry real : EStateM.Result Error (Workspace σ) BumpReport) : Prop :=
  match dry, real with
  | .ok report _, .ok report' _ =>
    report'.version = report.version ∧ report'.branch = report.branch ∧
      report'.modified = report.modified
  | .error e _, .error e' _ => e' = e
  | _, _ => False

omit [VersionControl σ] in
theorem Foretold.agree {dry real : EStateM.Result Error (Workspace σ) BumpReport}
    (h : v.Foretold m p w dry) (h' : v.Foretold m p w real) : Agree dry real := by
  unfold Foretold at h h'
  cases dry with
  | ok report w₁ =>
    obtain ⟨hnone, hversion, hbranch, hmodified⟩ := h
    cases real with
    | ok report' w₂ =>
      obtain ⟨-, hversion', hbranch', hmodified'⟩ := h'
      exact ⟨hversion'.trans hversion.symm, hbranch'.trans hbranch.symm,
        hmodified'.trans hmodified.symm⟩
    | error e' w₂ => exact absurd (hnone.symm.trans h') (by simp)
  | error e w₁ =>
    cases real with
    | ok report' w₂ => exact absurd (h'.1.symm.trans h) (by simp)
    | error e' w₂ => exact Option.some.inj (h'.symm.trans h)

theorem foretold_release (hscm : (v.checked request w).scm.isSome) (hsteady : w.SteadyReads)
    (hapart : Sources.NamedApart v.root w.files (versionSources m))
    (hgrants : (v.checked request w).unlogged.grants host v.root
      (runAttempts v.root m request p w.files) = true) :
    v.Foretold m p w (v.release host base m request p (v.checked request w)) := by
  have hsteady' : (v.checked request w).SteadyReads := hsteady
  have hcarry : v.Foretold m p (v.checked request w)
      (v.carryOut host base m request p (v.checked request w)) :=
    foretold_carryOut hscm hsteady' hapart hgrants
  have hrelease := bind_apply (v.carryOut host base m request p)
    (fun report => pure { report with diagnostics := v.remarks ++ report.diagnostics })
    (v.checked request w)
  unfold release
  rw [hrelease]
  cases hrun : v.carryOut host base m request p (v.checked request w) with
  | ok report w' =>
    rw [hrun] at hcarry
    exact hcarry
  | error e w' =>
    rw [hrun] at hcarry
    exact hcarry

/-- **A dry run predicts the release.** In a clean checkout, or where everything is to be committed,
and with sources whose paths lead to different files where they differ, a run that is to be committed
and one that is not have the same outcome: the same version, branch and list of modified files, or
the same error. This takes that no step of either run fails: no write, no request to the backend, and
not the hook. A read may fail. -/
theorem bump_predicts (host : Host) (base : String) (v : Versioning) (m : Metadata)
    (request : BumpRequest) (w : Workspace σ)
    (hclean : ∀ k facts, w.scm = some k → VersionControl.facts k w.files = .ok facts →
      facts.dirty = false ∨ request.commitAll = true)
    (hapart : Sources.NamedApart v.root w.files (versionSources m))
    (hsteady : w.SteadyReads)
    (hgrants : ∀ commit p,
      v.plan host.environment { request with commit } w.scm w.files = .ok p →
        { w.unlogged with scm := w.scm.map VersionControl.refresh }.grants host v.root
          (runAttempts v.root m { request with commit } p w.files) = true) :
    Agree (v.bump host base m { request with commit := false } w)
      (v.bump host base m { request with commit := true } w) := by
  have hplan := @plan_of_clean _ _ v request host.environment w.files w.scm hclean true
  cases hdry : v.plan host.environment { request with commit := false } w.scm w.files with
  | error e =>
    rw [bump_eq, bump_eq, hplan, hdry]
    exact rfl
  | ok p =>
    have hforetold : ∀ commit, v.plan host.environment { request with commit } w.scm w.files =
        .ok p → v.Foretold m p w (v.bump host base m { request with commit } w) := by
      intro commit hcommit
      obtain ⟨hstart, hscm⟩ := checked_of_plan hcommit
      have hgranted := hgrants commit p hcommit
      rw [← hstart] at hgranted
      rw [bump_eq, hcommit]
      exact foretold_release hscm hsteady hapart hgranted
    exact (hforetold false hdry).agree (hforetold true (hplan.trans hdry))

end

/-! ### Sources that repeat -/

namespace Repeated

def files : FileTree :=
  ⟨[(["setup.py"], .file "version = '1.2.3'\n".toUTF8 0o644),
    (["app.yaml"], .file "name: demo\nversion: 1.2.3".toUTF8 0o644),
    (["bump-hook"], .file "#!/bin/sh\n".toUTF8 0o755)]⟩

/-- The first line of a file twice, a line that is not there, and a line of another file. -/
def metadata : Metadata where
  versioning := some (.switch true)
  definitions :=
    [⟨"version", "1.2.3", "setup.py:1",
      [⟨"setup.py:1", "1.2.3"⟩, ⟨"setup.py:1", "1.2.3"⟩, ⟨"setup.py:7", "1.2.3"⟩,
        ⟨"app.yaml:2", "1.2.3"⟩]⟩]

def recorder : Recorder where
  facts := .ofTriplet ⟨1, 2, 3⟩
  branch := "master"
  refuses := []
  tags := []
  commits := []

def workspace : Workspace Recorder where
  files
  scm := some recorder
  log := []
  journal := []

/-- A host on which every program ends without a failure. -/
def host : Host where
  environment := []
  start _ files := (files, .ok { status := some 0, output := .empty, errors := .empty })

def versioning : Versioning := ofDeclaration metadata.versioning true ""

def request : BumpRequest where
  component := .minor
  commit := true
  commitAll := false
  simulatedBranch := none

end Repeated

open Repeated in
/-- The release finds a line rewritten that the dry run would rewrite again. -/
theorem bump_predicts_repeated :
    (∀ k facts, workspace.scm = some k → VersionControl.facts k workspace.files = .ok facts →
        facts.dirty = false ∨ request.commitAll = true) ∧
      Sources.NamedApart versioning.root workspace.files (versionSources metadata) ∧
      workspace.SteadyReads ∧
      (∀ commit p, versioning.plan host.environment { request with commit } workspace.scm
          workspace.files = .ok p →
        { workspace.unlogged with scm := workspace.scm.map VersionControl.refresh }.grants host
          versioning.root
          (runAttempts versioning.root metadata { request with commit } p workspace.files) = true) ∧
      Agree (versioning.bump host "" metadata { request with commit := false } workspace)
        (versioning.bump host "" metadata { request with commit := true } workspace) ∧
      ∃ report w', versioning.bump host "" metadata { request with commit := false } workspace =
          .ok report w' ∧
        report.version = "1.3.0" ∧ report.branch = "master" ∧
        report.modified = ["setup.py", "app.yaml"] := by
  have hclean : ∀ k facts, workspace.scm = some k →
      VersionControl.facts k workspace.files = .ok facts →
        facts.dirty = false ∨ request.commitAll = true := by
    intro k facts hk hfacts
    obtain rfl := Option.some.inj hk
    obtain rfl := Except.ok.inj hfacts
    exact .inl rfl
  have hapart : Sources.NamedApart versioning.root workspace.files (versionSources metadata) := by
    decide +kernel
  have hsteady : workspace.SteadyReads := fun _ _ => rfl
  have hgrants : ∀ commit p, versioning.plan host.environment { request with commit }
      workspace.scm workspace.files = .ok p →
        { workspace.unlogged with scm := workspace.scm.map VersionControl.refresh }.grants host
          versioning.root
          (runAttempts versioning.root metadata { request with commit } p workspace.files) =
            true := by
    intro commit p hp
    have hplan : versioning.plan host.environment { request with commit } workspace.scm
        workspace.files = .ok ⟨"1.3.0", "master"⟩ := by
      cases commit <;> cbv
    obtain rfl := Except.ok.inj (hplan.symm.trans hp)
    cases commit <;> decide +kernel
  obtain ⟨report, w', hrun, htest⟩ := Action.exists_of_succeedsWith
    (by decide +kernel :
      (versioning.bump host "" metadata { request with commit := false }).succeedsWith
        (fun report _ => decide (report.version = "1.3.0" ∧ report.branch = "master" ∧
          report.modified = ["setup.py", "app.yaml"])) workspace = true)
  exact ⟨hclean, hapart, hsteady, hgrants,
    bump_predicts host "" versioning metadata request workspace hclean hapart hsteady hgrants,
    report, w', hrun, of_decide_eq_true htest⟩

end Versioning

end TagVersion
