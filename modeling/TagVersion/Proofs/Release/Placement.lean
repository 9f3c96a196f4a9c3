import TagVersion.Proofs.Release.Commit
import TagVersion.Proofs.Release.DryRun

/-!
# Where a project lies in its repository

A release names the files that it has modified by their paths in the project. The backend follows these
paths from the top of its working tree, which is the same only for a project that lies there. For any
other project they name other files: if all of these are there, they are committed in place of those that
were rewritten, and if one of them is missing, the release fails.

* **`SameCommits`**: what no step but a commit touches.
* **`exists_sameCommits_attemptAll`**: the steps after a commit leave it as it is.
* **`exists_plan_of_commitFiles_mem`**, **`exists_attempt_of_commitFiles_mem`**: what comes before the
  request for a commit, and what after it.
* **`Recorded`**: what the request leaves in a repository.
* **`bump_placement`**: which files a release rewrites, and which it has recorded.
-/

namespace TagVersion

namespace Checkout

/-! ## What steps leave of the commits -/

/-- A later checkout with the same commits and the same files staged. -/
structure SameCommits (c c' : Checkout) : Prop where
  commits : c'.repository.commits = c.repository.commits
  index : c'.repository.index = c.repository.index

namespace SameCommits

variable {c c₁ c₂ : Checkout}

theorem refl (c : Checkout) : SameCommits c c := ⟨rfl, rfl⟩

theorem trans (h : SameCommits c c₁) (h' : SameCommits c₁ c₂) : SameCommits c c₂ :=
  ⟨h'.commits.trans h.commits, h'.index.trans h.index⟩

end SameCommits

theorem sameCommits_publish (c : Checkout) (name : String) (log : List LogRecord) :
    c.SameCommits (c.publish name log).state := by
  obtain ⟨refs, remotes, hstate, -⟩ := exists_state_publish c name log
  rw [hstate]
  exact ⟨rfl, rfl⟩

theorem sameCommits_applyTag (c : Checkout) (commit : Bool) (version : String) :
    c.SameCommits (c.applyTag commit version).state := by
  unfold applyTag
  simp only
  split
  · exact .refl c
  · split
    · exact .refl c
    · split
      · exact .refl c
      · split
        · exact .refl c
        · next repository htag =>
          obtain ⟨target, -, -, -, rfl⟩ := Repository.of_tag_eq_some htag
          -- the tag is one more reference
          have htagged := sameCommits_publish (c.tagged target version)
            (RefName.ofTag (releaseTag version)) [.info ("Created tag " ++ releaseTag version)]
          exact ⟨htagged.commits, htagged.index⟩

end Checkout

namespace Workspace

/-- The workspace that attempts leave, whether one of them fails or not. -/
def left {σ : Type} : EStateM.Result Error (Workspace σ) Unit → Workspace σ
  | .ok _ w => w
  | .error _ w => w

section

variable {σ : Type} {w : Workspace σ} {steps : List Step}

theorem left_ofExcept (answer : Except Error Unit) (w : Workspace σ) :
    left (Action.ofExcept answer w) = w := by
  cases answer <;> rfl

theorem Entered.exists_journal {r : EStateM.Result Error (Workspace σ) Unit}
    (h : w.Entered steps r) :
    ∃ done, done <+: steps ∧ (left r).journal = w.journal ++ done := by
  cases r with
  | ok _ w' => exact ⟨steps, List.prefix_refl steps, h⟩
  | error e w' => exact h

end

variable {host : Host} {directory : String} {w : Workspace Checkout} {c : Checkout}

theorem exists_sameCommits_attempt {a : Attempt}
    (ha : ∀ commit paths version, a ≠ .step (.commitFiles commit paths version))
    (hscm : w.scm = some c) :
    ∃ c', (left (w.attempt host directory a)).scm = some c' ∧ c.SameCommits c' := by
  have hsame : ∃ c', w.scm = some c' ∧ c.SameCommits c' := ⟨c, hscm, .refl c⟩
  unfold attempt
  cases a with
  | read path =>
    simp only
    cases w.readText path with
    | ok _ => exact hsame
    | error e => exact hsame
  | step s =>
    cases s with
    | write path content =>
      simp only
      cases w.writeText path content with
      | ok _ => exact hsame
      | error e => exact hsame
    | commitFiles commit paths version => exact absurd rfl (ha commit paths version)
    | applyTag commit version =>
      simp only
      rw [request_of_some hscm, left_ofExcept]
      exact ⟨_, rfl, Checkout.sameCommits_applyTag c commit version⟩
    | runHook path environment =>
      -- a hook has the files of the project, but not its backend
      simp only
      cases w.files.resolve path with
      | error e => exact hsame
      | ok location =>
        cases w.files.isFile path with
        | false => exact hsame
        | true =>
          simp only
          rw [left_ofExcept]
          exact hsame

/-- **Steps other than a commit** leave the commits and the staged files as they are. -/
theorem exists_sameCommits_attemptAll {attempts : List Attempt}
    (h : ∀ commit paths version, .step (.commitFiles commit paths version) ∉ attempts)
    (hscm : w.scm = some c) :
    ∃ c', (left (w.attemptAll host directory attempts)).scm = some c' ∧ c.SameCommits c' := by
  induction attempts generalizing w c with
  | nil => exact ⟨c, hscm, .refl c⟩
  | cons a rest ih =>
    have hfirst := @exists_sameCommits_attempt host directory w c a
      (fun commit paths version heq => h commit paths version (heq ▸ List.mem_cons_self)) hscm
    obtain ⟨c₁, hscm₁, hsame⟩ := hfirst
    cases ha : w.attempt host directory a with
    | error e w₁ =>
      rw [ha] at hscm₁
      rw [attemptAll_cons_of_error ha]
      exact ⟨c₁, hscm₁, hsame⟩
    | ok _ w₁ =>
      rw [ha] at hscm₁
      rw [attemptAll_cons_of_ok ha]
      obtain ⟨c₂, hscm₂, hsame'⟩ :=
        ih (fun commit paths version hmem => h commit paths version (List.mem_cons_of_mem _ hmem))
          hscm₁
      exact ⟨c₂, hscm₂, hsame.trans hsame'⟩

end Workspace

namespace Versioning

open Workspace (left)

/-! ## The request for a commit -/

section

variable {σ : Type} [VersionControl σ] {host : Host} {base : String} {v : Versioning}
  {m : Metadata} {request : BumpRequest} {w : Workspace σ} {p : BumpPlan} {paths : List String}
  {version root : String} {files : FileTree}

theorem unlogged_after_bump (hcommit : request.commit = true)
    (hplan : v.plan host.environment request w.scm w.files = .ok p) :
    ((v.bump host base m request).after w).unlogged =
      left ((started w).attemptAll host v.root (releaseAttempts v.root m request p w.files)) := by
  have hrelease := @bump_of_plan _ _ host base v m request w p hcommit hplan
  unfold Action.after
  cases hrun : v.bump host base m request w with
  | ok report w' =>
    rw [hrun] at hrelease
    rw [hrelease.1]
    rfl
  | error e w' =>
    rw [hrun] at hrelease
    have hrelease : _ = EStateM.Result.error e w'.unlogged := hrelease
    rw [hrelease]
    rfl

theorem commitFiles_not_mem_writes {changes : List (String × String)} {commit : Bool} :
    Step.commitFiles commit paths version ∉ Sources.writes root changes := by
  intro hmem
  obtain ⟨change, -, hwrite⟩ := List.mem_map.mp hmem
  exact absurd hwrite nofun

theorem commitFiles_not_mem_hookStep {commit : Bool} :
    Step.commitFiles commit paths version ∉ hookStep root request p files := by
  unfold hookStep
  simp only
  split
  · intro hmem
    exact absurd (List.mem_singleton.mp hmem) nofun
  · exact List.not_mem_nil

/-- The one commit that a release asks for. -/
theorem of_commitFiles_mem_releaseSteps
    (h : .commitFiles true paths version ∈ releaseSteps root m request p files) :
    p.version = version ∧ Sources.modified (releaseChanges root version m files) ≠ [] ∧
      paths = if request.commitAll then ["."]
        else Sources.modified (releaseChanges root version m files) := by
  unfold releaseSteps at h
  rcases List.mem_append.mp h with h | h
  · rcases List.mem_append.mp h with h | h
    · rcases List.mem_append.mp h with h | h
      · exact absurd h commitFiles_not_mem_writes
      · unfold Action.commitStep at h
        simp only at h
        split at h
        · exact absurd h List.not_mem_nil
        · next hmodified =>
          obtain ⟨-, hpaths, hversion⟩ := Step.commitFiles.inj (List.mem_singleton.mp h)
          subst hversion
          exact ⟨rfl, hmodified, hpaths⟩
    · exact absurd (List.mem_singleton.mp h) nofun
  · exact absurd h commitFiles_not_mem_hookStep

section

variable {steps : List Step} (hcommit : request.commit = true)
  (hjournal : ((v.bump host base m request).after w).journal = w.journal ++ steps)
  (hasked : .commitFiles true paths version ∈ steps)

include hcommit hjournal hasked

/-- **A release that has asked for a commit** has passed its checks, and has rewritten its sources
before. -/
theorem exists_plan_of_commitFiles_mem :
    ∃ p w₁, v.plan host.environment request w.scm w.files = .ok p ∧ p.version = version ∧
      Sources.modified (releaseChanges v.root version m w.files) ≠ [] ∧
      (paths = if request.commitAll then ["."]
        else Sources.modified (releaseChanges v.root version m w.files)) ∧
      (started w).attemptAll host v.root
        (Sources.attempts v.root version w.files (versionSources m)) = .ok () w₁ := by
  cases hplan : v.plan host.environment request w.scm w.files with
  | error e =>
    -- nothing is entered where a check objects
    have hrun : v.bump host base m request w = .error e (v.checked request w) := by
      rw [bump_eq, hplan]
    rw [Action.after_of_error hrun] at hjournal
    have hnil : steps = [] := List.self_eq_append_right.mp hjournal
    rw [hnil] at hasked
    exact absurd hasked List.not_mem_nil
  | ok p =>
    have hafter := @unlogged_after_bump _ _ host base v m request w p hcommit hplan
    have hsteps : ∀ done, (left ((started w).attemptAll host v.root
        (releaseAttempts v.root m request p w.files))).journal = w.journal ++ done →
          steps = done := by
      intro done hdone
      rw [← hafter] at hdone
      exact List.append_cancel_left (hjournal.symm.trans hdone)
    have hentered := @Workspace.entered_attemptAll _ _ host v.root (started w)
    -- what has been entered is a step of the release
    obtain ⟨done, hdone, hdone'⟩ :=
      (hentered (releaseAttempts v.root m request p w.files)).exists_journal
    rw [steps_releaseAttempts] at hdone
    obtain ⟨hversion, hmodified, hpaths⟩ :=
      of_commitFiles_mem_releaseSteps (hdone.subset (hsteps done hdone' ▸ hasked))
    subst hversion
    cases hsources : (started w).attemptAll host v.root
        (Sources.attempts v.root p.version w.files (versionSources m)) with
    | ok _ w₁ => exact ⟨p, w₁, rfl, rfl, hmodified, hpaths, rfl⟩
    | error e w₁ =>
      -- writes would be all that has been entered
      obtain ⟨written, hwritten, hwritten'⟩ :=
        (hentered (Sources.attempts v.root p.version w.files (versionSources m))).exists_journal
      rw [hsources] at hwritten'
      have hall : (started w).attemptAll host v.root (releaseAttempts v.root m request p w.files) =
          .error e w₁ := by
        rw [releaseAttempts_of_modified hmodified, Workspace.attemptAll_append, hsources]
      rw [Sources.steps_attempts] at hwritten
      have hmem := hwritten.subset (hsteps written (hall ▸ hwritten') ▸ hasked)
      exact absurd hmem commitFiles_not_mem_writes

/-- The request is made with the sources rewritten, and the release goes on as it is answered. -/
theorem exists_attempt_of_commitFiles_mem {k : σ} (hscm : w.scm = some k) :
    let reply := VersionControl.commitFiles (VersionControl.refresh k)
      (Sources.rewritten v.root version w.files (versionSources m)) true paths version
    ∃ (p : BumpPlan) (w₁ w₂ : Workspace σ) (later : List Attempt),
      v.plan host.environment request w.scm w.files = .ok p ∧ w₂.scm = some reply.state ∧
      w₁.attempt host v.root (.step (.commitFiles true paths version)) =
        Action.ofExcept reply.result w₂ ∧
      (∀ commit paths version, .step (.commitFiles commit paths version) ∉ later) ∧
      (started w).attemptAll host v.root (releaseAttempts v.root m request p w.files) =
        w₁.attemptAll host v.root (.step (.commitFiles true paths version) :: later) := by
  intro reply
  obtain ⟨p, w₁, hplan, hversion, hmodified, hpaths, hsources⟩ :=
    exists_plan_of_commitFiles_mem hcommit hjournal hasked
  subst hversion
  obtain ⟨-, hfiles, hscm₁, -⟩ := Sources.attemptAll_attempts hsources
  have hscm₁ : w₁.scm = some (VersionControl.refresh k) := hscm₁.trans (scm_started hscm)
  have hreply : VersionControl.commitFiles (VersionControl.refresh k) w₁.files true paths
      p.version = reply := by
    rw [hfiles]
    rfl
  refine ⟨p, w₁, { w₁ with scm := some reply.state
                           journal := w₁.journal ++ [.commitFiles true paths p.version] },
    .step (.applyTag true p.version) :: (hookStep v.root request p w.files).map .step, hplan, rfl,
    ?_, ?_, ?_⟩
  · show w₁.request _ _ = _
    rw [Workspace.request_of_some hscm₁, hreply]
  · intro commit paths version hmem
    rcases List.mem_cons.mp hmem with heq | hmem
    · exact absurd heq nofun
    · obtain ⟨s, hs, heq⟩ := List.mem_map.mp hmem
      obtain rfl := Attempt.step.inj heq
      exact commitFiles_not_mem_hookStep hs
  · rw [releaseAttempts_of_modified hmodified, ← hpaths, Workspace.attemptAll_append, hsources]

/-- If the commit is refused, the release ends there. -/
theorem of_refused {k : σ} {e : Error} (hscm : w.scm = some k)
    (hresult : (VersionControl.commitFiles (VersionControl.refresh k)
      (Sources.rewritten v.root version w.files (versionSources m)) true paths version).result =
        .error e) :
    ∃ w', v.bump host base m request w = .error e w' ∧
      w'.scm = some (VersionControl.commitFiles (VersionControl.refresh k)
        (Sources.rewritten v.root version w.files (versionSources m)) true paths version).state := by
  obtain ⟨p, w₁, w₂, later, hplan, hscm₂, hattempt, -, hall⟩ :=
    exists_attempt_of_commitFiles_mem hcommit hjournal hasked hscm
  rw [hresult] at hattempt
  have hrelease := @bump_of_plan _ _ host base v m request w p hcommit hplan
  rw [hall, Workspace.attemptAll_cons_of_error hattempt] at hrelease
  cases hrun : v.bump host base m request w with
  | ok report w' =>
    rw [hrun] at hrelease
    exact absurd hrelease.1 nofun
  | error e' w' =>
    rw [hrun] at hrelease
    injection hrelease with he hw
    refine ⟨w', by rw [he], ?_⟩
    rw [← hscm₂, hw]
    rfl

/-- If it is granted, no other commit follows. -/
theorem of_granted {k : σ} (hscm : w.scm = some k)
    (hresult : (VersionControl.commitFiles (VersionControl.refresh k)
      (Sources.rewritten v.root version w.files (versionSources m)) true paths version).result =
        .ok ()) :
    ∃ (w₂ : Workspace σ) (later : List Attempt),
      w₂.scm = some (VersionControl.commitFiles (VersionControl.refresh k)
        (Sources.rewritten v.root version w.files (versionSources m)) true paths version).state ∧
      (∀ commit paths version, .step (.commitFiles commit paths version) ∉ later) ∧
      ((v.bump host base m request).after w).scm =
        (left (w₂.attemptAll host v.root later)).scm := by
  obtain ⟨p, w₁, w₂, later, hplan, hscm₂, hattempt, hlater, hall⟩ :=
    exists_attempt_of_commitFiles_mem hcommit hjournal hasked hscm
  rw [hresult] at hattempt
  have hafter := @unlogged_after_bump _ _ host base v m request w p hcommit hplan
  rw [hall, Workspace.attemptAll_cons_of_ok hattempt] at hafter
  -- the log is all that is left out there
  have hafter := congrArg Workspace.scm hafter
  exact ⟨w₂, later, hscm₂, hlater, hafter⟩

end

end

/-! ## What is recorded -/

/-- **What a request for a commit leaves** of a repository that can stage the files: the files at the
given paths are staged, as the paths are followed from the top of the working tree, and committed with all
others as before, if there is a commit to follow and somebody to make it. -/
structure Recorded (c c' : Checkout) (version : String) (paths : List String) (files : FileTree) :
    Prop where
  unnamed : ∀ path ∉ paths,
    c'.repository.index.lookup path = c.repository.headSnapshot.lookup path
  named : ∀ path ∈ paths, ∃ node blob, files.node? (c.workdir ++ Path.names path) = some node ∧
    c'.repository.index.lookup path = some blob ∧ blob.Keeps node
  committed : c.CanCommit version →
    c'.repository.commits = c.repository.commits ++
      [{ parent := c.repository.headCommit?, message := "Version " ++ version
         snapshot := c'.repository.index }]
  uncommitted : ¬ c.CanCommit version → c'.repository.commits = c.repository.commits

section

variable {host : Host} {base : String} {v : Versioning} {m : Metadata} {request : BumpRequest}
  {w : Workspace Checkout} {c : Checkout} {steps : List Step} {modified : List String}
  {version : String}

/-- The backend after a release is the one that its request for a commit has left, but for references. -/
theorem exists_sameCommits_after (hcommit : request.commit = true) (hscm : w.scm = some c)
    (hjournal : ((v.bump host base m request).after w).journal = w.journal ++ steps)
    (hasked : .commitFiles true modified version ∈ steps) :
    ∃ c', ((v.bump host base m request).after w).scm = some c' ∧
      (c.refresh.commitFiles (Sources.rewritten v.root version w.files (versionSources m)) true
        modified version).state.SameCommits c' := by
  cases hresult : (VersionControl.commitFiles (VersionControl.refresh c)
      (Sources.rewritten v.root version w.files (versionSources m)) true modified version).result with
  | error e =>
    obtain ⟨w', hrun, hw'⟩ := of_refused hcommit hjournal hasked hscm hresult
    rw [Action.after_of_error hrun]
    exact ⟨_, hw', .refl _⟩
  | ok _ =>
    obtain ⟨w₂, later, hw₂, hlater, hafter⟩ := of_granted hcommit hjournal hasked hscm hresult
    rw [hafter]
    exact Workspace.exists_sameCommits_attemptAll hlater hw₂

end

section

variable {c c' : Checkout} {version : String} {files files' : FileTree} {paths : List String}
  {entries : Snapshot}

theorem commitFiles_of_staged
    (hstaged : Checkout.stagePathsOrAll files c.repository.settings c.workdir c.read.entries paths =
      (entries, .ok ())) :
    let k := (c.commitFiles files true paths version).state
    k.repository.index = entries ∧
      (c.CanCommit version → k.repository.commits = c.repository.commits ++
        [{ parent := c.repository.headCommit?, message := "Version " ++ version
           snapshot := entries }]) ∧
      (¬ c.CanCommit version → k.repository.commits = c.repository.commits) := by
  intro k
  by_cases hcan : c.CanCommit version
  · obtain ⟨name, log, hpublish⟩ := Checkout.commitFiles_of_canCommit hstaged hcan
    have hsame : (c.withCommit entries (Checkout.releaseMessage version)).SameCommits k := by
      show Checkout.SameCommits _ (c.commitFiles files true paths version).state
      rw [hpublish]
      exact Checkout.sameCommits_publish _ _ _
    refine ⟨?_, fun _ => ?_, fun hnot => absurd hcan hnot⟩
    · exact hsame.index.trans (Repository.index_commit _ _)
    · exact hsame.commits.trans (Repository.commits_commit _ _)
  · obtain ⟨fault, hrefused⟩ := Checkout.commitFiles_of_not_canCommit hstaged hcan
    have hk : k = c.save entries := congrArg Reply.state hrefused
    rw [hk]
    exact ⟨rfl, fun h => absurd h hcan, fun _ => rfl⟩

/-- Files that can all be staged are recorded, if there are no links on the way to them. -/
theorem recorded_of_stageable
    (hclean : c.repository.isDirty c.refresh.read.entries files c.workdir = false)
    (hshape : files.SameShape files') (htree : files.IsTree)
    (hascending : c.repository.headSnapshot.Ascending) (hpaths : Checkout.stageAllPath ∉ paths)
    (hstorable : ∀ path ∈ paths, Checkout.isStorable path = true)
    (hstageable : ∀ path ∈ paths, files'.Stageable c.workdir path)
    (hdirect : ∀ path ∈ paths, files'.IsDirect c.workdir path)
    (hsame : (c.refresh.commitFiles files' true paths version).state.SameCommits c') :
    Recorded c c' version paths files' := by
  obtain ⟨hindex, hkept⟩ := of_isDirty_eq_false hclean
  rw [hindex] at hkept
  obtain ⟨entries, hstaged⟩ :=
    @Checkout.stagePaths_of_stageable files' c.repository.settings c.workdir paths
      c.refresh.read.entries fun path hpath => ⟨hstorable path hpath, hstageable path hpath⟩
  have hrequest := @commitFiles_of_staged c.refresh version files' paths entries (by
    rw [Checkout.stagePathsOrAll_of_not_mem hpaths, c.workdir_refresh, c.repository_refresh]
    exact hstaged)
  obtain ⟨hentries, hcan, hcannot⟩ := hrequest
  rw [hindex] at hstaged
  obtain ⟨-, -, hother, hnamed⟩ := Checkout.of_stagePaths (hshape.isTree htree) hascending
    (filed_of_sameShape hshape hkept) hdirect hstaged
  have hindex' : c'.repository.index = entries := hsame.index.trans hentries
  unfold Checkout.CanCommit at hcan hcannot
  rw [c.repository_refresh] at hcan hcannot
  refine
    { unnamed := ?_
      named := ?_
      committed := ?_
      uncommitted := ?_ }
  · rw [hindex']
    exact hother
  · rw [hindex']
    intro path hpath
    obtain ⟨staged, blob, hlookup, hblob⟩ := hnamed path hpath
    obtain ⟨node, hnode, hkeeps⟩ := FileTree.exists_keeps_of_storedBlob? hblob
    exact ⟨node, blob, hnode, hlookup, hkeeps⟩
  · rw [hindex']
    exact fun h => hsame.commits.trans (hcan h)
  · exact fun h => hsame.commits.trans (hcannot h)

/-- One that cannot be staged leaves the repository alone. -/
theorem refused_of_not_stageable (hpaths : Checkout.stageAllPath ∉ paths)
    (hnot : ∃ path ∈ paths, ¬ files.Stageable c.workdir path) :
    ∃ fault, (c.refresh.commitFiles files true paths version).result = .error (.scm fault) ∧
      (c.refresh.commitFiles files true paths version).state.repository = c.repository := by
  obtain ⟨entries, fault, hstaged⟩ :=
    @Checkout.stagePaths_of_not_stageable files c.repository.settings c.workdir paths
      c.refresh.read.entries hnot
  have hrefused := @Checkout.commitFiles_of_unstaged c.refresh version files paths entries
    (.scm fault) (by
      rw [Checkout.stagePathsOrAll_of_not_mem hpaths, c.workdir_refresh, c.repository_refresh]
      exact hstaged)
  rw [hrefused]
  exact ⟨fault, rfl, c.repository_refresh⟩

end

/-! ## Where the files lie -/

section

variable {root version path : String} {files : FileTree} {entries : List SourceEntry} {loc : Location}

/-- A file that changes lies where a modified path leads. -/
theorem exists_path_of_node?_ne
    (h : (Sources.rewritten root version files entries).node? loc ≠ files.node? loc) :
    ∃ path ∈ Sources.modified (Sources.changes root version files entries),
      files.resolve (Path.join root path) = .ok loc := by
  by_contra hnone
  refine h (Sources.node?_rewritten entries fun change hchange hresolve => hnone ?_)
  exact ⟨change.1, Sources.mem_modified_iff.mpr ⟨change.2, hchange⟩, hresolve⟩

theorem exists_file_of_mem_modified
    (hreads : ∀ q ∈ Sources.pointers entries,
      ∃ text, files.readText (Path.join root q.1) = .ok text)
    (hpath : path ∈ Sources.modified (Sources.changes root version files entries)) :
    ∃ loc content mode, files.resolve (Path.join root path) = .ok loc ∧
      files.node? loc = some (.file content mode) := by
  obtain ⟨content, hchange⟩ := Sources.mem_modified_iff.mp hpath
  obtain ⟨q, hq, hname⟩ := Sources.exists_pointer_of_mem_changes hchange
  obtain ⟨text, htext⟩ := hreads q hq
  obtain ⟨loc, mode, hresolve, hnode⟩ := FileTree.readText_eq_ok_iff.mp htext
  rw [hname] at hresolve
  exact ⟨loc, _, mode, hresolve, hnode⟩

end

/-- **The paths of a release** are followed from two places. The files that it rewrites lie where its paths
lead from the root of the project. The files that it has recorded lie where the same paths lead from the
top of the working tree, if all of them can be staged; if not, it fails and nothing is recorded. In a
project at the top of the working tree both are the same, and all paths that can stand in a snapshot can be
staged. A path with no links on its way leads to where it spells. -/
theorem bump_placement (host : Host) (base : String) (v : Versioning) (m : Metadata)
    {request : BumpRequest} {w : Workspace Checkout} {c : Checkout} {below : Location}
    {steps : List Step} {modified : List String} {version : String}
    (hcommit : request.commit = true) (hall : request.commitAll = false) (hscm : w.scm = some c)
    (hroot : w.files.resolve (if v.root = "" then "." else v.root) = .ok (c.workdir ++ below))
    (htree : w.files.IsTree) (hascending : c.repository.headSnapshot.Ascending)
    (hclean : c.repository.isDirty c.refresh.read.entries w.files c.workdir = false)
    (hjournal : ((v.bump host base m request).after w).journal = w.journal ++ steps)
    (hasked : .commitFiles true modified version ∈ steps) :
    let files := Sources.rewritten v.root version w.files (versionSources m)
    (∀ loc, files.node? loc ≠ w.files.node? loc →
        ∃ path ∈ modified, w.files.resolve (Path.join v.root path) = .ok loc) ∧
      (∀ path ∈ modified, Path.IsPlain path → w.files.IsDirect (c.workdir ++ below) path →
        ¬ w.files.IsLink (c.workdir ++ below ++ Path.names path) →
          w.files.resolve (Path.join v.root path) = .ok (c.workdir ++ below ++ Path.names path)) ∧
      (∃ c', ((v.bump host base m request).after w).scm = some c' ∧
        ((∀ path ∈ modified, files.Stageable c.workdir path) →
          (∀ path ∈ modified, files.IsDirect c.workdir path) →
            Recorded c c' version modified files) ∧
        ((∃ path ∈ modified, ¬ files.Stageable c.workdir path) →
          c'.repository = c.repository ∧
            ∃ fault w', v.bump host base m request w = .error (.scm fault) w')) ∧
      (below = [] → ∀ path ∈ modified, IndexPath.isValid path = true →
        files.Stageable c.workdir path) := by
  intro files
  obtain ⟨p, w₁, -, hversion, -, hpaths, hsources⟩ :=
    exists_plan_of_commitFiles_mem hcommit hjournal hasked
  subst hversion
  rw [hall] at hpaths
  have hmodified : modified = Sources.modified (releaseChanges v.root p.version m w.files) := hpaths
  obtain ⟨hreads, -⟩ := Sources.attemptAll_attempts hsources
  have hshape := Sources.sameShape_rewritten v.root p.version w.files (versionSources m)
  -- each path leads to a file, since it could be read
  have hfile : ∀ path ∈ modified, ∃ loc content mode,
      w.files.resolve (Path.join v.root path) = .ok loc ∧
        w.files.node? loc = some (.file content mode) :=
    fun path hpath => exists_file_of_mem_modified hreads (hmodified ▸ hpath)
  refine ⟨?_, ?_, ?_, ?_⟩
  · intro loc hchanged
    rw [hmodified]
    exact exists_path_of_node?_ne hchanged
  · intro path hpath hplain hdirect hlink
    obtain ⟨loc, content, mode, hresolve, -⟩ := hfile path hpath
    rw [hresolve, FileTree.resolve_join hroot hplain hdirect hlink hresolve]
  · have hdot : Checkout.stageAllPath ∉ modified := by
      intro hmem
      obtain ⟨loc, content, mode, hresolve, hnode⟩ := hfile _ hmem
      rw [FileTree.directory_of_resolve_dot hroot hresolve] at hnode
      exact absurd hnode nofun
    by_cases hstageable : ∀ path ∈ modified, files.Stageable c.workdir path
    · have hstorable : ∀ path ∈ modified, Checkout.isStorable path = true := by
        intro path hpath
        obtain ⟨loc, content, mode, hresolve, -⟩ := hfile path hpath
        have hnul := FileTree.nul_not_mem_of_resolve_join hresolve
        unfold Checkout.isStorable
        simpa using hnul
      obtain ⟨c', hafter, hsame⟩ := exists_sameCommits_after hcommit hscm hjournal hasked
      refine ⟨c', hafter, fun _ hdirect => ?_, fun ⟨path, hpath, hnot⟩ => ?_⟩
      · exact recorded_of_stageable hclean hshape htree hascending hdot hstorable hstageable hdirect
          hsame
      · exact absurd (hstageable path hpath) hnot
    · have hnot : ∃ path ∈ modified, ¬ files.Stageable c.workdir path := by
        simpa using hstageable
      obtain ⟨fault, hresult, hrepository⟩ := @refused_of_not_stageable c p.version files modified
        hdot hnot
      obtain ⟨w', hrun, hw'⟩ := of_refused hcommit hjournal hasked hscm hresult
      rw [Action.after_of_error hrun]
      exact ⟨_, hw', fun h _ => absurd h hstageable, fun _ => ⟨hrepository, fault, w', hrun⟩⟩
  · rintro rfl path hpath hvalid
    have hrelative := (Checkout.isPlain_of_isValid hvalid).not_isAbsolute
    obtain ⟨loc, content, mode, hresolve, hnode⟩ := hfile path hpath
    -- both followings start at the same place, before and after the sources are rewritten
    rw [← hshape.resolve_eq] at hroot hresolve
    obtain ⟨content', hnode'⟩ := hshape.exists_file hnode
    have hway := FileTree.leads_of_resolve_join hroot hrelative hresolve
    rw [List.append_nil] at hway
    exact ⟨hvalid, FileTree.isSome_blobAlong? hway hnode'⟩

/-! ### A project below the top of its working tree -/

namespace Placed

/-- A version in a project below the top, where something else has the same name. -/
def files : FileTree :=
  ⟨[(["app"], .directory), (["app", "setup.py"], .file "version = '1.0.0'\n".toUTF8 0o644),
    (["setup.py"], .file "tools\n".toUTF8 0o644)]⟩

def snapshot : Snapshot :=
  [("app/setup.py", ⟨"version = '1.0.0'\n".toUTF8, .file⟩), ("setup.py", ⟨"tools\n".toUTF8, .file⟩)]

/-- The same where nothing has the name. -/
def alone : FileTree :=
  ⟨[(["app"], .directory), (["app", "setup.py"], .file "version = '1.0.0'\n".toUTF8 0o644)]⟩

def aloneSnapshot : Snapshot := [("app/setup.py", ⟨"version = '1.0.0'\n".toUTF8, .file⟩)]

def declared : Metadata := Normalized.metadata "{major}.{minor}.{patch}" "setup.py"

def versioning : Versioning := ofDeclaration declared.versioning true "app"

end Placed

open Placed Normalized in
/-- The release of a project below the top rewrites its version and commits the file of the same name at
the top in its place. Without such a file it fails, with the version rewritten. -/
theorem bump_placement_below :
    (∃ report w' c',
      Placed.versioning.bump host "" declared request (workspace Placed.files Placed.snapshot) =
          .ok report w' ∧
        report.modified = ["setup.py"] ∧ w'.scm = some c' ∧
        w'.files.node? ["app", "setup.py"] = some (.file "version = '0.0.1'\n".toUTF8 0o644) ∧
        c'.repository.commits.length = 2 ∧
        c'.repository.index.lookup "app/setup.py" = some ⟨"version = '1.0.0'\n".toUTF8, .file⟩ ∧
        c'.repository.index.lookup "setup.py" = some ⟨"tools\n".toUTF8, .file⟩) ∧
    ∃ fault w' c',
      Placed.versioning.bump host "" declared request (workspace alone aloneSnapshot) =
          .error (.scm fault) w' ∧
        w'.scm = some c' ∧ c'.repository = (checkout aloneSnapshot).repository ∧
        w'.files.node? ["app", "setup.py"] = some (.file "version = '0.0.1'\n".toUTF8 0o644) := by
  let steps : List Step :=
    [.write "app/setup.py" "version = '0.0.1'\n", .commitFiles true ["setup.py"] "0.0.1"]
  have hasked : .commitFiles true ["setup.py"] "0.0.1" ∈ steps := by decide
  refine ⟨?_, ?_⟩
  · let w := workspace Placed.files Placed.snapshot
    obtain ⟨report, w', hrun, htest⟩ := Action.exists_of_succeedsWith
      (by decide +kernel : (Placed.versioning.bump host "" declared request).succeedsWith
        (fun report w' => decide (report.modified = ["setup.py"] ∧
          w'.journal = steps ++ [.applyTag true "0.0.1"] ∧
          w'.files.node? ["app", "setup.py"] =
            some (.file "version = '0.0.1'\n".toUTF8 0o644))) w = true)
    obtain ⟨hmodified, hjournal, hnode⟩ := of_decide_eq_true htest
    have htree : Placed.files.IsTree := FileTree.isTree_of_nodes (by decide)
    have hascending : (checkout Placed.snapshot).repository.headSnapshot.Ascending := by decide
    have hclean : (checkout Placed.snapshot).repository.isDirty
        (checkout Placed.snapshot).refresh.read.entries Placed.files [] = false := by
      decide +kernel
    obtain ⟨-, -, ⟨c', hscm, hrecorded, -⟩, -⟩ :=
      @bump_placement host "" Placed.versioning declared request w (checkout Placed.snapshot) ["app"]
        (steps ++ [.applyTag true "0.0.1"]) ["setup.py"] "0.0.1" rfl rfl rfl rfl htree hascending
        hclean (by rw [Action.after_of_ok hrun]; exact hjournal) (List.mem_append_left _ hasked)
    rw [Action.after_of_ok hrun] at hscm
    -- the path of the version leads to the other file from the top
    have hother : (Sources.rewritten "app" "0.0.1" Placed.files (versionSources declared)).node?
        ([] ++ Path.names "setup.py") = some (.file "tools\n".toUTF8 0o644) := by
      decide +kernel
    have hrecorded := hrecorded (by decide +kernel) (by decide +kernel)
    refine ⟨report, w', c', hrun, hmodified, hscm, hnode, ?_, ?_, ?_⟩
    · rw [hrecorded.committed ⟨by decide, by decide, by decide⟩]
      rfl
    · rw [hrecorded.unnamed "app/setup.py" (by decide)]
      decide +kernel
    · obtain ⟨node, blob, hnode', hlookup, hkeeps⟩ := hrecorded.named "setup.py" (by decide)
      obtain rfl := Option.some.inj (hother.symm.trans hnode')
      rw [hlookup, hkeeps.eq_of_not_mem (by decide +kernel) (by decide +kernel)]
      rfl
  · let w := workspace alone aloneSnapshot
    obtain ⟨e, w', hrun, htest⟩ := Action.exists_of_failsWith
      (by decide +kernel : (Placed.versioning.bump host "" declared request).failsWith
        (fun _ w' => decide (w'.journal = steps ∧
          w'.files.node? ["app", "setup.py"] =
            some (.file "version = '0.0.1'\n".toUTF8 0o644))) w = true)
    obtain ⟨hjournal, hnode⟩ := of_decide_eq_true htest
    have htree : alone.IsTree := FileTree.isTree_of_nodes (by decide)
    have hascending : (checkout aloneSnapshot).repository.headSnapshot.Ascending := by decide
    have hclean : (checkout aloneSnapshot).repository.isDirty
        (checkout aloneSnapshot).refresh.read.entries alone [] = false := by
      decide +kernel
    obtain ⟨-, -, ⟨c', hscm, -, hrefused⟩, -⟩ :=
      @bump_placement host "" Placed.versioning declared request w (checkout aloneSnapshot) ["app"]
        steps ["setup.py"] "0.0.1" rfl rfl rfl rfl htree hascending hclean
        (by rw [Action.after_of_error hrun]; exact hjournal) hasked
    rw [Action.after_of_error hrun] at hscm
    have hmissing : ¬ (Sources.rewritten "app" "0.0.1" alone (versionSources declared)).Stageable []
        "setup.py" := by
      decide +kernel
    obtain ⟨hsame, fault, w'', hrun'⟩ := hrefused ⟨"setup.py", by decide, hmissing⟩
    obtain ⟨-, rfl⟩ := EStateM.Result.error.inj (hrun.symm.trans hrun')
    exact ⟨fault, w', c', hrun', hscm, hsame, hnode⟩

end Versioning

end TagVersion
