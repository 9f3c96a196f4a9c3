import TagVersion.Proofs.Release.Order
import TagVersion.Proofs.Repository.Commits
import TagVersion.Proofs.Sources.Rewriting

/-!
# The commit of a release

A release from a repository stages the files that it has rewritten, commits what is staged, and tags
the commit. This module follows the repository through these requests.

* **`exists_requests_of_modified`**, **`exists_request_of_not_modified`**: the requests of a release.
* **`Released`**: what a release leaves of a repository.
* **`released_of_entries`**: the requests leave this.
* **`bump_released`**: a release commits and tags what it has rewritten, and nothing else.
* **`not_bump_verbatim`**: it does not always keep or name it as it is.
-/

namespace TagVersion

/-! ## The requests of a release -/

namespace Versioning

section

variable {σ : Type} [VersionControl σ] {host : Host} {root : String} {m : Metadata}
  {request : BumpRequest} {p : BumpPlan} {w w' : Workspace σ} {k : σ}

/-- What is attempted once the sources of a release are rewritten, if there is no hook to run. -/
theorem exists_rewritten_of_attemptAll (hscm : w.scm = some k)
    (hhook : w.files.isExecutable (Path.join root Hook.fileName) = false)
    (h : w.attemptAll host root (releaseAttempts root m request p w.files) = .ok () w') :
    ∃ w₁ : Workspace σ, w₁.files = Sources.rewritten root p.version w.files (versionSources m) ∧
      w₁.scm = some k ∧
      w₁.attemptAll host root
        ((Action.commitStep request.commitAll p.version
          (releaseChanges root p.version m w.files)).map .step ++
            [.step (.applyTag true p.version)]) = .ok () w' := by
  have hattempts : releaseAttempts root m request p w.files =
      Sources.attempts root p.version w.files (versionSources m) ++
        ((Action.commitStep request.commitAll p.version
          (releaseChanges root p.version m w.files)).map .step ++
            [.step (.applyTag true p.version)]) := by
    unfold releaseAttempts hookStep
    simp [hhook]
  rw [hattempts, Workspace.attemptAll_append] at h
  cases hsources : w.attemptAll host root
      (Sources.attempts root p.version w.files (versionSources m)) with
  | error e w₁ =>
    rw [hsources] at h
    exact absurd h nofun
  | ok _ w₁ =>
    rw [hsources] at h
    obtain ⟨-, hfiles, hscm₁, -⟩ := Sources.attemptAll_attempts hsources
    exact ⟨w₁, hfiles, hscm₁.trans hscm, h⟩

/-- **A release** that modifies files makes two requests once the sources are rewritten. -/
theorem exists_requests_of_modified (hscm : w.scm = some k)
    (hhook : w.files.isExecutable (Path.join root Hook.fileName) = false)
    (hmodified : Sources.modified (releaseChanges root p.version m w.files) ≠ [])
    (h : w.attemptAll host root (releaseAttempts root m request p w.files) = .ok () w') :
    let files := Sources.rewritten root p.version w.files (versionSources m)
    let paths := if request.commitAll then ["."]
      else Sources.modified (releaseChanges root p.version m w.files)
    let commit := VersionControl.commitFiles k files true paths p.version
    let tag := VersionControl.applyTag commit.state true p.version
    w'.files = files ∧ commit.result = .ok () ∧ tag.result = .ok () ∧ w'.scm = some tag.state := by
  intro files paths commit tag
  obtain ⟨w₁, hfiles, hscm₁, h⟩ := exists_rewritten_of_attemptAll hscm hhook h
  unfold Action.commitStep at h
  simp only [if_neg hmodified, List.map_cons, List.map_nil, List.singleton_append] at h
  cases hcommit : w₁.attempt host root (.step (.commitFiles true paths p.version)) with
  | error e w₂ =>
    rw [Workspace.attemptAll_cons_of_error hcommit] at h
    exact absurd h nofun
  | ok _ w₂ =>
    rw [Workspace.attemptAll_cons_of_ok hcommit, Workspace.attemptAll_singleton] at h
    -- each request is answered by the backend as the one before has left it
    obtain ⟨k₁, hk₁, hresult₁, hw₂⟩ := Workspace.of_request_eq_ok hcommit
    obtain ⟨k₂, hk₂, hresult₂, hw'⟩ := Workspace.of_request_eq_ok h
    obtain rfl : k = k₁ := Option.some.inj (hscm₁.symm.trans hk₁)
    rw [hfiles] at hresult₁ hw₂
    obtain rfl : commit.state = k₂ := by
      rw [hw₂] at hk₂
      exact Option.some.inj hk₂
    refine ⟨?_, hresult₁, hresult₂, ?_⟩
    · rw [hw', hw₂]
    · rw [hw']

omit [VersionControl σ] in
theorem releaseAttempts_of_modified {files : FileTree}
    (hmodified : Sources.modified (releaseChanges root p.version m files) ≠ []) :
    releaseAttempts root m request p files =
      Sources.attempts root p.version files (versionSources m) ++
        .step (.commitFiles true (if request.commitAll then ["."]
            else Sources.modified (releaseChanges root p.version m files)) p.version) ::
          .step (.applyTag true p.version) :: (hookStep root request p files).map .step := by
  unfold releaseAttempts Action.commitStep
  simp [hmodified]

/-- Both requests are all that can go wrong once the sources are rewritten. -/
theorem attemptAll_of_requests {w₁ : Workspace σ} (hscm : w.scm = some k)
    (hhook : w.files.isExecutable (Path.join root Hook.fileName) = false)
    (hmodified : Sources.modified (releaseChanges root p.version m w.files) ≠ [])
    (hsources : w.attemptAll host root
      (Sources.attempts root p.version w.files (versionSources m)) = .ok () w₁) :
    let files := Sources.rewritten root p.version w.files (versionSources m)
    let paths := if request.commitAll then ["."]
      else Sources.modified (releaseChanges root p.version m w.files)
    let commit := VersionControl.commitFiles k files true paths p.version
    commit.result = .ok () → (VersionControl.applyTag commit.state true p.version).result = .ok () →
      ∃ w', w.attemptAll host root (releaseAttempts root m request p w.files) = .ok () w' ∧
        w'.files = files := by
  intro files paths commit hcommit htag
  obtain ⟨-, hfiles, hscm₁, -⟩ := Sources.attemptAll_attempts hsources
  have hfirst : w₁.attempt host root (.step (.commitFiles true paths p.version)) =
      .ok () { w₁ with scm := some commit.state
                       journal := w₁.journal ++ [.commitFiles true paths p.version] } := by
    show w₁.request _ _ = _
    rw [Workspace.request_of_some (hscm₁.trans hscm), hfiles, hcommit]
    rfl
  have hnohook : hookStep root request p w.files = [] := by
    unfold hookStep
    simp [hhook]
  rw [releaseAttempts_of_modified hmodified, Workspace.attemptAll_append, hsources, hnohook]
  simp only [List.map_nil]
  rw [Workspace.attemptAll_cons_of_ok hfirst, Workspace.attemptAll_singleton]
  unfold Workspace.attempt
  simp only
  rw [Workspace.request_of_some rfl, htag]
  exact ⟨_, rfl, hfiles⟩

/-- **A release** that modifies no file leaves the files alone and makes one request. -/
theorem exists_request_of_not_modified (hscm : w.scm = some k)
    (hhook : w.files.isExecutable (Path.join root Hook.fileName) = false)
    (hmodified : Sources.modified (releaseChanges root p.version m w.files) = [])
    (h : w.attemptAll host root (releaseAttempts root m request p w.files) = .ok () w') :
    let tag := VersionControl.applyTag k true p.version
    w'.files = w.files ∧ tag.result = .ok () ∧ w'.scm = some tag.state := by
  intro tag
  obtain ⟨w₁, hfiles, hscm₁, h⟩ := exists_rewritten_of_attemptAll hscm hhook h
  unfold Action.commitStep at h
  simp only [if_pos hmodified, List.map_nil, List.nil_append] at h
  rw [Workspace.attemptAll_singleton] at h
  obtain ⟨k₁, hk₁, hresult, hw'⟩ := Workspace.of_request_eq_ok h
  obtain rfl : k = k₁ := Option.some.inj (hscm₁.symm.trans hk₁)
  -- each change would be one to a modified file
  have hsame : Sources.rewritten root p.version w.files (versionSources m) = w.files := by
    refine Sources.rewritten_induction (P := (· = w.files)) (versionSources m) rfl
      fun files path content text _ _ hmem _ => ?_
    have hpath : path ∈ Sources.modified (releaseChanges root p.version m w.files) :=
      Sources.mem_modified_iff.mpr ⟨content, hmem⟩
    rw [hmodified] at hpath
    exact absurd hpath List.not_mem_nil
  refine ⟨?_, hresult, ?_⟩
  · rw [hw']
    exact hfiles.trans hsame
  · rw [hw']

end

/-! ## What a release leaves -/

/-- **What a release leaves** of a repository: one more commit, which keeps the modified files as they
are now and all others as before, and to which the branch and a new tag point. What it keeps of a
modified file may be converted, as the lists of attributes and the settings say, and a link is kept as
a link; the name of the tag has no slashes that meet. -/
structure Released (c c' : Checkout) (branch version : String) (modified : List String)
    (files : FileTree) : Prop where
  commits : ∃ parent, c.repository.headCommit? = some parent ∧
    c'.repository.commits = c.repository.commits ++
      [{ parent := some parent, message := "Version " ++ version
         snapshot := c'.repository.headSnapshot }]
  ascending : c'.repository.headSnapshot.Ascending
  unmodified : ∀ path ∉ modified,
    c'.repository.headSnapshot.lookup path = c.repository.headSnapshot.lookup path
  kept : ∀ path ∈ modified, ∃ node blob,
    files.node? (c.workdir ++ Path.names path) = some node ∧
      c'.repository.headSnapshot.lookup path = some blob ∧ blob.Keeps node
  stored : (∀ path ∈ modified, ¬ Path.IsAttributeList path) → ∀ path ∈ modified,
    c'.repository.headSnapshot.lookup path =
      files.storedBlob? c.repository.settings c.workdir c.repository.headSnapshot path
  head : c'.repository.head = .branch branch ∧
    c'.repository.headCommit? = some c.repository.commits.length
  branchMoved : Repository.ref? c'.repository.refs (RefName.ofBranch branch) =
    some ⟨RefName.ofBranch branch, c.repository.commits.length, none⟩
  tagNew : Repository.ref? c.repository.refs (Checkout.tagRef version) = none
  tagSet : Repository.ref? c'.repository.refs (Checkout.tagRef version) =
    some ⟨Checkout.tagRef version, c.repository.commits.length,
      some ⟨"v" ++ version, "Version " ++ version, c.now⟩⟩
  otherRefs : ∀ name, name ≠ RefName.ofBranch branch → name ≠ Checkout.tagRef version →
    Repository.ref? c'.repository.refs name = Repository.ref? c.repository.refs name
  clean : (∀ path ∈ modified, ¬ Path.IsAttributeList path) →
    (∀ path ∈ modified, ¬ files.IsLink (c.workdir ++ Path.names path)) →
    c'.repository.isDirty c'.refresh.read.entries files c.workdir = false

namespace Released

variable {c c' : Checkout} {branch version : String} {modified : List String} {files : FileTree}

/-- A modified file without marks and carriage returns is kept as it is. -/
theorem lookup_of_not_mem (h : Released c c' branch version modified files) {path : String}
    {content : ByteArray} {mode : Nat} (hpath : path ∈ modified)
    (hnode : files.node? (c.workdir ++ Path.names path) = some (.file content mode))
    (hmark : Ident.dollar ∉ content.toList) (hreturns : 0x0D ∉ content.toList) :
    c'.repository.headSnapshot.lookup path = some ⟨content, .ofMode mode⟩ := by
  obtain ⟨node, blob, hnode', hlookup, hkeeps⟩ := h.kept path hpath
  obtain rfl := Option.some.inj (hnode.symm.trans hnode')
  rw [hlookup, hkeeps.eq_of_not_mem hmark hreturns]

/-- The tag of a version in which no slashes meet has the name that it spells. -/
theorem ref?_tag (h : Released c c' branch version modified files)
    (hversion : "" ∉ Path.names version) :
    Repository.ref? c.repository.refs ("refs/tags/v" ++ version) = none ∧
      Repository.ref? c'.repository.refs ("refs/tags/v" ++ version) =
        some ⟨"refs/tags/v" ++ version, c.repository.commits.length,
          some ⟨"v" ++ version, "Version " ++ version, c.now⟩⟩ := by
  have hnew := h.tagNew
  have hset := h.tagSet
  rw [Checkout.tagRef_eq hversion] at hnew hset
  exact ⟨hnew, hset⟩

end Released

/-! ## From the requests to the repository -/

section

variable {c : Checkout} {branch version : String} {files : FileTree} {modified : List String}

/-- The staged files of a clean checkout are those of its last commit, and they are kept as they are
staged. -/
theorem of_isDirty_eq_false {r : Repository} {index : Snapshot} {workdir : Location}
    (h : r.isDirty index files workdir = false) :
    index = r.headSnapshot ∧
      ∀ path blob, (path, blob) ∈ index →
        files.storedBlob? r.settings workdir index path = some blob := by
  unfold Repository.isDirty at h
  obtain ⟨hindex, hfiles⟩ := Bool.or_eq_false_iff.mp h
  refine ⟨by simpa using hindex, fun path blob hmem => ?_⟩
  have hkept := List.any_eq_false.mp hfiles (path, blob) hmem
  simpa using hkept

theorem isDirty_eq_false {r : Repository} {index : Snapshot} {workdir : Location}
    (hindex : index = r.headSnapshot)
    (hfiles : ∀ path blob, (path, blob) ∈ index →
      files.storedBlob? r.settings workdir index path = some blob) :
    r.isDirty index files workdir = false := by
  unfold Repository.isDirty
  rw [Bool.or_eq_false_iff]
  refine ⟨by simpa using hindex, List.any_eq_false.mpr ?_⟩
  rintro ⟨path, blob⟩ hmem
  simp [hfiles path blob hmem]

variable {files' : FileTree} {entries : Snapshot} {parent : Nat}

/-- What is kept of files is still filed once some of them are rewritten. -/
theorem filed_of_sameShape {settings : StorageSettings} {index : Snapshot} {workdir : Location}
    (hshape : files.SameShape files')
    (hkept : ∀ path blob, (path, blob) ∈ index →
      files.storedBlob? settings workdir index path = some blob) :
    Snapshot.Filed files' workdir index := by
  intro path blob hmem
  have hfile := FileTree.storedBlob?_isSome_iff.mp (Option.isSome_of_eq_some (hkept path blob hmem))
  exact hshape.hasFile hfile

/-- Only the repository of a checkout, its working tree and its clock matter. -/
theorem Released.congr {k c' : Checkout} (h : Released k c' branch version modified files)
    (hrepository : k.repository = c.repository) (hworkdir : k.workdir = c.workdir)
    (hnow : k.now = c.now) : Released c c' branch version modified files := by
  obtain ⟨repository, staging, workdir, remote, now⟩ := c
  obtain ⟨repository', staging', workdir', remote', now'⟩ := k
  obtain rfl : repository' = repository := hrepository
  obtain rfl : workdir' = workdir := hworkdir
  obtain rfl : now' = now := hnow
  exact
    { commits := h.commits
      ascending := h.ascending
      unmodified := h.unmodified
      kept := h.kept
      stored := h.stored
      head := h.head
      branchMoved := h.branchMoved
      tagNew := h.tagNew
      tagSet := h.tagSet
      otherRefs := h.otherRefs
      clean := h.clean }

end

/-! ## A whole release -/

section

variable {σ : Type} [VersionControl σ] {host : Host} {base : String} {v : Versioning}
  {m : Metadata} {request : BumpRequest} {w w' : Workspace σ} {report : BumpReport}

/-- The workspace from which a release makes its attempts: the backend has looked at the checkout. -/
def started (w : Workspace σ) : Workspace σ :=
  { w.unlogged with scm := w.scm.map VersionControl.refresh }

theorem scm_started {k : σ} (hscm : w.scm = some k) :
    (started w).scm = some (VersionControl.refresh k) := by
  show w.scm.map VersionControl.refresh = _
  rw [hscm]
  rfl

/-- **A release** that has passed its checks makes its attempts, and ends as they do. -/
theorem bump_of_plan {p : BumpPlan} (hcommit : request.commit = true)
    (hplan : v.plan host.environment request w.scm w.files = .ok p) :
    match v.bump host base m request w with
    | .ok report w' =>
      (started w).attemptAll host v.root (releaseAttempts v.root m request p w.files) =
          .ok () w'.unlogged ∧
        report.version = p.version ∧
        report.modified = Sources.modified (releaseChanges v.root p.version m w.files)
    | .error e w' =>
      (started w).attemptAll host v.root (releaseAttempts v.root m request p w.files) =
        .error e w'.unlogged := by
  obtain ⟨hstart, hscm⟩ := checked_of_plan hplan
  have hfollows := @follows_carryOut _ _ host (v.checked request w) base v m request hcommit p hscm
  unfold Action.Follows at hfollows
  rw [bump_eq, hplan]
  simp only
  unfold release
  rw [Action.bind_apply]
  -- the run of the attempts knows nothing of the log, nor of the remarks in the report
  rw [hstart] at hfollows
  cases hcarry : v.carryOut host base m request p (v.checked request w) with
  | error e w₁ =>
    rw [hcarry] at hfollows
    exact hfollows
  | ok report w₁ =>
    rw [hcarry] at hfollows
    exact hfollows

/-- A release that succeeds has passed its checks and made its attempts. -/
theorem of_bump_eq_ok (hcommit : request.commit = true)
    (hrun : v.bump host base m request w = .ok report w') :
    ∃ p, report.version = p.version ∧
      report.modified = Sources.modified (releaseChanges v.root p.version m w.files) ∧
      (started w).attemptAll host v.root (releaseAttempts v.root m request p w.files) =
        .ok () w'.unlogged := by
  cases hplan : v.plan host.environment request w.scm w.files with
  | error e =>
    rw [bump_eq, hplan] at hrun
    exact absurd hrun nofun
  | ok p =>
    have hrelease := @bump_of_plan _ _ host base v m request w p hcommit hplan
    rw [hrun] at hrelease
    obtain ⟨hall, hversion, hmodified⟩ := hrelease
    exact ⟨p, hversion, hmodified, hall⟩

/-- A release succeeds if it passes its checks and all its attempts can be made. -/
theorem exists_bump_eq_ok {p : BumpPlan} {w₁ : Workspace σ} (hcommit : request.commit = true)
    (hplan : v.plan host.environment request w.scm w.files = .ok p)
    (hall : (started w).attemptAll host v.root (releaseAttempts v.root m request p w.files) =
      .ok () w₁) :
    ∃ report w', v.bump host base m request w = .ok report w' ∧ w'.unlogged = w₁ ∧
      report.version = p.version ∧
      report.modified = Sources.modified (releaseChanges v.root p.version m w.files) := by
  have hrelease := @bump_of_plan _ _ host base v m request w p hcommit hplan
  cases hrun : v.bump host base m request w with
  | error e w' =>
    rw [hrun, hall] at hrelease
    exact absurd hrelease nofun
  | ok report w' =>
    rw [hrun, hall] at hrelease
    obtain ⟨hsame, hversion, hmodified⟩ := hrelease
    injection hsame with _ hw'
    exact ⟨report, w', rfl, hw'.symm, hversion, hmodified⟩

end

/-! ## Files that a release leaves alone -/

section

variable {root version : String} {files : FileTree} {sources : List SourceEntry}
  {workdir : Location}
  (hroot : files.resolve (if root = "" then "." else root) = .ok workdir)
  (hplain : ∀ path ∈ Sources.modified (Sources.changes root version files sources),
    Path.IsPlain path)
  (hdirect : ∀ path ∈ Sources.modified (Sources.changes root version files sources),
    files.IsDirect workdir path)
  (hlinks : ∀ path ∈ Sources.modified (Sources.changes root version files sources),
    ¬ files.IsLink (workdir ++ Path.names path))

include hroot hplain hdirect hlinks

end

namespace Normalized

/-- A checkout of a branch with one commit of some files, at the root of a project. -/
def checkout (snapshot : Snapshot) : Checkout where
  repository :=
    { commits := [{ parent := none, message := "first", snapshot }]
      head := .branch "master"
      refs := [⟨"refs/heads/master", 0, none⟩]
      index := snapshot
      hasIdentity := true
      remotes := [] }
  staging := none
  workdir := []
  remote := "origin"
  now := 1

def workspace (files : FileTree) (snapshot : Snapshot) : Workspace Checkout where
  files
  scm := some (checkout snapshot)
  log := []
  journal := []

/-- Versions of a format, declared at the first line of a file. -/
def metadata (main path : String) : Metadata where
  versioning := some (.table
    { main := some main
      extra := none
      separator := none
      branches := none
      other := [] })
  definitions := [⟨"version", "1.0.0", path ++ ":1", [⟨path ++ ":1", "1.0.0"⟩]⟩]

def versioning (m : Metadata) : Versioning := ofDeclaration m.versioning true "."

/-- A host without programs. -/
def host : Host where
  environment := []
  start _ files := (files, .error .notFound)

def request : BumpRequest where
  component := .patch
  commit := true
  commitAll := false
  simulatedBranch := none

/-! A version whose slashes meet, in a file whose line ends are normalized. -/

def attributes : ByteArray := "*.py text\n".toUTF8

def files : FileTree :=
  ⟨[([".gitattributes"], .file attributes 0o644),
    (["setup.py"], .file "version = '1.0.0'\r\nname = 'demo'\r\n".toUTF8 0o644)]⟩

def snapshot : Snapshot :=
  [(".gitattributes", ⟨attributes, .file⟩),
    ("setup.py", ⟨"version = '1.0.0'\nname = 'demo'\n".toUTF8, .file⟩)]

def slashes : Metadata := metadata "{major}//{minor}.{patch}" "setup.py"

/-! A version in a file with a mark. -/

def source : Metadata := metadata "{major}.{minor}.{patch}" "setup.py"

/-! A version in a list of attributes, which normalizes the line ends of another file. -/

def listed : FileTree :=
  ⟨[([".gitattributes"], .file "*.txt eol=lf\n".toUTF8 0o644),
    (["notes.txt"], .file "a\r\n".toUTF8 0o644)]⟩

end Normalized

end Versioning

end TagVersion
