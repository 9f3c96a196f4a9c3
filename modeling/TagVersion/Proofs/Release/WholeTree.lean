import TagVersion.Proofs.Release.Commit
import TagVersion.Proofs.Repository.Tags
import TagVersion.Proofs.Repository.WholeTree

/-!
# Releasing the whole working tree

A release may commit the whole working tree, pending changes included. It does so if it modifies a file:
every file that was tracked is committed as it is then, and no change is left, unless one was made to a list
of attributes. A release that modifies no file, because no version is declared or because all lines are
right already, commits nothing at all. It tags the commit that is there, and what was pending stays
pending.

* **`CommittedAll`**: what a release leaves that commits the whole tree.
* **`OnlyTagged`**: what a release leaves that commits nothing.
* **`committedAll_of_requests`**, **`onlyTagged_of_request`**: from the requests to the repository.
* **`bump_commitAll`**: a release of the whole tree leaves one or the other.
-/

namespace TagVersion

namespace Checkout

variable {c : Checkout} {entries : Snapshot} {message : String}

/-! ## Looking twice -/

theorem entries_refresh_refresh (c : Checkout) :
    c.refresh.refresh.read.entries = c.refresh.read.entries := by
  by_cases hnone : c.repository.headCommit?.isNone
  · have hsame : c.refresh = c := by
      unfold refresh
      rw [if_pos hnone]
    rw [hsame, hsame]
  · -- what was read last goes back to the files that are saved
    have hread : c.refresh.read =
        if c.read.saved = c.repository.index then c.read
        else ⟨c.repository.index, c.repository.index⟩ := by
      unfold refresh
      rw [if_neg hnone]
      rfl
    have hsaved : c.refresh.read.saved = c.repository.index := by
      rw [hread]
      split
      · assumption
      · rfl
    have hagain : c.refresh.refresh.read =
        if c.refresh.read.saved = c.refresh.repository.index then c.refresh.read
        else ⟨c.refresh.repository.index, c.refresh.repository.index⟩ := by
      rw [← c.repository_refresh] at hnone
      generalize c.refresh = k at hnone
      unfold refresh
      rw [if_neg hnone]
      rfl
    rw [hagain, hsaved, c.repository_refresh, if_pos rfl]

/-- A tag changes nothing of what is staged. -/
theorem entries_refresh_tagged (c : Checkout) (target : Nat) (version : String) :
    (c.tagged target version).refresh.read.entries = c.refresh.read.entries := by
  have hhead := headCommit?_tagged c target version
  unfold refresh
  rw [hhead]
  split
  · rfl
  · rfl

end Checkout

namespace Versioning

/-! ## What a release leaves -/

/-- **What a release leaves** that commits the whole working tree: one more commit, to which a new tag
points. Each file or link that was staged before, or is new in the commit, is kept as it is now; what is
gone is not in the commit. -/
structure CommittedAll (c c' : Checkout) (version : String) (files : FileTree) : Prop where
  commits : ∃ parent, c.repository.headCommit? = some parent ∧
    c'.repository.commits = c.repository.commits ++
      [{ parent := some parent, message := "Version " ++ version
         snapshot := c'.repository.headSnapshot }]
  head : c'.repository.headCommit? = some c.repository.commits.length
  tagSet : Repository.ref? c'.repository.refs (Checkout.tagRef version) =
    some ⟨Checkout.tagRef version, c.repository.commits.length,
      some ⟨"v" ++ version, "Version " ++ version, c.now⟩⟩
  kept : ∀ path node, files.node? (c.workdir ++ Path.names path) = some node →
    node ≠ .directory →
      ((c.refresh.read.entries.lookup path).isSome ∨
        (c'.repository.headSnapshot.lookup path).isSome) →
        ∃ blob, c'.repository.headSnapshot.lookup path = some blob ∧ blob.Keeps node
  gone : ∀ path, ¬ files.HasFile c.workdir path → c'.repository.headSnapshot.lookup path = none
  clean : (∀ path,
      ¬ files.PendingList c.repository.settings c.workdir c.refresh.read.entries path) →
    c'.repository.isDirty c'.refresh.read.entries files c.workdir = false

/-- **What a release leaves** that commits nothing: a new tag at the commit that is checked out, and every
change that was pending. -/
structure OnlyTagged (c c' : Checkout) (version : String) (files : FileTree) : Prop where
  commits : c'.repository.commits = c.repository.commits
  tagSet : ∃ target, c.repository.headCommit? = some target ∧
    c'.repository.headCommit? = some target ∧
    Repository.ref? c'.repository.refs (Checkout.tagRef version) =
      some ⟨Checkout.tagRef version, target,
        some ⟨"v" ++ version, "Version " ++ version, c.now⟩⟩
  index : c'.refresh.read.entries = c.refresh.read.entries
  pending : c'.repository.isDirty c'.refresh.read.entries files c.workdir =
    c.repository.isDirty c.refresh.read.entries files c.workdir

section

variable {c : Checkout} {version : String} {files : FileTree}

/-- The requests to commit everything and to tag it. -/
theorem committedAll_of_requests (hremote : c.repository.remotes.lookup c.remote = none)
    (htree : files.IsTree) (hascending : c.refresh.read.entries.Ascending)
    (hcommit : (c.refresh.commitFiles files true ["."] version).result = .ok ())
    (htag : ((c.refresh.commitFiles files true ["."] version).state.applyTag true version).result =
      .ok ()) :
    CommittedAll c ((c.refresh.commitFiles files true ["."] version).state.applyTag true version).state
      version files := by
  have hrepository := c.repository_refresh
  obtain ⟨entries, parent, name, log, hstaged, hparent, hpublish⟩ :=
    Checkout.exists_publish_of_commitFiles hcommit
  -- everything is staged, since the path of the whole tree was asked for
  have hall : files.stageAll c.repository.settings c.workdir c.refresh.read.entries =
      (entries, true) := by
    unfold Checkout.stagePathsOrAll at hstaged
    rw [if_pos (by decide), c.workdir_refresh, hrepository] at hstaged
    split at hstaged
    · next index hindex =>
      obtain ⟨rfl, -⟩ := Prod.mk.inj hstaged
      exact hindex
    · exact absurd (Prod.mk.inj hstaged).2 nofun
  let k := c.refresh.withCommit entries (Checkout.releaseMessage version)
  have hremotes : k.repository.remotes.lookup k.remote = none := by
    have hsame : k.repository.remotes = c.refresh.repository.remotes :=
      Repository.remotes_commit _ _
    have hname : k.remote = c.remote := c.remote_refresh
    rw [hsame, hname, hrepository]
    exact hremote
  have hstate : (c.refresh.commitFiles files true ["."] version).state = k := by
    rw [hpublish]
    exact Checkout.state_publish hremotes _ _
  rw [hstate] at htag ⊢
  obtain ⟨target, htarget, -, htagged⟩ := Checkout.of_applyTag_eq_ok hremotes htag
  have hhead : k.repository.headCommit? = some c.repository.commits.length := by
    rw [← hrepository]
    exact Repository.headCommit?_commit _ _
  obtain rfl : c.repository.commits.length = target := Option.some.inj (hhead.symm.trans htarget)
  rw [htagged]
  have hsnapshot : (k.tagged c.repository.commits.length version).repository.headSnapshot =
      entries := (Checkout.headSnapshot_tagged k _ version).trans (Repository.headSnapshot_commit _ _)
  have hentries : (k.tagged c.repository.commits.length version).refresh.read.entries = entries :=
    Checkout.entries_refresh_of_saved rfl (Repository.index_commit _ _)
  obtain ⟨hascending', hgone, hkept⟩ := FileTree.lookup_stageAll htree hascending hall
  refine
    { commits := ⟨parent, hrepository ▸ hparent, ?_⟩
      head := (Checkout.headCommit?_tagged k _ version).trans hhead
      tagSet := ?_
      kept := ?_
      gone := ?_
      clean := ?_ }
  · rw [hsnapshot, ← hrepository, ← hparent]
    exact Repository.commits_commit _ _
  · show Repository.ref? (Repository.putRef k.repository.refs _) _ = _
    rw [Repository.ref?_putRef, if_pos rfl, ← c.now_refresh]
    rfl
  · rw [hsnapshot]
    intro path node hnode hne htracked
    have hfile : files.HasFile c.workdir path := ⟨node, hnode, hne⟩
    obtain ⟨staged, hlookup⟩ := hkept path hfile htracked
    obtain ⟨blob, hblob⟩ := Option.isSome_iff_exists.mp
      (FileTree.storedBlob?_isSome_iff.mpr hfile :
        (files.storedBlob? c.repository.settings c.workdir staged path).isSome)
    obtain ⟨node', hnode', hkeeps⟩ := FileTree.exists_keeps_of_storedBlob? hblob
    obtain rfl := Option.some.inj (hnode.symm.trans hnode')
    exact ⟨blob, hlookup.trans hblob, hkeeps⟩
  · rw [hsnapshot]
    exact hgone
  · intro hlists
    rw [hentries]
    refine isDirty_eq_false hsnapshot.symm fun path blob hmem => ?_
    have hsettings : (k.tagged c.repository.commits.length version).repository.settings =
        c.repository.settings := by
      rw [← hrepository]
      exact Repository.settings_commit _ _
    rw [hsettings]
    exact FileTree.storedBlob?_stageAll htree hascending hlists hall
      ((Snapshot.mem_iff_lookup hascending').mp hmem)

/-- The request for a tag alone. -/
theorem onlyTagged_of_request (hremote : c.repository.remotes.lookup c.remote = none)
    (htag : (c.refresh.applyTag true version).result = .ok ()) :
    OnlyTagged c (c.refresh.applyTag true version).state version files := by
  have hrepository := c.repository_refresh
  have hremotes : c.refresh.repository.remotes.lookup c.refresh.remote = none := by
    rw [hrepository, c.remote_refresh]
    exact hremote
  obtain ⟨target, htarget, -, htagged⟩ := Checkout.of_applyTag_eq_ok hremotes htag
  rw [htagged]
  have hentries : (c.refresh.tagged target version).refresh.read.entries = c.refresh.read.entries :=
    (Checkout.entries_refresh_tagged c.refresh target version).trans c.entries_refresh_refresh
  refine
    { commits := ?_
      tagSet := ⟨target, hrepository ▸ htarget,
        (Checkout.headCommit?_tagged c.refresh target version).trans htarget, ?_⟩
      index := hentries
      pending := ?_ }
  · show c.refresh.repository.commits = _
    rw [hrepository]
  · show Repository.ref? (Repository.putRef c.refresh.repository.refs _) _ = _
    rw [Repository.ref?_putRef, if_pos rfl, ← c.now_refresh]
    rfl
  · -- neither the commits nor the staged files have changed
    have hsnapshot : (c.refresh.tagged target version).repository.headSnapshot =
        c.repository.headSnapshot := by
      rw [Checkout.headSnapshot_tagged, hrepository]
    have hsettings : (c.refresh.tagged target version).repository.settings =
        c.repository.settings := by
      rw [← hrepository]
      rfl
    unfold Repository.isDirty
    rw [hentries, hsnapshot, hsettings]

end

/-! ## A whole release -/

/-- **A release of the whole working tree** commits it if a file is modified. If none is, it commits
nothing, and tags the commit that is there with whatever is pending. -/
theorem bump_commitAll (host : Host) (base : String) (v : Versioning) (m : Metadata)
    {request : BumpRequest} {w w' : Workspace Checkout} {c : Checkout} {report : BumpReport}
    (hcommit : request.commit = true) (hall : request.commitAll = true) (hscm : w.scm = some c)
    (hremote : c.repository.remotes.lookup c.remote = none) (htree : w.files.IsTree)
    (hascending : c.refresh.read.entries.Ascending)
    (hhook : w.files.isExecutable (Path.join v.root Hook.fileName) = false)
    (hrun : v.bump host base m request w = .ok report w') :
    ∃ c', w'.scm = some c' ∧
      (report.modified ≠ [] → CommittedAll c c' report.version w'.files) ∧
      (report.modified = [] →
        w'.files = w.files ∧ OnlyTagged c c' report.version w'.files) := by
  obtain ⟨p, hversion, hlist, hattempts⟩ := of_bump_eq_ok hcommit hrun
  rw [hlist, hversion]
  have hstart := scm_started hscm
  by_cases hmodified : Sources.modified (releaseChanges v.root p.version m w.files) = []
  · obtain ⟨hfiles, hgranted, hscm'⟩ :=
      @exists_request_of_not_modified _ _ host v.root m request p (started w) _ _ hstart hhook hmodified
        hattempts
    exact ⟨_, hscm', fun hne => absurd hmodified hne,
      fun _ => ⟨hfiles, onlyTagged_of_request hremote hgranted⟩⟩
  · obtain ⟨hfiles, hgranted, htagged, hscm'⟩ :=
      @exists_requests_of_modified _ _ host v.root m request p (started w) _ _ hstart hhook hmodified
        hattempts
    have hfiles : w'.files = Sources.rewritten v.root p.version w.files (versionSources m) := hfiles
    have htree' : w'.files.IsTree := by
      rw [hfiles]
      exact (Sources.sameShape_rewritten v.root p.version w.files _).isTree htree
    simp only [hall, ↓reduceIte] at hgranted htagged hscm'
    refine ⟨_, hscm', fun _ => ?_, fun hnil => absurd hnil hmodified⟩
    have hsources : Sources.rewritten v.root p.version (started w).files (versionSources m) =
        w'.files :=
      hfiles.symm
    rw [hsources] at hgranted htagged ⊢
    exact committedAll_of_requests hremote htree' hascending hgranted htagged

/-! ### A pending change, with and without a version to rewrite -/

namespace Pending

/-- A version, and a file that has changed since it was committed. -/
def files : FileTree :=
  ⟨[(["setup.py"], .file "version = '1.0.0'\n".toUTF8 0o644),
    (["a.txt"], .file "b\n".toUTF8 0o644)]⟩

def snapshot : Snapshot :=
  [("a.txt", ⟨"a\n".toUTF8, .file⟩), ("setup.py", ⟨"version = '1.0.0'\n".toUTF8, .file⟩)]

def declared : Metadata := Normalized.metadata "{major}.{minor}.{patch}" "setup.py"

/-- No version is declared. -/
def undeclared : Metadata := .ofDeclaration (some (.switch true))

def request : BumpRequest := { Normalized.request with commitAll := true }

end Pending

open Pending Normalized in
/-- The release of the declared version succeeds. -/
theorem exists_bump_pending :
    ∃ report w', (versioning declared).bump host "" declared Pending.request
        (workspace Pending.files Pending.snapshot) = .ok report w' ∧
      report.modified = ["setup.py"] ∧
      w'.files.node? ["a.txt"] = some (.file "b\n".toUTF8 0o644) := by
  let w := workspace Pending.files Pending.snapshot
  let c := (checkout Pending.snapshot).refresh
  let rewritten := Sources.rewritten "." "0.0.1" Pending.files (versionSources declared)
  have hplan : (versioning declared).plan host.environment Pending.request w.scm w.files =
      .ok ⟨"0.0.1", "master"⟩ := by
    decide +kernel
  -- the sources can be rewritten, and all that is staged then is tracked already
  obtain ⟨w₁, hsources⟩ : ∃ w₁, (started w).attemptAll host "."
      (Sources.attempts "." "0.0.1" Pending.files (versionSources declared)) = .ok () w₁ := by
    obtain ⟨_, w₁, hw₁, -⟩ := Action.exists_of_succeedsWith
      (by decide +kernel : Action.succeedsWith
        (fun w => w.attemptAll host "."
          (Sources.attempts "." "0.0.1" Pending.files (versionSources declared)))
        (fun _ _ => true) (started w) = true)
    exact ⟨w₁, hw₁⟩
  have hpaths : rewritten.changedPaths [] Pending.snapshot = ["a.txt", "setup.py"] :=
    FileTree.changedPaths_of_tracked (by decide) (by decide +kernel)
  let entries := (rewritten.stageChanges {} [] Pending.snapshot ["a.txt", "setup.py"]).1
  have hwhole : (rewritten.stageChanges {} [] Pending.snapshot ["a.txt", "setup.py"]).2 = true := by
    decide +kernel
  have hstage : rewritten.stageAll c.repository.settings c.workdir c.read.entries =
      (entries, true) := by
    show rewritten.stageChanges {} [] Pending.snapshot
      (rewritten.changedPaths [] Pending.snapshot) = _
    rw [hpaths, ← hwhole]
  have hstaged : Checkout.stagePathsOrAll rewritten c.repository.settings c.workdir c.read.entries
      ["."] = (entries, .ok ()) :=
    Checkout.stagePathsOrAll_of_stageAll (List.mem_singleton.mpr rfl) hstage
  obtain ⟨name, log, hcommit⟩ := @Checkout.commitFiles_of_canCommit c "0.0.1" rewritten ["."] entries
    hstaged ⟨by decide, by decide, by decide⟩
  have htag : ((c.withCommit entries (Checkout.releaseMessage "0.0.1")).applyTag true "0.0.1").result =
      .ok () := by
    decide +kernel
  obtain ⟨w₂, hall, hfiles⟩ := @attemptAll_of_requests _ _ host "." declared Pending.request
    ⟨"0.0.1", "master"⟩ (started w) c w₁ rfl (by decide) (by decide +kernel) hsources
    (by show (c.commitFiles rewritten true ["."] "0.0.1").result = _; rw [hcommit]; rfl)
    (by
      show ((c.commitFiles rewritten true ["."] "0.0.1").state.applyTag true "0.0.1").result = _
      rw [hcommit, Checkout.state_publish rfl]
      exact htag)
  obtain ⟨report, w', hrun, hw', -, hmodified⟩ :=
    @exists_bump_eq_ok _ _ host "" (versioning declared) declared Pending.request w _ w₂ rfl hplan hall
  refine ⟨report, w', hrun, ?_, ?_⟩
  · rw [hmodified]
    decide +kernel
  · have hsame : w'.files = rewritten := (congrArg Workspace.files hw').trans hfiles
    rw [hsame]
    decide +kernel

open Pending Normalized in
/-- The same pending change is committed where a version is rewritten. Where none is declared, the release
succeeds as well, sets its tag, and leaves the change pending. -/
theorem bump_commitAll_pending :
    (∃ report w' c',
      (versioning declared).bump host "" declared Pending.request
          (workspace Pending.files Pending.snapshot) = .ok report w' ∧
        report.modified = ["setup.py"] ∧ w'.scm = some c' ∧
        c'.repository.headSnapshot.lookup "a.txt" = some ⟨"b\n".toUTF8, .file⟩ ∧
        CommittedAll (checkout Pending.snapshot) c' report.version w'.files) ∧
    ∃ report w' c',
      (versioning undeclared).bump host "" undeclared Pending.request
          (workspace Pending.files Pending.snapshot) = .ok report w' ∧
        report.version = "0.0.1" ∧ w'.scm = some c' ∧
        c'.repository.isDirty c'.refresh.read.entries w'.files [] = true ∧
        OnlyTagged (checkout Pending.snapshot) c' report.version w'.files := by
  have htree : Pending.files.IsTree := FileTree.isTree_of_nodes (by decide)
  have hascending : (checkout Pending.snapshot).refresh.read.entries.Ascending := by decide
  have hhook : Pending.files.isExecutable (Path.join "." Hook.fileName) = false := by decide
  refine ⟨?_, ?_⟩
  · obtain ⟨report, w', hrun, hmodified, hnode⟩ := exists_bump_pending
    obtain ⟨c', hscm, hall, -⟩ := @bump_commitAll host "" (versioning declared) declared
      Pending.request (workspace Pending.files Pending.snapshot) w' (checkout Pending.snapshot) report
      rfl rfl rfl rfl htree hascending hhook hrun
    have hcommitted := hall (by simp [hmodified])
    obtain ⟨blob, hlookup, hkeeps⟩ := hcommitted.kept "a.txt" _ hnode nofun (.inl (by decide))
    refine ⟨report, w', c', hrun, hmodified, hscm, ?_, hcommitted⟩
    rw [hlookup, hkeeps.eq_of_not_mem (by decide +kernel) (by decide +kernel)]
    rfl
  · obtain ⟨report, w', hrun, htest⟩ := Action.exists_of_succeedsWith
      (by decide +kernel :
        ((versioning undeclared).bump host "" undeclared Pending.request).succeedsWith
          (fun report w' => decide (report.modified = [] ∧ report.version = "0.0.1"))
          (workspace Pending.files Pending.snapshot) = true)
    obtain ⟨hmodified, hversion⟩ := of_decide_eq_true htest
    obtain ⟨c', hscm, -, htagged⟩ := @bump_commitAll host "" (versioning undeclared) undeclared
      Pending.request (workspace Pending.files Pending.snapshot) w' (checkout Pending.snapshot) report
      rfl rfl rfl rfl htree hascending hhook hrun
    obtain ⟨hfiles, htagged⟩ := htagged hmodified
    have hpending : (checkout Pending.snapshot).repository.isDirty
        (checkout Pending.snapshot).refresh.read.entries Pending.files [] = true := by
      decide +kernel
    refine ⟨report, w', c', hrun, hversion, hscm, ?_, htagged⟩
    have hstill := htagged.pending
    rw [hfiles] at hstill ⊢
    exact hstill.trans hpending

end Versioning

end TagVersion
