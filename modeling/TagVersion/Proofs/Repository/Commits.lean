import TagVersion.Proofs.Repository.Staging

/-!
# Commits and tags

A commit of staged files moves the branch that is checked out, and a tag points to the commit that is
checked out. Nothing is published where there is no remote.

* **`Repository.headCommit?_commit`**: what is checked out after a commit, with a branch or without.
* **`Checkout.commitFiles_of_unstaged`**, **`Checkout.commitFiles_of_not_canCommit`**,
  **`Checkout.commitFiles_of_canCommit`**: what a repository does that is asked to commit files.
* **`Checkout.of_commitFiles_eq_ok`**: what it has done where that was granted.
* **`Checkout.exists_publish_of_applyTag`**: what a repository does that sets a tag.
* **`Checkout.of_commitFiles_eq_error`**: what a repository complains about.
* **`Checkout.tagRef_eq`**: the reference of the tag of a version.
* **`Checkout.released`**: a checkout once a release is committed and tagged.
-/

namespace TagVersion

/-- A name in which no slashes meet stays as it is. -/
theorem RefName.joined_of_ne_nil {name : String}
    (h : ∀ segment ∈ (name.toList.splitOn '/').dropLast, segment ≠ []) : joined name = name := by
  have hne : name.toList.splitOn '/' ≠ [] := List.splitOnP_ne_nil _ _
  unfold joined
  simp only
  rw [List.filter_eq_self.mpr fun segment hsegment => bne_iff_ne.mpr (h segment hsegment),
    List.getLast?_eq_some_getLast hne, Option.toList_some, List.dropLast_append_getLast hne,
    List.intercalate_splitOn, String.ofList_toList]

namespace Repository

variable {r r' : Repository} {branch name message : String} {note : Option TagNote}

theorem commits_commit (r : Repository) (message : String) :
    (r.commit message).commits =
      r.commits ++ [{ parent := r.headCommit?, message, snapshot := r.index }] := by
  unfold commit
  cases r.head <;> rfl

theorem index_commit (r : Repository) (message : String) : (r.commit message).index = r.index := by
  unfold commit
  cases r.head <;> rfl

theorem remotes_commit (r : Repository) (message : String) :
    (r.commit message).remotes = r.remotes := by
  unfold commit
  cases r.head <;> rfl

theorem settings_commit (r : Repository) (message : String) :
    (r.commit message).settings = r.settings := by
  unfold commit
  cases r.head <;> rfl

theorem headCommit?_commit (r : Repository) (message : String) :
    (r.commit message).headCommit? = some r.commits.length := by
  unfold commit
  cases hhead : r.head with
  | detached n => rfl
  | branch name =>
    unfold headCommit?
    simp only
    rw [ref?_putRef, if_pos rfl]
    rfl

theorem headSnapshot_commit (r : Repository) (message : String) :
    (r.commit message).headSnapshot = r.index := by
  unfold headSnapshot
  rw [headCommit?_commit, Option.bind_some, commits_commit, List.getElem?_concat_length]
  rfl

/-- A tag is new, and names the commit that is checked out. -/
theorem of_tag_eq_some (h : r.tag name note = some r') :
    ∃ target, r.headCommit? = some target ∧
      RefName.isValid (RefName.joined (RefName.ofTag name)) = true ∧
      ref? r.refs (RefName.joined (RefName.ofTag name)) = none ∧
      r' = { r with
        refs := putRef r.refs ⟨RefName.joined (RefName.ofTag name), target, note⟩ } := by
  unfold tag at h
  cases hhead : r.headCommit? with
  | none =>
    rw [hhead] at h
    exact absurd h nofun
  | some target =>
    rw [hhead] at h
    simp only at h
    split at h
    · next hnew =>
      simp only [Bool.and_eq_true, Bool.not_eq_true', List.any_eq_false, Bool.or_eq_true] at hnew
      refine ⟨target, rfl, hnew.1.1, ?_, (Option.some.inj h).symm⟩
      -- none of the references has the name or stands in its way
      unfold ref?
      rw [List.find?_eq_none]
      exact fun s hs hname => hnew.2 s hs (.inl hname)
    · exact absurd h nofun

end Repository

namespace Checkout

/-- The reference of the tag of a release. Slashes that meet in the version count once. -/
def tagRef (version : String) : String :=
  RefName.joined (RefName.ofTag (releaseTag version))

/-- The tag of a version in which no slashes meet is the one that it spells. -/
theorem tagRef_eq {version : String} (h : "" ∉ Path.names version) :
    tagRef version = "refs/tags/v" ++ version := by
  have hname : RefName.ofTag (releaseTag version) = "refs/tags/v" ++ version :=
    String.append_assoc.symm
  unfold tagRef
  rw [hname]
  refine RefName.joined_of_ne_nil fun segment hsegment => ?_
  obtain ⟨first, rest, hsplit⟩ : ∃ first rest, version.toList.splitOn '/' = first :: rest :=
    List.exists_cons_of_ne_nil (List.splitOnP_ne_nil _ _)
  -- the first segment of the version follows a letter
  have hsegments : ("refs/tags/v" ++ version).toList.splitOn '/' =
      "refs".toList :: "tags".toList :: ('v' :: first) :: rest := by
    unfold List.splitOn at hsplit ⊢
    simp [List.splitOnP_cons_eq_if_modifyHead, hsplit]
  rw [hsegments] at hsegment
  rintro rfl
  have hrest : [] ∈ rest := by simpa using List.mem_of_mem_dropLast hsegment
  have hempty : [] ∈ version.toList.splitOn '/' := hsplit ▸ List.mem_cons_of_mem _ hrest
  exact h (List.mem_map_of_mem hempty)

/-- A checkout of a branch once a commit of staged files is made. -/
def committed (c : Checkout) (branch : String) (parent : Nat) (entries : Snapshot)
    (message : String) : Checkout :=
  { c with
    repository :=
      { c.repository with
        index := entries
        commits := c.repository.commits ++ [{ parent := some parent, message, snapshot := entries }]
        refs := Repository.putRef c.repository.refs
          ⟨RefName.ofBranch branch, c.repository.commits.length, none⟩ }
    staging := some ⟨entries, entries⟩ }

/-- A checkout once a commit of staged files is made. -/
def withCommit (c : Checkout) (entries : Snapshot) (message : String) : Checkout :=
  { c.save entries with repository := (c.save entries).repository.commit message }

/-- A checkout once a tag is set. -/
def tagged (c : Checkout) (target : Nat) (version : String) : Checkout :=
  { c with
    repository :=
      { c.repository with
        refs := Repository.putRef c.repository.refs
          ⟨tagRef version, target, some ⟨releaseTag version, releaseMessage version, c.now⟩⟩ } }

variable {c : Checkout} {branch version : String} {files : FileTree} {paths : List String}

theorem repository_refresh (c : Checkout) : c.refresh.repository = c.repository := by
  unfold refresh
  split <;> rfl

theorem workdir_refresh (c : Checkout) : c.refresh.workdir = c.workdir := by
  unfold refresh
  split <;> rfl

theorem remote_refresh (c : Checkout) : c.refresh.remote = c.remote := by
  unfold refresh
  split <;> rfl

theorem now_refresh (c : Checkout) : c.refresh.now = c.now := by
  unfold refresh
  split <;> rfl

/-- Nothing is published where there is no remote. -/
theorem state_publish (h : c.repository.remotes.lookup c.remote = none) (name : String)
    (log : List LogRecord) : (c.publish name log).state = c := by
  unfold publish
  rw [h]

/-- A push moves references, here and at the remote. Those here follow branches only. -/
theorem exists_state_publish (c : Checkout) (name : String) (log : List LogRecord) :
    ∃ refs remotes,
      (c.publish name log).state =
        { c with repository := { c.repository with refs, remotes } } ∧
      (RefName.branch? name = none → refs = c.repository.refs) := by
  unfold publish
  cases c.repository.remotes.lookup c.remote with
  | none => exact ⟨_, _, rfl, fun _ => rfl⟩
  | some target =>
    unfold Repository.push
    cases target with
    | none => exact ⟨_, _, rfl, fun _ => rfl⟩
    | some refs =>
      cases Repository.ref? c.repository.refs name with
      | none => exact ⟨_, _, rfl, fun _ => rfl⟩
      | some sent =>
        cases RefName.branch? name with
        | none => exact ⟨_, _, rfl, fun _ => rfl⟩
        | some branch => exact ⟨_, _, rfl, nofun⟩

/-- What is checked out has a name once there is a commit. -/
theorem exists_branch (hsome : c.repository.headCommit?.isSome) : ∃ name, c.branch = .ok name := by
  obtain ⟨n, hn⟩ := Option.isSome_iff_exists.mp hsome
  unfold Checkout.branch
  rw [hn]
  cases c.repository.head with
  | branch name => exact ⟨name, rfl⟩
  | detached commit => exact ⟨"HEAD", rfl⟩

/-- Whether a checkout can make the commit of a release, whatever the files. -/
def CanCommit (c : Checkout) (version : String) : Prop :=
  c.repository.headCommit?.isSome ∧ c.repository.hasIdentity = true ∧ isStorable version = true

section

variable {entries : Snapshot}

theorem stagePathsOrAll_of_not_mem {settings : StorageSettings} {workdir : Location} {index : Snapshot}
    (hpaths : stageAllPath ∉ paths) :
    stagePathsOrAll files settings workdir index paths =
      stagePaths files settings workdir index paths := by
  unfold stagePathsOrAll
  rw [if_neg (mt List.contains_iff_mem.mp hpaths)]

theorem stagePathsOrAll_of_stageAll {settings : StorageSettings} {workdir : Location} {index : Snapshot}
    (hpaths : stageAllPath ∈ paths) (hall : files.stageAll settings workdir index = (entries, true)) :
    stagePathsOrAll files settings workdir index paths = (entries, .ok ()) := by
  unfold stagePathsOrAll
  rw [if_pos (List.contains_iff_mem.mpr hpaths), hall]

theorem commitFiles_of_unstaged {e : Error}
    (hstaged : stagePathsOrAll files c.repository.settings c.workdir c.read.entries paths =
      (entries, .error e)) :
    c.commitFiles files true paths version =
      ⟨.error e, { c with staging := some { c.read with entries } }, []⟩ := by
  unfold commitFiles
  simp only [hstaged, Bool.not_true, Bool.false_eq_true, ↓reduceIte]

/-- Staged files that cannot be committed stay staged. -/
theorem commitFiles_of_not_canCommit
    (hstaged : stagePathsOrAll files c.repository.settings c.workdir c.read.entries paths =
      (entries, .ok ()))
    (hcommit : ¬ c.CanCommit version) :
    ∃ fault, c.commitFiles files true paths version =
      ⟨.error (.scm fault), c.save entries, []⟩ := by
  have hparent : (c.save entries).repository.headCommit? = c.repository.headCommit? := rfl
  have hidentity : (c.save entries).repository.hasIdentity = c.repository.hasIdentity := rfl
  unfold commitFiles
  simp only [hstaged, Bool.not_true, Bool.false_eq_true, ↓reduceIte, hparent, hidentity]
  split
  · exact ⟨_, rfl⟩
  · next hknown =>
    -- it is known who makes the commit and after which one, so it is the text that is refused
    have hstorable : isStorable version ≠ true := by
      intro hstorable
      rw [Bool.or_eq_true, not_or] at hknown
      exact hcommit ⟨by simpa [Option.isSome_iff_ne_none] using hknown.1,
        by simpa using hknown.2, hstorable⟩
    rw [if_pos (by simpa using hstorable)]
    exact ⟨_, rfl⟩

/-- **Staged files** are committed, and what is checked out is published. -/
theorem commitFiles_of_canCommit
    (hstaged : stagePathsOrAll files c.repository.settings c.workdir c.read.entries paths =
      (entries, .ok ()))
    (hcommit : c.CanCommit version) :
    ∃ name log, c.commitFiles files true paths version =
      (c.withCommit entries (releaseMessage version)).publish (RefName.ofBranch name) log := by
  obtain ⟨hparent, hidentity, hstorable⟩ := hcommit
  have hknown : ((c.save entries).repository.headCommit?.isNone ||
      !(c.save entries).repository.hasIdentity) = false := by
    show (c.repository.headCommit?.isNone || !c.repository.hasIdentity) = false
    obtain ⟨n, hn⟩ := Option.isSome_iff_exists.mp hparent
    rw [hn, hidentity]
    rfl
  have hcommitted : (c.withCommit entries (releaseMessage version)).repository.headCommit?.isSome :=
    Option.isSome_of_eq_some (Repository.headCommit?_commit _ _)
  obtain ⟨name, hname⟩ := exists_branch hcommitted
  refine ⟨name, [.info ("Committed " ++ releaseMessage version)], ?_⟩
  unfold withCommit at hname ⊢
  unfold commitFiles
  simp only [hstaged, hknown, hstorable, hname, Bool.not_true, Bool.false_eq_true, ↓reduceIte]

/-- **A request to commit** that is granted has staged its files, and commits what is staged. -/
theorem exists_publish_of_commitFiles (h : (c.commitFiles files true paths version).result = .ok ()) :
    ∃ entries parent name log,
      stagePathsOrAll files c.repository.settings c.workdir c.read.entries paths = (entries, .ok ()) ∧
      c.repository.headCommit? = some parent ∧
      c.commitFiles files true paths version =
        (c.withCommit entries (releaseMessage version)).publish (RefName.ofBranch name) log := by
  cases hstaged : stagePathsOrAll files c.repository.settings c.workdir c.read.entries paths with
  | mk entries answer =>
    cases answer with
    | error e =>
      rw [commitFiles_of_unstaged hstaged] at h
      exact absurd h nofun
    | ok _ =>
      by_cases hcommit : c.CanCommit version
      · obtain ⟨name, log, hpublish⟩ := commitFiles_of_canCommit hstaged hcommit
        obtain ⟨parent, hparent⟩ := Option.isSome_iff_exists.mp hcommit.1
        exact ⟨entries, parent, name, log, rfl, hparent, hpublish⟩
      · obtain ⟨fault, hrefused⟩ := commitFiles_of_not_canCommit hstaged hcommit
        rw [hrefused] at h
        exact absurd h nofun

end

/-- **A tag** that is granted is new, points to the commit that is checked out, and is published. -/
theorem exists_publish_of_applyTag (h : (c.applyTag true version).result = .ok ()) :
    ∃ target log, c.repository.headCommit? = some target ∧
      RefName.isValid (tagRef version) = true ∧
      Repository.ref? c.repository.refs (tagRef version) = none ∧
      c.applyTag true version =
        (c.tagged target version).publish (RefName.ofTag (releaseTag version)) log := by
  unfold applyTag at h ⊢
  simp only [Bool.not_true, Bool.false_eq_true, ↓reduceIte] at h ⊢
  split at h
  · exact absurd h nofun
  · next hknown =>
    split at h
    · exact absurd h nofun
    · next hstorable =>
      rw [if_neg hknown, if_neg hstorable]
      cases htag : c.repository.tag (releaseTag version)
          (some ⟨releaseTag version, releaseMessage version, c.now⟩) with
      | none =>
        rw [htag] at h
        exact absurd h nofun
      | some repository =>
        obtain ⟨target, htarget, hvalid, hnew, rfl⟩ := Repository.of_tag_eq_some htag
        exact ⟨target, _, htarget, hvalid, hnew, rfl⟩

theorem of_applyTag_eq_ok (hremote : c.repository.remotes.lookup c.remote = none)
    (h : (c.applyTag true version).result = .ok ()) :
    ∃ target, c.repository.headCommit? = some target ∧
      Repository.ref? c.repository.refs (tagRef version) = none ∧
      (c.applyTag true version).state = c.tagged target version := by
  obtain ⟨target, log, htarget, -, hnew, happly⟩ := exists_publish_of_applyTag h
  refine ⟨target, htarget, hnew, ?_⟩
  rw [happly]
  exact @state_publish (c.tagged target version) hremote _ log

/-! ### What a repository complains about -/

theorem of_stagePaths_eq_error {settings : StorageSettings} {workdir : Location}
    {index entries : Snapshot} {e : Error}
    (h : stagePaths files settings workdir index paths = (entries, .error e)) :
    ∃ fault, e = .scm fault := by
  induction paths generalizing index with
  | nil => exact absurd (Prod.mk.inj h).2 nofun
  | cons path rest ih =>
    rw [stagePaths] at h
    split at h
    · next fault _ => exact ⟨fault, (Except.error.inj (Prod.mk.inj h).2).symm⟩
    · split at h
      · exact ih h
      · exact ⟨.repository, (Except.error.inj (Prod.mk.inj h).2).symm⟩

theorem of_publish_eq_error {name : String} {log : List LogRecord} {e : Error}
    (h : (c.publish name log).result = .error e) : ∃ fault, e = .scm fault := by
  unfold publish Repository.push at h
  split at h
  · exact absurd h nofun
  · split at h
    · exact absurd h nofun
    · next e' hpush =>
      obtain rfl : e' = e := Except.error.inj h
      split at hpush
      · simp only at hpush
        split at hpush <;> exact absurd hpush nofun
      · exact ⟨.repository, (Except.error.inj hpush).symm⟩

/-- **A repository that refuses a commit** complains about nothing but source control. -/
theorem of_commitFiles_eq_error {e : Error}
    (h : (c.commitFiles files true paths version).result = .error e) : ∃ fault, e = .scm fault := by
  unfold commitFiles stagePathsOrAll at h
  simp only [Bool.not_true, Bool.false_eq_true, ↓reduceIte] at h
  split at h
  · next entries e' hstaged =>
    obtain rfl : e' = e := Except.error.inj h
    split at hstaged
    · split at hstaged
      · exact absurd (Prod.mk.inj hstaged).2 nofun
      · exact ⟨.repository, (Except.error.inj (Prod.mk.inj hstaged).2).symm⟩
    · exact of_stagePaths_eq_error hstaged
  · split at h
    · exact ⟨.repository, (Except.error.inj h).symm⟩
    · split at h
      · exact ⟨unstorable, (Except.error.inj h).symm⟩
      · split at h
        · exact of_publish_eq_error h
        · next e' hbranch =>
          obtain rfl : e' = e := Except.error.inj h
          unfold Checkout.branch at hbranch
          split at hbranch
          · exact ⟨.repository, (Except.error.inj hbranch).symm⟩
          · exact absurd hbranch nofun
          · exact absurd hbranch nofun

/-! ### A commit with its tag -/

section

variable {parent : Nat} {entries : Snapshot}

/-- The staged files are read as they were saved. -/
theorem entries_refresh_of_saved (hstaging : c.staging = some ⟨entries, entries⟩)
    (hindex : c.repository.index = entries) : c.refresh.read.entries = entries := by
  have hread : c.read = ⟨entries, entries⟩ := by
    unfold read
    rw [hstaging]
    rfl
  unfold refresh
  split
  · rw [hread]
  · show (if c.read.saved = c.repository.index then c.read else _ : Staging).entries = entries
    rw [hread, hindex, if_pos rfl]

end

end Checkout

end TagVersion
