import TagVersion.Proofs.Sources.Rewriting

/-!
# Sources that cannot be read

An update that comes to a source whose file cannot be read stops there. Nothing is taken back: the
sources before it are rewritten, in the way in which an update of these alone would have done it. The
files that they do not modify are as they were, and nothing is committed.

* **`of_updateLine_eq_error`**: a line that cannot be rewritten leaves everything as it is.
* **`of_updateLines_eq_error`**: lines up to the first that cannot be rewritten.
* **`of_updateLines_eq_ok`**: what the lines before it have left.
* **`updateSources_unreadable`**: an update that stops at a file that cannot be read.
-/

namespace TagVersion

namespace Sources

section

variable {σ : Type} {root version source path : String} {line : UInt64} {w w' : Workspace σ}
  {done : SourceUpdate} {entries : List SourceEntry} {e : Error}

/-! ## Where it stops -/

/-- **A line** that cannot be rewritten leaves everything as it is. Its file could not be read, or it
could not be written. -/
theorem of_updateLine_eq_error
    (h : updateLine root version true source path line done w = .error e w') :
    w' = w ∧
      ((∃ error, w.readText (Path.join root path) = .error error ∧
          e = .source ("cannot read " ++ Path.join root path ++ ": " ++ error.message)) ∨
        ∃ content error, w.writeText (Path.join root path) content = .error error ∧
          e = .source ("cannot write " ++ Path.join root path ++ ": " ++ error.message)) := by
  unfold updateLine at h
  rw [Action.get_bind] at h
  cases hread : w.readText (Path.join root path) with
  | error error =>
    simp only [hread] at h
    cases h
    exact ⟨rfl, .inl ⟨error, rfl, rfl⟩⟩
  | ok text =>
    simp only [hread] at h
    cases hrevised : revised? text.toList version.toList line with
    | none =>
      simp only [hrevised] at h
      exact absurd h nofun
    | some revision =>
      obtain ⟨content, new⟩ := revision
      simp only [hrevised, ↓reduceIte] at h
      -- after the write, nothing is left that could fail
      rcases Action.of_bind_eq_error h with h | ⟨_, w₁, -, h⟩
      · unfold Action.writeText at h
        rw [Action.get_bind] at h
        cases hwrite : w.writeText (Path.join root path) (String.ofList content) with
        | ok files =>
          simp only [hwrite] at h
          exact absurd h nofun
        | error error =>
          simp only [hwrite] at h
          cases h
          exact ⟨rfl, .inr ⟨_, error, hwrite, rfl⟩⟩
      · exact absurd h nofun

/-- **Lines** that cannot all be rewritten are rewritten up to the first that cannot. -/
theorem of_updateLines_eq_error (h : updateLines root version true entries done w = .error e w') :
    ∃ before s after path line done', entries = before ++ s :: after ∧
      s.filePointer? = some (path, line) ∧
      updateLines root version true before done w = .ok done' w' ∧
      updateLine root version true s.source path line done' w' = .error e w' := by
  induction entries generalizing w done with
  | nil => exact absurd h nofun
  | cons s rest ih =>
    rw [updateLines] at h
    cases hpointer : s.filePointer? with
    | none =>
      rw [hpointer] at h
      obtain ⟨before, t, after, path, line, done', rfl, ht, hbefore, hlast⟩ := ih h
      refine ⟨s :: before, t, after, path, line, done', rfl, ht, ?_, hlast⟩
      rw [updateLines, hpointer]
      exact hbefore
    | some pointer =>
      obtain ⟨path, line⟩ := pointer
      rw [hpointer] at h
      -- either this line cannot be rewritten, or one after it
      rcases Action.of_bind_eq_error h with h | ⟨done₁, w₁, hfirst, hrest⟩
      · obtain ⟨rfl, -⟩ := of_updateLine_eq_error h
        exact ⟨[], s, rest, path, line, done, rfl, hpointer, rfl, h⟩
      · obtain ⟨before, t, after, path', line', done', rfl, ht, hbefore, hlast⟩ := ih hrest
        refine ⟨s :: before, t, after, path', line', done', rfl, ht, ?_, hlast⟩
        rw [updateLines, hpointer]
        simp only
        rw [Action.bind_apply, hfirst]
        exact hbefore

/-! ### Source control that is asked after -/

theorem eq_of_scm_eq_ok {k : σ} (h : Action.scm w = .ok k w') : w' = w := by
  unfold Action.scm at h
  rw [Action.get_bind] at h
  cases hk : w.scm with
  | none =>
    rw [hk] at h
    exact absurd h nofun
  | some k =>
    rw [hk] at h
    cases h
    rfl

theorem eq_of_scm_eq_error (h : Action.scm w = .error e w') : e = .disabled noScmProblem := by
  unfold Action.scm at h
  rw [Action.get_bind] at h
  cases hk : w.scm with
  | none =>
    rw [hk] at h
    cases h
    rfl
  | some k =>
    rw [hk] at h
    exact absurd h nofun

end

/-! ## What is left then -/

section

variable {σ : Type} [VersionControl σ] {root version reason : String} {commitAll : Bool}
  {d : Definition} {w w' : Workspace σ} {update : SourceUpdate} {entries : List SourceEntry}
  {e : Error}

/-- **Lines that are rewritten** leave the files with them, and source control alone. -/
theorem of_updateLines_eq_ok
    (h : updateLines root version true entries ⟨[], []⟩ w = .ok update w') :
    w'.files = rewritten root version w.files entries ∧ w'.scm = w.scm ∧
      update.modified = modified (changes root version w.files entries) ∧
      w'.journal = w.journal ++ writes root (changes root version w.files entries) := by
  have hfollows := @follows_updateLines _ _ bareHost "" w root version entries ⟨[], []⟩
  unfold Action.Follows at hfollows
  rw [h] at hfollows
  obtain ⟨hall, -, hmodified⟩ := hfollows
  obtain ⟨-, hfiles, hscm, -⟩ := attemptAll_attempts hall
  have hentered := @Workspace.entered_attemptAll _ _ bareHost "" w.unlogged
    (attempts root version w.files entries)
  rw [hall, steps_attempts] at hentered
  exact ⟨hfiles, hscm, hmodified, hentered⟩

/-- What the modified files do not lie at is left alone. -/
theorem node?_of_updateLines {loc : Location}
    (h : updateLines root version true entries ⟨[], []⟩ w = .ok update w')
    (hloc : ∀ path ∈ update.modified, w.files.resolve (Path.join root path) ≠ .ok loc) :
    w'.files.node? loc = w.files.node? loc := by
  obtain ⟨hfiles, -, hmodified, -⟩ := of_updateLines_eq_ok h
  rw [hfiles]
  refine node?_rewritten entries fun change hchange => hloc change.1 ?_
  rw [hmodified, mem_modified_iff]
  exact ⟨change.2, hchange⟩

/-- A commit fails where there is no source control, or where that refuses it. -/
theorem of_commitFiles_eq_error {paths : List String}
    (h : Action.commitFiles true paths version w = .error e w') :
    e = .disabled noScmProblem ∨
      ∃ (k : σ) (files : FileTree) (paths : List String),
        (VersionControl.commitFiles k files true paths version).result = .error e := by
  unfold Action.commitFiles at h
  rcases Action.of_bind_eq_error h with h | ⟨k, w₁, -, h⟩
  · exact .inl (eq_of_scm_eq_error h)
  · refine .inr ⟨k, w₁.files, paths, ?_⟩
    have h : Action.accept (VersionControl.commitFiles k w₁.files true paths version)
        { w₁ with journal := w₁.journal ++ [.commitFiles true paths version] } = .error e w' := h
    rw [Action.accept_apply] at h
    cases hresult : (VersionControl.commitFiles k w₁.files true paths version).result with
    | ok _ =>
      rw [hresult] at h
      exact absurd h nofun
    | error error =>
      rw [hresult] at h
      cases h
      rfl

/-- An update fails in its lines, or where it has no source control, or where that refuses the
commit. -/
theorem of_updateSources_eq_error
    (hrun : Action.updateSources root version true commitAll d w = .error e w') :
    updateLines root version true d.sources ⟨[], []⟩ w = .error e w' ∨
      e = .disabled noScmProblem ∨
      ∃ (k : σ) (files : FileTree) (paths : List String),
        (VersionControl.commitFiles k files true paths version).result = .error e := by
  unfold Action.updateSources at hrun
  rcases Action.of_bind_eq_error hrun with hscm | ⟨k, w₁, hscm, hupdate⟩
  · exact .inr (.inl (eq_of_scm_eq_error hscm))
  · rw [eq_of_scm_eq_ok hscm] at hupdate
    rcases Action.of_bind_eq_error hupdate with hlines | ⟨update, w₂, -, hrest⟩
    · exact .inl hlines
    · -- without a modified file there is no request that could be refused
      by_cases hnil : update.modified = []
      · rw [if_pos hnil] at hrest
        exact absurd hrest nofun
      · rw [if_neg hnil] at hrest
        rcases Action.of_bind_eq_error hrest with hcommit | ⟨_, _, -, hdone⟩
        · exact .inr (of_commitFiles_eq_error hcommit)
        · exact absurd hdone nofun

/-- **A file that cannot be read** stops an update, and nothing is taken back. The sources before it are
rewritten as if there were no others, the files that they do not modify are left alone, and nothing
is committed. -/
theorem updateSources_unreadable
    (hbackend : ∀ (k : σ) (files : FileTree) (paths : List String),
      (VersionControl.commitFiles k files true paths version).result ≠ .error (.source reason))
    (hreason : "cannot read ".toList <+: reason.toList)
    (hrun : Action.updateSources root version true commitAll d w = .error (.source reason) w') :
    ∃ before s after path line error update, d.sources = before ++ s :: after ∧
      s.filePointer? = some (path, line) ∧
      w'.readText (Path.join root path) = .error error ∧
      reason = "cannot read " ++ Path.join root path ++ ": " ++ error.message ∧
      updateLines root version true before ⟨[], []⟩ w = .ok update w' ∧
      (∀ loc, (∀ path ∈ update.modified, w.files.resolve (Path.join root path) ≠ .ok loc) →
        w'.files.node? loc = w.files.node? loc) ∧
      w'.scm = w.scm ∧
      w'.journal = w.journal ++ writes root (changes root version w.files before) := by
  rcases of_updateSources_eq_error hrun with hlines | hdisabled | ⟨k, files, paths, hrefused⟩
  · obtain ⟨before, s, after, path, line, update, hsources, hpointer, hbefore, hlast⟩ :=
      of_updateLines_eq_error hlines
    obtain ⟨-, ⟨error, hread, htext⟩ | ⟨content, error, -, htext⟩⟩ := of_updateLine_eq_error hlast
    · obtain ⟨-, hscm, -, hjournal⟩ := of_updateLines_eq_ok hbefore
      exact ⟨before, s, after, path, line, error, update, hsources, hpointer, hread,
        Error.source.inj htext, hbefore, fun loc hloc => node?_of_updateLines hbefore hloc, hscm,
        hjournal⟩
    · -- the complaint about a file that cannot be written starts otherwise
      rw [Error.source.inj htext] at hreason
      exact absurd hreason (by simp)
  · exact absurd hdisabled nofun
  · exact absurd hrefused (hbackend k files paths)

end

/-! ### A file that is missing -/

namespace Missing

/-- Two files, and sources that point to a third one between them. -/
def files : FileTree :=
  ⟨[(["setup.py"], .file "version = '1.2.3'\n".toUTF8 0o644),
    (["app.yaml"], .file "version: 1.2.3\n".toUTF8 0o644)]⟩

def definition : Definition where
  key := "version"
  value := "1.2.3"
  source := "setup.py:1"
  sources := [⟨"setup.py:1", "1.2.3"⟩, ⟨"lost.py:1", "1.2.3"⟩, ⟨"app.yaml:1", "1.2.3"⟩]

def workspace : Workspace Recorder := recorded files

def reason : String := "cannot read lost.py: No such file or directory (os error 2)"

/-- A recorder complains about requests only. -/
theorem result_request_ne (r granted : Recorder) (call : ScmCall) (text : String) :
    (r.request call granted).result ≠ .error (.source text) := by
  unfold Recorder.request Recorder.attempt
  cases r.refuses.contains call <;> nofun

end Missing

open Missing in
theorem updateSources_unreadable_missing :
    ∃ w' before s after path line error update, definition.sources = before ++ s :: after ∧
      s.filePointer? = some (path, line) ∧
      w'.readText (Path.join "" path) = .error error ∧
      reason = "cannot read " ++ Path.join "" path ++ ": " ++ error.message ∧
      updateLines "" "1.3.0" true before ⟨[], []⟩ workspace = .ok update w' ∧
      w'.scm = workspace.scm := by
  obtain ⟨e, w', hrun, htest⟩ := Action.exists_of_failsWith
    (by decide +kernel :
      (Action.updateSources "" "1.3.0" true false definition).failsWith
        (fun e _ => e == .source reason) workspace = true)
  obtain rfl : e = .source reason := eq_of_beq htest
  obtain ⟨before, s, after, path, line, error, update, hsources, hpointer, hread, hreason, hbefore,
    -, hscm, -⟩ :=
    updateSources_unreadable (fun _ _ _ => result_request_ne _ _ _ _) (by decide) hrun
  exact ⟨w', before, s, after, path, line, error, update, hsources, hpointer, hread, hreason,
    hbefore, hscm⟩

open Missing in
/-- **What is not taken back**: a file that was rewritten before another one could not be read. -/
theorem not_updateSources_intact :
    ∃ w', Action.updateSources "" "1.3.0" true false definition workspace =
        .error (.source reason) w' ∧
      workspace.files.readText "setup.py" = .ok "version = '1.2.3'\n" ∧
      w'.files.readText "setup.py" = .ok "version = '1.3.0'\n" := by
  obtain ⟨e, w', hrun, htest⟩ := Action.exists_of_failsWith
    (by decide +kernel :
      (Action.updateSources "" "1.3.0" true false definition).failsWith
        (fun e w' => decide (e = .source reason ∧
          w'.files.readText "setup.py" = .ok "version = '1.3.0'\n")) workspace = true)
  obtain ⟨rfl, hafter⟩ := of_decide_eq_true htest
  exact ⟨w', hrun, by decide +kernel, hafter⟩

end Sources

end TagVersion
