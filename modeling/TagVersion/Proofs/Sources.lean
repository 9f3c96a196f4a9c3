import TagVersion.Proofs.Files.Shape
import TagVersion.Proofs.Steps

/-!
# The changes to version sources

Which files are rewritten, in what order and with what texts is settled by the files as they are
before. This module tells the changes in advance and shows that rewriting the sources follows them.

* **`Sources.changes`**: the changes in the order of the sources.
* **`Sources.attempts`**: the reads and writes of the sources.
* **`Sources.steps_attempts`**: the writes are those of the changes.
* **`Sources.follows_updateLines`**: rewriting the sources makes these attempts.
* **`Action.follows_updateSources`**: and the files that changed are committed after them.
-/

namespace TagVersion

namespace Sources

/-! ## Changes in advance -/

/-- The text of a file with one of its lines changed; nothing if the file cannot be read, and
nothing if there is no such line or it is already right. -/
def newText? (root version : String) (files : FileTree) (path : String) (line : UInt64) :
    Option String := do
  let text ← (files.readText (Path.join root path)).toOption
  (revised? text.toList version.toList line).map fun (content, _) => String.ofList content

/-- The change that a source calls for, as a path and a new text. -/
def change? (root version : String) (files : FileTree) (e : SourceEntry) :
    Option (String × String) :=
  e.filePointer?.bind fun (path, line) => (newText? root version files path line).map (path, ·)

/-- The changes that some sources call for. A change is seen in the files as the ones before it
leave them. -/
def changes (root version : String) : FileTree → List SourceEntry → List (String × String)
  | _, [] => []
  | files, e :: rest =>
    match change? root version files e with
    | none => changes root version files rest
    | some change =>
      change :: changes root version (files.written (Path.join root change.1) change.2) rest

section

variable {root version : String} {files : FileTree} {e : SourceEntry}

theorem newText?_of_readText {path text : String}
    (h : files.readText (Path.join root path) = .ok text) (line : UInt64) :
    newText? root version files path line =
      (revised? text.toList version.toList line).map fun (content, _) => String.ofList content := by
  unfold newText?
  rw [h]
  rfl

theorem change?_of_filePointer? {path : String} {line : UInt64}
    (h : e.filePointer? = some (path, line)) :
    change? root version files e =
      (newText? root version files path line).map (path, ·) := by
  unfold change?
  rw [h]
  rfl

theorem change?_of_filePointer?_eq_none (h : e.filePointer? = none) :
    change? root version files e = none := by
  unfold change?
  rw [h]
  rfl

theorem changes_cons_of_none (h : change? root version files e = none)
    (rest : List SourceEntry) :
    changes root version files (e :: rest) = changes root version files rest := by
  rw [changes, h]

theorem changes_cons_of_some {change : String × String}
    (h : change? root version files e = some change) (rest : List SourceEntry) :
    changes root version files (e :: rest) =
      change :: changes root version (files.written (Path.join root change.1) change.2) rest := by
  rw [changes, h]

end

/-- The writes of some changes. -/
def writes (root : String) (changes : List (String × String)) : List Step :=
  changes.map fun (path, content) => .write (Path.join root path) content

theorem writes_append (root : String) (first rest : List (String × String)) :
    writes root (first ++ rest) = writes root first ++ writes root rest :=
  List.map_append

/-- The paths of some changes, each of them once. -/
def modified (changes : List (String × String)) : List String :=
  changes.foldl (fun modified change => addModified modified change.1) []

/-! ## Attempts in advance -/

/-- The files once the line of a source is rewritten. -/
def revised (root version : String) (files : FileTree) (path : String) (line : UInt64) :
    FileTree :=
  (newText? root version files path line).elim files fun content =>
    files.written (Path.join root path) content

/-- What is attempted for the line of a source: its file is read, and written if it changes. -/
def lineAttempts (root version : String) (files : FileTree) (path : String) (line : UInt64) :
    List Attempt :=
  .read (Path.join root path) ::
    (newText? root version files path line).elim [] fun content =>
      [.step (.write (Path.join root path) content)]

/-- What is attempted for some sources. One that points to no line is passed over. -/
def attempts (root version : String) : FileTree → List SourceEntry → List Attempt
  | _, [] => []
  | files, e :: rest =>
    match e.filePointer? with
    | none => attempts root version files rest
    | some (path, line) =>
      lineAttempts root version files path line ++
        attempts root version (revised root version files path line) rest

section

variable {root version : String} {files : FileTree} {e : SourceEntry}

theorem attempts_cons_of_none (h : e.filePointer? = none) (rest : List SourceEntry) :
    attempts root version files (e :: rest) = attempts root version files rest := by
  rw [attempts, h]

theorem attempts_cons_of_some {path : String} {line : UInt64}
    (h : e.filePointer? = some (path, line)) (rest : List SourceEntry) :
    attempts root version files (e :: rest) =
      lineAttempts root version files path line ++
        attempts root version (revised root version files path line) rest := by
  rw [attempts, h]

theorem changes_cons_of_filePointer? {path : String} {line : UInt64}
    (h : e.filePointer? = some (path, line)) (rest : List SourceEntry) :
    changes root version files (e :: rest) =
      (newText? root version files path line).elim [] (fun content => [(path, content)]) ++
        changes root version (revised root version files path line) rest := by
  have hchange := @change?_of_filePointer? root version files e path line h
  unfold revised
  cases hnew : newText? root version files path line with
  | none =>
    rw [hnew] at hchange
    exact changes_cons_of_none hchange rest
  | some content =>
    rw [hnew] at hchange
    exact changes_cons_of_some hchange rest

/-- **The steps** of rewriting the sources are the writes of their changes. -/
theorem steps_attempts (root version : String) (files : FileTree) (entries : List SourceEntry) :
    Attempt.steps (attempts root version files entries) =
      writes root (changes root version files entries) := by
  induction entries generalizing files with
  | nil => rfl
  | cons e rest ih =>
    cases hpointer : e.filePointer? with
    | none =>
      rw [attempts_cons_of_none hpointer,
        changes_cons_of_none (change?_of_filePointer?_eq_none hpointer)]
      exact ih files
    | some pointer =>
      obtain ⟨path, line⟩ := pointer
      rw [attempts_cons_of_some hpointer, changes_cons_of_filePointer? hpointer,
        Attempt.steps_append, ih, writes_append]
      unfold lineAttempts
      cases newText? root version files path line <;> rfl

end

/-! ## Following the attempts -/

variable {σ : Type} [VersionControl σ] {host : Host} {directory : String} {w : Workspace σ}

/-- One line is rewritten in the way that `newText?` tells. -/
theorem follows_updateLine (root version source path : String) (line : UInt64)
    (done : SourceUpdate) :
    Action.Follows host directory (updateLine root version true source path line done) w
      (lineAttempts root version w.files path line)
      fun update w' =>
        w'.files = revised root version w.files path line ∧
          w.files.SameShape w'.files ∧
          update.modified =
            (newText? root version w.files path line).elim done.modified fun _ =>
              addModified done.modified path := by
  unfold updateLine lineAttempts revised
  refine .of_get ?_
  cases hread : w.readText (Path.join root path) with
  | error e => exact .of_unreadable hread rfl
  | ok text =>
    have hfiles := Workspace.files_readText hread
    have hnew := @newText?_of_readText root version w.files path text hfiles line
    refine .of_read hread ?_
    cases hrevised : revised? text.toList version.toList line with
    | none =>
      -- the line is missing or already right, and the file is left as it was read
      rw [hrevised] at hnew
      rw [hnew]
      simp only [hrevised]
      refine .bind (Action.follows_remark _) fun _ w' hw' => .of_pure rfl rfl ⟨hw', ?_, rfl⟩
      rw [hw']
      exact .refl w.files
    | some revision =>
      obtain ⟨content, new⟩ := revision
      rw [hrevised] at hnew
      rw [hnew]
      simp only [hrevised, ↓reduceIte]
      refine .bind (Action.follows_writeText _ _) fun _ w₁ hw₁ => ?_
      refine .bind (Action.follows_note _) fun _ w₂ hw₂ => .of_pure rfl rfl ⟨?_, ?_, rfl⟩
      · exact hw₂.trans hw₁
      · rw [hw₂, hw₁]
        exact FileTree.sameShape_written hfiles _

/-- **Rewriting the sources** makes their attempts: a source that asks for no change is read only,
and any other one is written as the changes before it leave its file. -/
theorem follows_updateLines (root version : String) (entries : List SourceEntry)
    (done : SourceUpdate) :
    Action.Follows host directory (updateLines root version true entries done) w
      (attempts root version w.files entries)
      fun update w' =>
        w.files.SameShape w'.files ∧
          update.modified =
            (changes root version w.files entries).foldl
              (fun modified change => addModified modified change.1) done.modified := by
  induction entries generalizing w done with
  | nil => exact .of_pure rfl rfl ⟨.refl w.files, rfl⟩
  | cons e rest ih =>
    rw [updateLines]
    cases hpointer : e.filePointer? with
    | none =>
      rw [attempts_cons_of_none hpointer,
        changes_cons_of_none (change?_of_filePointer?_eq_none hpointer)]
      exact ih done
    | some pointer =>
      obtain ⟨path, line⟩ := pointer
      rw [attempts_cons_of_some hpointer, changes_cons_of_filePointer? hpointer]
      refine .bind (follows_updateLine root version e.source path line done)
        fun update w₁ hupdate => ?_
      obtain ⟨hfiles, hshape, hmodified⟩ := hupdate
      -- the sources that are left are seen in the files as this one leaves them
      have hrest := @ih w₁ update
      rw [hfiles, hmodified] at hrest
      rw [hfiles] at hshape
      refine hrest.mono fun _ _ hpost => ⟨hshape.trans hpost.1, ?_⟩
      rw [hpost.2, List.foldl_append]
      cases newText? root version w.files path line <;> rfl

end Sources

namespace Action

variable {σ : Type} [VersionControl σ] {host : Host} {directory : String} {w : Workspace σ}

/-- The commit of the files that some changes modify, if there are any. -/
def commitStep (commitAll : Bool) (version : String) (changes : List (String × String)) :
    List Step :=
  let modified := Sources.modified changes
  if modified = [] then []
  else [.commitFiles true (if commitAll then ["."] else modified) version]

/-- **Updating the sources** of a definition makes their attempts and commits their changes. -/
theorem follows_updateSources (root version : String) (commitAll : Bool) (d : Definition)
    (hscm : w.scm.isSome) :
    Follows host directory (updateSources root version true commitAll d) w
      (Sources.attempts root version w.files d.sources ++
        (commitStep commitAll version
          (Sources.changes root version w.files d.sources)).map .step)
      fun update w' =>
        w.files.SameShape w'.files ∧
          update.modified = Sources.modified (Sources.changes root version w.files d.sources) := by
  unfold updateSources
  refine (follows_scm hscm).bind_of_nil fun _ w₁ hw₁ => ?_
  subst hw₁
  refine (Sources.follows_updateLines root version d.sources ⟨[], []⟩).bind
    fun update w₂ hupdate => ?_
  obtain ⟨hshape, hmodified⟩ := hupdate
  have hmodified :
      update.modified = Sources.modified (Sources.changes root version w₁.files d.sources) :=
    hmodified
  unfold commitStep
  rw [← hmodified]
  by_cases hnil : update.modified = []
  · -- where no file was modified, there is nothing to commit
    rw [if_pos hnil]
    simp only [if_pos hnil]
    exact .of_pure rfl rfl ⟨hshape, rfl⟩
  · rw [if_neg hnil]
    simp only [if_neg hnil]
    refine (follows_commitFiles _ _ _).bind fun _ w₃ hw₃ => .of_pure rfl rfl ⟨?_, rfl⟩
    rw [hw₃]
    exact hshape

end Action

end TagVersion
