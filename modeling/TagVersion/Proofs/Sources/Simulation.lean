import TagVersion.Proofs.Sources.Rewriting

/-!
# Sources that are only read

A release that is to be committed reads each source as the ones before it have left its file, while
a dry run reads all of them as they were. The two agree all the same: a file that differs is listed
as modified already, and it can be read if it could be read before.

* **`Workspace.grants`**: nothing fails but a read.
* **`failure?_attempts`, `attemptAll_reads`**: where a release and a dry run stop.
* **`foldl_changes_eq`**: both list the same files as modified.
* **`follows_simulateLines`**: what a dry run makes of the sources.
-/

namespace TagVersion

open TagVersion.Action

/-! ## Attempts that only fail to read -/

namespace Workspace

variable {σ : Type}

/-- The error in which an operation ends. -/
def failure? {α : Type} : EStateM.Result Error (Workspace σ) α → Option Error
  | .ok .. => none
  | .error e _ => some e

/-- Whether the system has the same against reading a file at all times. -/
def SteadyReads (w : Workspace σ) : Prop :=
  ∀ journal path, w.faults.read? journal path = w.faults.read? w.journal path

/-- A file can be read still where the system and the files allow it as before. -/
theorem readText_map_congr {w w' : Workspace σ} {path : String} (hsteady : w.SteadyReads)
    (hfaults : w'.faults = w.faults)
    (hfiles : (w'.files.readText path).map (fun _ => ()) =
      (w.files.readText path).map fun _ => ()) :
    (w'.readText path).map (fun _ => ()) = (w.readText path).map fun _ => () := by
  unfold readText
  rw [hfaults, hsteady w'.journal]
  cases w.faults.read? w.journal path with
  | some error => rfl
  | none => exact hfiles

variable [VersionControl σ]

/-- Whether every attempt to take a step succeeds, up to the first read that fails. -/
def grants (host : Host) (directory : String) (w : Workspace σ) : List Attempt → Bool
  | [] => true
  | a :: rest =>
    match w.attempt host directory a with
    | .ok _ w' => grants host directory w' rest
    | .error .. => a.step?.isNone

section

variable {host : Host} {directory : String} {w w' : Workspace σ} {a : Attempt}

theorem grants_cons_of_ok (h : w.attempt host directory a = .ok () w') (rest : List Attempt) :
    w.grants host directory (a :: rest) = w'.grants host directory rest := by
  rw [grants, h]

theorem grants_cons_of_error {e : Error} (h : w.attempt host directory a = .error e w')
    (rest : List Attempt) : w.grants host directory (a :: rest) = a.step?.isNone := by
  rw [grants, h]

theorem grants_append {first rest : List Attempt}
    (h : w.grants host directory (first ++ rest) = true) :
    w.grants host directory first = true ∧
      ∀ w', w.attemptAll host directory first = .ok () w' →
        w'.grants host directory rest = true := by
  induction first generalizing w with
  | nil =>
    refine ⟨rfl, fun w' hw' => ?_⟩
    have hw' : EStateM.Result.ok () w = .ok () w' := hw'
    injection hw' with _ hw'
    exact hw' ▸ h
  | cons a first ih =>
    rw [List.cons_append] at h
    cases hattempt : w.attempt host directory a with
    | ok _ w₁ =>
      rw [grants_cons_of_ok hattempt] at h
      rw [grants_cons_of_ok hattempt]
      simp only [attemptAll_cons_of_ok hattempt]
      exact ih h
    | error e w₁ =>
      rw [grants_cons_of_error hattempt] at h
      rw [grants_cons_of_error hattempt]
      simp only [attemptAll_cons_of_error hattempt]
      exact ⟨h, nofun⟩

/-- Steps that are granted are all taken. -/
theorem failure?_of_grants {steps : List Step}
    (h : w.grants host directory (steps.map .step) = true) :
    failure? (w.attemptAll host directory (steps.map .step)) = none := by
  induction steps generalizing w with
  | nil => rfl
  | cons s steps ih =>
    rw [List.map_cons] at h ⊢
    cases hattempt : w.attempt host directory (.step s) with
    | ok _ w₁ =>
      rw [grants_cons_of_ok hattempt] at h
      rw [attemptAll_cons_of_ok hattempt]
      exact ih h
    | error e w₁ =>
      rw [grants_cons_of_error hattempt] at h
      exact absurd h Bool.false_ne_true

/-- Attempts that all succeed are granted. -/
theorem grants_of_attemptAll_eq_ok {attempts : List Attempt}
    (h : w.attemptAll host directory attempts = .ok () w') :
    w.grants host directory attempts = true := by
  induction attempts generalizing w with
  | nil => rfl
  | cons a rest ih =>
    cases hattempt : w.attempt host directory a with
    | error e w₁ =>
      rw [attemptAll_cons_of_error hattempt] at h
      exact absurd h nofun
    | ok _ w₁ =>
      rw [attemptAll_cons_of_ok hattempt] at h
      rw [grants_cons_of_ok hattempt]
      exact ih h

/-- Attempts before steps that are granted decide how it ends. -/
theorem failure?_append_of_grants {first : List Attempt} {steps : List Step}
    (h : w.grants host directory (first ++ steps.map .step) = true) :
    failure? (w.attemptAll host directory (first ++ steps.map .step)) =
      failure? (w.attemptAll host directory first) := by
  have hsteps := (grants_append h).2
  rw [attemptAll_append]
  cases hfirst : w.attemptAll host directory first with
  | error e w' => rfl
  | ok _ w' => exact failure?_of_grants (hsteps w' hfirst)

theorem attempt_read_of_ok {path text : String} (h : w.readText path = .ok text) :
    w.attempt host directory (.read path) = .ok () w := by
  unfold attempt
  simp only [h]

theorem attempt_read_of_error {path : String} {e : SystemError}
    (h : w.readText path = .error e) :
    w.attempt host directory (.read path) =
      .error (.source ("cannot read " ++ path ++ ": " ++ e.message)) w := by
  unfold attempt
  simp only [h]

end

end Workspace

open Workspace (failure?)

/-! ## Where the reads stop -/

namespace Sources

/-- What is complained about the first file of some sources that cannot be read. -/
def unreadable? {σ : Type} (root : String) (w : Workspace σ) (entries : List SourceEntry) :
    Option Error :=
  (pointers entries).findSome? fun p =>
    match w.readText (Path.join root p.1) with
    | .ok _ => none
    | .error e => some (.source ("cannot read " ++ Path.join root p.1 ++ ": " ++ e.message))

/-- The reads of some sources. -/
def reads (root : String) (entries : List SourceEntry) : List Attempt :=
  (pointers entries).map fun p => .read (Path.join root p.1)

section

variable {σ : Type} {root version : String} {w w' : Workspace σ} {e : SourceEntry} {path : String}
  {line : UInt64} {entries rest : List SourceEntry}

theorem unreadable?_cons_of_ok {text : String} (hpointer : e.filePointer? = some (path, line))
    (hread : w.readText (Path.join root path) = .ok text) (rest : List SourceEntry) :
    unreadable? root w (e :: rest) = unreadable? root w rest := by
  unfold unreadable?
  rw [pointers_cons_of_some hpointer, List.findSome?_cons, hread]

theorem unreadable?_cons_of_error {error : SystemError}
    (hpointer : e.filePointer? = some (path, line))
    (hread : w.readText (Path.join root path) = .error error) (rest : List SourceEntry) :
    unreadable? root w (e :: rest) =
      some (.source ("cannot read " ++ Path.join root path ++ ": " ++ error.message)) := by
  unfold unreadable?
  rw [pointers_cons_of_some hpointer, List.findSome?_cons, hread]

/-- Whether a file can be read, and what stands in the way, is the same once a line of another or of
the same file is rewritten. -/
theorem unreadable?_congr (hsteady : w.SteadyReads) (hfaults : w'.faults = w.faults)
    (hfiles : w'.files = revised root version w.files path line) (entries : List SourceEntry) :
    unreadable? root w' entries = unreadable? root w entries := by
  have hmap : ∀ other, (w'.readText other).map (fun _ => ()) =
      (w.readText other).map fun _ => () := by
    intro other
    refine Workspace.readText_map_congr hsteady hfaults ?_
    rw [hfiles]
    exact readText_revised_map path line other
  unfold unreadable?
  congr 1
  funext p
  obtain ⟨text', text, hnew, hold⟩ | ⟨error, hnew, hold⟩ :=
    cases_of_map_eq (hmap (Path.join root p.1))
  · rw [hnew, hold]
  · rw [hnew, hold]

variable [VersionControl σ] {host : Host} {directory : String}

/-- **A release** whose writes succeed stops at the first file that could not be read before. -/
theorem failure?_attempts (hsteady : w.SteadyReads)
    (hgrants : w.grants host directory (attempts root version w.files entries) = true) :
    failure? (w.attemptAll host directory (attempts root version w.files entries)) =
      unreadable? root w entries := by
  induction entries generalizing w with
  | nil => rfl
  | cons e rest ih =>
    cases hpointer : e.filePointer? with
    | none =>
      rw [attempts_cons_of_none hpointer] at hgrants ⊢
      rw [ih hsteady hgrants]
      unfold unreadable?
      rw [pointers_cons_of_none hpointer]
    | some pointer =>
      obtain ⟨path, line⟩ := pointer
      rw [attempts_cons_of_some hpointer] at hgrants ⊢
      obtain ⟨hline, hrest⟩ := Workspace.grants_append hgrants
      cases hread : w.readText (Path.join root path) with
      | error error =>
        unfold lineAttempts
        rw [unreadable?_cons_of_error hpointer hread, List.cons_append,
          Workspace.attemptAll_cons_of_error (Workspace.attempt_read_of_error hread)]
        rfl
      | ok text =>
        rw [unreadable?_cons_of_ok hpointer hread, Workspace.attemptAll_append]
        cases hrun : w.attemptAll host directory
            (lineAttempts root version w.files path line) with
        | error error w₁ =>
          -- the only attempt that is left is the write, which is granted
          have hsteps : lineAttempts root version w.files path line =
              [.read (Path.join root path)] ++
                ((newText? root version w.files path line).elim [] fun content =>
                  [Step.write (Path.join root path) content]).map .step := by
            unfold lineAttempts
            cases newText? root version w.files path line <;> rfl
          rw [hsteps] at hline hrun
          have hfailure := Workspace.failure?_append_of_grants hline
          rw [hrun, Workspace.attemptAll_singleton, Workspace.attempt_read_of_ok hread] at hfailure
          exact absurd hfailure nofun
        | ok _ w₁ =>
          obtain ⟨-, hfiles, -, hfaults⟩ := attemptAll_lineAttempts hrun
          have hsteady₁ : w₁.SteadyReads := by
            intro journal other
            rw [hfaults, hsteady journal, hsteady w₁.journal]
          have hrest := hrest w₁ hrun
          rw [← hfiles] at hrest ⊢
          simp only
          rw [ih hsteady₁ hrest]
          exact unreadable?_congr hsteady hfaults hfiles rest

/-- **Reads** leave everything as it is, and stop at the first file that cannot be read. -/
theorem attemptAll_reads (w : Workspace σ) (entries : List SourceEntry) :
    w.attemptAll host directory (reads root entries) =
      (unreadable? root w entries).elim (.ok () w) fun e => .error e w := by
  unfold reads unreadable?
  induction pointers entries with
  | nil => rfl
  | cons p rest ih =>
    rw [List.map_cons, List.findSome?_cons]
    cases hread : w.readText (Path.join root p.1) with
    | error error =>
      rw [Workspace.attemptAll_cons_of_error (Workspace.attempt_read_of_error hread)]
      rfl
    | ok text =>
      rw [Workspace.attemptAll_cons_of_ok (Workspace.attempt_read_of_ok hread)]
      exact ih

end

/-! ## What both list as modified -/

/-- The files that a dry run lists as modified, after others. All sources are seen as they are. -/
def wouldModify (root version : String) (files : FileTree) (entries : List SourceEntry)
    (done : List String) : List String :=
  (pointers entries).foldl
    (fun done p => (newText? root version files p.1 p.2).elim done fun _ => addModified done p.1)
    done

section

variable {root version : String} {files files' : FileTree} {entries : List SourceEntry}

theorem subset_addModified (done : List String) (path : String) : done ⊆ addModified done path :=
  fun _ h => mem_addModified.mpr (.inl h)

theorem addModified_of_mem {done : List String} {path : String} (h : path ∈ done) :
    addModified done path = done := by
  unfold addModified
  rw [if_pos (List.contains_iff_mem.mpr h)]

theorem newText?_congr {path : String}
    (h : files'.readText (Path.join root path) = files.readText (Path.join root path))
    (line : UInt64) :
    newText? root version files' path line = newText? root version files path line := by
  unfold newText?
  rw [h]

/-- **The same files are listed** by a release and by a dry run. The files on the way of the release
are in the shape of the original ones, and only those differ that are listed already. -/
theorem foldl_changes_eq (hshape : files.SameShape files')
    (hapart : NamedApart root files entries) {done : List String}
    (hreads : ∀ p ∈ pointers entries, p.1 ∉ done →
      files'.readText (Path.join root p.1) = files.readText (Path.join root p.1)) :
    (changes root version files' entries).foldl
        (fun modified change => addModified modified change.1) done =
      wouldModify root version files entries done := by
  induction entries generalizing files' done with
  | nil => rfl
  | cons e rest ih =>
    unfold NamedApart at hapart
    cases hpointer : e.filePointer? with
    | none =>
      have hchange := @change?_of_filePointer?_eq_none root version files' e hpointer
      rw [pointers_cons_of_none hpointer] at hapart hreads
      rw [changes_cons_of_none hchange, ih hshape hapart hreads]
      unfold wouldModify
      rw [pointers_cons_of_none hpointer]
    | some pointer =>
      obtain ⟨path, line⟩ := pointer
      rw [pointers_cons_of_some hpointer] at hapart hreads
      have hapart' : NamedApart root files rest := fun p hp q hq =>
        hapart p (List.mem_cons_of_mem _ hp) q (List.mem_cons_of_mem _ hq)
      have hshape' := hshape.trans (sameShape_revised root version files' path line)
      -- the list so far, by either run: a file that is on it is not listed again
      have hdone : (newText? root version files' path line).elim done
            (fun _ => addModified done path) =
          (newText? root version files path line).elim done fun _ => addModified done path := by
        by_cases hmem : path ∈ done
        · rw [addModified_of_mem hmem]
          cases newText? root version files' path line <;>
            cases newText? root version files path line <;> rfl
        · rw [newText?_congr (hreads _ List.mem_cons_self hmem)]
      -- a file that is not on the list, neither now nor before, is still as it was
      have hreads' : ∀ p ∈ pointers rest,
          p.1 ∉ (newText? root version files' path line).elim done
            (fun _ => addModified done path) →
          (revised root version files' path line).readText (Path.join root p.1) =
            files.readText (Path.join root p.1) := by
        intro p hp hmem
        have hp' := List.mem_cons_of_mem (path, line) hp
        cases hnew : newText? root version files' path line with
        | none =>
          rw [hnew] at hmem
          have hsame : revised root version files' path line = files' := by
            unfold revised
            rw [hnew]
            rfl
          rw [hsame]
          exact hreads p hp' hmem
        | some content =>
          rw [hnew] at hmem
          have hne : path ≠ p.1 := by
            rintro rfl
            exact hmem (mem_addModified.mpr (.inr rfl))
          have hbefore : p.1 ∉ done := fun h => hmem (subset_addModified done path h)
          have hpaths := (apart_of_sameShape hshape path p.1).mpr
            (hapart _ List.mem_cons_self p hp')
          rw [readText_revised_of_ne hpaths hne, hreads p hp' hbefore]
      have hfold : (changes root version files' (e :: rest)).foldl
            (fun modified change => addModified modified change.1) done =
          (changes root version (revised root version files' path line) rest).foldl
            (fun modified change => addModified modified change.1)
            ((newText? root version files' path line).elim done
              fun _ => addModified done path) := by
        rw [changes_cons_of_filePointer? hpointer, List.foldl_append]
        cases newText? root version files' path line <;> rfl
      rw [hfold, ih hshape' hapart' hreads', hdone]
      unfold wouldModify
      rw [pointers_cons_of_some hpointer, List.foldl_cons]

end

/-! ## What a dry run makes of the sources -/

section

variable {σ : Type} [VersionControl σ] {host : Host} {directory : String} {w : Workspace σ}

theorem follows_simulateLine (root version source path : String) (line : UInt64)
    (done : SourceUpdate) :
    Follows host directory (updateLine root version false source path line done) w
      [.read (Path.join root path)]
      fun update w' =>
        w'.files = w.files ∧
          update.modified =
            (newText? root version w.files path line).elim done.modified fun _ =>
              addModified done.modified path := by
  unfold updateLine
  refine .of_get ?_
  cases hread : w.readText (Path.join root path) with
  | error e => exact .of_unreadable hread rfl
  | ok text =>
    have hnew := @newText?_of_readText root version w.files path text
      (Workspace.files_readText hread) line
    refine .of_read hread ?_
    cases hrevised : revised? text.toList version.toList line with
    | none =>
      rw [hrevised] at hnew
      rw [hnew]
      simp only [hrevised]
      exact (follows_remark _).bind_of_nil fun _ w' hw' => .of_pure rfl rfl ⟨hw', rfl⟩
    | some revision =>
      obtain ⟨content, new⟩ := revision
      rw [hrevised] at hnew
      rw [hnew]
      simp only [hrevised]
      exact (follows_remark _).bind_of_nil fun _ w' hw' => .of_pure rfl rfl ⟨hw', rfl⟩

theorem follows_simulateLines (root version : String) (entries : List SourceEntry)
    (done : SourceUpdate) :
    Follows host directory (updateLines root version false entries done) w (reads root entries)
      fun update w' =>
        w'.files = w.files ∧
          update.modified = wouldModify root version w.files entries done.modified := by
  induction entries generalizing w done with
  | nil => exact .of_pure rfl rfl ⟨rfl, rfl⟩
  | cons e rest ih =>
    unfold reads wouldModify
    rw [updateLines]
    cases hpointer : e.filePointer? with
    | none =>
      rw [pointers_cons_of_none hpointer]
      exact ih done
    | some pointer =>
      obtain ⟨path, line⟩ := pointer
      rw [pointers_cons_of_some hpointer, List.map_cons, ← List.singleton_append]
      refine (follows_simulateLine root version e.source path line done).bind
        fun update w₁ hupdate => ?_
      obtain ⟨hfiles, hmodified⟩ := hupdate
      have hrest := @ih w₁ update
      rw [hfiles, hmodified] at hrest
      exact hrest

end

end Sources

end TagVersion
