import TagVersion.Proofs.Files.Writing
import TagVersion.Proofs.Sources

/-!
# What rewriting the sources leaves

The lines of the sources are rewritten one after the other, each in the files as the lines before
have left them. This module follows a single file through that.

* **`pointers`**: the lines that some sources point to.
* **`NamedApart`**: sources whose paths name different files.
* **`rewritten`**: the files once all lines are rewritten.
* **`rewritten_induction`**: what each change leaves as it is, all of them leave.
* **`node?_rewritten`**: what no change leads to is left alone.
* **`attemptAll_attempts`**: the attempts of the sources leave these files.
-/

namespace TagVersion

namespace Sources

/-- The lines of files that some sources point to. -/
def pointers (entries : List SourceEntry) : List (String × UInt64) :=
  entries.filterMap (·.filePointer?)

/-- Two paths that lead to different files, unless they are the same. -/
def Apart (root : String) (files : FileTree) (path other : String) : Prop :=
  ∀ loc, files.resolve (Path.join root path) = .ok loc →
    files.resolve (Path.join root other) = .ok loc → path = other

/-- Sources whose paths, where they differ, lead to different files. -/
def NamedApart (root : String) (files : FileTree) (entries : List SourceEntry) : Prop :=
  ∀ p ∈ pointers entries, ∀ q ∈ pointers entries, Apart root files p.1 q.1

/-- The text with the line of a number rewritten, if there is one. -/
def rewriteLine (version text : List Char) (line : UInt64) : List Char :=
  (revised? text version line).elim text Prod.fst

/-- The files once the lines of some sources are rewritten. -/
def rewritten (root version : String) (files : FileTree) (entries : List SourceEntry) : FileTree :=
  (pointers entries).foldl (fun files p => revised root version files p.1 p.2) files

section

variable {root version : String} {files : FileTree} {e : SourceEntry} {path : String}
  {line : UInt64}

theorem apart_iff {other : String} :
    Apart root files path other ↔
      ∀ loc ∈ (files.resolve (Path.join root path)).toOption,
        loc ∈ (files.resolve (Path.join root other)).toOption → path = other := by
  unfold Apart
  cases files.resolve (Path.join root path) <;>
    cases files.resolve (Path.join root other) <;> simp [Except.toOption]

instance (root : String) (files : FileTree) (path other : String) :
    Decidable (Apart root files path other) :=
  decidable_of_iff _ apart_iff.symm

instance (root : String) (files : FileTree) (entries : List SourceEntry) :
    Decidable (NamedApart root files entries) :=
  inferInstanceAs (Decidable (∀ p ∈ pointers entries, ∀ q ∈ pointers entries, _))

/-- Where paths lead is told by the shape of the files. -/
theorem apart_of_sameShape {files' : FileTree} (h : files.SameShape files') (path other : String) :
    Apart root files' path other ↔ Apart root files path other := by
  unfold Apart
  simp only [h.resolve_eq]

theorem pointers_cons_of_none (h : e.filePointer? = none) (rest : List SourceEntry) :
    pointers (e :: rest) = pointers rest := by
  unfold pointers
  rw [List.filterMap_cons, h]

theorem pointers_cons_of_some (h : e.filePointer? = some (path, line)) (rest : List SourceEntry) :
    pointers (e :: rest) = (path, line) :: pointers rest := by
  unfold pointers
  rw [List.filterMap_cons, h]

theorem rewritten_cons_of_none (h : e.filePointer? = none) (rest : List SourceEntry) :
    rewritten root version files (e :: rest) = rewritten root version files rest := by
  unfold rewritten
  rw [pointers_cons_of_none h]

theorem rewritten_cons_of_some (h : e.filePointer? = some (path, line))
    (rest : List SourceEntry) :
    rewritten root version files (e :: rest) =
      rewritten root version (revised root version files path line) rest := by
  unfold rewritten
  rw [pointers_cons_of_some h]
  rfl

/-! ## One line -/

/-- A line that is rewritten stands in a file that can be read. -/
theorem exists_readText_of_newText? {content : String}
    (h : newText? root version files path line = some content) :
    ∃ text, files.readText (Path.join root path) = .ok text := by
  unfold newText? at h
  cases hread : files.readText (Path.join root path) with
  | ok text => exact ⟨text, rfl⟩
  | error e =>
    rw [hread] at h
    exact absurd h (by simp [Except.toOption])

theorem revised_cases (root version : String) (files : FileTree) (path : String) (line : UInt64) :
    (newText? root version files path line = none ∧
        revised root version files path line = files) ∨
      ∃ content text, newText? root version files path line = some content ∧
        files.readText (Path.join root path) = .ok text ∧
        revised root version files path line = files.written (Path.join root path) content := by
  unfold revised
  cases hnew : newText? root version files path line with
  | none => exact .inl ⟨rfl, rfl⟩
  | some content =>
    obtain ⟨text, hread⟩ := exists_readText_of_newText? hnew
    exact .inr ⟨content, text, rfl, hread, rfl⟩

theorem sameShape_revised (root version : String) (files : FileTree) (path : String)
    (line : UInt64) : files.SameShape (revised root version files path line) := by
  obtain ⟨-, heq⟩ | ⟨content, text, -, hread, heq⟩ := revised_cases root version files path line
  · rw [heq]
    exact .refl files
  · rw [heq]
    exact FileTree.sameShape_written hread content

theorem readText_revised_self {text : String}
    (hread : files.readText (Path.join root path) = .ok text) (line : UInt64) :
    (revised root version files path line).readText (Path.join root path) =
      .ok (String.ofList (rewriteLine version.toList text.toList line)) := by
  have hnew := @newText?_of_readText root version files path text hread line
  unfold rewriteLine revised
  cases hrevised : revised? text.toList version.toList line with
  | none =>
    rw [hrevised] at hnew
    rw [hnew]
    simp [hread]
  | some revision =>
    rw [hrevised] at hnew
    rw [hnew]
    exact FileTree.readText_written_self hread _

theorem readText_revised_of_ne {other : String} (hapart : Apart root files path other)
    (hother : path ≠ other) (line : UInt64) :
    (revised root version files path line).readText (Path.join root other) =
      files.readText (Path.join root other) := by
  have hne : ∀ loc, files.resolve (Path.join root other) = .ok loc →
      files.resolve (Path.join root path) ≠ .ok loc :=
    fun loc hloc hloc' => hother (hapart loc hloc' hloc)
  obtain ⟨-, heq⟩ | ⟨content, text, -, hread, heq⟩ := revised_cases root version files path line
  · rw [heq]
  · rw [heq]
    exact FileTree.readText_written_of_ne hread content hne

theorem readText_revised_map (path : String) (line : UInt64) (other : String) :
    ((revised root version files path line).readText other).map (fun _ => ()) =
      (files.readText other).map fun _ => () := by
  obtain ⟨-, heq⟩ | ⟨content, text, -, hread, heq⟩ := revised_cases root version files path line
  · rw [heq]
  · rw [heq]
    exact FileTree.readText_written_map hread content other

/-! ## All lines -/

theorem sameShape_rewritten (root version : String) (files : FileTree)
    (entries : List SourceEntry) : files.SameShape (rewritten root version files entries) := by
  unfold rewritten
  induction pointers entries generalizing files with
  | nil => exact .refl files
  | cons p rest ih => exact (sameShape_revised root version files p.1 p.2).trans (ih _)

/-- **What each change leaves** as it is, all of them leave. -/
theorem rewritten_induction {P : FileTree → Prop} (entries : List SourceEntry) (hfiles : P files)
    (hstep : ∀ files' path content text, files.SameShape files' → P files' →
      (path, content) ∈ changes root version files entries →
        files'.readText (Path.join root path) = .ok text →
          P (files'.written (Path.join root path) content)) :
    P (rewritten root version files entries) := by
  suffices h : ∀ files', files.SameShape files' → P files' →
      (∀ change ∈ changes root version files' entries,
        change ∈ changes root version files entries) →
          P (rewritten root version files' entries) from
    h files (.refl files) hfiles fun _ h => h
  generalize changes root version files entries = allowed at hstep
  induction entries with
  | nil => exact fun _ _ hP _ => hP
  | cons e rest ih =>
    intro files' hshape hP hmem
    cases hpointer : e.filePointer? with
    | none =>
      rw [changes_cons_of_none (change?_of_filePointer?_eq_none hpointer)] at hmem
      rw [rewritten_cons_of_none hpointer]
      exact ih files' hshape hP hmem
    | some pointer =>
      obtain ⟨path, line⟩ := pointer
      rw [changes_cons_of_filePointer? hpointer] at hmem
      rw [rewritten_cons_of_some hpointer]
      refine ih _ (hshape.trans (sameShape_revised root version files' path line)) ?_
        fun change hchange => hmem change (List.mem_append_right _ hchange)
      obtain ⟨-, heq⟩ | ⟨content, text, hnew, hread, heq⟩ :=
        revised_cases root version files' path line
      · rw [heq]
        exact hP
      · rw [heq]
        refine hstep files' path content text hshape hP (hmem _ ?_) hread
        rw [hnew]
        exact List.mem_append_left _ List.mem_cons_self

/-- **What no change leads to** is left alone. -/
theorem node?_rewritten {loc : Location} (entries : List SourceEntry)
    (h : ∀ c ∈ changes root version files entries,
      files.resolve (Path.join root c.1) ≠ .ok loc) :
    (rewritten root version files entries).node? loc = files.node? loc := by
  refine rewritten_induction (P := fun t => t.node? loc = files.node? loc) entries rfl
    fun files' path content text hshape hsame hmem hread => ?_
  rw [FileTree.node?_written_of_ne hread content, hsame]
  rw [hshape.resolve_eq]
  exact h (path, content) hmem

theorem readText_rewritten_map (entries : List SourceEntry) (other : String) :
    ((rewritten root version files entries).readText other).map (fun _ => ()) =
      (files.readText other).map fun _ => () := by
  unfold rewritten
  induction pointers entries generalizing files with
  | nil => rfl
  | cons p rest ih =>
    rw [List.foldl_cons, ih]
    exact readText_revised_map p.1 p.2 other

end

/-! ## The attempts of the sources -/

end Sources

/-- A request that is granted leaves the backend in its answer and touches no file. -/
theorem Workspace.of_request_eq_ok {σ : Type} {w w' : Workspace σ} {step : Step}
    {ask : σ → Reply σ} (h : w.request step ask = .ok () w') :
    ∃ k, w.scm = some k ∧ (ask k).result = .ok () ∧
      w' = { w with scm := some (ask k).state, journal := w.journal ++ [step] } := by
  cases hscm : w.scm with
  | none =>
    rw [request_of_none hscm] at h
    exact absurd h (by simp)
  | some k =>
    rw [request_of_some hscm] at h
    cases hresult : (ask k).result with
    | error e =>
      rw [hresult] at h
      exact absurd h nofun
    | ok _ =>
      rw [hresult] at h
      injection h with _ hw'
      exact ⟨k, rfl, hresult, hw'.symm⟩

namespace Sources

section

variable {σ : Type} [VersionControl σ] {host : Host} {directory root version : String}
  {w w' : Workspace σ}

/-- The attempts for one line leave its file rewritten, if they can be made. -/
theorem attemptAll_lineAttempts {path : String} {line : UInt64}
    (h : w.attemptAll host directory (lineAttempts root version w.files path line) = .ok () w') :
    (∃ text, w.files.readText (Path.join root path) = .ok text) ∧
      w'.files = revised root version w.files path line ∧ w'.scm = w.scm ∧ w'.faults = w.faults := by
  unfold lineAttempts at h
  cases hread : w.readText (Path.join root path) with
  | error e =>
    have hattempt : w.attempt host directory (.read (Path.join root path)) =
        .error (.source ("cannot read " ++ Path.join root path ++ ": " ++ e.message)) w := by
      unfold Workspace.attempt
      simp only [hread]
    rw [Workspace.attemptAll_cons_of_error hattempt] at h
    exact absurd h (by simp)
  | ok text =>
    have hattempt : w.attempt host directory (.read (Path.join root path)) = .ok () w := by
      unfold Workspace.attempt
      simp only [hread]
    rw [Workspace.attemptAll_cons_of_ok hattempt] at h
    refine ⟨⟨text, Workspace.files_readText hread⟩, ?_⟩
    unfold revised
    cases hnew : newText? root version w.files path line with
    | none =>
      rw [hnew] at h
      have h : EStateM.Result.ok () w = .ok () w' := h
      cases h
      exact ⟨rfl, rfl, rfl⟩
    | some content =>
      rw [hnew] at h
      have h : w.attemptAll host directory [.step (.write (Path.join root path) content)] =
        .ok () w' := h
      rw [Workspace.attemptAll_singleton] at h
      unfold Workspace.attempt at h
      cases hwrite : w.writeText (Path.join root path) content with
      | error e =>
        simp only [hwrite] at h
        exact absurd h (by simp)
      | ok files =>
        simp only [hwrite] at h
        cases h
        exact ⟨Workspace.files_writeText hwrite, rfl, rfl⟩

/-- **The attempts of the sources** leave the files rewritten, if they can all be made. -/
theorem attemptAll_attempts {entries : List SourceEntry}
    (h : w.attemptAll host directory (attempts root version w.files entries) = .ok () w') :
    (∀ p ∈ pointers entries, ∃ text, w.files.readText (Path.join root p.1) = .ok text) ∧
      w'.files = rewritten root version w.files entries ∧ w'.scm = w.scm ∧ w'.faults = w.faults := by
  induction entries generalizing w with
  | nil =>
    have h : EStateM.Result.ok () w = .ok () w' := h
    cases h
    exact ⟨nofun, rfl, rfl, rfl⟩
  | cons e rest ih =>
    cases hpointer : e.filePointer? with
    | none =>
      rw [attempts_cons_of_none hpointer] at h
      rw [pointers_cons_of_none hpointer, rewritten_cons_of_none hpointer]
      exact ih h
    | some pointer =>
      obtain ⟨path, line⟩ := pointer
      rw [attempts_cons_of_some hpointer, Workspace.attemptAll_append] at h
      rw [pointers_cons_of_some hpointer, rewritten_cons_of_some hpointer]
      cases hline : w.attemptAll host directory (lineAttempts root version w.files path line) with
      | error e w₁ =>
        rw [hline] at h
        exact absurd h (by simp)
      | ok _ w₁ =>
        rw [hline] at h
        obtain ⟨hread, hfiles, hscm, hfaults⟩ := attemptAll_lineAttempts hline
        rw [← hfiles] at h ⊢
        obtain ⟨hreads, hfiles', hscm', hfaults'⟩ := ih h
        refine ⟨?_, hfiles', hscm'.trans hscm, hfaults'.trans hfaults⟩
        rintro p hp
        rcases List.mem_cons.mp hp with rfl | hp
        · exact hread
        · -- what can be read once this line is rewritten could be read before
          obtain ⟨text, htext⟩ := hreads p hp
          have hmap := @readText_revised_map root version w.files path line (Path.join root p.1)
          rw [← hfiles] at hmap
          obtain ⟨_, old, -, hold⟩ | ⟨e, herror, -⟩ := cases_of_map_eq hmap
          · exact ⟨old, hold⟩
          · exact absurd (htext.symm.trans herror) nofun

end

end Sources

end TagVersion
