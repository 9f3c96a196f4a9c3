import TagVersion.Proofs.Sources.Repeating
import TagVersion.Proofs.Sources.Unreadable

/-!
# The remark that a source is right

An update that leaves a line alone remarks that its source has the right version. It says so of a line
that is right as it stands, and of a line that is not there: a source that points behind the end of its
file is passed over with the same remark. After an update, the lines that sources point to carry the
version, but no line has come into being.

* **`SourceLine.Carries`**: a line that holds a version in one of the forms in which it is written.
* **`Remarked`**: a source whose line, where it is looked at, is right or missing.
* **`of_updateLine_eq_ok`**: the remark of one line.
* **`diagnostics_updateLines`**: the remarks of all lines, by induction on the sources.
* **`isSome_lineAt?_rewritten`**: no update makes a line that was missing.
* **`updateSources_alreadyCorrect`**: what the remark means, and what is there afterwards.
-/

namespace TagVersion

/-! ## Lines with a version -/

namespace SourceLine

/-- A line that ends with the version: in quotes after an equals sign, or bare after a colon, and in
both cases with one blank or none between them. -/
def Carries (version line : List Char) : Prop :=
  ∃ key blank, (blank = [] ∨ blank = [' ']) ∧
    (line = key ++ '=' :: (blank ++ '\'' :: (version ++ ['\'', '\n'])) ∨
      line = key ++ ':' :: (blank ++ (version ++ ['\n'])))

theorem carries_updated (line version : List Char) : Carries version (updated line version) := by
  obtain ⟨key, blank, hupdated, -, hblank, -⟩ := exists_key_of_updated line version
  refine ⟨key, blank, hblank, ?_⟩
  rw [hupdated]
  unfold form
  split
  · exact .inl (by simp)
  · exact .inr (by simp)

end SourceLine

namespace Sources

/-! ## When the remark is made -/

/-- The files as they are once some sources have been dealt with. A dry run leaves them alone. -/
def examined (root version : String) (commit : Bool) (files : FileTree)
    (entries : List SourceEntry) : FileTree :=
  if commit then rewritten root version files entries else files

/-- A source that points to a line of a file. When its turn comes, the file can be read, and the line is
right, or it is not there. -/
def Remarked (root version : String) (commit : Bool) (files : FileTree)
    (entries : List SourceEntry) (source : String) : Prop :=
  ∃ before e after path line, entries = before ++ e :: after ∧ e.source = source ∧
    e.filePointer? = some (path, line) ∧
    (∃ text, (examined root version commit files before).readText (Path.join root path) = .ok text) ∧
    Settled root version (examined root version commit files before) (path, line)

section

variable {σ : Type} {root version source path : String} {line : UInt64} {commit : Bool}
  {files : FileTree} {w w' : Workspace σ} {done done' : SourceUpdate} {e : SourceEntry}
  {rest entries : List SourceEntry}

theorem examined_nil : examined root version commit files [] = files :=
  ite_self files

theorem examined_cons_of_none (h : e.filePointer? = none) :
    examined root version commit files (e :: rest) = examined root version commit files rest := by
  unfold examined
  rw [rewritten_cons_of_none h]

theorem examined_cons_of_some (h : e.filePointer? = some (path, line)) :
    examined root version commit files (e :: rest) =
      examined root version commit
        (if commit then revised root version files path line else files) rest := by
  unfold examined
  rw [rewritten_cons_of_some h]
  cases commit <;> rfl

theorem not_remarked_nil : ¬ Remarked root version commit files [] source := by
  rintro ⟨before, e, after, -, -, hsources, -⟩
  exact absurd hsources (by simp)

theorem remarked_cons_of_none (h : e.filePointer? = none) :
    Remarked root version commit files (e :: rest) source ↔
      Remarked root version commit files rest source := by
  constructor
  · rintro ⟨before, s, after, path, line, hsources, hsource, hpointer, hline⟩
    cases before with
    | nil =>
      -- the first source points to no line
      obtain ⟨rfl, -⟩ := List.cons.inj hsources
      rw [h] at hpointer
      exact absurd hpointer nofun
    | cons first before =>
      obtain ⟨rfl, hrest⟩ := List.cons.inj hsources
      rw [examined_cons_of_none h] at hline
      exact ⟨before, s, after, path, line, hrest, hsource, hpointer, hline⟩
  · rintro ⟨before, s, after, path, line, rfl, hsource, hpointer, hline⟩
    refine ⟨e :: before, s, after, path, line, rfl, hsource, hpointer, ?_⟩
    rw [examined_cons_of_none h]
    exact hline

theorem remarked_cons_of_some (h : e.filePointer? = some (path, line))
    (hread : ∃ text, files.readText (Path.join root path) = .ok text) :
    Remarked root version commit files (e :: rest) source ↔
      (source = e.source ∧ Settled root version files (path, line)) ∨
        Remarked root version commit
          (if commit then revised root version files path line else files) rest source := by
  constructor
  · rintro ⟨before, s, after, path', line', hsources, hsource, hpointer, hline⟩
    cases before with
    | nil =>
      obtain ⟨rfl, -⟩ := List.cons.inj hsources
      rw [h] at hpointer
      cases hpointer
      rw [examined_nil] at hline
      exact .inl ⟨hsource.symm, hline.2⟩
    | cons first before =>
      obtain ⟨rfl, hrest⟩ := List.cons.inj hsources
      rw [examined_cons_of_some h] at hline
      exact .inr ⟨before, s, after, path', line', hrest, hsource, hpointer, hline⟩
  · rintro (⟨rfl, hsettled⟩ | ⟨before, s, after, path', line', rfl, hsource, hpointer, hline⟩)
    · refine ⟨[], e, rest, path, line, rfl, rfl, h, ?_⟩
      rw [examined_nil]
      exact ⟨hread, hsettled⟩
    · refine ⟨e :: before, s, after, path', line', rfl, hsource, hpointer, ?_⟩
      rw [examined_cons_of_some h]
      exact hline

/-- **The remark of one line** is made where the line is left alone. -/
theorem of_updateLine_eq_ok
    (h : updateLine root version commit source path line done w = .ok done' w') :
    (∃ text, w.files.readText (Path.join root path) = .ok text) ∧
      w'.files = (if commit then revised root version w.files path line else w.files) ∧
      ∀ s, .alreadyCorrect s ∈ done'.diagnostics ↔
        .alreadyCorrect s ∈ done.diagnostics ∨
          (s = source ∧ Settled root version w.files (path, line)) := by
  rw [settled_iff]
  unfold updateLine at h
  rw [Action.get_bind] at h
  cases hread : w.readText (Path.join root path) with
  | error error =>
    simp only [hread] at h
    exact absurd h nofun
  | ok text =>
    have hfiles := Workspace.files_readText hread
    have hnew := @newText?_of_readText root version w.files path text hfiles line
    refine ⟨⟨text, hfiles⟩, ?_⟩
    simp only [hread] at h
    cases hrevised : revised? text.toList version.toList line with
    | none =>
      simp only [hrevised] at h
      cases h
      rw [hrevised, Option.map_none] at hnew
      refine ⟨?_, fun s => ?_⟩
      · unfold revised
        rw [hnew]
        exact (ite_self w.files).symm
      · simp [hnew]
    | some revision =>
      obtain ⟨content, new⟩ := revision
      simp only [hrevised] at h
      rw [hrevised, Option.map_some] at hnew
      cases commit with
      | false =>
        cases h
        exact ⟨rfl, fun s => by simp [hnew]⟩
      | true =>
        obtain ⟨_, w₁, hwrite, hnote⟩ := Action.of_bind_eq_ok h
        have hnote : EStateM.Result.ok { done with modified := addModified done.modified path }
            { w₁ with log := w₁.log ++ [.info ("Updated " ++ source ++ " with '" ++
              String.ofList (Text.trim new) ++ "'")] } = .ok done' w' := hnote
        cases hnote
        refine ⟨?_, fun s => by simp [hnew]⟩
        -- the write has left the rewritten text
        unfold Action.writeText at hwrite
        rw [Action.get_bind] at hwrite
        cases hfiles' : w.writeText (Path.join root path) (String.ofList content) with
        | error error =>
          simp only [hfiles'] at hwrite
          exact absurd hwrite nofun
        | ok files' =>
          simp only [hfiles'] at hwrite
          cases hwrite
          show files' = revised root version w.files path line
          unfold revised
          rw [hnew]
          exact Workspace.files_writeText hfiles'

/-- **The remarks of all lines.** -/
theorem diagnostics_updateLines
    (h : updateLines root version commit entries done w = .ok done' w') :
    w'.files = examined root version commit w.files entries ∧
      ∀ s, .alreadyCorrect s ∈ done'.diagnostics ↔
        .alreadyCorrect s ∈ done.diagnostics ∨ Remarked root version commit w.files entries s := by
  induction entries generalizing w done with
  | nil =>
    have h : EStateM.Result.ok done w = .ok done' w' := h
    cases h
    refine ⟨examined_nil.symm, fun s => ?_⟩
    rw [or_iff_left not_remarked_nil]
  | cons e rest ih =>
    rw [updateLines] at h
    cases hpointer : e.filePointer? with
    | none =>
      rw [hpointer] at h
      rw [examined_cons_of_none hpointer]
      simp only [remarked_cons_of_none hpointer]
      exact ih h
    | some pointer =>
      obtain ⟨path, line⟩ := pointer
      rw [hpointer] at h
      obtain ⟨done₁, w₁, hfirst, hrest⟩ := Action.of_bind_eq_ok h
      obtain ⟨hread, hfiles, hremark⟩ := of_updateLine_eq_ok hfirst
      obtain ⟨hfiles', hremarks⟩ := ih hrest
      rw [examined_cons_of_some hpointer, ← hfiles]
      refine ⟨hfiles', fun s => ?_⟩
      rw [hremarks, hremark, remarked_cons_of_some hpointer hread, ← hfiles, or_assoc]

end

/-! ## The lines afterwards -/

section

variable {root version : String} {files : FileTree} {path : String} {i : Nat}
  {entries : List SourceEntry}

/-- **No line comes into being** where sources are rewritten, and none is lost. -/
theorem isSome_lineAt?_rewritten (hversion : '\n' ∉ version.toList)
    (hsingle : ∀ p ∈ pointers entries, Single root files p) :
    (lineAt? root (rewritten root version files entries) path i).isSome =
      (lineAt? root files path i).isSome := by
  induction entries generalizing files with
  | nil => rfl
  | cons e rest ih =>
    cases hpointer : e.filePointer? with
    | none =>
      rw [pointers_cons_of_none hpointer] at hsingle
      rw [rewritten_cons_of_none hpointer]
      exact ih hsingle
    | some pointer =>
      obtain ⟨other, line⟩ := pointer
      rw [pointers_cons_of_some hpointer] at hsingle
      rw [rewritten_cons_of_some hpointer]
      have hline := toNat_of_filePointer? hpointer
      have hfirst := hsingle _ List.mem_cons_self
      rw [ih fun q hq => hfirst.revised hversion hline (hsingle q (List.mem_cons_of_mem _ hq))]
      rcases lineAt?_revised_cases hversion hline hfirst path i with heq | heq
      · rw [heq]
      · rw [heq, Option.isSome_map]

end

/-! ## What the remark means -/

section

variable {σ : Type} [VersionControl σ] {root version : String} {commit commitAll : Bool}
  {d : Definition} {w w' : Workspace σ} {update : SourceUpdate}

theorem files_of_commitFiles {paths : List String}
    (h : Action.commitFiles commit paths version w = .ok () w') : w'.files = w.files := by
  have hfollows := @Action.follows_commitFiles _ _ bareHost "" w commit paths version
  unfold Action.Follows at hfollows
  rw [h] at hfollows
  exact hfollows.2

theorem exists_updateLines_of_updateSources
    (hrun : Action.updateSources root version commit commitAll d w = .ok update w') :
    ∃ w₁, updateLines root version commit d.sources ⟨[], []⟩ w = .ok update w₁ ∧
      w'.files = w₁.files := by
  unfold Action.updateSources at hrun
  obtain ⟨k, w₀, hscm, hrun⟩ := Action.of_bind_eq_ok hrun
  rw [eq_of_scm_eq_ok hscm] at hrun
  obtain ⟨done, w₁, hlines, hrest⟩ := Action.of_bind_eq_ok hrun
  by_cases hnil : done.modified = []
  · rw [if_pos hnil] at hrest
    cases hrest
    exact ⟨_, hlines, rfl⟩
  · rw [if_neg hnil] at hrest
    obtain ⟨_, w₂, hcommit, hdone⟩ := Action.of_bind_eq_ok hrest
    cases hdone
    exact ⟨w₁, hlines, files_of_commitFiles hcommit⟩

/-- **The remark that a source is right** is made exactly where a source points to a line that is right
or missing when its turn comes. After a committing update, where rewriting splits no line, a source
points to a line if and only if it did before, and the line carries the version. -/
theorem updateSources_alreadyCorrect
    (hrun : Action.updateSources root version commit commitAll d w = .ok update w') :
    (∀ source, .alreadyCorrect source ∈ update.diagnostics ↔
      Remarked root version commit w.files d.sources source) ∧
    (commit = true → '\n' ∉ version.toList → (∀ p ∈ pointers d.sources, Single root w.files p) →
      ∀ p ∈ pointers d.sources,
        (lineAt? root w'.files p.1 (p.2.toNat - 1)).isSome =
            (lineAt? root w.files p.1 (p.2.toNat - 1)).isSome ∧
          ∀ line ∈ lineAt? root w'.files p.1 (p.2.toNat - 1),
            SourceLine.Carries version.toList line) := by
  obtain ⟨w₁, hlines, hfiles⟩ := exists_updateLines_of_updateSources hrun
  obtain ⟨hexamined, hremarks⟩ := diagnostics_updateLines hlines
  refine ⟨fun source => ?_, ?_⟩
  · rw [hremarks, or_iff_right List.not_mem_nil]
  · rintro rfl hversion hsingle p hp
    have hrewritten : w'.files = rewritten root version w.files d.sources := hfiles.trans hexamined
    rw [hrewritten]
    exact ⟨isSome_lineAt?_rewritten hversion hsingle,
      forall_lineAt?_rewritten hversion (fun l => SourceLine.carries_updated l version.toList)
        hsingle (.inl hp)⟩

end

/-! ### A source behind the end of its file -/

namespace Behind

open Repeated

/-- The second source points to line seven of a file with one line. -/
def definition : Definition :=
  { Repeated.definition with sources := [⟨"setup.py:1", "1.2.3"⟩, ⟨"app.yaml:7", "1.2.3"⟩] }

end Behind

open Repeated in
/-- The second source is said to have the right version. Its file has kept the old one, and there is no
line that it points to. -/
theorem updateSources_alreadyCorrect_missing :
    ∃ update w', Action.updateSources "" "1.3.0" true false Behind.definition workspace =
        .ok update w' ∧
      update.diagnostics = [.alreadyCorrect "app.yaml:7"] ∧
      Remarked "" "1.3.0" true files Behind.definition.sources "app.yaml:7" ∧
      w'.files.readText "app.yaml" = .ok "version: 1.2.3" ∧
      lineAt? "" w'.files "app.yaml" 6 = none ∧
      ∃ line, lineAt? "" w'.files "setup.py" 0 = some line ∧
        SourceLine.Carries "1.3.0".toList line := by
  obtain ⟨update, w', hrun, htest⟩ := Action.exists_of_succeedsWith
    (by decide +kernel :
      (Action.updateSources "" "1.3.0" true false Behind.definition).succeedsWith
        (fun update w' => decide (update.diagnostics = [.alreadyCorrect "app.yaml:7"] ∧
          w'.files.readText "app.yaml" = .ok "version: 1.2.3")) workspace = true)
  obtain ⟨hdiagnostics, htext⟩ := of_decide_eq_true htest
  obtain ⟨hremarks, hlines⟩ := updateSources_alreadyCorrect hrun
  have hlines := hlines rfl (by decide) (by decide +kernel)
  obtain ⟨hmissing, -⟩ := hlines ("app.yaml", 7) (by decide)
  obtain ⟨hthere, hcarries⟩ := hlines ("setup.py", 1) (by decide)
  have hbefore : (lineAt? "" files "setup.py" 0).isSome = true := by decide +kernel
  obtain ⟨line, hline⟩ := Option.isSome_iff_exists.mp (hthere.trans hbefore)
  refine ⟨update, w', hrun, hdiagnostics, ?_, htext, ?_, line, hline, hcarries line hline⟩
  · refine (hremarks _).mp ?_
    rw [hdiagnostics]
    exact List.mem_singleton_self _
  · have hbehind : (lineAt? "" files "app.yaml" 6).isSome = false := by decide +kernel
    exact Option.not_isSome_iff_eq_none.mp (Bool.eq_false_iff.mp (hmissing.trans hbehind))

end Sources

end TagVersion
