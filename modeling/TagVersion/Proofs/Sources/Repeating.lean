import TagVersion.Proofs.Sources.Simulation

/-!
# Sources that are right already

A line that was rewritten is right, and it stays right while the other sources are rewritten: they leave
it alone, or they point to it as well and rewrite it to itself. This holds for paths of all kinds, also
for those that lead to the same file under different names. A second update finds nothing to do.

* **`SourceLine.updated_updated`**: rewriting a line again changes nothing.
* **`Settled`**: a source whose line is right.
* **`forall_lineAt?_rewritten`**, **`settled_rewritten`**: sources are settled once all of them were
  rewritten.
* **`updateLines_settled`**: an update of settled sources.
* **`updateSources_again`**: an update after another one.
-/

namespace TagVersion

/-! ## One line -/

namespace SourceLine

variable {line version : List Char}

/-- A rewritten line is its key, the sign, one blank or none, and the value. The colon is the sign only
where there is no equals sign. -/
theorem exists_key_of_updated (line version : List Char) :
    ∃ key blank, updated line version =
        key ++ (form line version).1 :: (blank ++ (form line version).2 ++ ['\n']) ∧
      (form line version).1 ∉ key ∧ (blank = [] ∨ blank = [' ']) ∧ ∀ c ∈ key, c ∈ line := by
  obtain ⟨key, rest, hcut, hsign, hkey⟩ : ∃ key rest,
      (Text.cutFirst (form line version).1 line).getD (line, []) = (key, rest) ∧
        (form line version).1 ∉ key ∧ ∀ c ∈ key, c ∈ line := by
    cases hcut : Text.cutFirst (form line version).1 line with
    | none => exact ⟨line, [], rfl, Text.cutFirst_eq_none_iff.mp hcut, fun _ hc => hc⟩
    | some parts =>
      obtain ⟨key, rest⟩ := parts
      obtain ⟨hline, hkey⟩ := Text.cutFirst_eq_some_iff.mp hcut
      exact ⟨key, rest, rfl, hkey, fun c hc => hline ▸ List.mem_append_left _ hc⟩
  refine ⟨key, if rest.head? = some ' ' then [' '] else [], ?_, hsign, ?_, hkey⟩
  · unfold updated
    simp only [hcut]
    simp
  · by_cases hhead : rest.head? = some ' '
    · exact .inr (if_pos hhead)
    · exact .inl (if_neg hhead)

/-- A line that is cut at its sign is rewritten behind it. -/
theorem updated_of_cut {key rest : List Char} (hline : line = key ++ (form line version).1 :: rest)
    (hkey : (form line version).1 ∉ key) :
    updated line version = key ++ (form line version).1 ::
      ((if rest.head? = some ' ' then [' '] else []) ++ (form line version).2 ++ ['\n']) := by
  have hcut : Text.cutFirst (form line version).1 line = some (key, rest) :=
    Text.cutFirst_eq_some_iff.mpr ⟨hline, hkey⟩
  unfold updated
  simp only [hcut]
  simp

/-- A line keeps its sign when it is rewritten. -/
theorem form_updated (hequals : '=' ∉ version) :
    form (updated line version) version = form line version := by
  obtain ⟨key, blank, hupdated, -, hblank, hkey⟩ := exists_key_of_updated line version
  by_cases hsign : '=' ∈ line
  · have hform : form line version = ('=', '\'' :: version ++ ['\'']) :=
      if_pos (List.contains_iff_mem.mpr hsign)
    have hmem : '=' ∈ updated line version := by
      rw [hupdated, hform]
      simp
    rw [hform]
    exact if_pos (List.contains_iff_mem.mpr hmem)
  · have hform : form line version = (':', version) :=
      if_neg (mt List.contains_iff_mem.mp hsign)
    -- none of the parts of the line holds an equals sign
    have hmem : '=' ∉ updated line version := by
      rw [hupdated, hform]
      have hkey : '=' ∉ key := fun h => hsign (hkey '=' h)
      have hblank : '=' ∉ blank := by
        rcases hblank with rfl | rfl <;> decide
      simp [hkey, hblank, hequals]
    rw [hform]
    exact if_neg (mt List.contains_iff_mem.mp hmem)

/-- What is written after the blank is no blank. -/
theorem head?_value_ne (hblank : version.head? ≠ some ' ') :
    ((form line version).2 ++ ['\n']).head? ≠ some ' ' := by
  unfold form
  split
  · simp
  · cases version with
    | nil => simp
    | cons c version => exact hblank

/-- **Rewriting a line** again changes nothing. -/
theorem updated_updated (hequals : '=' ∉ version) (hblank : version.head? ≠ some ' ')
    (line : List Char) : updated (updated line version) version = updated line version := by
  obtain ⟨key, blank, hupdated, hsign, hone, -⟩ := exists_key_of_updated line version
  have hform := @form_updated line version hequals
  have hvalue := @head?_value_ne line version hblank
  have hagain := @updated_of_cut (updated line version) version key
    (blank ++ (form line version).2 ++ ['\n']) (by rw [hform]; exact hupdated)
    (by rw [hform]; exact hsign)
  rw [hform] at hagain
  rw [hagain, hupdated]
  -- the blank is found again, and there is none where there was none
  rcases hone with rfl | rfl
  · rw [List.nil_append, if_neg hvalue, List.nil_append]
  · rw [if_pos (by rfl)]

theorem sign_mem_updated (line version : List Char) :
    '=' ∈ updated line version ∨ ':' ∈ updated line version := by
  obtain ⟨key, blank, hupdated, -⟩ := exists_key_of_updated line version
  rw [hupdated]
  unfold form
  split
  · exact .inl (by simp)
  · exact .inr (by simp)

end SourceLine

namespace Sources

/-! ## Settled sources -/

/-- The line that a source points to has a sign, if it is there. -/
def Signed (root : String) (files : FileTree) (p : String × UInt64) : Prop :=
  ∀ line ∈ lineAt? root files p.1 (p.2.toNat - 1), '=' ∈ line ∨ ':' ∈ line

instance (root : String) (files : FileTree) (p : String × UInt64) :
    Decidable (Signed root files p) :=
  inferInstanceAs (Decidable (∀ line ∈ lineAt? root files p.1 (p.2.toNat - 1), _))

/-- The line that a source points to stays a single one when it is rewritten, if it is there. -/
def Single (root : String) (files : FileTree) (p : String × UInt64) : Prop :=
  ∀ line ∈ lineAt? root files p.1 (p.2.toNat - 1), SourceLine.StaysSingle line

instance (root : String) (files : FileTree) (p : String × UInt64) :
    Decidable (Single root files p) :=
  inferInstanceAs (Decidable (∀ line ∈ lineAt? root files p.1 (p.2.toNat - 1), _))

/-- The line that a source points to is right, if it is there. -/
def Settled (root version : String) (files : FileTree) (p : String × UInt64) : Prop :=
  ∀ line ∈ lineAt? root files p.1 (p.2.toNat - 1),
    SourceLine.updated line version.toList = line

section

variable {root version : String} {files : FileTree} {e : SourceEntry} {path : String}
  {line : UInt64} {p : String × UInt64} {entries : List SourceEntry}

theorem Signed.single (h : Signed root files p) : Single root files p :=
  fun l hl _ => h l hl

theorem settled_iff : Settled root version files p ↔ newText? root version files p.1 p.2 = none := by
  unfold Settled
  rw [← not_iff_not, ← ne_eq, newText?_ne_none_iff]
  simp

/-- Paths to the same file lead to the same lines. -/
theorem lineAt?_of_resolve {other : String}
    (h : files.resolve (Path.join root other) = files.resolve (Path.join root path)) (i : Nat) :
    lineAt? root files other i = lineAt? root files path i := by
  unfold lineAt? FileTree.readText
  rw [h]

/-- **A line** is left alone when a source is rewritten, or it is rewritten itself, whatever the paths
to its file. -/
theorem lineAt?_revised_cases (hversion : '\n' ∉ version.toList)
    (hline : line.toNat = line.toNat - 1 + 1) (hsingle : Single root files (path, line))
    (other : String) (i : Nat) :
    lineAt? root (revised root version files path line) other i = lineAt? root files other i ∨
      lineAt? root (revised root version files path line) other i =
        (lineAt? root files other i).map (SourceLine.updated · version.toList) := by
  by_cases hapart : Apart root files path other
  · rw [lineAt?_revised hversion hline hsingle hapart]
    split
    · exact .inr rfl
    · exact .inl rfl
  · -- the other path leads to the same file, before and after
    unfold Apart at hapart
    push Not at hapart
    obtain ⟨loc, hpath, hother, -⟩ := hapart
    have hshape := sameShape_revised root version files path line
    have hnew : (revised root version files path line).resolve (Path.join root other) =
        (revised root version files path line).resolve (Path.join root path) := by
      rw [hshape.resolve_eq, hshape.resolve_eq, hother, hpath]
    rw [lineAt?_of_resolve hnew, lineAt?_of_resolve (hother.trans hpath.symm),
      lineAt?_revised hversion hline hsingle fun _ _ _ => rfl]
    split
    · exact .inr rfl
    · exact .inl rfl

/-- What holds of a line and of all rewritten lines stays true of it. -/
theorem forall_lineAt?_revised {P : List Char → Prop} (hversion : '\n' ∉ version.toList)
    (hline : line.toNat = line.toNat - 1 + 1) (hsingle : Single root files (path, line))
    (hupdated : ∀ l, P l → P (SourceLine.updated l version.toList)) {other : String} {i : Nat}
    (h : ∀ l ∈ lineAt? root files other i, P l) :
    ∀ l ∈ lineAt? root (revised root version files path line) other i, P l := by
  intro l hl
  rcases lineAt?_revised_cases hversion hline hsingle other i with hsame | hmap
  · exact h l (hsame ▸ hl)
  · rw [hmap] at hl
    obtain ⟨old, hold, rfl⟩ := Option.map_eq_some_iff.mp hl
    exact hupdated old (h old hold)

/-- A rewritten line has a sign, so that it can be rewritten again. -/
theorem Single.revised (hversion : '\n' ∉ version.toList)
    (hline : line.toNat = line.toNat - 1 + 1) (hsingle : Single root files (path, line))
    (hp : Single root files p) : Single root (revised root version files path line) p :=
  forall_lineAt?_revised hversion hline hsingle
    (fun l _ _ => SourceLine.sign_mem_updated l version.toList) hp

/-- **What holds of all rewritten lines** holds of the lines that the sources point to once all of them
are rewritten. -/
theorem forall_lineAt?_rewritten {P : List Char → Prop} (hversion : '\n' ∉ version.toList)
    (hupdated : ∀ l, P (SourceLine.updated l version.toList))
    (hsingle : ∀ p ∈ pointers entries, Single root files p)
    (h : p ∈ pointers entries ∨ ∀ l ∈ lineAt? root files p.1 (p.2.toNat - 1), P l) :
    ∀ l ∈ lineAt? root (rewritten root version files entries) p.1 (p.2.toNat - 1), P l := by
  induction entries generalizing files with
  | nil => exact h.resolve_left List.not_mem_nil
  | cons e rest ih =>
    cases hpointer : e.filePointer? with
    | none =>
      rw [pointers_cons_of_none hpointer] at hsingle h
      rw [rewritten_cons_of_none hpointer]
      exact ih hsingle h
    | some pointer =>
      obtain ⟨path, line⟩ := pointer
      rw [pointers_cons_of_some hpointer] at hsingle h
      rw [rewritten_cons_of_some hpointer]
      have hline := toNat_of_filePointer? hpointer
      have hfirst := hsingle _ List.mem_cons_self
      refine ih (fun q hq => hfirst.revised hversion hline (hsingle q (List.mem_cons_of_mem _ hq))) ?_
      rcases h with h | h
      · rcases List.mem_cons.mp h with rfl | h
        · -- this is the turn of the line
          refine .inr fun l hl => ?_
          rw [lineAt?_revised hversion hline hfirst fun _ _ _ => rfl, if_pos ⟨rfl, hline⟩] at hl
          obtain ⟨old, -, rfl⟩ := Option.map_eq_some_iff.mp hl
          exact hupdated old
        · exact .inl h
      · exact .inr (forall_lineAt?_revised hversion hline hfirst (fun l _ => hupdated l) h)

/-- **Sources** are settled once all of them are rewritten, and stay so. -/
theorem settled_rewritten (hversion : '\n' ∉ version.toList) (hequals : '=' ∉ version.toList)
    (hblank : version.toList.head? ≠ some ' ')
    (hsigned : ∀ p ∈ pointers entries, Signed root files p)
    (h : p ∈ pointers entries ∨ Settled root version files p) :
    Settled root version (rewritten root version files entries) p :=
  forall_lineAt?_rewritten hversion (SourceLine.updated_updated hequals hblank)
    (fun q hq => (hsigned q hq).single) h

end

/-! ## Updating settled sources -/

/-- What is remarked of sources whose lines are right. -/
def corrects (entries : List SourceEntry) : List Diagnostic :=
  (entries.filter (·.filePointer?.isSome)).map (.alreadyCorrect ·.source)

section

variable {σ : Type} {root version source path : String} {line : UInt64} {commit : Bool}
  {w w' : Workspace σ} {done : SourceUpdate} {entries : List SourceEntry}

theorem updateLine_settled {text : String} (hread : w.readText (Path.join root path) = .ok text)
    (hsettled : Settled root version w.files (path, line)) :
    updateLine root version commit source path line done w =
      .ok { done with diagnostics := done.diagnostics ++ [.alreadyCorrect source] }
        { w with log := w.log ++ [(Diagnostic.alreadyCorrect source).record] } := by
  have hnew := settled_iff.mp hsettled
  rw [newText?_of_readText (Workspace.files_readText hread), Option.map_eq_none_iff] at hnew
  unfold updateLine
  rw [Action.get_bind]
  simp only [hread, hnew]
  rfl

/-- **An update of settled sources** remarks that they are right, and does no more. -/
theorem updateLines_settled
    (hreads : ∀ p ∈ pointers entries, ∃ text, w.readText (Path.join root p.1) = .ok text)
    (hsettled : ∀ p ∈ pointers entries, Settled root version w.files p) :
    updateLines root version commit entries done w =
      .ok { done with diagnostics := done.diagnostics ++ corrects entries }
        { w with log := w.log ++ (corrects entries).map Diagnostic.record } := by
  induction entries generalizing w done with
  | nil =>
    unfold corrects
    rw [List.filter_nil, List.map_nil, List.map_nil, List.append_nil, List.append_nil]
    rfl
  | cons e rest ih =>
    rw [updateLines]
    unfold corrects
    cases hpointer : e.filePointer? with
    | none =>
      rw [pointers_cons_of_none hpointer] at hreads hsettled
      rw [List.filter_cons_of_neg (by rw [hpointer]; exact Bool.false_ne_true)]
      exact ih hreads hsettled
    | some pointer =>
      obtain ⟨path, line⟩ := pointer
      rw [pointers_cons_of_some hpointer] at hreads hsettled
      rw [List.filter_cons_of_pos (by rw [hpointer]; rfl)]
      obtain ⟨text, hread⟩ := hreads _ List.mem_cons_self
      simp only
      rw [Action.bind_apply, updateLine_settled hread (hsettled _ List.mem_cons_self)]
      -- the rest is seen in the same files
      have hrest := @ih { w with log := w.log ++ [(Diagnostic.alreadyCorrect e.source).record] }
        { done with diagnostics := done.diagnostics ++ [.alreadyCorrect e.source] }
        (fun p hp => hreads p (List.mem_cons_of_mem _ hp))
        fun p hp => hsettled p (List.mem_cons_of_mem _ hp)
      simp only [List.append_assoc] at hrest
      exact hrest

end

/-! ## An update after another one -/

section

variable {σ : Type} [VersionControl σ] {root version : String} {commitAll : Bool}
  {d : Definition} {w w' : Workspace σ} {update : SourceUpdate}

/-- **What a successful update has read** can be read again. -/
theorem exists_readText_of_updateSources (hsteady : w.SteadyReads)
    (hrun : Action.updateSources root version true commitAll d w = .ok update w') :
    ∀ p ∈ pointers d.sources, ∃ text, w'.readText (Path.join root p.1) = .ok text := by
  obtain ⟨-, -, w₁, hsources, hfiles, hfaults, -⟩ := exists_attempts_of_updateSources hrun
  obtain ⟨-, hrewritten, -, hfaults₁⟩ := attemptAll_attempts hsources
  have hunreadable := @failure?_attempts σ root version w.unlogged d.sources _ bareHost "" hsteady
    (Workspace.grants_of_attemptAll_eq_ok hsources)
  have hsucceeds : Workspace.failure? (w.unlogged.attemptAll bareHost ""
      (attempts root version w.unlogged.files d.sources)) = none :=
    congrArg Workspace.failure? hsources
  rw [hsucceeds] at hunreadable
  intro p hp
  have hread := List.findSome?_eq_none_iff.mp hunreadable.symm p hp
  -- what could be read before the sources were rewritten can be read after
  have hmap : (w'.readText (Path.join root p.1)).map (fun _ => ()) =
      (w.unlogged.readText (Path.join root p.1)).map fun _ => () := by
    refine Workspace.readText_map_congr hsteady (hfaults.trans hfaults₁) ?_
    rw [hfiles, hrewritten]
    exact readText_rewritten_map d.sources _
  obtain ⟨text, -, hnew, -⟩ | ⟨error, -, hold⟩ := cases_of_map_eq hmap
  · exact ⟨text, hnew⟩
  · rw [hold] at hread
    exact absurd hread nofun

/-- **An update after another one** with the same version changes no file and commits nothing. It
remarks of each source in turn that its line is right. -/
theorem updateSources_again (hsigned : ∀ p ∈ pointers d.sources, Signed root w.files p)
    (hversion : '\n' ∉ version.toList) (hequals : '=' ∉ version.toList)
    (hblank : version.toList.head? ≠ some ' ') (hsteady : w.SteadyReads)
    (hrun : Action.updateSources root version true commitAll d w = .ok update w')
    (commit commitAll' : Bool) :
    Action.updateSources root version commit commitAll' d w' =
      .ok ⟨[], corrects d.sources⟩
        { w' with log := w'.log ++ (corrects d.sources).map Diagnostic.record } := by
  -- the sources are settled in the files that the first update leaves, and can be read again
  obtain ⟨-, -, w₁, -, -, -, hscm⟩ := exists_attempts_of_updateSources hrun
  obtain ⟨-, hfiles, -, -⟩ := of_updateSources_eq_ok hrun
  have hsettled : ∀ p ∈ pointers d.sources, Settled root version w'.files p := by
    intro p hp
    rw [hfiles]
    exact settled_rewritten hversion hequals hblank hsigned (.inl hp)
  obtain ⟨k, hk⟩ := Option.isSome_iff_exists.mp hscm
  have hscm' : Action.scm w' = .ok k w' := by
    unfold Action.scm
    rw [Action.get_bind, hk]
    rfl
  unfold Action.updateSources
  rw [Action.bind_apply, hscm']
  simp only
  rw [Action.bind_apply,
    updateLines_settled (exists_readText_of_updateSources hsteady hrun) hsettled]
  rfl

end

/-! ### Two ways to one line -/

namespace Repeated

/-- A file with a sign in its first line, and one without a line end. -/
def files : FileTree :=
  ⟨[(["setup.py"], .file "version = '1.2.3'\nname = demo\n".toUTF8 0o644),
    (["app.yaml"], .file "version: 1.2.3".toUTF8 0o644)]⟩

/-- Two sources point to the same line by different paths, and one behind the end of a file. -/
def definition : Definition where
  key := "version"
  value := "1.2.3"
  source := "setup.py:1"
  sources :=
    [⟨"setup.py:1", "1.2.3"⟩, ⟨"./setup.py:1", "1.2.3"⟩, ⟨"git", "1.2.3"⟩, ⟨"app.yaml:1", "1.2.3"⟩,
      ⟨"app.yaml:7", "1.2.3"⟩]

def workspace : Workspace Recorder := recorded files

end Repeated

open Repeated in
/-- The second update remarks of all sources that they are right. -/
theorem updateSources_again_repeated :
    ∃ update w, Action.updateSources "" "1.3.0" true false definition workspace = .ok update w ∧
      update.modified = ["setup.py", "app.yaml"] ∧
      ∃ w', Action.updateSources "" "1.3.0" true false definition w =
          .ok ⟨[], [.alreadyCorrect "setup.py:1", .alreadyCorrect "./setup.py:1",
            .alreadyCorrect "app.yaml:1", .alreadyCorrect "app.yaml:7"]⟩ w' ∧
        w'.files = w.files ∧ w'.journal = w.journal := by
  obtain ⟨update, w, hrun, htest⟩ := Action.exists_of_succeedsWith
    (by decide +kernel :
      (Action.updateSources "" "1.3.0" true false definition).succeedsWith
        (fun update _ => update.modified == ["setup.py", "app.yaml"]) workspace = true)
  have hagain := updateSources_again (by decide +kernel : ∀ p ∈ pointers definition.sources,
      Signed "" workspace.files p) (by decide) (by decide +kernel) (by decide) (fun _ _ => rfl) hrun
    true false
  have hcorrects : corrects definition.sources = [.alreadyCorrect "setup.py:1",
      .alreadyCorrect "./setup.py:1", .alreadyCorrect "app.yaml:1", .alreadyCorrect "app.yaml:7"] := by
    decide
  rw [hcorrects] at hagain
  exact ⟨update, w, hrun, eq_of_beq htest, _, hagain, rfl, rfl⟩

end Sources

end TagVersion
