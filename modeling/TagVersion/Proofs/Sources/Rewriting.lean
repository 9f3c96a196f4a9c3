import TagVersion.Proofs.Sources.Lines
import TagVersion.Scm.Recorder

/-!
# Only the declared lines change

Sources that point to different lines of files can be rewritten in any order: each of them changes
its own line and finds it as it was before the others.

* **`Rewritable`**: what this takes of the sources and of the files.
* **`lineAt?_revised`**: what one source does to the lines of all files.
* **`lineAt?_rewritten`**: what all sources do.
* **`exists_mem_changes_iff`**: which files are listed as modified.
* **`updateSources_lines`**: updating the sources changes the lines that they point to, and commits
  the files that have changed.
-/

namespace TagVersion

namespace Sources

/-- A line of a file, counted from zero. -/
def lineAt? (root : String) (files : FileTree) (path : String) (i : Nat) : Option (List Char) := do
  let text ← (files.readText (Path.join root path)).toOption
  (Text.lines text.toList)[i]?

/-- Some source points to a line, counted from zero. -/
def Pointed (entries : List SourceEntry) (path : String) (i : Nat) : Prop :=
  ∃ p ∈ pointers entries, p.1 = path ∧ p.2.toNat = i + 1

instance (entries : List SourceEntry) (path : String) (i : Nat) :
    Decidable (Pointed entries path i) :=
  inferInstanceAs (Decidable (∃ p ∈ pointers entries, _))

/-- Sources that point to different lines, by paths that lead to different files where they differ,
and lines that have a sign to put a value after. -/
structure Rewritable (root : String) (files : FileTree) (entries : List SourceEntry) : Prop where
  distinct : (pointers entries).Nodup
  apart : NamedApart root files entries
  signed : ∀ p ∈ pointers entries, ∀ line ∈ lineAt? root files p.1 (p.2.toNat - 1),
    '=' ∈ line ∨ ':' ∈ line

section

variable {root version : String} {files : FileTree} {e : SourceEntry} {path other : String}
  {line : UInt64} {entries rest : List SourceEntry} {i : Nat}

theorem lineAt?_of_readText {text : String}
    (h : files.readText (Path.join root path) = .ok text) (i : Nat) :
    lineAt? root files path i = (Text.lines text.toList)[i]? := by
  unfold lineAt?
  rw [h]
  rfl

theorem lineAt?_of_unreadable {error : SystemError}
    (h : files.readText (Path.join root path) = .error error) (i : Nat) :
    lineAt? root files path i = none := by
  unfold lineAt?
  rw [h]
  rfl

/-- Lines are counted from one. -/
theorem toNat_of_filePointer? (h : e.filePointer? = some (path, line)) :
    line.toNat = line.toNat - 1 + 1 := by
  have hne : line.toNat ≠ 0 := by
    unfold SourceEntry.filePointer? at h
    obtain ⟨⟨before, after⟩, -, h⟩ := Option.bind_eq_some_iff.mp h
    obtain ⟨number, -, h⟩ := Option.bind_eq_some_iff.mp h
    split at h
    · exact absurd h (by simp)
    · next hnot =>
      obtain ⟨-, rfl⟩ := Prod.mk.inj (Option.some.inj h)
      exact fun hzero => hnot (.inr (UInt64.toNat_inj.mp hzero))
  omega

theorem toNat_of_mem_pointers {p : String × UInt64} (h : p ∈ pointers entries) :
    p.2.toNat = p.2.toNat - 1 + 1 := by
  obtain ⟨e, -, he⟩ := List.mem_filterMap.mp h
  exact toNat_of_filePointer? he

theorem pointed_cons_of_some (h : e.filePointer? = some (path, line)) (rest : List SourceEntry)
    (other : String) (i : Nat) :
    Pointed (e :: rest) other i ↔ (path = other ∧ line.toNat = i + 1) ∨ Pointed rest other i := by
  unfold Pointed
  rw [pointers_cons_of_some h]
  simp

theorem pointed_cons_of_none (h : e.filePointer? = none) (rest : List SourceEntry)
    (other : String) (i : Nat) : Pointed (e :: rest) other i ↔ Pointed rest other i := by
  unfold Pointed
  rw [pointers_cons_of_none h]

/-! ## One source -/

/-- **What one source does** to the lines of all files. -/
theorem lineAt?_revised (hversion : '\n' ∉ version.toList)
    (hline : line.toNat = line.toNat - 1 + 1)
    (hsingle : ∀ old ∈ lineAt? root files path (line.toNat - 1), SourceLine.StaysSingle old)
    (hapart : Apart root files path other) (i : Nat) :
    lineAt? root (revised root version files path line) other i =
      if path = other ∧ line.toNat = i + 1 then
        (lineAt? root files other i).map (SourceLine.updated · version.toList)
      else lineAt? root files other i := by
  by_cases hother : path = other
  · subst hother
    cases hread : files.readText (Path.join root path) with
    | error error =>
      have hmap := @readText_revised_map root version files path line (Path.join root path)
      obtain ⟨_, text, -, htext⟩ | ⟨error', hread', -⟩ := cases_of_map_eq hmap
      · exact absurd (hread.symm.trans htext) nofun
      · simp [lineAt?_of_unreadable hread, lineAt?_of_unreadable hread']
    | ok text =>
      have hsingle' : ∀ old, (Text.lines text.toList)[line.toNat - 1]? = some old →
          SourceLine.StaysSingle old := by
        intro old hold
        refine hsingle old ?_
        rw [lineAt?_of_readText hread]
        exact hold
      have hlines := lines_rewriteLine hversion hsingle'
      rw [lineAt?_of_readText (readText_revised_self hread line), lineAt?_of_readText hread,
        String.toList_ofList, hlines, List.getElem?_modify]
      by_cases hi : line.toNat = i + 1
      · have hindex : line.toNat - 1 = i := by omega
        simp [hi]
      · have hindex : line.toNat - 1 ≠ i := by omega
        simp [hi, hindex]
  · rw [if_neg fun h => hother h.1]
    unfold lineAt?
    rw [readText_revised_of_ne hapart hother]

/-- **A source** that is rewritten leaves the others what they need. -/
theorem Rewritable.tail (h : Rewritable root files (e :: rest))
    (hversion : '\n' ∉ version.toList) (hpointer : e.filePointer? = some (path, line)) :
    Rewritable root (revised root version files path line) rest ∧
      ∀ p ∈ pointers rest, lineAt? root (revised root version files path line) p.1 (p.2.toNat - 1) =
        lineAt? root files p.1 (p.2.toNat - 1) := by
  obtain ⟨hdistinct, hapart, hsigned⟩ := h
  unfold NamedApart at hapart
  rw [pointers_cons_of_some hpointer] at hdistinct hapart hsigned
  obtain ⟨hnew, hdistinct⟩ := List.nodup_cons.mp hdistinct
  have hline := toNat_of_filePointer? hpointer
  -- the other sources point to lines that this one leaves alone
  have hsame : ∀ p ∈ pointers rest,
      lineAt? root (revised root version files path line) p.1 (p.2.toNat - 1) =
        lineAt? root files p.1 (p.2.toNat - 1) := by
    intro p hp
    rw [lineAt?_revised hversion hline (fun l hl _ => hsigned _ List.mem_cons_self l hl)
      (hapart _ List.mem_cons_self p (List.mem_cons_of_mem _ hp)), if_neg]
    rintro ⟨rfl, hindex⟩
    have hline' := toNat_of_mem_pointers hp
    have hsame : line = p.2 := UInt64.toNat_inj.mp (by omega)
    exact hnew (hsame ▸ hp)
  refine ⟨⟨hdistinct, ?_, ?_⟩, hsame⟩
  · intro p hp q hq
    rw [apart_of_sameShape (sameShape_revised root version files path line)]
    exact hapart p (List.mem_cons_of_mem _ hp) q (List.mem_cons_of_mem _ hq)
  · intro p hp old hold
    rw [hsame p hp] at hold
    exact hsigned p (List.mem_cons_of_mem _ hp) old hold

theorem Rewritable.tail_of_none (h : Rewritable root files (e :: rest))
    (hpointer : e.filePointer? = none) : Rewritable root files rest := by
  obtain ⟨hdistinct, hapart, hsigned⟩ := h
  unfold NamedApart at hapart
  rw [pointers_cons_of_none hpointer] at hdistinct hapart hsigned
  exact ⟨hdistinct, hapart, hsigned⟩

/-- The order of the sources does not matter. -/
theorem Rewritable.perm (h : Rewritable root files entries) {entries' : List SourceEntry}
    (hperm : entries'.Perm entries) : Rewritable root files entries' := by
  have hpointers : (pointers entries').Perm (pointers entries) := hperm.filterMap _
  refine ⟨hpointers.nodup_iff.mpr h.distinct, ?_, ?_⟩
  · intro p hp q hq
    exact h.apart p (hpointers.mem_iff.mp hp) q (hpointers.mem_iff.mp hq)
  · intro p hp
    exact h.signed p (hpointers.mem_iff.mp hp)

/-! ## All sources -/

/-- **What all sources do** to the lines of a file: each of the lines that they point to is
rewritten once. -/
theorem lineAt?_rewritten (h : Rewritable root files entries) (hversion : '\n' ∉ version.toList)
    (hother : ∀ p ∈ pointers entries, Apart root files p.1 other) (i : Nat) :
    lineAt? root (rewritten root version files entries) other i =
      if Pointed entries other i then
        (lineAt? root files other i).map (SourceLine.updated · version.toList)
      else lineAt? root files other i := by
  induction entries generalizing files with
  | nil =>
    have hnone : ¬ Pointed [] other i := fun ⟨_, hp, _⟩ => absurd hp List.not_mem_nil
    rw [if_neg hnone]
    rfl
  | cons e rest ih =>
    cases hpointer : e.filePointer? with
    | none =>
      rw [pointers_cons_of_none hpointer] at hother
      rw [rewritten_cons_of_none hpointer, ih (h.tail_of_none hpointer) hother]
      simp only [pointed_cons_of_none hpointer]
    | some pointer =>
      obtain ⟨path, line⟩ := pointer
      have hshape := sameShape_revised root version files path line
      have hsigned := h.signed
      have hdistinct := h.distinct
      rw [pointers_cons_of_some hpointer] at hother hsigned hdistinct
      have hrest : ∀ p ∈ pointers rest,
          Apart root (revised root version files path line) p.1 other := by
        intro p hp
        rw [apart_of_sameShape hshape]
        exact hother p (List.mem_cons_of_mem _ hp)
      rw [rewritten_cons_of_some hpointer, ih (h.tail hversion hpointer).1 hrest,
        lineAt?_revised hversion (toNat_of_filePointer? hpointer)
          (fun l hl _ => hsigned _ List.mem_cons_self l hl) (hother _ List.mem_cons_self)]
      simp only [pointed_cons_of_some hpointer]
      by_cases hhead : path = other ∧ line.toNat = i + 1
      · -- no other source points to the line of this one
        have hnot : ¬ Pointed rest other i := by
          rintro ⟨p, hp, hpath, hindex⟩
          have hp' : p = (path, line) :=
            Prod.ext (hpath.trans hhead.1.symm)
              (UInt64.toNat_inj.mp (hindex.trans hhead.2.symm))
          exact (List.nodup_cons.mp hdistinct).1 (hp' ▸ hp)
        rw [if_neg hnot, if_pos hhead, if_pos (.inl hhead)]
      · rw [if_neg hhead]
        simp only [hhead, false_or]

theorem newText?_ne_none_iff :
    newText? root version files path line ≠ none ↔
      ∃ old ∈ lineAt? root files path (line.toNat - 1),
        SourceLine.updated old version.toList ≠ old := by
  cases hread : files.readText (Path.join root path) with
  | error error =>
    have hnone : newText? root version files path line = none := by
      unfold newText?
      rw [hread]
      rfl
    simp [hnone, lineAt?_of_unreadable hread]
  | ok text =>
    rw [newText?_of_readText hread, lineAt?_of_readText hread]
    unfold revised?
    cases hold : (Text.lines text.toList)[line.toNat - 1]? with
    | none => simp [hold]
    | some old =>
      simp only [hold]
      by_cases hnew : SourceLine.updated old version.toList = old
      · simp [hnew]
      · simp [hnew]

/-- The sources that change a file are those whose lines are not right before all others. -/
theorem exists_mem_changes_iff (h : Rewritable root files entries)
    (hversion : '\n' ∉ version.toList) :
    (∃ content, (path, content) ∈ changes root version files entries) ↔
      ∃ p ∈ pointers entries, p.1 = path ∧
        ∃ old ∈ lineAt? root files p.1 (p.2.toNat - 1),
          SourceLine.updated old version.toList ≠ old := by
  induction entries generalizing files with
  | nil => simp [changes, pointers]
  | cons e rest ih =>
    cases hpointer : e.filePointer? with
    | none =>
      rw [changes_cons_of_none (change?_of_filePointer?_eq_none hpointer),
        pointers_cons_of_none hpointer]
      exact ih (h.tail_of_none hpointer)
    | some pointer =>
      obtain ⟨path', line⟩ := pointer
      obtain ⟨htail, hsame⟩ := h.tail hversion hpointer
      have hhead : (∃ content, (path, content) ∈ (newText? root version files path' line).elim []
            fun content => [(path', content)]) ↔
          path' = path ∧ newText? root version files path' line ≠ none := by
        cases newText? root version files path' line with
        | none => simp
        | some content => simp [eq_comm]
      rw [changes_cons_of_filePointer? hpointer, pointers_cons_of_some hpointer]
      simp only [List.mem_append, exists_or, hhead, ih htail, List.exists_mem_cons_iff,
        newText?_ne_none_iff]
      -- the lines that the rest points to are still the old ones
      refine or_congr_right (exists_congr fun p => and_congr_right fun hp => ?_)
      rw [hsame p hp]

/-- A changed line is one that some source points to and that is not yet right. -/
theorem exists_pointed_iff :
    (∃ i, Pointed entries path i ∧ ∃ old ∈ lineAt? root files path i,
        SourceLine.updated old version.toList ≠ old) ↔
      ∃ p ∈ pointers entries, p.1 = path ∧ ∃ old ∈ lineAt? root files p.1 (p.2.toNat - 1),
        SourceLine.updated old version.toList ≠ old := by
  constructor
  · rintro ⟨i, ⟨p, hp, rfl, hindex⟩, hold⟩
    refine ⟨p, hp, rfl, ?_⟩
    rw [hindex, Nat.add_sub_cancel]
    exact hold
  · rintro ⟨p, hp, rfl, hold⟩
    exact ⟨_, ⟨p, hp, rfl, toNat_of_mem_pointers hp⟩, hold⟩

theorem exists_pointer_of_mem_changes {change : String × String}
    (h : change ∈ changes root version files entries) :
    ∃ p ∈ pointers entries, p.1 = change.1 := by
  induction entries generalizing files with
  | nil => exact absurd h List.not_mem_nil
  | cons e rest ih =>
    cases hpointer : e.filePointer? with
    | none =>
      rw [changes_cons_of_none (change?_of_filePointer?_eq_none hpointer)] at h
      rw [pointers_cons_of_none hpointer]
      exact ih h
    | some pointer =>
      obtain ⟨path, line⟩ := pointer
      rw [changes_cons_of_filePointer? hpointer] at h
      rw [pointers_cons_of_some hpointer]
      rcases List.mem_append.mp h with hhead | hrest
      · refine ⟨(path, line), List.mem_cons_self, ?_⟩
        cases hnew : newText? root version files path line with
        | none =>
          rw [hnew] at hhead
          exact absurd hhead List.not_mem_nil
        | some content =>
          rw [hnew] at hhead
          rw [List.mem_singleton.mp hhead]
      · obtain ⟨p, hp, hpath⟩ := ih hrest
        exact ⟨p, List.mem_cons_of_mem _ hp, hpath⟩

end

/-! ## Which files are modified -/

theorem mem_addModified {modified : List String} {path other : String} :
    other ∈ addModified modified path ↔ other ∈ modified ∨ other = path := by
  unfold addModified
  by_cases hmem : path ∈ modified
  · rw [if_pos (List.contains_iff_mem.mpr hmem)]
    exact ⟨.inl, fun h => h.elim id fun heq => heq ▸ hmem⟩
  · rw [if_neg (mt List.contains_iff_mem.mp hmem), List.mem_append, List.mem_singleton]

theorem nodup_addModified {modified : List String} (h : modified.Nodup) (path : String) :
    (addModified modified path).Nodup := by
  unfold addModified
  by_cases hmem : path ∈ modified
  · rw [if_pos (List.contains_iff_mem.mpr hmem)]
    exact h
  · rw [if_neg (mt List.contains_iff_mem.mp hmem)]
    exact List.nodup_append.mpr ⟨h, List.nodup_singleton path, by grind⟩

theorem mem_modified_iff {changes : List (String × String)} {path : String} :
    path ∈ modified changes ↔ ∃ content, (path, content) ∈ changes := by
  -- the list grows from any list, which the induction needs
  have hfold : ∀ done : List String,
      path ∈ changes.foldl (fun modified change => addModified modified change.1) done ↔
        path ∈ done ∨ ∃ content, (path, content) ∈ changes := by
    induction changes with
    | nil => simp
    | cons change rest ih =>
      intro done
      rw [List.foldl_cons, ih, mem_addModified, or_assoc]
      refine or_congr_right ?_
      constructor
      · rintro (rfl | ⟨content, hmem⟩)
        · exact ⟨change.2, List.mem_cons_self⟩
        · exact ⟨content, List.mem_cons_of_mem _ hmem⟩
      · rintro ⟨content, hmem⟩
        rcases List.mem_cons.mp hmem with heq | hmem
        · exact .inl (congrArg Prod.fst heq)
        · exact .inr ⟨content, hmem⟩
  unfold modified
  rw [hfold]
  simp

theorem nodup_modified (changes : List (String × String)) : (modified changes).Nodup := by
  unfold modified
  have hfold : ∀ done : List String, done.Nodup →
      (changes.foldl (fun modified change => addModified modified change.1) done).Nodup := by
    induction changes with
    | nil => exact fun _ h => h
    | cons change rest ih => exact fun done h => ih _ (nodup_addModified h change.1)
  exact hfold [] List.nodup_nil

/-! ## Updating the sources -/

section

variable {root version : String} {files : FileTree} {path : String} {entries : List SourceEntry}

/-- **A file** that some source points into keeps its place, its permissions and the number of its
lines. -/
theorem node?_rewritten_of_mem (h : Rewritable root files entries)
    (hversion : '\n' ∉ version.toList) {p : String × UInt64} (hp : p ∈ pointers entries)
    {text : String} (hread : files.readText (Path.join root p.1) = .ok text) :
    ∃ loc mode, files.resolve (Path.join root p.1) = .ok loc ∧
      files.node? loc = some (.file text.toUTF8 mode) ∧
      ∃ text' : String,
        (rewritten root version files entries).node? loc = some (.file text'.toUTF8 mode) ∧
        Text.lines text'.toList = (Text.lines text.toList).mapIdx fun i line =>
          if Pointed entries p.1 i then SourceLine.updated line version.toList else line := by
  have hshape := sameShape_rewritten root version files entries
  obtain ⟨loc, mode, hresolve, hnode⟩ := FileTree.readText_eq_ok_iff.mp hread
  -- it can still be read
  have hmap := @readText_rewritten_map root version files entries (Path.join root p.1)
  obtain ⟨text', hread'⟩ : ∃ text',
      (rewritten root version files entries).readText (Path.join root p.1) = .ok text' := by
    obtain ⟨text', _, hread', -⟩ | ⟨e, -, herror⟩ := cases_of_map_eq hmap
    · exact ⟨text', hread'⟩
    · exact absurd (hread.symm.trans herror) nofun
  obtain ⟨loc', mode', hresolve', hnode'⟩ := FileTree.readText_eq_ok_iff.mp hread'
  rw [hshape.resolve_eq, hresolve] at hresolve'
  obtain rfl := Except.ok.inj hresolve'
  obtain ⟨content, hkept⟩ := hshape.exists_file hnode
  have hmode : mode = mode' := (FileNode.file.inj (Option.some.inj (hkept.symm.trans hnode'))).2
  refine ⟨loc, mode, hresolve, hnode, text', hmode ▸ hnode', ?_⟩
  refine List.ext_getElem? fun i => ?_
  have hline := lineAt?_rewritten h hversion (fun q hq => h.apart q hq p hp) i
  rw [lineAt?_of_readText hread, lineAt?_of_readText hread'] at hline
  rw [hline, List.getElem?_mapIdx]
  by_cases hpointed : Pointed entries p.1 i
  · simp only [if_pos hpointed]
  · simp [if_neg hpointed]

/-- What a path of no source leads to is left alone. -/
theorem node?_rewritten_of_forall_ne {loc : Location}
    (hloc : ∀ p ∈ pointers entries, files.resolve (Path.join root p.1) ≠ .ok loc) :
    (rewritten root version files entries).node? loc = files.node? loc := by
  refine node?_rewritten entries fun c hc => ?_
  obtain ⟨p, hp, hpath⟩ := exists_pointer_of_mem_changes hc
  rw [← hpath]
  exact hloc p hp

/-- **In another order**, the sources leave the same files. -/
theorem node?_rewritten_perm (h : Rewritable root files entries) (hversion : '\n' ∉ version.toList)
    {entries' : List SourceEntry} (hperm : entries'.Perm entries)
    (hreads : ∀ p ∈ pointers entries, ∃ text, files.readText (Path.join root p.1) = .ok text)
    (loc : Location) :
    (rewritten root version files entries').node? loc =
      (rewritten root version files entries).node? loc := by
  have hmem : ∀ p, p ∈ pointers entries' ↔ p ∈ pointers entries :=
    fun p => (hperm.filterMap _).mem_iff
  by_cases hloc : ∃ p ∈ pointers entries, files.resolve (Path.join root p.1) = .ok loc
  · -- both texts have the same lines, and a text is told by its lines
    obtain ⟨p, hp, hresolve⟩ := hloc
    obtain ⟨text, hread⟩ := hreads p hp
    obtain ⟨loc₁, mode₁, hresolve₁, hnode₁, text₁, hnew₁, hlines₁⟩ :=
      node?_rewritten_of_mem h hversion hp hread
    obtain ⟨loc₂, mode₂, hresolve₂, hnode₂, text₂, hnew₂, hlines₂⟩ :=
      node?_rewritten_of_mem (h.perm hperm) hversion ((hmem p).mpr hp) hread
    obtain rfl : loc = loc₁ := Except.ok.inj (hresolve.symm.trans hresolve₁)
    obtain rfl : loc = loc₂ := Except.ok.inj (hresolve.symm.trans hresolve₂)
    rw [hnode₁] at hnode₂
    have hmode : mode₁ = mode₂ := (FileNode.file.inj (Option.some.inj hnode₂)).2
    have hpointed : ∀ i, Pointed entries' p.1 i ↔ Pointed entries p.1 i := by
      intro i
      unfold Pointed
      simp only [hmem]
    simp only [hpointed] at hlines₂
    have htext : text₂.toList = text₁.toList := by
      rw [← Text.flatten_lines text₂.toList, ← Text.flatten_lines text₁.toList, hlines₁, hlines₂]
    rw [hnew₁, hnew₂, String.toList_inj.mp htext, hmode]
  · have hne : ∀ p ∈ pointers entries, files.resolve (Path.join root p.1) ≠ .ok loc :=
      fun p hp hresolve => hloc ⟨p, hp, hresolve⟩
    rw [node?_rewritten_of_forall_ne hne,
      node?_rewritten_of_forall_ne fun p hp => hne p ((hmem p).mp hp)]

variable {σ : Type} [VersionControl σ] {commitAll : Bool} {d : Definition}
  {w w' : Workspace σ} {update : SourceUpdate}

/-- A host without programs. An update runs none, so this one will do. -/
def bareHost : Host where
  environment := []
  start _ files := (files, .error .notFound)

/-- What a successful update has attempted: its sources, and then no more than a commit. -/
theorem exists_attempts_of_updateSources
    (hrun : Action.updateSources root version true commitAll d w = .ok update w') :
    update.modified = modified (changes root version w.files d.sources) ∧
      w'.journal = w.journal ++ (writes root (changes root version w.files d.sources) ++
        Action.commitStep commitAll version (changes root version w.files d.sources)) ∧
      ∃ w₁, w.unlogged.attemptAll bareHost "" (attempts root version w.files d.sources) = .ok () w₁ ∧
        w'.files = w₁.files ∧ w'.faults = w₁.faults ∧ w'.scm.isSome := by
  have hscm : w.scm.isSome := by
    cases hscm : w.scm with
    | some k => rfl
    | none =>
      have herror : Action.updateSources root version true commitAll d w =
          .error (.disabled noScmProblem) w := by
        unfold Action.updateSources Action.scm
        rw [Action.bind_apply, Action.get_bind, hscm]
        rfl
      rw [herror] at hrun
      exact absurd hrun nofun
  have hfollows := @Action.follows_updateSources _ _ bareHost "" w root version commitAll d hscm
  unfold Action.Follows at hfollows
  rw [hrun] at hfollows
  obtain ⟨hall, -, hmodified⟩ := hfollows
  have hentered := @Workspace.entered_attemptAll _ _ bareHost "" w.unlogged
    (attempts root version w.files d.sources ++
      (Action.commitStep commitAll version (changes root version w.files d.sources)).map .step)
  rw [hall, Attempt.steps_append, steps_attempts, Attempt.steps_map_step] at hentered
  refine ⟨hmodified, hentered, ?_⟩
  rw [Workspace.attemptAll_append] at hall
  cases hsources : w.unlogged.attemptAll bareHost "" (attempts root version w.files d.sources) with
  | error e w₁ =>
    rw [hsources] at hall
    exact absurd hall nofun
  | ok _ w₁ =>
    rw [hsources] at hall
    refine ⟨w₁, rfl, ?_⟩
    obtain ⟨-, -, hscm₁, -⟩ := attemptAll_attempts hsources
    -- the commit that may follow touches no file
    unfold Action.commitStep at hall
    by_cases hnil : modified (changes root version w.files d.sources) = []
    · simp only [if_pos hnil] at hall
      have hall : EStateM.Result.ok () w₁ = .ok () w'.unlogged := hall
      injection hall with _ hw
      have hscm' : w₁.scm.isSome := hscm₁ ▸ hscm
      rw [hw] at hscm' ⊢
      exact ⟨rfl, rfl, hscm'⟩
    · simp only [if_neg hnil, List.map_cons, List.map_nil] at hall
      rw [Workspace.attemptAll_singleton] at hall
      obtain ⟨k, -, -, hw⟩ := Workspace.of_request_eq_ok hall
      have hfiles := congrArg Workspace.files hw
      have hfaults := congrArg Workspace.faults hw
      have hscm' := congrArg Workspace.scm hw
      exact ⟨hfiles, hfaults, Option.isSome_of_eq_some hscm'⟩

/-- **A successful update** has read all files that its sources point into, and has rewritten
them. -/
theorem of_updateSources_eq_ok
    (hrun : Action.updateSources root version true commitAll d w = .ok update w') :
    (∀ p ∈ pointers d.sources, ∃ text, w.files.readText (Path.join root p.1) = .ok text) ∧
      w'.files = rewritten root version w.files d.sources ∧
      update.modified = modified (changes root version w.files d.sources) ∧
      w'.journal = w.journal ++ (writes root (changes root version w.files d.sources) ++
        Action.commitStep commitAll version (changes root version w.files d.sources)) := by
  obtain ⟨hmodified, hjournal, w₁, hsources, hfiles, -, -⟩ := exists_attempts_of_updateSources hrun
  obtain ⟨hreads, hrewritten, -, -⟩ := attemptAll_attempts hsources
  exact ⟨hreads, hfiles.trans hrewritten, hmodified, hjournal⟩

/-- **Only the declared lines change.** A successful update of sources that point to different lines
rewrites these lines where they are, and leaves all other lines and all other files as they were.
The files with a line that changed are listed once, and committed together if there are any. In
another order the same sources leave the same files. -/
theorem updateSources_lines (hsources : Rewritable root w.files d.sources)
    (hversion : '\n' ∉ version.toList)
    (hrun : Action.updateSources root version true commitAll d w = .ok update w') :
    (∀ p ∈ pointers d.sources, ∃ loc mode, ∃ text text' : String,
        w.files.resolve (Path.join root p.1) = .ok loc ∧
        w.files.node? loc = some (.file text.toUTF8 mode) ∧
        w'.files.node? loc = some (.file text'.toUTF8 mode) ∧
        Text.lines text'.toList = (Text.lines text.toList).mapIdx fun i line =>
          if Pointed d.sources p.1 i then SourceLine.updated line version.toList else line) ∧
      (∀ loc, (∀ p ∈ pointers d.sources, w.files.resolve (Path.join root p.1) ≠ .ok loc) →
        w'.files.node? loc = w.files.node? loc) ∧
      update.modified.Nodup ∧
      (∀ path, path ∈ update.modified ↔
        ∃ i, Pointed d.sources path i ∧ ∃ line ∈ lineAt? root w.files path i,
          SourceLine.updated line version.toList ≠ line) ∧
      (∃ changes, w'.journal = w.journal ++ writes root changes ++
        if update.modified = [] then []
        else [.commitFiles true (if commitAll then ["."] else update.modified) version]) ∧
      ∀ (d' : Definition) (update' : SourceUpdate) (w'' : Workspace σ),
        d'.sources.Perm d.sources →
          Action.updateSources root version true commitAll d' w = .ok update' w'' →
            ∀ loc, w''.files.node? loc = w'.files.node? loc := by
  obtain ⟨hreads, hfiles, hmodified, hjournal⟩ := of_updateSources_eq_ok hrun
  refine ⟨?_, ?_, ?_, ?_, ?_, ?_⟩
  · intro p hp
    obtain ⟨text, hread⟩ := hreads p hp
    obtain ⟨loc, mode, hresolve, hnode, text', hnode', hlines⟩ :=
      node?_rewritten_of_mem hsources hversion hp hread
    exact ⟨loc, mode, text, text', hresolve, hnode, hfiles ▸ hnode', hlines⟩
  · intro loc hloc
    rw [hfiles]
    exact node?_rewritten_of_forall_ne hloc
  · rw [hmodified]
    exact nodup_modified _
  · intro path
    rw [hmodified, mem_modified_iff, exists_mem_changes_iff hsources hversion, exists_pointed_iff]
  · refine ⟨changes root version w.files d.sources, ?_⟩
    rw [hjournal, hmodified, List.append_assoc]
    rfl
  · intro d' update' w'' hperm hrun' loc
    obtain ⟨-, hfiles', -, -⟩ := of_updateSources_eq_ok hrun'
    rw [hfiles, hfiles']
    exact node?_rewritten_perm hsources hversion hperm hreads loc

end

/-- A workspace of some files, with source control that grants everything. -/
def recorded (files : FileTree) : Workspace Recorder where
  files
  scm := some
    { facts := .ofTriplet ⟨1, 2, 3⟩
      branch := "master"
      refuses := []
      tags := []
      commits := [] }
  log := []
  journal := []

/-! ### Pointers that take turns -/

namespace Turns

/-- A file whose line ends differ and whose last line has none, and two files of one line. -/
def files : FileTree :=
  ⟨[(["setup.py"], .file "version = '1.2.3'\r\nname = demo\nrelease: 1.2.3".toUTF8 0o755),
    (["app.yaml"], .file "version: 1.3.0\n".toUTF8 0o644),
    (["notes"], .file "version: 1.2.3\n".toUTF8 0o644)]⟩

/-- The last line of the file comes first, and the first one last. -/
def definition : Definition where
  key := "version"
  value := "1.2.3"
  source := "setup.py:3"
  sources :=
    [⟨"setup.py:3", "1.2.3"⟩, ⟨"git", "1.2.3"⟩, ⟨"app.yaml:1", "1.3.0"⟩, ⟨"setup.py:1", "1.2.3"⟩]

def workspace : Workspace Recorder where
  files
  scm := some
    { facts := .ofTriplet ⟨1, 2, 3⟩
      branch := "master"
      refuses := []
      tags := []
      commits := [] }
  log := []
  journal := []

end Turns

open Turns in
/-- The line that comes first in the file is rewritten last, and finds its file as it was cut. -/
theorem updateSources_lines_turns :
    Rewritable "" workspace.files definition.sources ∧ '\n' ∉ "1.3.0".toList ∧
      ∃ update w,
        Action.updateSources "" "1.3.0" true false definition workspace = .ok update w ∧
        update.modified.Nodup ∧ "setup.py" ∈ update.modified ∧
        w.files.node? ["notes"] = workspace.files.node? ["notes"] := by
  have hsources : Rewritable "" workspace.files definition.sources :=
    ⟨by decide, by decide +kernel, by decide +kernel⟩
  have hversion : '\n' ∉ "1.3.0".toList := by decide
  obtain ⟨update, w, hrun, -⟩ := Action.exists_of_succeedsWith
    (by decide +kernel :
      (Action.updateSources "" "1.3.0" true false definition).succeedsWith (fun _ _ => true)
        workspace = true)
  obtain ⟨-, hnode, hnodup, hmodified, -⟩ := updateSources_lines hsources hversion hrun
  refine ⟨hsources, hversion, update, w, hrun, hnodup, ?_, ?_⟩
  · exact (hmodified _).mpr ⟨0, by decide, by decide⟩
  · exact hnode _ (by decide +kernel)

end Sources

end TagVersion
