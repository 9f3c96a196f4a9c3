import TagVersion.Proofs.Repository.Staging

/-!
# Staging a whole working tree

The whole tree is staged path by path, in the order of the paths: the files that are staged already and
those that are new. A path without a file is dropped. Each path is dealt with for itself, except that a
list of attributes that is staged on the way may change what is kept of the files after it.

* **`Snapshot.lookup_add`**, **`Snapshot.lookup_erase`**: one change of a snapshot.
* **`stageChange`**: what one path does, and what it leaves of the others.
* **`foldl_stageChange`**: what all of them leave, by induction on the paths.
* **`lookup_stageAll`**: every file that was staged is kept as it is now, or is gone.
* **`storedBlob?_stageAll`**: no change is left, unless one was made to a list of attributes.
-/

namespace TagVersion

namespace Snapshot

variable {s : Snapshot} {path p : String} {blob : Blob}

/-! ## One change of a snapshot -/

/-- Whether a file at one path leaves no room for one at the other. -/
def inTheWay (path p : String) : Bool :=
  (p ++ "/").toList.isPrefixOf path.toList || (path ++ "/").toList.isPrefixOf p.toList

theorem lookup_add (s : Snapshot) (path p : String) (blob : Blob) :
    (s.add path blob).lookup p =
      if p = path then some blob else if inTheWay path p then none else s.lookup p := by
  have hadd : s.add path blob = insert (s.filter fun entry => !inTheWay path entry.1) path blob := rfl
  rw [hadd, lookup_insert, Keyed.lookup_filter fun p => !inTheWay path p]
  cases inTheWay path p <;> rfl

theorem lookup_erase (s : Snapshot) (path p : String) :
    (s.erase path).lookup p = if p = path then none else s.lookup p := by
  unfold erase
  rw [Keyed.lookup_filter (· != path)]
  by_cases hp : p = path
  · simp [hp]
  · simp [hp]

theorem ascending_add (h : s.Ascending) (path : String) (blob : Blob) :
    (s.add path blob).Ascending :=
  ascending_insert (List.Pairwise.filter _ h) path blob

theorem ascending_erase (h : s.Ascending) (path : String) : (s.erase path).Ascending :=
  List.Pairwise.filter _ h

/-- What is read of some paths of a snapshot is told by what is found at these paths. -/
theorem filterMap_congr_of_lookup {α : Type} {f : String × Blob → Option α} {s' : Snapshot}
    (hs : s.Ascending) (hs' : s'.Ascending)
    (h : ∀ p b, (f (p, b)).isSome → s'.lookup p = s.lookup p) : s'.filterMap f = s.filterMap f := by
  have hsome : ∀ s : Snapshot, s.filterMap f = (s.filter fun entry => (f entry).isSome).filterMap f :=
    fun s => by rw [List.filterMap_filter]; congr 1; funext entry; cases f entry <;> rfl
  rw [hsome, hsome s]
  congr 1
  -- two lists in the same order with the same entries are the same
  refine @List.Perm.eq_of_pairwise _ (fun a b : String × Blob => a.1 < b.1) _ _ ?_
    (List.Pairwise.filter _ hs') (List.Pairwise.filter _ hs) ?_
  · intro a b _ _ hab hba
    exact absurd (lt_trans hab hba) (String.lt_irrefl _)
  · have hnodup : ∀ s : Snapshot, s.Ascending → (s.filter fun entry => (f entry).isSome).Nodup :=
      fun s hs => List.Pairwise.imp (fun {a b} hlt (heq : a = b) => String.lt_irrefl b.1 (heq ▸ hlt))
        (List.Pairwise.filter _ hs)
    refine (List.perm_ext_iff_of_nodup (hnodup s' hs') (hnodup s hs)).mpr ?_
    rintro ⟨p, b⟩
    simp only [List.mem_filter]
    refine and_congr_left fun hf => ?_
    rw [mem_iff_lookup hs', mem_iff_lookup hs, h p b hf]

end Snapshot

namespace FileTree

open Snapshot

variable {t : FileTree} {settings : StorageSettings} {workdir : Location}
  {index entries : Snapshot} {path p : String} {paths : List String} {blob : Blob}

/-! ## One path -/

/-- The snapshot once the path of a file is staged, or a path without a file is dropped. -/
def stageChange (t : FileTree) (settings : StorageSettings) (workdir : Location) (index : Snapshot)
    (path : String) : Snapshot :=
  (t.storedBlob? settings workdir index path).elim (index.erase path) (index.add path)

/-- A path is dealt with. -/
theorem lookup_stageChange_self (t : FileTree) (settings : StorageSettings) (workdir : Location)
    (index : Snapshot) (path : String) :
    (t.stageChange settings workdir index path).lookup path =
      t.storedBlob? settings workdir index path := by
  unfold stageChange
  cases t.storedBlob? settings workdir index path with
  | none =>
    show (index.erase path).lookup path = none
    rw [lookup_erase, if_pos rfl]
  | some blob =>
    show (index.add path blob).lookup path = some blob
    rw [lookup_add, if_pos rfl]

/-- In a tree, another file is left as it is staged. -/
theorem lookup_stageChange_of_hasFile (htree : t.IsTree) (hne : p ≠ path)
    (hp : t.HasFile workdir p) :
    (t.stageChange settings workdir index path).lookup p = index.lookup p := by
  unfold stageChange
  cases hblob : t.storedBlob? settings workdir index path with
  | none =>
    show (index.erase path).lookup p = _
    rw [lookup_erase, if_neg hne]
  | some blob =>
    have hpath := storedBlob?_isSome_iff.mp (Option.isSome_of_eq_some hblob)
    show (index.add path blob).lookup p = _
    rw [lookup_add, if_neg hne, if_neg]
    unfold inTheWay
    rw [htree.not_isPrefixOf hp hpath, htree.not_isPrefixOf hpath hp]
    exact Bool.false_ne_true

/-- What is not staged is not staged by another path. -/
theorem lookup_stageChange_eq_none (hne : p ≠ path) (hp : index.lookup p = none) :
    (t.stageChange settings workdir index path).lookup p = none := by
  unfold stageChange
  cases t.storedBlob? settings workdir index path with
  | none =>
    show (index.erase path).lookup p = none
    rw [lookup_erase, if_neg hne, hp]
  | some blob =>
    show (index.add path blob).lookup p = none
    rw [lookup_add, if_neg hne, hp, ite_self]

theorem ascending_stageChange (h : index.Ascending) (path : String) :
    (t.stageChange settings workdir index path).Ascending := by
  unfold stageChange
  cases t.storedBlob? settings workdir index path with
  | none => exact ascending_erase h path
  | some blob => exact ascending_add h path blob

/-! ## All paths -/

/-- Paths that can all be staged are staged one after the other. -/
theorem of_stageChanges (h : t.stageChanges settings workdir index paths = (entries, true)) :
    entries = paths.foldl (t.stageChange settings workdir) index := by
  induction paths generalizing index with
  | nil => exact (Prod.mk.inj h).1.symm
  | cons path rest ih =>
    rw [stageChanges] at h
    split at h
    · exact absurd (Prod.mk.inj h).2 nofun
    · rw [List.foldl_cons]
      unfold stageChange
      split at h
      · next blob hblob =>
        rw [hblob]
        exact ih h
      · next hnone =>
        rw [hnone]
        exact ih h

/-- **What all paths leave**: of each file among them something that is kept of it, of the other files
what was staged, and nothing at a path without a file. -/
theorem foldl_stageChange (htree : t.IsTree) (hascending : index.Ascending) (paths : List String) :
    (paths.foldl (t.stageChange settings workdir) index).Ascending ∧
      (∀ p ∉ paths, t.HasFile workdir p →
        (paths.foldl (t.stageChange settings workdir) index).lookup p = index.lookup p) ∧
      (∀ p ∈ paths, t.HasFile workdir p → ∃ staged,
        (paths.foldl (t.stageChange settings workdir) index).lookup p =
          t.storedBlob? settings workdir staged p) ∧
      ∀ p, ¬ t.HasFile workdir p → (p ∈ paths ∨ index.lookup p = none) →
        (paths.foldl (t.stageChange settings workdir) index).lookup p = none := by
  induction paths generalizing index with
  | nil => exact ⟨hascending, fun _ _ _ => rfl, nofun, fun _ _ h => h.resolve_left List.not_mem_nil⟩
  | cons path rest ih =>
    rw [List.foldl_cons]
    obtain ⟨hascending', hother, hstaged, hgone⟩ := ih (ascending_stageChange hascending path)
    refine ⟨hascending', ?_, ?_, ?_⟩
    · intro p hp hfile
      obtain ⟨hne, hp⟩ := List.ne_and_not_mem_of_not_mem_cons hp
      rw [hother p hp hfile, lookup_stageChange_of_hasFile htree hne hfile]
    · intro p hp hfile
      by_cases hmem : p ∈ rest
      · exact hstaged p hmem hfile
      · obtain rfl := (List.mem_cons.mp hp).resolve_right hmem
        exact ⟨index, (hother p hmem hfile).trans (lookup_stageChange_self t settings workdir index p)⟩
    · intro p hfile hp
      by_cases hne : p = path
      · -- once it is dropped it stays away
        subst hne
        refine hgone p hfile (.inr ?_)
        rw [lookup_stageChange_self, storedBlob?_eq_none_iff.mpr hfile]
      · refine hgone p hfile ?_
        rcases hp with hp | hp
        · exact .inl ((List.mem_cons.mp hp).resolve_left hne)
        · exact .inr (lookup_stageChange_eq_none hne hp)

/-! ### Lists of attributes -/

/-- The lists of attributes are told by what is staged under their paths. -/
theorem attributeLists_congr (hindex : index.Ascending) (hentries : entries.Ascending)
    (h : ∀ p, Path.IsAttributeList p → entries.lookup p = index.lookup p) :
    t.attributeLists workdir entries = t.attributeLists workdir index := by
  unfold attributeLists
  simp only
  rw [filterMap_congr_of_lookup hindex hentries]
  intro p b hsome
  refine h p ?_
  unfold Path.IsAttributeList
  by_contra hlast
  simp [hlast] at hsome

/-- **Lists without a change** stay what they are while the paths are staged, and what is kept of a file
is the same before and after. -/
theorem foldl_stageChange_of_lists (htree : t.IsTree) (hascending : index.Ascending)
    (htracked : ∀ p, Path.IsAttributeList p → ¬ t.HasFile workdir p → index.lookup p = none)
    (hlists : ∀ p ∈ paths, Path.IsAttributeList p →
      t.storedBlob? settings workdir index p = index.lookup p) :
    (∀ p, Path.IsAttributeList p →
      (paths.foldl (t.stageChange settings workdir) index).lookup p = index.lookup p) ∧
    ∀ p ∈ paths, ∀ blob, (paths.foldl (t.stageChange settings workdir) index).lookup p = some blob →
      t.storedBlob? settings workdir (paths.foldl (t.stageChange settings workdir) index) p =
        some blob := by
  induction paths generalizing index with
  | nil => exact ⟨fun _ _ => rfl, nofun⟩
  | cons path rest ih =>
    rw [List.foldl_cons]
    have hascending' := @ascending_stageChange t settings workdir index hascending path
    -- one path leaves what is staged of all lists
    have hsame : ∀ p, Path.IsAttributeList p →
        (t.stageChange settings workdir index path).lookup p = index.lookup p := by
      intro p hp
      by_cases hne : p = path
      · subst hne
        rw [lookup_stageChange_self]
        exact hlists p List.mem_cons_self hp
      · by_cases hfile : t.HasFile workdir p
        · exact lookup_stageChange_of_hasFile htree hne hfile
        · rw [htracked p hp hfile]
          exact lookup_stageChange_eq_none hne (htracked p hp hfile)
    have hread := @attributeLists_congr t workdir index _ hascending hascending' hsame
    obtain ⟨hrest, hkept⟩ := ih hascending'
      (fun p hp hfile => (hsame p hp).trans (htracked p hp hfile)) (fun p hp hlist => by
        rw [hsame p hlist, ← hlists p (List.mem_cons_of_mem _ hp) hlist]
        exact storedBlob?_congr hread rfl (hsame p hlist))
    refine ⟨fun p hp => (hrest p hp).trans (hsame p hp), ?_⟩
    intro p hp blob hblob
    by_cases hmem : p ∈ rest
    · exact hkept p hmem blob hblob
    · -- the path was staged first, with the lists that are read in the end
      obtain rfl := (List.mem_cons.mp hp).resolve_right hmem
      obtain ⟨hascending'', hother, -, hgone⟩ :=
        foldl_stageChange htree hascending' rest
      have hfile : t.HasFile workdir p := by
        by_contra hfile
        have hnone : (t.stageChange settings workdir index p).lookup p = none := by
          rw [lookup_stageChange_self, storedBlob?_eq_none_iff.mpr hfile]
        rw [hgone p hfile (.inr hnone)] at hblob
        exact absurd hblob nofun
      have hstaged : t.storedBlob? settings workdir index p = some blob := by
        rw [← lookup_stageChange_self t settings workdir index p, ← hother p hmem hfile]
        exact hblob
      exact storedBlob?_staged
        (attributeLists_congr hascending hascending'' fun q hq => (hrest q hq).trans (hsame q hq))
        hstaged hblob

/-! ## The whole tree -/

theorem mem_changedPaths_of_lookup (h : index.lookup p = some blob) :
    p ∈ t.changedPaths workdir index := by
  obtain ⟨_, _, hindex, -⟩ := List.lookup_eq_some_iff.mp h
  unfold changedPaths
  simp only
  rw [List.mem_mergeSort, List.mem_append]
  refine .inr (List.mem_map.mpr ⟨(p, blob), ?_, rfl⟩)
  rw [hindex]
  simp

/-- Where no file is new, the paths are those that are staged. -/
theorem changedPaths_of_tracked (hascending : index.Ascending)
    (h : ∀ entry ∈ t.snapshot workdir, (index.lookup entry.1).isSome) :
    t.changedPaths workdir index = index.map (·.1) := by
  unfold changedPaths
  simp only
  rw [List.filterMap_eq_nil_iff.mpr fun entry hentry => if_pos (h entry hentry), List.nil_append]
  refine List.mergeSort_of_pairwise ?_
  rw [List.pairwise_map]
  exact hascending.imp fun hlt => decide_eq_true (le_of_lt hlt)

/-- **Every file that is staged already** is kept as it is now, and one that is gone is kept no longer. What
is new is kept as it is now, or left out as before. -/
theorem lookup_stageAll (htree : t.IsTree) (hascending : index.Ascending)
    (h : t.stageAll settings workdir index = (entries, true)) :
    entries.Ascending ∧
      (∀ p, ¬ t.HasFile workdir p → entries.lookup p = none) ∧
      ∀ p, t.HasFile workdir p → ((index.lookup p).isSome ∨ (entries.lookup p).isSome) →
        ∃ staged, entries.lookup p = t.storedBlob? settings workdir staged p := by
  obtain rfl := of_stageChanges h
  obtain ⟨hascending', hother, hstaged, hgone⟩ :=
    @foldl_stageChange t settings workdir index htree hascending (t.changedPaths workdir index)
  refine ⟨hascending', fun p hfile => hgone p hfile ?_, fun p hfile hp => ?_⟩
  · cases hp : index.lookup p with
    | none => exact .inr rfl
    | some blob => exact .inl (mem_changedPaths_of_lookup hp)
  · by_cases hmem : p ∈ t.changedPaths workdir index
    · exact hstaged p hmem hfile
    · -- a path that is passed over was not staged before, and is not staged now
      rw [hother p hmem hfile, or_self] at hp
      obtain ⟨blob, hblob⟩ := Option.isSome_iff_exists.mp hp
      exact absurd (mem_changedPaths_of_lookup hblob) hmem

/-- A list of attributes that has changes to be staged, or is new. -/
def PendingList (t : FileTree) (settings : StorageSettings) (workdir : Location) (index : Snapshot)
    (path : String) : Prop :=
  path ∈ t.changedPaths workdir index ∧ Path.IsAttributeList path ∧
    t.storedBlob? settings workdir index path ≠ index.lookup path

/-- **No change is left**, unless there was one to a list of attributes: what is staged of a file is kept
of it. -/
theorem storedBlob?_stageAll (htree : t.IsTree) (hascending : index.Ascending)
    (hlists : ∀ path, ¬ t.PendingList settings workdir index path)
    (h : t.stageAll settings workdir index = (entries, true)) (hp : entries.lookup p = some blob) :
    t.storedBlob? settings workdir entries p = some blob := by
  obtain rfl := of_stageChanges h
  have hclean : ∀ q ∈ t.changedPaths workdir index, Path.IsAttributeList q →
      t.storedBlob? settings workdir index q = index.lookup q :=
    fun q hq hlist => by_contra fun hne => hlists q ⟨hq, hlist, hne⟩
  obtain ⟨-, hother, -, hgone⟩ :=
    @foldl_stageChange t settings workdir index htree hascending (t.changedPaths workdir index)
  have htracked : ∀ q, Path.IsAttributeList q → ¬ t.HasFile workdir q → index.lookup q = none := by
    intro q hlist hfile
    cases hq : index.lookup q with
    | none => rfl
    | some blob =>
      have hkept := hclean q (mem_changedPaths_of_lookup hq) hlist
      rw [storedBlob?_eq_none_iff.mpr hfile, hq] at hkept
      exact absurd hkept nofun
  refine (foldl_stageChange_of_lists htree hascending htracked hclean).2 p ?_ blob hp
  -- what was passed over is not staged
  by_contra hmem
  by_cases hfile : t.HasFile workdir p
  · rw [hother p hmem hfile] at hp
    exact hmem (mem_changedPaths_of_lookup hp)
  · cases hq : index.lookup p with
    | none =>
      rw [hgone p hfile (.inr hq)] at hp
      exact absurd hp nofun
    | some blob => exact hmem (mem_changedPaths_of_lookup hq)

end FileTree

end TagVersion
