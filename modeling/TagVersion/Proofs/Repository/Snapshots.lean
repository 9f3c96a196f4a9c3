import TagVersion.Proofs.Files.Locations
import TagVersion.Proofs.Keyed
import TagVersion.Repository.Basic

/-!
# Files in snapshots

A snapshot has its paths in ascending order, each of them once. A file that is put into it is found
under its path, and all other files are found as before.

* **`Snapshot.lookup_insert`**: what is found after a file is put in.
* **`Snapshot.ascending_insert`**: the order stays.
* **`Snapshot.mem_iff_lookup`**: each file of a snapshot is found.
* **`Snapshot.add_eq_insert`**: no file is in the way of another one in a tree.
* **`FileTree.blobAt?_of_blobAlong?`**: what a path leads to that no link is on the way of.
* **`Repository.ref?_putRef`**: the same of references.
-/

namespace TagVersion

namespace Snapshot

/-- Whether the paths are in ascending order, each of them once. -/
def Ascending (s : Snapshot) : Prop :=
  s.Pairwise fun a b => a.1 < b.1

instance (s : Snapshot) : Decidable s.Ascending :=
  inferInstanceAs (Decidable (s.Pairwise fun a b => a.1 < b.1))

variable {s : Snapshot} {path p : String} {blob b : Blob}

/-! ## Putting files in -/

theorem insert_eq (s : Snapshot) (path : String) (blob : Blob) :
    s.insert path blob = Keyed.insert s path blob := by
  induction s with
  | nil => rfl
  | cons entry s ih =>
    unfold insert Keyed.insert
    rw [ih]

/-- **What is found** once a file is put in. -/
theorem lookup_insert (s : Snapshot) (path p : String) (blob : Blob) :
    (s.insert path blob).lookup p = if p = path then some blob else s.lookup p := by
  rw [insert_eq]
  exact Keyed.lookup_insert s path p blob

theorem mem_insert (h : (p, b) ∈ s.insert path blob) : (p, b) = (path, blob) ∨ (p, b) ∈ s := by
  rw [insert_eq] at h
  exact Keyed.mem_insert h

/-- **The order** stays when a file is put in. -/
theorem ascending_insert (h : s.Ascending) (path : String) (blob : Blob) :
    (s.insert path blob).Ascending := by
  rw [insert_eq]
  exact Keyed.ascending_insert h path blob

/-- **Each file** of a snapshot is found under its path. -/
theorem mem_iff_lookup (h : s.Ascending) : (p, b) ∈ s ↔ s.lookup p = some b :=
  Keyed.mem_iff_lookup h

/-- Snapshots in which the same files are found are the same. -/
theorem eq_of_lookup {s' : Snapshot} (h : s.Ascending) (h' : s'.Ascending)
    (hlookup : ∀ p, s.lookup p = s'.lookup p) : s = s' :=
  Keyed.eq_of_lookup h h' hlookup

/-- The files and links of a snapshot are all there, below a directory. -/
def Filed (t : FileTree) (workdir : Location) (s : Snapshot) : Prop :=
  ∀ p b, (p, b) ∈ s → t.HasFile workdir p

/-- **No file is in the way** of another one in a tree, so none is dropped for it. -/
theorem add_eq_insert {t : FileTree} {workdir : Location} (htree : t.IsTree)
    (hfiled : Filed t workdir s) (hpath : t.HasFile workdir path) (blob : Blob) :
    s.add path blob = s.insert path blob := by
  unfold add
  congr 1
  rw [List.filter_eq_self]
  rintro ⟨p, b⟩ hmem
  have hbelow := htree.not_isPrefixOf (hfiled p b hmem) hpath
  have habove := htree.not_isPrefixOf hpath (hfiled p b hmem)
  simp only [hbelow, habove, Bool.or_self, Bool.not_false]

theorem Filed.insert {t : FileTree} {workdir : Location} (hfiled : Filed t workdir s)
    (hpath : t.HasFile workdir path) (blob : Blob) : Filed t workdir (s.insert path blob) := by
  intro p b hmem
  rcases mem_insert hmem with heq | hmem
  · obtain ⟨rfl, -⟩ := Prod.mk.inj heq
    exact hpath
  · exact hfiled p b hmem

end Snapshot

namespace FileTree

variable {t : FileTree} {workdir loc : Location} {path : String} {blob : Blob}

theorem blobAt?_isSome_iff : (t.blobAt? workdir path).isSome ↔ t.HasFile workdir path := by
  unfold blobAt? HasFile
  cases t.node? (workdir ++ Path.names path) with
  | none => simp
  | some node => cases node <;> simp [FileNode.blob?]

/-- **A path with no links on its way** leads to where it spells, whether to a link or to a file. -/
theorem blobAt?_of_blobAlong? (hplain : Path.IsPlain path) (hdirect : t.IsDirect workdir path)
    (h : t.blobAlong? workdir path = some blob) : t.blobAt? workdir path = some blob := by
  have hne := Path.names_ne_nil path
  have hnames := List.dropLast_append_getLast hne
  unfold blobAlong? at h
  simp only [List.getLast?_eq_some_getLast hne, Option.map_some] at h
  split at h
  · exact absurd h nofun
  · next above hwalk =>
    split at h
    · next loc _ hstep =>
      have hstep := Option.some.inj hstep
      have habove : above = workdir ++ (Path.names path).dropLast := by
        refine (walk_eq_ok_iff.mp hwalk).eq_append
          (fun name hname => hplain name (List.mem_of_mem_dropLast hname)) fun front hfront => ?_
        refine hdirect.not_isLink (hfront.trans (List.dropLast_prefix _)) ?_
        have hlength := hfront.length_le
        have hpos := List.length_pos_of_ne_nil hne
        rw [List.length_dropLast] at hlength
        omega
      have hloc : loc = workdir ++ Path.names path := by
        rw [eq_append_of_step (hplain _ (List.getLast_mem hne)) hstep, habove, List.append_assoc,
          hnames]
      unfold blobAt?
      rw [← hloc]
      exact h
    · exact absurd h nofun

/-- What a path leads to is there, whether it is a link or what the link leads to. -/
theorem isSome_blobAlong? {content : ByteArray} {mode : Nat}
    (hway : t.Leads maxLinks workdir (Path.names path) loc)
    (hnode : t.node? loc = some (.file content mode)) : (t.blobAlong? workdir path).isSome := by
  have hne := Path.names_ne_nil path
  rw [← List.dropLast_append_getLast hne] at hway
  obtain ⟨above, habove, hlast⟩ := hway.exists_of_append
  have hwalk := walk_eq_ok_iff.mpr habove
  unfold blobAlong?
  simp only [List.getLast?_eq_some_getLast hne, Option.map_some, hwalk]
  cases hlast with
  | down hdirectory hstep hlink hrest =>
    cases hrest with
    | here =>
      simp only [hdirectory, hstep, hnode]
      rfl
  | along hdirectory hstep hlink =>
    simp only [hdirectory, hstep, hlink]
    rfl

end FileTree

namespace Repository

/-- **A reference** that is put in is found under its name, and all others are found as before. -/
theorem ref?_putRef (refs : List Ref) (r : Ref) (name : String) :
    ref? (putRef refs r) name = if name = r.name then some r else ref? refs name := by
  unfold ref?
  induction refs with
  | nil =>
    by_cases h : name = r.name
    · simp [putRef, h]
    · simp [putRef, h, Ne.symm h]
  | cons s rest ih =>
    unfold putRef
    by_cases h : name = r.name
    · rw [if_pos h] at ih ⊢
      split
      · simp [h]
      · split
        · simp [h]
        · next hne =>
          have hs : (s.name == name) = false := beq_false_of_ne fun heq => hne (h ▸ heq.symm)
          rw [List.find?_cons, hs]
          exact ih
    · rw [if_neg h] at ih ⊢
      have hr : (r.name == name) = false := beq_false_of_ne (Ne.symm h)
      split
      · rw [List.find?_cons, hr]
      · split
        · next heq => rw [List.find?_cons, hr, List.find?_cons, ← heq, hr]
        · rw [List.find?_cons, List.find?_cons, ih]

end Repository

end TagVersion
