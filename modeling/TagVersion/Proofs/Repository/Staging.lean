import TagVersion.Proofs.Repository.Conversion
import TagVersion.Proofs.Repository.Snapshots
import TagVersion.Repository.Checkout

/-!
# What is staged

Files are staged one after the other. What a repository keeps of a file depends on the lists of
attributes and on what is staged of the file already, so a list that is staged may change what is
kept of the files after it.

* **`Blob.Keeps`**: what may be kept of a file or of a link.
* **`storedBlob?_congr`**: what it depends on.
* **`storedBlob?_staged`**: it is kept again once it is staged.
* **`of_stagePaths`**: what is staged of some paths.
* **`lookup_stagePaths`**: the same without lists of attributes among them.
-/

namespace TagVersion

/-- What a repository may keep of what lies somewhere: of a file what some conversion makes of its
bytes, and whether the owner may execute it, and of a link the path along which it leads. -/
inductive Blob.Keeps : Blob → FileNode → Prop where
  | file (content : ByteArray) (mode : Nat) (c : Conversion) (hasReturns : Bool) :
      Keeps ⟨⟨(c.stored hasReturns content.toList).toArray⟩, .ofMode mode⟩ (.file content mode)
  | link (target : String) : Keeps ⟨target.toUTF8, .link⟩ (.link target)

/-- A file without marks and carriage returns is kept as it is. -/
theorem Blob.Keeps.eq_of_not_mem {blob : Blob} {content : ByteArray} {mode : Nat}
    (h : blob.Keeps (.file content mode)) (hmark : Ident.dollar ∉ content.toList)
    (hreturns : 0x0D ∉ content.toList) : blob = ⟨content, .ofMode mode⟩ := by
  cases h with
  | file _ _ c hasReturns =>
    rw [Conversion.stored_of_not_mem hmark hreturns, Bytes.mk_toList]

/-- Whether a path is that of a list of attributes. -/
def Path.IsAttributeList (path : String) : Prop :=
  (Path.names path).getLast? = some FileTree.attributeListName

instance (path : String) : Decidable (Path.IsAttributeList path) :=
  inferInstanceAs (Decidable (_ = _))

namespace FileTree

variable {t t' : FileTree} {settings : StorageSettings} {workdir loc : Location}
  {index index' : Snapshot} {path : String} {blob : Blob} {node : FileNode}

/-! ## Lists of attributes -/

theorem stored_of_link (h : blob.kind = .link) : t.stored settings workdir index path blob = blob := by
  unfold stored
  rw [if_pos (.inl h)]

/-- What is staged of a path already, looked at for carriage returns. A link stands for a file with
them. -/
def hasReturns (index : Snapshot) (path : String) : Bool :=
  (index.lookup path).any fun b => b.kind == .link || b.content.toList.contains 0x0D

/-- The contents of a file are converted before they are kept. -/
theorem stored_of_file (h : blob.kind ≠ .link) :
    t.stored settings workdir index path blob =
      ⟨⟨((Conversion.ofAttributes settings (t.attributeLists workdir index) (Path.names path)).stored
        (hasReturns index path) blob.content.toList).toArray⟩, blob.kind⟩ := by
  unfold stored hasReturns
  simp only [h, false_or]
  split
  · next hnone => rw [hnone, Conversion.stored_none, Bytes.mk_toList]
  · rfl

theorem exists_keeps_of_storedBlob? (h : t.storedBlob? settings workdir index path = some blob) :
    ∃ node, t.node? (workdir ++ Path.names path) = some node ∧ blob.Keeps node := by
  unfold storedBlob? blobAt? at h
  obtain ⟨raw, hraw, hblob⟩ := Option.map_eq_some_iff.mp h
  obtain ⟨node, hnode, hfile⟩ := Option.bind_eq_some_iff.mp hraw
  refine ⟨node, hnode, ?_⟩
  rw [← hblob]
  cases node with
  | directory => exact absurd hfile nofun
  | link target =>
    obtain rfl := Option.some.inj hfile
    rw [stored_of_link rfl]
    exact .link target
  | file content mode =>
    obtain rfl := Option.some.inj hfile
    have hkind : BlobKind.ofMode mode ≠ .link := by
      unfold BlobKind.ofMode
      split <;> exact nofun
    rw [stored_of_file hkind]
    exact .file content mode _ _

/-- **What is kept** of a file depends on the file, on the lists of attributes, and on what is staged
of it already. -/
theorem storedBlob?_congr
    (hlists : t'.attributeLists workdir index' = t.attributeLists workdir index)
    (hnode : t'.node? (workdir ++ Path.names path) = t.node? (workdir ++ Path.names path))
    (hlookup : index'.lookup path = index.lookup path) :
    t'.storedBlob? settings workdir index' path = t.storedBlob? settings workdir index path := by
  unfold storedBlob? blobAt? stored
  rw [hlists, hnode, hlookup]

/-- **What is staged** of a file is kept of it again. -/
theorem storedBlob?_staged
    (hlists : t.attributeLists workdir index' = t.attributeLists workdir index)
    (h : t.storedBlob? settings workdir index path = some blob)
    (hlookup : index'.lookup path = some blob) :
    t.storedBlob? settings workdir index' path = some blob := by
  unfold storedBlob? at h ⊢
  obtain ⟨raw, hraw, hblob⟩ := Option.map_eq_some_iff.mp h
  rw [hraw, Option.map_some]
  refine congrArg some ?_
  by_cases hkind : raw.kind = .link
  · rw [stored_of_link hkind] at hblob ⊢
    exact hblob
  · rw [stored_of_file hkind] at hblob ⊢
    subst hblob
    rw [hlists]
    generalize Conversion.ofAttributes settings (t.attributeLists workdir index)
      (Path.names path) = c at hlookup ⊢
    have hreturns : hasReturns index' path =
        (c.stored (hasReturns index path) raw.content.toList).contains 0x0D := by
      rw [hasReturns, hlookup, Option.any_some, beq_false_of_ne hkind, Bool.false_or,
        Bytes.toList_eq]
    -- the line ends of the same bytes are looked at again
    rw [hreturns]
    unfold Conversion.stored
    rw [LineEnds.stored_stored]

theorem storedBlob?_isSome_iff :
    (t.storedBlob? settings workdir index path).isSome ↔ t.HasFile workdir path := by
  unfold storedBlob?
  rw [Option.isSome_map]
  exact blobAt?_isSome_iff

theorem storedBlob?_eq_none_iff :
    t.storedBlob? settings workdir index path = none ↔ ¬ t.HasFile workdir path := by
  rw [← @storedBlob?_isSome_iff t settings workdir index path, Option.not_isSome_iff_eq_none]

/-! ## Which files can be staged -/

/-- A file that can be staged, or a link: its path can stand in a snapshot, and leads to it from the
working tree. -/
def Stageable (t : FileTree) (workdir : Location) (path : String) : Prop :=
  IndexPath.isValid path = true ∧ (t.blobAlong? workdir path).isSome

instance (t : FileTree) (workdir : Location) (path : String) : Decidable (t.Stageable workdir path) :=
  inferInstanceAs (Decidable (_ ∧ _))

theorem stage_isSome_iff :
    (t.stage settings workdir path index).isSome ↔ t.Stageable workdir path := by
  unfold stage Stageable
  cases IndexPath.isValid path with
  | false => simp
  | true => simp

end FileTree

namespace Checkout

open FileTree Snapshot

variable {files : FileTree} {settings : StorageSettings} {workdir : Location}
  {index entries : Snapshot} {path : String} {paths rest : List String}

/-! ## Paths that can be staged -/

/-- The names of a path that can stand in a snapshot stand for themselves. -/
theorem of_isValid (h : IndexPath.isValid path = true) {segment : List Char}
    (hsegment : segment ∈ path.toList.splitOn '/') :
    segment ≠ [] ∧ segment ≠ ['.'] ∧ segment ≠ ['.', '.'] := by
  have hvalid := List.all_eq_true.mp h segment hsegment
  simp only [Bool.not_eq_true', Bool.or_eq_false_iff, decide_eq_false_iff_not] at hvalid
  obtain ⟨⟨⟨hempty, hdot⟩, hdots⟩, -⟩ := hvalid
  exact ⟨hempty, hdot, hdots⟩

theorem isPlain_of_isValid (h : IndexPath.isValid path = true) : Path.IsPlain path := by
  intro name hname
  obtain ⟨segment, hsegment, rfl⟩ := List.mem_map.mp hname
  obtain ⟨hempty, hdot, hdots⟩ := of_isValid h hsegment
  exact ⟨mt String.ofList_inj.mp hempty, mt String.ofList_inj.mp hdot,
    mt String.ofList_inj.mp hdots⟩

theorem pathFault?_eq_none (hstorable : isStorable path = true)
    (hvalid : IndexPath.isValid path = true) : pathFault? path = none := by
  have hrelative : path.toList.head? ≠ some '/' := by
    have habsolute := (isPlain_of_isValid hvalid).not_isAbsolute
    unfold Path.isAbsolute at habsolute
    exact beq_eq_false_iff_ne.mp habsolute
  obtain ⟨first, rest, hsplit⟩ : ∃ first rest, path.toList.splitOn '/' = first :: rest :=
    List.exists_cons_of_ne_nil (List.splitOnP_ne_nil _ _)
  -- no name is empty, so none of them is left out
  have hkept : (path.toList.splitOn '/').filter (· != []) = first :: rest := by
    rw [← hsplit, List.filter_eq_self]
    exact fun segment hsegment => bne_iff_ne.mpr (of_isValid hvalid hsegment).1
  obtain ⟨-, hdot, hdots⟩ := of_isValid hvalid (hsplit ▸ List.mem_cons_self : first ∈ _)
  unfold pathFault?
  simp only [hstorable, hkept, Bool.not_true, Bool.false_eq_true, ↓reduceIte, if_neg hrelative,
    if_neg hdot, if_neg hdots]

/-- Paths of files that can be staged are all staged. -/
theorem stagePaths_of_stageable (index : Snapshot)
    (h : ∀ p ∈ paths, isStorable p = true ∧ files.Stageable workdir p) :
    ∃ entries, stagePaths files settings workdir index paths = (entries, .ok ()) := by
  induction paths generalizing index with
  | nil => exact ⟨index, rfl⟩
  | cons path rest ih =>
    obtain ⟨hstorable, hstageable⟩ := h path List.mem_cons_self
    obtain ⟨index', hstage⟩ := Option.isSome_iff_exists.mp (stage_isSome_iff.mpr hstageable)
    rw [stagePaths, pathFault?_eq_none hstorable hstageable.1, hstage]
    exact ih index' fun p hp => h p (List.mem_cons_of_mem _ hp)

/-- One path that cannot be staged is enough to be refused. -/
theorem stagePaths_of_not_stageable (index : Snapshot)
    (h : ∃ p ∈ paths, ¬ files.Stageable workdir p) :
    ∃ entries fault,
      stagePaths files settings workdir index paths = (entries, .error (.scm fault)) := by
  induction paths generalizing index with
  | nil =>
    obtain ⟨p, hp, -⟩ := h
    exact absurd hp List.not_mem_nil
  | cons path rest ih =>
    rw [stagePaths]
    cases pathFault? path with
    | some fault => exact ⟨index, fault, rfl⟩
    | none =>
      cases hstage : files.stage settings workdir path index with
      | none => exact ⟨index, .repository, rfl⟩
      | some index' =>
        -- this path is none of those that cannot be staged
        obtain ⟨p, hp, hnot⟩ := h
        have hne : p ≠ path := by
          rintro rfl
          exact hnot (stage_isSome_iff.mp (Option.isSome_of_eq_some hstage))
        exact ih index' ⟨p, (List.mem_cons.mp hp).resolve_left hne, hnot⟩

/-- One path is staged before the others. -/
theorem of_stagePaths_cons (htree : files.IsTree) (hfiled : Filed files workdir index)
    (hdirect : files.IsDirect workdir path)
    (h : stagePaths files settings workdir index (path :: rest) = (entries, .ok ())) :
    ∃ blob, files.storedBlob? settings workdir index path = some blob ∧
      files.HasFile workdir path ∧
      stagePaths files settings workdir (index.insert path blob) rest = (entries, .ok ()) := by
  rw [stagePaths] at h
  split at h
  · exact absurd (Prod.mk.inj h).2 nofun
  · split at h
    · next index' hstage =>
      unfold stage at hstage
      split at hstage
      · next hvalid =>
        obtain ⟨raw, hraw, rfl⟩ := Option.map_eq_some_iff.mp hstage
        have hraw := blobAt?_of_blobAlong? (isPlain_of_isValid hvalid) hdirect hraw
        have hfile := blobAt?_isSome_iff.mp (Option.isSome_of_eq_some hraw)
        rw [add_eq_insert htree hfiled hfile] at h
        refine ⟨_, ?_, hfile, h⟩
        unfold storedBlob?
        rw [hraw, Option.map_some]
      · exact absurd hstage nofun
    · exact absurd (Prod.mk.inj h).2 nofun

/-- **What is staged** of some paths with no links on their way: something that is kept of what lies at
each of them, besides what was staged before. -/
theorem of_stagePaths (htree : files.IsTree) (hascending : index.Ascending)
    (hfiled : Filed files workdir index) (hdirect : ∀ p ∈ paths, files.IsDirect workdir p)
    (h : stagePaths files settings workdir index paths = (entries, .ok ())) :
    entries.Ascending ∧ Filed files workdir entries ∧
      (∀ p ∉ paths, entries.lookup p = index.lookup p) ∧
      ∀ p ∈ paths, ∃ staged blob, entries.lookup p = some blob ∧
        files.storedBlob? settings workdir staged p = some blob := by
  induction paths generalizing index with
  | nil =>
    obtain ⟨rfl, -⟩ := Prod.mk.inj h
    exact ⟨hascending, hfiled, fun _ _ => rfl, nofun⟩
  | cons path rest ih =>
    obtain ⟨hpath, hdirect⟩ := List.forall_mem_cons.mp hdirect
    obtain ⟨blob, hblob, hfile, hrest⟩ := of_stagePaths_cons htree hfiled hpath h
    -- both invariants hold once the first path is staged
    obtain ⟨hascending', hfiled', hother, hstaged⟩ :=
      ih (ascending_insert hascending path blob) (hfiled.insert hfile blob) hdirect hrest
    refine ⟨hascending', hfiled', ?_, ?_⟩
    · intro p hp
      obtain ⟨hne, hp⟩ := List.ne_and_not_mem_of_not_mem_cons hp
      rw [hother p hp, lookup_insert, if_neg hne]
    · intro p hp
      by_cases hmem : p ∈ rest
      · exact hstaged p hmem
      · obtain rfl := (List.mem_cons.mp hp).resolve_right hmem
        refine ⟨index, blob, ?_, hblob⟩
        rw [hother p hmem, lookup_insert, if_pos rfl]

end Checkout

end TagVersion
