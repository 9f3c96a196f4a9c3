import TagVersion.Proofs.Release.Commit
import TagVersion.Proofs.Repository.Tags

/-!
# Counting commits

The facts of a checkout come about in two ways: they are read off a description if the history has a
version tag, and are counted out if it has none. Either way the distance is a number of commits, and it
grows by one with every commit.

* **`Repository.IsNearest`**: the nearest version tag of a history.
* **`Repository.Sound`**: commits that exist, and tags with names. A repository starts so
  (**`sound_init`**) and stays so (**`Sound.tag`**, **`Sound.commit`**).
* **`Repository.nearest`**: what is counted from, and how far, with a version tag or without.
* **`Repository.nearest_commit`**, **`Repository.nearest_commits`**: commits on top of a history.
* **`Repository.isDirty_iff`**: changes are those of tracked files.
* **`Checkout.facts_spec`**: what is read off a checkout, now and after one more commit.
* **`Checkout.not_facts_refName`**: the name of an annotated tag is not always that of its reference.
-/

namespace TagVersion

/-! ## Version tags -/

namespace Ref

/-- A tag with a point in its name. -/
def IsVersionTag (r : Ref) : Prop :=
  ∃ tag, RefName.tag? r.name = some tag ∧ '.' ∈ tag.toList

instance (r : Ref) : Decidable r.IsVersionTag :=
  decidable_of_iff ((RefName.tag? r.name).any (·.toList.contains '.') = true) (by
    unfold IsVersionTag
    simp [Option.any_eq_true])

/-- The name that a tag was given. An annotated tag holds it itself, and its reference may have been
named otherwise since, or may have it in another form. -/
def tagName (r : Ref) : String :=
  (r.note.map (·.name)).getD ((RefName.tag? r.name).getD "")

end Ref

/-- A name that an annotated tag can have: one that is not empty, and on one line. -/
def TagNote.IsNamed (note : TagNote) : Prop :=
  note.name ≠ "" ∧ '\n' ∉ note.name.toList

instance (note : TagNote) : Decidable note.IsNamed :=
  inferInstanceAs (Decidable (_ ∧ _))

namespace Repository

section

variable {refs : List Ref} {ref s : Ref} {commit distance : Nat} {name : String} {history : List Nat}

theorem mem_versionTags_iff :
    (ref, name) ∈ versionTags refs commit ↔
      ref ∈ refs ∧ ref.IsVersionTag ∧ ref.target = commit ∧ ref.tagName = name := by
  unfold versionTags isVersionTag Ref.IsVersionTag Ref.tagName
  rw [List.mem_filterMap]
  constructor
  · rintro ⟨r, hr, hmatch⟩
    cases htag : RefName.tag? r.name with
    | none => simp [htag] at hmatch
    | some tag =>
      simp only [htag, Option.ite_none_right_eq_some, Bool.and_eq_true, beq_iff_eq,
        List.contains_iff_mem, Option.some.injEq, Prod.mk.injEq] at hmatch
      obtain ⟨⟨htarget, hpoint⟩, rfl, hname⟩ := hmatch
      exact ⟨hr, ⟨tag, htag, hpoint⟩, htarget, by simpa [htag] using hname⟩
  · rintro ⟨hr, ⟨tag, htag, hpoint⟩, rfl, rfl⟩
    refine ⟨ref, hr, ?_⟩
    simp [htag, hpoint]

theorem versionTags_eq_nil_iff :
    versionTags refs commit = [] ↔ ∀ s ∈ refs, s.IsVersionTag → s.target ≠ commit := by
  rw [List.eq_nil_iff_forall_not_mem]
  constructor
  · intro h s hs htag htarget
    exact h (s, s.tagName) (mem_versionTags_iff.mpr ⟨hs, htag, htarget, rfl⟩)
  · rintro h ⟨s, name⟩ hmem
    obtain ⟨hs, htag, htarget, -⟩ := mem_versionTags_iff.mp hmem
    exact h s hs htag htarget

theorem bestTag?_eq_none_iff :
    bestTag? refs commit = none ↔ ∀ s ∈ refs, s.IsVersionTag → s.target ≠ commit := by
  rw [← versionTags_eq_nil_iff]
  unfold bestTag?
  cases versionTags refs commit with
  | nil => simp
  | cons first rest => simp

/-- Whichever tag wins, it is one of those that compete. -/
theorem foldl_outranks_mem (first : Ref × String) (rest : List (Ref × String)) :
    rest.foldl (fun best next => if outranks next.1 best.1 then next else best) first ∈
      first :: rest := by
  induction rest generalizing first with
  | nil => exact List.mem_singleton_self first
  | cons next rest ih =>
    rw [List.foldl_cons]
    split
    · exact List.mem_cons_of_mem first (ih next)
    · rcases List.mem_cons.mp (ih first) with heq | hmem
      · rw [heq]
        exact List.mem_cons_self
      · exact List.mem_cons_of_mem first (List.mem_cons_of_mem next hmem)

theorem mem_of_bestTag? (h : bestTag? refs commit = some name) :
    ∃ s ∈ refs, s.IsVersionTag ∧ s.target = commit ∧ s.tagName = name := by
  unfold bestTag? at h
  split at h
  · exact absurd h nofun
  · next first rest htags =>
    have hmem := foldl_outranks_mem first rest
    rw [← htags, ← Prod.mk.eta (p := List.foldl _ _ _), Option.some.inj h] at hmem
    exact ⟨_, mem_versionTags_iff.mp hmem⟩

/-! ## The nearest one -/

/-- The nearest version tag of a history, with the number of commits after it. -/
def IsNearest (refs : List Ref) (history : List Nat) (ref : Ref) (distance : Nat) : Prop :=
  ref ∈ refs ∧ ref.IsVersionTag ∧ ∃ newer older, history = newer ++ ref.target :: older ∧
    newer.length = distance ∧ ∀ s ∈ refs, s.IsVersionTag → s.target ∉ newer

/-- No commit has two version tags. -/
def OneEach (refs : List Ref) : Prop :=
  ∀ r ∈ refs, ∀ s ∈ refs, r.IsVersionTag → s.IsVersionTag → r.target = s.target → r = s

theorem nearestTag?_eq_none_iff :
    nearestTag? refs history = none ↔ ∀ s ∈ refs, s.IsVersionTag → s.target ∉ history := by
  induction history with
  | nil => simp [nearestTag?]
  | cons commit older ih =>
    have hcons : (∀ s ∈ refs, s.IsVersionTag → s.target ∉ commit :: older) ↔
        (∀ s ∈ refs, s.IsVersionTag → s.target ≠ commit) ∧
          ∀ s ∈ refs, s.IsVersionTag → s.target ∉ older := by
      simp only [List.mem_cons, not_or]
      exact ⟨fun h => ⟨fun s hs ht => (h s hs ht).1, fun s hs ht => (h s hs ht).2⟩,
        fun h s hs ht => ⟨h.1 s hs ht, h.2 s hs ht⟩⟩
    rw [hcons, ← bestTag?_eq_none_iff, ← ih, nearestTag?]
    cases bestTag? refs commit with
    | none => simp
    | some tag => simp

theorem exists_isNearest (h : nearestTag? refs history = some (name, distance)) :
    ∃ ref, IsNearest refs history ref distance ∧ ref.tagName = name := by
  induction history generalizing distance with
  | nil => exact absurd h nofun
  | cons commit older ih =>
    rw [nearestTag?] at h
    cases hbest : bestTag? refs commit with
    | some tag =>
      rw [hbest] at h
      obtain ⟨rfl, rfl⟩ := Prod.mk.inj (Option.some.inj h)
      obtain ⟨ref, href, htag, rfl, hname⟩ := mem_of_bestTag? hbest
      exact ⟨ref, ⟨href, htag, [], older, rfl, rfl, fun _ _ _ => List.not_mem_nil⟩, hname⟩
    | none =>
      rw [hbest] at h
      obtain ⟨⟨tag, further⟩, hfurther, heq⟩ := Option.map_eq_some_iff.mp h
      obtain ⟨rfl, rfl⟩ := Prod.mk.inj heq
      obtain ⟨ref, ⟨href, htag, newer, older', rfl, rfl, hnewer⟩, hname⟩ := ih hfurther
      refine ⟨ref, ⟨href, htag, commit :: newer, older', rfl, rfl, fun s hs hversion => ?_⟩, hname⟩
      rw [List.mem_cons, not_or]
      exact ⟨bestTag?_eq_none_iff.mp hbest s hs hversion, hnewer s hs hversion⟩

/-- **There is one nearest tag** at most, if no commit has two. -/
theorem IsNearest.unique {distance' : Nat} (hone : OneEach refs)
    (h : IsNearest refs history ref distance) (h' : IsNearest refs history s distance') :
    s = ref ∧ distance' = distance := by
  obtain ⟨href, htag, newer, older, rfl, rfl, hnewer⟩ := h
  obtain ⟨hs, htag', newer', older', hhistory, rfl, hnewer'⟩ := h'
  -- neither of the two commits is among those before the other one
  have hsame : newer' = newer ∧ s.target = ref.target := by
    rcases List.append_eq_append_iff.mp hhistory with ⟨gap, rfl, hrest⟩ | ⟨gap, rfl, hrest⟩
    · cases gap with
      | nil =>
        rw [List.append_nil]
        exact ⟨rfl, (List.cons.inj hrest).1.symm⟩
      | cons commit gap =>
        obtain rfl := (List.cons.inj hrest).1
        exact absurd (List.mem_append_right _ List.mem_cons_self) (hnewer' ref href htag)
    · cases gap with
      | nil =>
        rw [List.append_nil]
        exact ⟨rfl, (List.cons.inj hrest).1⟩
      | cons commit gap =>
        obtain rfl := (List.cons.inj hrest).1
        exact absurd (List.mem_append_right _ List.mem_cons_self) (hnewer s hs htag')
  obtain ⟨rfl, htarget⟩ := hsame
  exact ⟨hone s hs ref href htag' htag htarget, rfl⟩

/-! ## References that are put in -/

/-- A reference that is no tag is no version tag of any commit, and takes the place of none. -/
theorem versionTags_putRef_of_not_tag (href : RefName.tag? ref.name = none) (commit : Nat) :
    versionTags (putRef refs ref) commit = versionTags refs commit := by
  have hskip (rest : List Ref) (s : Ref) (hs : RefName.tag? s.name = none) :
      versionTags (s :: rest) commit = versionTags rest commit := by
    unfold versionTags
    rw [List.filterMap_cons, hs]
  induction refs with
  | nil => exact hskip [] ref href
  | cons s rest ih =>
    rw [putRef]
    split
    · exact hskip _ ref href
    · split
      · next hname => rw [hskip rest ref href, hskip rest s (hname ▸ href)]
      · unfold versionTags at ih ⊢
        rw [List.filterMap_cons, List.filterMap_cons, ih]

theorem mem_putRef (h : s ∈ putRef refs ref) : s = ref ∨ s ∈ refs := by
  induction refs with
  | nil => exact .inl (List.mem_singleton.mp h)
  | cons t rest ih =>
    rw [putRef] at h
    split at h
    · exact List.mem_cons.mp h
    · split at h
      · exact (List.mem_cons.mp h).imp_right (List.mem_cons_of_mem t)
      · rcases List.mem_cons.mp h with rfl | hrest
        · exact .inr List.mem_cons_self
        · exact (ih hrest).imp_right (List.mem_cons_of_mem t)

end

end Repository

namespace RefName

theorem tag?_ofBranch (branch : String) : tag? (ofBranch branch) = none := by
  unfold tag? after? ofBranch tagLead
  simp

theorem tag?_eq_some_iff {name tag : String} : tag? name = some tag ↔ name = ofTag tag := by
  constructor
  · intro h
    unfold tag? after? at h
    split at h
    · next hlead =>
      obtain ⟨rest, hrest⟩ := List.isPrefixOf_iff_prefix.mp hlead
      obtain rfl := Option.some.inj h
      rw [← hrest, List.drop_left]
      apply String.toList_injective
      unfold ofTag
      rw [String.toList_append, String.toList_ofList, hrest]
    · exact absurd h nofun
  · rintro rfl
    exact tag?_ofTag tag

end RefName

namespace Repository

/-! ## Repositories that hold together -/

/-- A repository in which all commits that are named exist, and the names of tags are names: a
reference has a valid one, and what an annotated tag has for a name is not empty and on one line. How
the two go together is left open. -/
structure Sound (r : Repository) : Prop where
  target_lt : ∀ ref ∈ r.refs, ref.target < r.commits.length
  detached_lt : ∀ n, r.head = .detached n → n < r.commits.length
  isValid : ∀ ref ∈ r.refs, (RefName.tag? ref.name).isSome → RefName.isValid ref.name = true
  isNamed : ∀ ref ∈ r.refs, ∀ note, ref.note = some note → note.IsNamed

variable {r r' : Repository}

theorem sound_init (branch : String) (hasIdentity : Bool) : (init branch hasIdentity).Sound :=
  ⟨nofun, nofun, nofun, nofun⟩

theorem Sound.headCommit?_lt (h : r.Sound) {n : Nat} (hhead : r.headCommit? = some n) :
    n < r.commits.length := by
  unfold headCommit? at hhead
  split at hhead
  · obtain ⟨ref, href, rfl⟩ := Option.map_eq_some_iff.mp hhead
    exact h.target_lt ref (List.mem_of_find?_eq_some href)
  · next hdetached => exact h.detached_lt n (Option.some.inj hhead ▸ hdetached)

/-- Nothing is asked of the files that are staged. -/
theorem Sound.staged (h : r.Sound) (index : Snapshot) : ({ r with index } : Repository).Sound :=
  ⟨h.target_lt, h.detached_lt, h.isValid, h.isNamed⟩

/-- A tag that is set has a name that is valid. -/
theorem Sound.tag {name : String} {note : Option TagNote} (h : r.Sound)
    (hnote : ∀ given, note = some given → given.name = name) (hne : name ≠ "")
    (htag : r.tag name note = some r') : r'.Sound := by
  obtain ⟨target, htarget, hvalid, -, rfl⟩ := of_tag_eq_some htag
  refine ⟨fun ref href => ?_, h.detached_lt, fun ref href hsome => ?_, fun ref href given hgiven => ?_⟩
  · rcases mem_putRef href with rfl | hold
    · exact h.headCommit?_lt htarget
    · exact h.target_lt ref hold
  · rcases mem_putRef href with rfl | hold
    · exact hvalid
    · exact h.isValid ref hold hsome
  · rcases mem_putRef href with rfl | hold
    · refine ⟨?_, ?_⟩
      · rw [hnote given hgiven]
        exact hne
      · rw [hnote given hgiven]
        exact RefName.newline_not_mem_of_isValid hvalid
    · exact h.isNamed ref hold given hgiven

theorem refs_commit (r : Repository) (message : String) :
    (r.commit message).refs = r.refs ∨
      ∃ branch, (r.commit message).refs =
        putRef r.refs ⟨RefName.ofBranch branch, r.commits.length, none⟩ := by
  unfold commit
  cases r.head with
  | branch name => exact .inr ⟨name, rfl⟩
  | detached n => exact .inl rfl

theorem mem_refs_commit {message : String} {ref : Ref} (h : ref ∈ (r.commit message).refs) :
    ref ∈ r.refs ∨
      RefName.tag? ref.name = none ∧ ref.note = none ∧ ref.target = r.commits.length := by
  rcases refs_commit r message with hrefs | ⟨branch, hrefs⟩
  · rw [hrefs] at h
    exact .inl h
  · rw [hrefs] at h
    rcases mem_putRef h with rfl | hold
    · exact .inr ⟨RefName.tag?_ofBranch branch, rfl, rfl⟩
    · exact .inl hold

theorem Sound.commit (h : r.Sound) (message : String) : (r.commit message).Sound := by
  have hlength : (r.commit message).commits.length = r.commits.length + 1 := by
    rw [commits_commit, List.length_append, List.length_singleton]
  refine ⟨fun ref href => ?_, fun n hn => ?_, fun ref href htag => ?_, fun ref href note hnote => ?_⟩
  · rw [hlength]
    rcases mem_refs_commit href with hold | ⟨-, -, htarget⟩
    · have hlt := h.target_lt ref hold
      omega
    · omega
  · have hnew : n = r.commits.length := by
      have hhead := headCommit?_commit r message
      unfold headCommit? at hhead
      rw [hn] at hhead
      exact Option.some.inj hhead
    omega
  · rcases mem_refs_commit href with hold | ⟨hnone, -, -⟩
    · exact h.isValid ref hold htag
    · rw [hnone] at htag
      exact absurd htag nofun
  · rcases mem_refs_commit href with hold | ⟨-, hnone, -⟩
    · exact h.isNamed ref hold note hnote
    · rw [hnone] at hnote
      exact absurd hnote nofun

theorem bestTag?_commit (r : Repository) (message : String) (commit : Nat) :
    bestTag? (r.commit message).refs commit = bestTag? r.refs commit := by
  rcases refs_commit r message with hrefs | ⟨branch, hrefs⟩
  · rw [hrefs]
  · have hbranch : RefName.tag? (⟨RefName.ofBranch branch, r.commits.length, none⟩ : Ref).name = none :=
      RefName.tag?_ofBranch branch
    rw [hrefs]
    exact bestTag?_congr (versionTags_putRef_of_not_tag hbranch commit)

/-! ## Commits on top of a history -/

/-- What came before a commit is not changed by one that is made later. -/
theorem ancestry_append {commits : List Commit} {n : Nat} (later : List Commit)
    (h : n < commits.length) : ancestry (commits ++ later) n = ancestry commits n := by
  induction n using Nat.strongRecOn with
  | ind n ih =>
    rw [ancestry, ancestry, List.getElem?_append_left h]
    cases hparent : commits[n]?.bind (·.parent) with
    | none => rfl
    | some p =>
      simp only
      by_cases hlt : p < n
      · rw [if_pos hlt, if_pos hlt, ih p hlt (by omega)]
      · rw [if_neg hlt, if_neg hlt]

/-- **A commit** stands on top of the history before it. -/
theorem history_commit (h : r.Sound) (message : String) :
    (r.commit message).history = r.commits.length :: r.history := by
  unfold history
  rw [headCommit?_commit, commits_commit]
  simp only
  rw [ancestry, List.getElem?_concat_length]
  simp only [Option.bind_some]
  cases hhead : r.headCommit? with
  | none => rfl
  | some n =>
    have hlt := h.headCommit?_lt hhead
    simp only
    rw [if_pos hlt, ancestry_append _ hlt]

/-- What the distance is counted from, and how far that is. -/
def nearest (r : Repository) : String × Nat :=
  (nearestTag? r.refs r.history).getD ("0.0.0", r.history.length)

/-- **One more commit** is one more to count, whether there is a version tag or not. -/
theorem nearest_commit (h : r.Sound) (message : String) :
    (r.commit message).nearest = (r.nearest.1, r.nearest.2 + 1) := by
  -- what is named was there before, so nothing names the new commit but a branch
  have hfresh : bestTag? (r.commit message).refs r.commits.length = none := by
    rw [bestTag?_commit, bestTag?_eq_none_iff]
    intro s hs _
    have hlt := h.target_lt s hs
    omega
  unfold nearest
  rw [history_commit h, nearestTag?, hfresh, nearestTag?_congr (bestTag?_commit r message)]
  cases nearestTag? r.refs r.history with
  | none => rfl
  | some nearest => rfl

/-- **Any number of commits** is counted. -/
theorem nearest_commits (h : r.Sound) (made : List (Snapshot × String)) :
    (made.foldl (fun r next => { r with index := next.1 }.commit next.2) r).nearest =
      (r.nearest.1, r.nearest.2 + made.length) := by
  induction made generalizing r with
  | nil => rfl
  | cons next made ih =>
    have hstaged := h.staged next.1
    rw [List.foldl_cons, ih (hstaged.commit next.2), nearest_commit hstaged, List.length_cons]
    show (r.nearest.1, r.nearest.2 + 1 + made.length) = _
    rw [Nat.add_assoc, Nat.add_comm 1]

/-! ## What is read -/

section

variable {ref : Ref} {index : Snapshot} {files : FileTree} {workdir : Location}

/-- A version tag has a name, which is on one line: that of its reference, or the one it holds. -/
theorem Sound.isNamed_tagName (h : r.Sound) (href : ref ∈ r.refs) (htag : ref.IsVersionTag) :
    ref.tagName.toList ≠ [] ∧ '\n' ∉ ref.tagName.toList := by
  obtain ⟨tag, hname, hpoint⟩ := htag
  unfold Ref.tagName
  cases hnote : ref.note with
  | some note =>
    obtain ⟨hne, hnewline⟩ := h.isNamed ref href note hnote
    exact ⟨fun hempty => hne (String.toList_eq_nil_iff.mp hempty), hnewline⟩
  | none =>
    have hvalid := h.isValid ref href (Option.isSome_of_eq_some hname)
    have hnot := RefName.not_mem_of_isValid hvalid (c := '\n') (by decide) (by decide)
    rw [RefName.tag?_eq_some_iff.mp hname] at hnot
    rw [hname]
    show tag.toList ≠ [] ∧ '\n' ∉ tag.toList
    refine ⟨List.ne_nil_of_mem hpoint, fun hmem => hnot ?_⟩
    unfold RefName.ofTag
    rw [String.toList_append]
    exact List.mem_append_right _ hmem

/-- **One reading** for a checkout with a version tag and for one without. -/
theorem Sound.exists_facts (h : r.Sound) (hhead : r.headCommit?.isSome)
    (hblank : ∀ ref ∈ r.refs, ref.IsVersionTag →
      ∀ d ∈ ref.tagName.toList.head?, Text.isBlank d = false)
    (index : Snapshot) (files : FileTree) (workdir : Location) :
    ∃ facts, r.facts index files workdir = .ok facts ∧
      facts.main = String.ofList (VersionFacts.mainOfTag r.nearest.1.toList) ∧
      facts.triplet = Triplet.ofChars facts.main.toList ∧
      facts.distance = UInt64.ofNat r.nearest.2 ∧
      facts.dirty = r.isDirty index files workdir := by
  obtain ⟨head, hhead⟩ := Option.isSome_iff_exists.mp hhead
  have htriplet (tag : List Char) : Triplet.ofChars (VersionFacts.mainOfTag tag) =
      Triplet.ofChars (String.ofList (VersionFacts.mainOfTag tag)).toList := by
    rw [String.toList_ofList]
  cases hnearest : nearestTag? r.refs r.history with
  | none =>
    have hundescribed : r.describe? index files workdir = none := by
      unfold describe?
      rw [hhead]
      simp [hnearest]
    have hcounted : r.nearest = ("0.0.0", r.history.length) := by
      unfold nearest
      rw [hnearest, Option.getD_none]
    refine ⟨r.untaggedFacts index files workdir head, ?_, ?_, htriplet ['0', '.', '0', '.', '0'], ?_,
      rfl⟩
    · unfold facts
      rw [hhead, hundescribed]
    · rw [hcounted]
      show String.ofList (VersionFacts.mainOfTag ['0', '.', '0', '.', '0']) =
        String.ofList (VersionFacts.mainOfTag "0.0.0".toList)
      decide
    · rw [hcounted]
      rfl
  | some found =>
    obtain ⟨name, distance⟩ := found
    have hcounted : r.nearest = (name, distance) := by
      unfold nearest
      rw [hnearest, Option.getD_some]
    obtain ⟨ref, ⟨href, htag, -⟩, rfl⟩ := exists_isNearest hnearest
    obtain ⟨hne, hnewline⟩ := h.isNamed_tagName href htag
    obtain ⟨text, hfacts⟩ := @facts_of_nearestTag? r head distance ref.tagName index files workdir
      hhead hnearest hne hnewline (hblank ref href htag)
    refine ⟨_, hfacts, ?_, htriplet _, ?_, rfl⟩
    · rw [hcounted]
      rfl
    · rw [hcounted]
      rfl

/-- **Changes** are those of files that are committed or staged, staged or not. -/
theorem isDirty_iff (hsnapshot : r.headSnapshot.Ascending) (hindex : index.Ascending) :
    r.isDirty index files workdir = true ↔
      ∃ path, r.headSnapshot.lookup path ≠ index.lookup path ∨
        ∃ blob, index.lookup path = some blob ∧
          files.storedBlob? r.settings workdir index path ≠ some blob := by
  unfold isDirty
  rw [Bool.or_eq_true, bne_iff_ne, List.any_eq_true]
  constructor
  · rintro (hstaged | ⟨⟨path, blob⟩, hmem, hkept⟩)
    · by_contra hnone
      refine hstaged (Snapshot.eq_of_lookup hindex hsnapshot fun path => ?_)
      by_contra hne
      exact hnone ⟨path, .inl (Ne.symm hne)⟩
    · exact ⟨path, .inr ⟨blob, (Snapshot.mem_iff_lookup hindex).mp hmem, bne_iff_ne.mp hkept⟩⟩
  · rintro ⟨path, hstaged | ⟨blob, hblob, hkept⟩⟩
    · refine .inl fun heq => hstaged ?_
      rw [heq]
    · exact .inr ⟨(path, blob), (Snapshot.mem_iff_lookup hindex).mpr hblob, bne_iff_ne.mpr hkept⟩

end

end Repository

namespace Checkout

variable {c : Checkout} {files : FileTree} {path : String}

/-- A file that is committed or staged. -/
def IsTracked (c : Checkout) (path : String) : Prop :=
  (c.repository.headSnapshot.lookup path).isSome ∨ (c.refresh.read.entries.lookup path).isSome

/-- A file that is staged other than it is committed, or kept other than it is staged. -/
def IsPending (c : Checkout) (files : FileTree) (path : String) : Prop :=
  c.repository.headSnapshot.lookup path ≠ c.refresh.read.entries.lookup path ∨
    ∃ blob, c.refresh.read.entries.lookup path = some blob ∧
      files.storedBlob? c.repository.settings c.workdir c.refresh.read.entries path ≠ some blob

theorem IsPending.isTracked (h : c.IsPending files path) : c.IsTracked path := by
  rcases h with hstaged | ⟨blob, hblob, -⟩
  · by_contra hnot
    obtain ⟨hcommitted, hentries⟩ := not_or.mp hnot
    rw [Option.not_isSome_iff_eq_none] at hcommitted hentries
    exact hstaged (hcommitted.trans hentries.symm)
  · exact .inr (Option.isSome_of_eq_some hblob)

/-- A repository that holds together, with snapshots in order. -/
structure Sound (c : Checkout) : Prop where
  repository : c.repository.Sound
  snapshot : c.repository.headSnapshot.Ascending
  entries : c.refresh.read.entries.Ascending

/-- **The facts of a checkout**: the nearest version tag and the number of commits after it, or zero
and the number of all commits; and whether a tracked file is pending. One more commit, whatever is in
it, is one more to count, and nothing is pending if it holds what the working tree does. -/
theorem facts_spec (c : Checkout) (files : FileTree) (hsound : c.Sound)
    (hhead : c.repository.headCommit?.isSome)
    (hone : Repository.OneEach c.repository.refs)
    (hblank : ∀ ref ∈ c.repository.refs, ref.IsVersionTag →
      ∀ d ∈ ref.tagName.toList.head?, Text.isBlank d = false) :
    ∃ facts, VersionControl.facts c files = .ok facts ∧
      ((∃ ref distance,
          (∀ s d, Repository.IsNearest c.repository.refs c.repository.history s d ↔
            s = ref ∧ d = distance) ∧
          facts.main = String.ofList (VersionFacts.mainOfTag ref.tagName.toList) ∧
          facts.distance = UInt64.ofNat distance) ∨
        ((∀ s ∈ c.repository.refs, s.IsVersionTag → s.target ∉ c.repository.history) ∧
          facts.main = "0.0.0" ∧
          facts.distance = UInt64.ofNat c.repository.history.length)) ∧
      facts.triplet = Triplet.ofChars facts.main.toList ∧
      (facts.dirty = true ↔ ∃ path, c.IsTracked path ∧ c.IsPending files path) ∧
      ∀ entries message files', ∃ facts',
        VersionControl.facts (c.withCommit entries message) files' = .ok facts' ∧
        facts'.distance = facts.distance + 1 ∧ facts'.main = facts.main ∧
        facts'.triplet = facts.triplet ∧
        ((∀ path blob, (path, blob) ∈ entries →
            files'.storedBlob? c.repository.settings c.workdir entries path = some blob) →
          facts'.dirty = false) := by
  obtain ⟨facts, hfacts, hmain, htriplet, hdistance, hdirty⟩ :=
    hsound.repository.exists_facts hhead hblank c.refresh.read.entries files c.workdir
  refine ⟨facts, hfacts, ?_, htriplet, ?_, fun entries message files' => ?_⟩
  · rw [hmain, hdistance]
    unfold Repository.nearest
    cases hnearest : Repository.nearestTag? c.repository.refs c.repository.history with
    | none =>
      have hzero : String.ofList (VersionFacts.mainOfTag "0.0.0".toList) = "0.0.0" := by decide
      exact .inr ⟨Repository.nearestTag?_eq_none_iff.mp hnearest, hzero, rfl⟩
    | some found =>
      obtain ⟨name, distance⟩ := found
      obtain ⟨ref, href, rfl⟩ := Repository.exists_isNearest hnearest
      refine .inl ⟨ref, distance, fun s d => ⟨href.unique hone, ?_⟩, rfl, rfl⟩
      rintro ⟨rfl, rfl⟩
      exact href
  · rw [hdirty, Repository.isDirty_iff hsound.snapshot hsound.entries]
    exact ⟨fun ⟨path, h⟩ => ⟨path, IsPending.isTracked h, h⟩, fun ⟨path, _, h⟩ => ⟨path, h⟩⟩
  · -- the commit adds no version tag, and its files are read as they were staged
    have hstaged : (c.save entries).repository.Sound := hsound.repository.staged entries
    have hread : (c.withCommit entries message).refresh.read.entries = entries :=
      entries_refresh_of_saved rfl (Repository.index_commit _ message)
    have hnearest : ((c.save entries).repository.commit message).nearest =
        (c.repository.nearest.1, c.repository.nearest.2 + 1) :=
      Repository.nearest_commit hstaged message
    have hblank' : ∀ ref ∈ ((c.save entries).repository.commit message).refs, ref.IsVersionTag →
        ∀ d ∈ ref.tagName.toList.head?, Text.isBlank d = false := by
      intro ref href htag
      rcases Repository.mem_refs_commit href with hold | ⟨hnone, -, -⟩
      · exact hblank ref hold htag
      · obtain ⟨tag, hname, -⟩ := htag
        exact absurd (hname.symm.trans hnone) nofun
    obtain ⟨facts', hfacts', hmain', htriplet', hdistance', hdirty'⟩ :=
      (hstaged.commit message).exists_facts
        (Option.isSome_of_eq_some (Repository.headCommit?_commit _ message)) hblank' entries files'
        c.workdir
    rw [hnearest] at hmain' hdistance'
    refine ⟨facts', ?_, ?_, hmain'.trans hmain.symm, ?_, fun hkept => ?_⟩
    · show ((c.withCommit entries message).repository).facts
        (c.withCommit entries message).refresh.read.entries files' _ = _
      rw [hread]
      exact hfacts'
    · rw [hdistance', hdistance]
      exact UInt64.ofNat_add _ 1
    · rw [htriplet', htriplet, hmain', hmain]
    · have hsnapshot : ((c.save entries).repository.commit message).headSnapshot = entries :=
        Repository.headSnapshot_commit _ message
      have hsettings : ((c.save entries).repository.commit message).settings =
          c.repository.settings := Repository.settings_commit _ message
      rw [hdirty']
      refine Versioning.isDirty_eq_false hsnapshot.symm ?_
      rw [hsettings]
      exact hkept

/-- A checkout of three commits with a change that is not staged. Of its tags the nearest one has no
point, and the other one is annotated. -/
def counted : Checkout where
  repository :=
    { commits :=
        [{ parent := none, message := "first", snapshot := [("a", ⟨⟨#[65]⟩, .file⟩)] },
         { parent := some 0, message := "second", snapshot := [("a", ⟨⟨#[66]⟩, .file⟩)] },
         { parent := some 1, message := "third", snapshot := [("a", ⟨⟨#[67]⟩, .file⟩)] }]
      head := .branch "master"
      refs :=
        [⟨"refs/heads/master", 2, none⟩, ⟨"refs/tags/2", 1, none⟩,
         ⟨"refs/tags/v1.2", 0, some ⟨"v1.2", "Version 1.2", 5⟩⟩]
      index := [("a", ⟨⟨#[67]⟩, .file⟩)]
      hasIdentity := true
      remotes := [] }
  staging := none
  workdir := []
  remote := "origin"
  now := 7

/-- Two commits after a version tag, with a tag that is none in between and a file that is not
tracked. -/
theorem facts_spec_counted :
    let files : FileTree := ⟨[(["a"], .file ⟨#[68]⟩ 0o644), (["b"], .file ⟨#[69]⟩ 0o644)]⟩
    counted.Sound ∧ Repository.OneEach counted.repository.refs ∧
      ∃ facts, VersionControl.facts counted files = .ok facts ∧ facts.main = "1.2" ∧
        facts.triplet = ⟨1, 2, 0⟩ ∧ facts.distance = 2 ∧ facts.dirty = true ∧
        ∃ facts', VersionControl.facts
            (counted.withCommit [("a", ⟨⟨#[68]⟩, .file⟩)] "fourth") files = .ok facts' ∧
          facts'.main = "1.2" ∧ facts'.triplet = ⟨1, 2, 0⟩ ∧ facts'.distance = 3 ∧
          facts'.dirty = false := by
  intro files
  have hhistory : counted.repository.history = [2, 1, 0] := by decide +kernel
  have hsound : counted.Sound :=
    ⟨⟨by decide, nofun, by decide +kernel, by decide +kernel⟩, by decide, by decide⟩
  have hone : Repository.OneEach counted.repository.refs := by
    unfold Repository.OneEach
    decide
  have hblank : ∀ ref ∈ counted.repository.refs, ref.IsVersionTag →
      ∀ d ∈ ref.tagName.toList.head?, Text.isBlank d = false := by
    have hletter : ∀ ref ∈ counted.repository.refs, ref.IsVersionTag →
        ref.tagName.toList.head? = some 'v' := by decide
    intro ref href htag d hd
    obtain rfl : 'v' = d := Option.some.inj ((hletter ref href htag).symm.trans hd)
    decide
  obtain ⟨facts, hfacts, hmeasured, htriplet, hdirty, hnext⟩ :=
    facts_spec counted files hsound (by decide) hone hblank
  have hnearest : Repository.IsNearest counted.repository.refs counted.repository.history
      ⟨"refs/tags/v1.2", 0, some ⟨"v1.2", "Version 1.2", 5⟩⟩ 2 :=
    ⟨by decide, by decide, [2, 1], [], hhistory, rfl, by decide⟩
  have hmain : facts.main = "1.2" ∧ facts.distance = 2 := by
    rcases hmeasured with ⟨ref, distance, hiff, hmain, hdistance⟩ | ⟨hnone, -, -⟩
    · obtain ⟨rfl, rfl⟩ := (hiff _ _).mp hnearest
      exact ⟨hmain.trans (by decide), hdistance⟩
    · refine absurd ?_ (hnone _ hnearest.1 hnearest.2.1)
      rw [hhistory]
      decide
  have hpending : counted.IsPending files "a" := .inr ⟨⟨⟨#[67]⟩, .file⟩, by decide, by decide +kernel⟩
  obtain ⟨facts', hfacts', hdistance', hmain', htriplet', hclean⟩ :=
    hnext [("a", ⟨⟨#[68]⟩, .file⟩)] "fourth" files
  have htriplet₀ : facts.triplet = ⟨1, 2, 0⟩ := by
    rw [htriplet, hmain.1]
    decide
  refine ⟨hsound, hone, facts, hfacts, hmain.1, htriplet₀, hmain.2,
    hdirty.mpr ⟨"a", hpending.isTracked, hpending⟩, facts', hfacts', hmain'.trans hmain.1,
    htriplet'.trans htriplet₀, ?_, hclean fun path blob hmem => ?_⟩
  · rw [hdistance', hmain.2]
    rfl
  · obtain ⟨rfl, rfl⟩ := Prod.mk.inj (List.mem_singleton.mp hmem)
    decide +kernel

/-- A checkout of one commit, without a remote. -/
def unpublished : Checkout :=
  { untagged with repository := { untagged.repository with remotes := [] } }

/-- A checkout whose commit has an annotated tag under another name than it was given. -/
def renamed : Checkout :=
  { unpublished with
    repository := { unpublished.repository with
      refs :=
        [⟨"refs/heads/master", 0, none⟩, ⟨"refs/tags/v2.0.0", 0, some ⟨"v1.0.0", "Version 1.0.0", 1⟩⟩] } }

/-- **The name of an annotated tag** is not always that of its reference: it stays with the tag when
the reference is renamed, and where slashes meet in it the reference has one of them only. What is read
is the name that the tag was given. -/
theorem not_facts_refName :
    (∃ ref tag facts, Repository.IsNearest renamed.repository.refs renamed.repository.history ref 0 ∧
      RefName.tag? ref.name = some tag ∧ String.ofList (VersionFacts.mainOfTag tag.toList) = "2.0.0" ∧
      VersionControl.facts renamed ⟨[]⟩ = .ok facts ∧ facts.main = "1.0.0") ∧
    (unpublished.applyTag true "1//2.0").result = .ok () ∧
    let tagged := (unpublished.applyTag true "1//2.0").state
    ∃ ref tag facts, Repository.IsNearest tagged.repository.refs tagged.repository.history ref 0 ∧
      RefName.tag? ref.name = some tag ∧ String.ofList (VersionFacts.mainOfTag tag.toList) = "1/2.0" ∧
      VersionControl.facts tagged ⟨[]⟩ = .ok facts ∧ facts.main = "1//2.0" := by
  refine ⟨⟨⟨"refs/tags/v2.0.0", 0, some ⟨"v1.0.0", "Version 1.0.0", 1⟩⟩, "v2.0.0",
    ⟨"1.0.0", ⟨1, 0, 0⟩, 0, some "ga3c59b1", false, some "v1.0.0-0-ga3c59b1"⟩, ?_, ?_⟩, ?_, ?_⟩
  · exact ⟨by decide, by decide, [], [], by decide +kernel, rfl, fun _ _ _ => List.not_mem_nil⟩
  · decide +kernel
  · decide +kernel
  · refine ⟨⟨"refs/tags/v1/2.0", 0, some ⟨"v1//2.0", "Version 1//2.0", 1⟩⟩, "v1/2.0",
      ⟨"1//2.0", ⟨1, 0, 0⟩, 0, some "ga3c59b1", false, some "v1//2.0-0-ga3c59b1"⟩, ?_, ?_⟩
    · exact ⟨by decide +kernel, by decide, [], [], by decide +kernel, rfl,
        fun _ _ _ => List.not_mem_nil⟩
    · decide +kernel

end Checkout

end TagVersion
