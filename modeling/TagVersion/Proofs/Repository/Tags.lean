import TagVersion.Proofs.Repository.Commits
import TagVersion.Proofs.Version.Descriptions
import TagVersion.Proofs.Version.Triplets
import TagVersion.Strategy.Rendering

/-!
# What a tag says

A tag on the commit that is checked out is its nearest version tag, if there is a point in its name
and no other tag stands beside it. What is read back is then the version that was tagged. A tag
without a point is none of a version, and changes nothing of what is read.

* **`RefName.joined_ofTag`**: under which name a tag is kept.
* **`Repository.versionTags_putRef`**: a new reference among the version tags.
* **`Repository.facts_of_nearestTag?`**: what is read off the nearest version tag.
* **`Checkout.facts_applyTag`**: what is read off a checkout that was tagged.
-/

namespace TagVersion

theorem Text.mem_intercalate_iff {c sep : Char} (h : c ≠ sep) (pieces : List (List Char)) :
    c ∈ [sep].intercalate pieces ↔ ∃ piece ∈ pieces, c ∈ piece := by
  induction pieces with
  | nil => simp
  | cons piece pieces ih =>
    cases pieces with
    | nil => simp
    | cons next pieces =>
      rw [List.intercalate_cons_cons, List.mem_append, List.mem_append, ih]
      simp [h]

namespace RefName

variable {name tag : String} {c : Char}

/-! ## Names of tags -/

theorem mem_iff_exists_segment (h : c ≠ '/') :
    c ∈ name.toList ↔ ∃ segment ∈ name.toList.splitOn '/', c ∈ segment := by
  rw [← Text.mem_intercalate_iff h, List.intercalate_splitOn]

/-- Joining takes away slashes only. -/
theorem mem_joined_iff (h : c ≠ '/') : c ∈ (joined name).toList ↔ c ∈ name.toList := by
  have hne := List.splitOn_ne_nil '/' name.toList
  rw [@mem_iff_exists_segment name c h]
  unfold joined
  simp only [String.toList_ofList]
  rw [Text.mem_intercalate_iff h, List.getLast?_eq_some_getLast hne, Option.toList_some]
  -- a segment that is left out has no characters
  conv_rhs => rw [← List.dropLast_append_getLast hne]
  constructor
  · rintro ⟨segment, hsegment, hc⟩
    refine ⟨segment, ?_, hc⟩
    rcases List.mem_append.mp hsegment with hsegment | hsegment
    · exact List.mem_append_left _ (List.mem_of_mem_filter hsegment)
    · exact List.mem_append_right _ hsegment
  · rintro ⟨segment, hsegment, hc⟩
    refine ⟨segment, ?_, hc⟩
    rcases List.mem_append.mp hsegment with hsegment | hsegment
    · refine List.mem_append_left _ (List.mem_filter.mpr ⟨hsegment, bne_iff_ne.mpr ?_⟩)
      exact List.ne_nil_of_mem hc
    · exact List.mem_append_right _ hsegment

theorem splitOn_ofTag (tag : String) :
    (ofTag tag).toList.splitOn '/' =
      "refs".toList :: "tags".toList :: tag.toList.splitOn '/' := by
  obtain ⟨first, rest, hsplit⟩ : ∃ first rest, tag.toList.splitOn '/' = first :: rest :=
    List.exists_cons_of_ne_nil (List.splitOn_ne_nil '/' _)
  unfold ofTag tagLead
  unfold List.splitOn at hsplit ⊢
  simp [List.splitOnP_cons_eq_if_modifyHead, hsplit]

/-- **A tag** is kept under its name, in which slashes that meet count once. -/
theorem joined_ofTag (tag : String) : joined (ofTag tag) = ofTag (joined tag) := by
  obtain ⟨first, rest, hsplit⟩ : ∃ first rest, tag.toList.splitOn '/' = first :: rest :=
    List.exists_cons_of_ne_nil (List.splitOn_ne_nil '/' _)
  have hlast := List.getLast?_eq_some_getLast (List.cons_ne_nil first rest)
  -- the two segments before the tag are kept, and something follows them
  obtain ⟨segment, segments, hsegments⟩ : ∃ segment segments,
      (first :: rest).dropLast.filter (· != []) ++ [(first :: rest).getLast (List.cons_ne_nil _ _)] =
        segment :: segments :=
    List.exists_cons_of_ne_nil (by simp)
  unfold joined
  rw [splitOn_ofTag, hsplit]
  simp only [List.dropLast_cons_cons, List.getLast?_cons_cons, hlast, Option.toList_some]
  rw [hsegments, List.filter_cons_of_pos (by decide), List.filter_cons_of_pos (by decide),
    List.cons_append, List.cons_append, hsegments, List.intercalate_cons_cons,
    List.intercalate_cons_cons]
  apply String.toList_injective
  unfold ofTag tagLead
  simp

theorem tag?_ofTag (tag : String) : tag? (ofTag tag) = some tag := by
  unfold tag? after? ofTag
  simp

theorem branch?_ofTag (tag : String) : branch? (ofTag tag) = none := by
  unfold branch? after? ofTag tagLead
  simp

theorem branch?_ofBranch (branch : String) : branch? (ofBranch branch) = some branch := by
  unfold branch? after? ofBranch
  simp

theorem ofTag_ne_ofBranch (tag branch : String) : ofTag tag ≠ ofBranch branch := by
  intro h
  have hbranch := branch?_ofBranch branch
  rw [← h, branch?_ofTag] at hbranch
  exact absurd hbranch nofun

/-- A name that is valid is free of forbidden characters. -/
theorem not_mem_of_isValid (hvalid : isValid name = true) (hforbidden : isForbidden c = true)
    (h : c ≠ '/') : c ∉ name.toList := by
  rw [mem_iff_exists_segment h]
  rintro ⟨segment, hsegment, hc⟩
  unfold isValid at hvalid
  have hall := List.all_eq_true.mp (Bool.and_eq_true_iff.mp hvalid).1 segment hsegment
  unfold isSegment at hall
  simp only [Bool.and_eq_true, Bool.not_eq_true', List.any_eq_false] at hall
  exact hall.1.1.1.2 c hc hforbidden

/-- A tag that can be set lies on one line. -/
theorem newline_not_mem_of_isValid (h : isValid (joined (ofTag tag)) = true) :
    '\n' ∉ tag.toList := by
  have hname := not_mem_of_isValid h (c := '\n') (by decide) (by decide)
  rw [mem_joined_iff (by decide)] at hname
  intro hmem
  refine hname ?_
  unfold ofTag
  simp [hmem]

end RefName

namespace Repository

variable {r : Repository} {refs : List Ref} {ref : Ref} {commit head distance : Nat} {tag : String}

/-! ## Version tags -/

/-- A new reference is put between the others. -/
theorem exists_putRef_eq (hnew : ref? refs ref.name = none) :
    ∃ before after, refs = before ++ after ∧ putRef refs ref = before ++ ref :: after := by
  induction refs with
  | nil => exact ⟨[], [], rfl, rfl⟩
  | cons s rest ih =>
    unfold ref? at hnew ih
    have hne : ¬ (s.name == ref.name) = true :=
      fun heq => List.find?_eq_none.mp hnew s List.mem_cons_self heq
    have hrest : rest.find? (·.name == ref.name) = none :=
      List.find?_eq_none.mpr fun t ht => List.find?_eq_none.mp hnew t (List.mem_cons_of_mem s ht)
    rw [putRef]
    split
    · exact ⟨[], s :: rest, rfl, rfl⟩
    · obtain ⟨before, after, hrest, hput⟩ := ih hrest
      rw [if_neg fun heq => hne (beq_iff_eq.mpr heq.symm), hput, hrest]
      exact ⟨s :: before, after, rfl, rfl⟩

theorem versionTags_append (refs refs' : List Ref) (commit : Nat) :
    versionTags (refs ++ refs') commit = versionTags refs commit ++ versionTags refs' commit :=
  List.filterMap_append

/-- **A new reference** takes nothing from the version tags of a commit, and they take nothing from
it. -/
theorem versionTags_putRef (hnew : ref? refs ref.name = none) (commit : Nat) :
    (versionTags [ref] commit = [] →
      versionTags (putRef refs ref) commit = versionTags refs commit) ∧
    (versionTags refs commit = [] →
      versionTags (putRef refs ref) commit = versionTags [ref] commit) := by
  -- version tags are read off the references one by one
  obtain ⟨before, after, hrefs, hput⟩ := exists_putRef_eq hnew
  rw [hput, hrefs, List.append_cons, List.append_assoc, versionTags_append, versionTags_append,
    versionTags_append]
  refine ⟨?_, ?_⟩
  · intro href
    rw [href, List.nil_append]
  · intro hothers
    obtain ⟨hbefore, hafter⟩ := List.append_eq_nil_iff.mp hothers
    rw [hbefore, hafter, List.nil_append, List.append_nil]

theorem versionTags_of_tag (tag : String) (target : Nat) (note : TagNote) (commit : Nat) :
    versionTags [⟨RefName.ofTag tag, target, some note⟩] commit =
      if target = commit ∧ '.' ∈ tag.toList then
        [(⟨RefName.ofTag tag, target, some note⟩, note.name)]
      else [] := by
  unfold versionTags isVersionTag
  rw [List.filterMap_cons]
  simp only [RefName.tag?_ofTag]
  by_cases h : target = commit ∧ '.' ∈ tag.toList
  · rw [if_pos h]
    simp [h.1, h.2]
  · rw [if_neg h]
    have hno : ¬ (target == commit && tag.toList.contains '.') = true := by simpa using h
    rw [if_neg hno]
    rfl

/-- A commit without tags has no version tags. -/
theorem versionTags_eq_nil (h : ∀ r ∈ refs, (RefName.tag? r.name).isSome → r.target ≠ commit) :
    versionTags refs commit = [] := by
  unfold versionTags
  rw [List.filterMap_eq_nil_iff]
  intro r hr
  cases htag : RefName.tag? r.name with
  | none => rfl
  | some tag =>
    have htarget := h r hr (by rw [htag]; rfl)
    simp [htarget]

theorem bestTag?_of_versionTags (h : versionTags refs commit = [(ref, tag)]) :
    bestTag? refs commit = some tag := by
  unfold bestTag?
  rw [h]
  rfl

theorem bestTag?_congr {refs' : List Ref}
    (h : versionTags refs' commit = versionTags refs commit) :
    bestTag? refs' commit = bestTag? refs commit := by
  unfold bestTag?
  rw [h]

theorem nearestTag?_congr {refs' : List Ref}
    (h : ∀ commit, bestTag? refs' commit = bestTag? refs commit) (history : List Nat) :
    nearestTag? refs' history = nearestTag? refs history := by
  induction history with
  | nil => rfl
  | cons commit older ih => rw [nearestTag?, nearestTag?, h, ih]

theorem exists_history_eq (h : r.headCommit? = some head) :
    ∃ older, r.history = head :: older := by
  unfold history
  rw [h]
  unfold ancestry
  exact ⟨_, rfl⟩

theorem nearestTag?_of_bestTag? (hhead : r.headCommit? = some head)
    (h : bestTag? refs head = some tag) : nearestTag? refs r.history = some (tag, 0) := by
  obtain ⟨older, hhistory⟩ := exists_history_eq hhead
  rw [hhistory, nearestTag?, h]

/-! ## What is read off the nearest tag -/

/-- **The nearest version tag** gives the facts of what is checked out. -/
theorem facts_of_nearestTag? {index : Snapshot} {files : FileTree} {workdir : Location}
    (hhead : r.headCommit? = some head)
    (hnearest : nearestTag? r.refs r.history = some (tag, distance)) (hne : tag.toList ≠ [])
    (hnewline : '\n' ∉ tag.toList) (hblank : ∀ c ∈ tag.toList.head?, Text.isBlank c = false) :
    ∃ text, r.facts index files workdir =
      .ok { VersionFacts.ofTag tag.toList (UInt64.ofNat distance)
              (some (String.ofList ('g' :: r.ids.abbreviated head))) (r.isDirty index files workdir) with
            described := some text } := by
  have hdescribed : r.describe? index files workdir =
      some ⟨tag.toList, UInt64.ofNat distance, r.ids.abbreviated head,
        r.isDirty index files workdir⟩ := by
    unfold describe?
    rw [hhead]
    simp [hnearest]
  have hlegible : Description.Legible ⟨tag.toList, UInt64.ofNat distance, r.ids.abbreviated head,
      r.isDirty index files workdir⟩ :=
    ⟨hne, hnewline, r.ids.abbreviated_ne_nil head, r.ids.isHexDigit head⟩
  unfold facts
  rw [hhead, hdescribed]
  simp only [VersionFacts.ofDescription?_chars hlegible hblank]
  exact ⟨_, rfl⟩

/-- References that lead to the same nearest tag give the same facts. -/
theorem facts_congr {r' : Repository} {index : Snapshot} {files : FileTree} {workdir : Location}
    (hcommits : r'.commits = r.commits) (hids : r'.ids = r.ids)
    (hsettings : r'.settings = r.settings) (hhead : r'.headCommit? = r.headCommit?)
    (hbest : ∀ commit, bestTag? r'.refs commit = bestTag? r.refs commit) :
    r'.facts index files workdir = r.facts index files workdir := by
  have hhistory : r'.history = r.history := by
    unfold history
    rw [hhead, hcommits]
  have hdirty : r'.isDirty index files workdir = r.isDirty index files workdir := by
    unfold isDirty headSnapshot
    rw [hhead, hcommits, hsettings]
  have hdescribed : r'.describe? index files workdir = r.describe? index files workdir := by
    unfold describe?
    rw [hhead, hhistory, hdirty, hids, nearestTag?_congr hbest]
  unfold facts
  rw [hhead, hdescribed]
  unfold untaggedFacts
  rw [hhistory, hdirty, hids]

end Repository

namespace Checkout

variable {c : Checkout} {version : String} {files : FileTree} {target : Nat}

/-! ## Reading back what was tagged -/

theorem toList_releaseTag (version : String) :
    (releaseTag version).toList = 'v' :: version.toList := by
  unfold releaseTag
  simp

/-- The tag of a version without the slashes that meet in it. -/
def keptTag (version : String) : String := RefName.joined (releaseTag version)

theorem tagRef_eq_ofTag (version : String) : tagRef version = RefName.ofTag (keptTag version) :=
  RefName.joined_ofTag (releaseTag version)

theorem mem_keptTag_iff {d : Char} (hslash : d ≠ '/') (hletter : d ≠ 'v') :
    d ∈ (keptTag version).toList ↔ d ∈ version.toList := by
  unfold keptTag releaseTag
  rw [RefName.mem_joined_iff hslash]
  simp [hletter]

/-- Publishing a tag is noticed by the remote only. -/
theorem exists_remotes_of_publish (tag : String) (log : List LogRecord) :
    ∃ remotes, (c.publish (RefName.ofTag tag) log).state =
      { c with repository := { c.repository with remotes } } := by
  obtain ⟨refs, remotes, hstate, hrefs⟩ := exists_state_publish c (RefName.ofTag tag) log
  rw [hrefs (RefName.branch?_ofTag tag)] at hstate
  exact ⟨remotes, hstate⟩

theorem headCommit?_tagged (c : Checkout) (target : Nat) (version : String) :
    (c.tagged target version).repository.headCommit? = c.repository.headCommit? := by
  show Repository.headCommit? { c.repository with refs := _ } = _
  unfold Repository.headCommit?
  cases c.repository.head with
  | detached commit => rfl
  | branch name =>
    simp only
    rw [Repository.ref?_putRef, tagRef_eq_ofTag, if_neg (RefName.ofTag_ne_ofBranch _ name).symm]

theorem headSnapshot_tagged (c : Checkout) (target : Nat) (version : String) :
    (c.tagged target version).repository.headSnapshot = c.repository.headSnapshot := by
  unfold Repository.headSnapshot
  rw [headCommit?_tagged]
  rfl

/-- What a checkout is once a tag was set and published. -/
theorem exists_state_of_applyTag (h : (c.applyTag true version).result = .ok ()) :
    ∃ target remotes, c.repository.headCommit? = some target ∧
      RefName.isValid (tagRef version) = true ∧
      Repository.ref? c.repository.refs (tagRef version) = none ∧
      (c.applyTag true version).state =
        { c.tagged target version with
          repository := { (c.tagged target version).repository with remotes } } := by
  obtain ⟨target, log, htarget, hvalid, hnew, happly⟩ := exists_publish_of_applyTag h
  obtain ⟨remotes, hstate⟩ :=
    @exists_remotes_of_publish (c.tagged target version) (releaseTag version) log
  exact ⟨target, remotes, htarget, hvalid, hnew, by rw [happly, hstate]⟩

/-- A tag with a point is the only version tag of a commit that had none. -/
theorem bestTag?_tagged (hnew : Repository.ref? c.repository.refs (tagRef version) = none)
    (hnone : Repository.versionTags c.repository.refs target = []) (hpoint : '.' ∈ version.toList) :
    Repository.bestTag? (c.tagged target version).repository.refs target =
      some (releaseTag version) := by
  have hpointed : '.' ∈ (keptTag version).toList :=
    (mem_keptTag_iff (by decide) (by decide)).mpr hpoint
  have htags := (@Repository.versionTags_putRef c.repository.refs
    ⟨tagRef version, target, some ⟨releaseTag version, releaseMessage version, c.now⟩⟩
    hnew target).2 hnone
  rw [tagRef_eq_ofTag, Repository.versionTags_of_tag, if_pos ⟨rfl, hpointed⟩,
    ← tagRef_eq_ofTag] at htags
  exact Repository.bestTag?_of_versionTags htags

/-- A tag without a point is no version tag. -/
theorem bestTag?_tagged_of_not_mem
    (hnew : Repository.ref? c.repository.refs (tagRef version) = none)
    (hpoint : '.' ∉ version.toList) (commit : Nat) :
    Repository.bestTag? (c.tagged target version).repository.refs commit =
      Repository.bestTag? c.repository.refs commit := by
  have hpointless : '.' ∉ (keptTag version).toList :=
    fun h => hpoint ((mem_keptTag_iff (by decide) (by decide)).mp h)
  refine Repository.bestTag?_congr ((@Repository.versionTags_putRef c.repository.refs
    ⟨tagRef version, target, some ⟨releaseTag version, releaseMessage version, c.now⟩⟩
    hnew commit).1 ?_)
  rw [tagRef_eq_ofTag, Repository.versionTags_of_tag, if_neg fun h => hpointless h.2]

/-- **What was tagged** is read back: no commit lies between it and what is checked out, and the
version is the text that was tagged. -/
theorem facts_applyTag (files : FileTree) (hpoint : '.' ∈ version.toList)
    (hbare : ∀ r ∈ c.repository.refs, (RefName.tag? r.name).isSome →
      c.repository.headCommit? ≠ some r.target)
    (h : (c.applyTag true version).result = .ok ()) :
    ∃ facts, VersionControl.facts (c.applyTag true version).state files = .ok facts ∧
      facts.distance = 0 ∧
      facts.main = String.ofList (VersionFacts.mainOfTag version.toList) ∧
      facts.triplet = Triplet.ofChars (VersionFacts.mainOfTag version.toList) := by
  obtain ⟨target, remotes, htarget, hvalid, hnew, hstate⟩ := exists_state_of_applyTag h
  -- the new tag is the best one of its commit, and no commit is nearer
  have hbest := bestTag?_tagged hnew (Repository.versionTags_eq_nil fun r hr hsome htargets =>
    hbare r hr hsome (htargets ▸ htarget)) hpoint
  have hhead : (c.applyTag true version).state.repository.headCommit? = some target := by
    rw [hstate]
    exact (headCommit?_tagged c target version).trans htarget
  have hnearest : Repository.nearestTag? (c.applyTag true version).state.repository.refs
      (c.applyTag true version).state.repository.history = some (releaseTag version, 0) := by
    refine Repository.nearestTag?_of_bestTag? hhead ?_
    rw [hstate]
    exact hbest
  obtain ⟨text, hfacts⟩ := Repository.facts_of_nearestTag? hhead hnearest
    (by rw [toList_releaseTag]; exact List.cons_ne_nil _ _) (RefName.newline_not_mem_of_isValid hvalid)
    (by rw [toList_releaseTag]; intro d hd; obtain rfl := Option.some.inj hd; decide)
  refine ⟨_, hfacts, rfl, ?_, ?_⟩
  · show String.ofList (VersionFacts.mainOfTag (releaseTag version).toList) = _
    rw [toList_releaseTag, VersionFacts.mainOfTag_cons]
  · show Triplet.ofChars (VersionFacts.mainOfTag (releaseTag version).toList) = _
    rw [toList_releaseTag, VersionFacts.mainOfTag_cons]

/-- **A tag without a point** changes nothing of what is read. -/
theorem facts_applyTag_of_not_mem (files : FileTree) (hpoint : '.' ∉ version.toList)
    (h : (c.applyTag true version).result = .ok ()) :
    VersionControl.facts (c.applyTag true version).state files =
      VersionControl.facts c files := by
  obtain ⟨target, remotes, -, -, hnew, hstate⟩ := exists_state_of_applyTag h
  have hhead : (c.applyTag true version).state.repository.headCommit? =
      c.repository.headCommit? := by
    rw [hstate]
    exact headCommit?_tagged c target version
  -- the staged files are read as before, since the same commit is checked out
  have hentries : (c.applyTag true version).state.refresh.read.entries =
      c.refresh.read.entries := by
    unfold refresh
    rw [hhead, hstate]
    cases c.repository.headCommit?.isNone <;> rfl
  show (c.applyTag true version).state.repository.facts
    (c.applyTag true version).state.refresh.read.entries files _ = _
  rw [hentries]
  rw [hstate] at hhead ⊢
  exact Repository.facts_congr rfl rfl rfl hhead (bestTag?_tagged_of_not_mem hnew hpoint)

/-! ### A tag beside none -/

/-- A checkout of one commit, with a remote. -/
def untagged : Checkout where
  repository :=
    { commits := [{ parent := none, message := "first", snapshot := [] }]
      head := .branch "master"
      refs := [⟨"refs/heads/master", 0, none⟩]
      index := []
      hasIdentity := true
      remotes := [("origin", some [])] }
  staging := none
  workdir := []
  remote := "origin"
  now := 1

/-- What looks like the end of a description may stand in a version. -/
theorem facts_applyTag_dirty :
    ∃ facts, VersionControl.facts (untagged.applyTag true "1.2-3-gab-dirty").state ⟨[]⟩ =
        .ok facts ∧
      facts.distance = 0 ∧ facts.main = "1.2-3-gab-dirty" ∧ facts.triplet = ⟨1, 2, 0⟩ := by
  obtain ⟨facts, hfacts, hdistance, hmain, htriplet⟩ :=
    @facts_applyTag untagged "1.2-3-gab-dirty" ⟨[]⟩ (by decide) (by decide) (by decide +kernel)
  exact ⟨facts, hfacts, hdistance, hmain.trans (by decide), htriplet.trans (by decide)⟩

/-- **A version without a point** is tagged, but what is read back, and with it the next version, is
what it was. -/
theorem not_facts_applyTag :
    (Strategy.ofText "{major}").problem? = none ∧
      (untagged.applyTag true "1").result = .ok () ∧
      ∃ facts, VersionControl.facts untagged ⟨[]⟩ = .ok facts ∧
        (Strategy.ofText "{major}").bump [] .major facts = .ok "1" ∧
        VersionControl.facts (untagged.applyTag true "1").state ⟨[]⟩ = .ok facts ∧
        facts.distance = 1 ∧ facts.main = "0.0.0" := by
  refine ⟨by decide +kernel, by decide +kernel, ?_⟩
  refine ⟨VersionFacts.ofTag ['0', '.', '0', '.', '0'] 1 (some "ga3c59b1") false, ?_⟩
  decide +kernel

end Checkout

end TagVersion
