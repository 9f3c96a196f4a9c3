import TagVersion.Proofs.Filling.Problems

/-!
# Filling in again and again

The version of a project is filled in by one call after the other, while its files and its source
control change in between. Each call does to the metadata what one fill of the field does, or
nothing, and which of these it is does not depend on the fields. So a run of calls is a history of
fills, and its first fill is what every later version text is compared with.

* **`Call`**, **`Call.operation?`**: a call, and the operation on the metadata that it comes to.
* **`Call.cases_of_not_owned`**: what one call leaves and what it remarks on.
* **`fillAll_eq_run`**: a run of calls on a version that nothing has defined.
* **`versionMismatch_iff_of_filled`**: when a version text is found to differ from an earlier fill.
-/

namespace TagVersion

open Metadata (Operation)

namespace Versioning

def seeding : Operation :=
  .autoFill Metadata.versionKey ⟨"missing", "0.0.0"⟩ false

def filling (rendered : String) : Operation :=
  .autoFill Metadata.versionKey ⟨"git", rendered⟩ true

theorem filling_injective {rendered rendered' : String} (h : filling rendered = filling rendered') :
    rendered = rendered' := by
  have hentry := congrArg (fun op => op.entry.value) h
  exact hentry

theorem seeding_ne_filling (rendered : String) : seeding ≠ filling rendered := by
  intro h
  have hsource : "missing" = "git" := congrArg (fun op => op.entry.source) h
  exact absurd hsource (by decide)

/-- A call to fill in a version: the workspace that it finds, and where it runs. -/
structure Call (σ : Type) where
  workspace : Workspace σ
  root : String
  host : Host

section

variable {σ : Type} [VersionControl σ]

namespace Call

def versioning (c : Call σ) (d : Option Declaration) : Versioning :=
  ofDeclaration d c.workspace.scm.isSome c.root

def fill (c : Call σ) (m : Metadata) : Filling σ (List Diagnostic) :=
  (c.versioning m.versioning).fillVersion c.host

def filled (c : Call σ) (m : Metadata) : Metadata :=
  ((c.fill m).after ⟨c.workspace, m⟩).metadata

/-- What the call remarks on; an error comes without remarks. -/
def remarks (c : Call σ) (m : Metadata) : List Diagnostic :=
  ((c.fill m).answer ⟨c.workspace, m⟩).toOption.getD []

/-- What the call does to a version that no other build system owns. -/
def operation? (c : Call σ) (d : Option Declaration) : Option Operation :=
  if (c.versioning d).enabled then
    match (c.versioning d).strategy, c.workspace.scm with
    | some s, some k =>
      match VersionControl.facts k c.workspace.files with
      | .ok facts => some (filling (s.render c.host.environment facts true))
      | .error _ => none
    | _, _ => some seeding
  else
    none

/-! ## One call -/

theorem eq_of_operation?_eq_some {c : Call σ} {d : Option Declaration} {op : Operation}
    (h : c.operation? d = some op) : op = seeding ∨ ∃ rendered, op = filling rendered := by
  unfold operation? at h
  split at h
  · split at h
    · split at h
      · exact .inr ⟨_, (Option.some.inj h).symm⟩
      · exact absurd h nofun
    · exact .inl (Option.some.inj h).symm
  · exact absurd h nofun

theorem key_of_operation?_eq_some {c : Call σ} {d : Option Declaration} {op : Operation}
    (h : c.operation? d = some op) : op.key = Metadata.versionKey := by
  obtain rfl | ⟨rendered, rfl⟩ := eq_of_operation?_eq_some h <;> rfl

theorem source_of_operation?_eq_some {c : Call σ} {d : Option Declaration} {op : Operation}
    (h : c.operation? d = some op) : op.entry.source ≠ alternateBuildSource := by
  obtain rfl | ⟨rendered, rfl⟩ := eq_of_operation?_eq_some h
  · decide
  · show "git" ≠ alternateBuildSource
    decide

/-- No version text was found to differ. -/
def Agrees (remarks : List Diagnostic) : Prop :=
  ∀ source expected current, Diagnostic.versionMismatch source expected current ∉ remarks

theorem agrees_remarks (v : Versioning) : Agrees v.remarks := by
  intro source expected current hmem
  obtain ⟨keys, hkeys⟩ := of_mem_remarks hmem
  exact absurd hkeys nofun

theorem agrees_append_problem {remarks : List Diagnostic} (h : Agrees remarks) (text : String) :
    Agrees (remarks ++ [.problem text]) := by
  intro source expected current hmem
  rcases List.mem_append.mp hmem with hmem | hmem
  · exact h source expected current hmem
  · exact absurd (List.mem_singleton.mp hmem) nofun

/-- **One call** does nothing to the metadata, seeds the version or fills it in. Only then it remarks
on a text that differs. -/
theorem cases_of_not_owned (c : Call σ) {m : Metadata} (howned : ¬ IsOwned m) :
    (c.operation? m.versioning = none ∧ c.filled m = m ∧ Agrees (c.remarks m)) ∨
    (c.operation? m.versioning = some seeding ∧ c.filled m = m.perform seeding ∧
      Agrees (c.remarks m)) ∨
    ∃ rendered, c.operation? m.versioning = some (filling rendered) ∧
      c.filled m = m.perform (filling rendered) ∧
      ∀ source expected current, Diagnostic.versionMismatch source expected current ∈ c.remarks m ↔
        mismatch? (firstDeclared? m) rendered =
          some (.versionMismatch source expected current) := by
  have hexit : Exit c.host (c.versioning m.versioning) ⟨c.workspace, m⟩
      (c.fill m ⟨c.workspace, m⟩) :=
    exit_fillVersion c.host m.versioning c.root ⟨c.workspace, m⟩
  -- the same facts that choose the exit choose the operation
  unfold filled remarks Filling.after Filling.answer
  generalize c.fill m ⟨c.workspace, m⟩ = r at hexit ⊢
  cases hexit with
  | disabled henabled =>
    have hop : c.operation? m.versioning = none := by
      unfold operation?
      rw [henabled]
      rfl
    exact .inl ⟨hop, rfl, agrees_remarks _⟩
  | owned _ howned' => exact absurd howned' howned
  | unversioned henabled _ hs hscm =>
    have hscm : c.workspace.scm = none := hscm
    have hop : c.operation? m.versioning = some seeding := by
      unfold operation?
      rw [if_pos henabled, hs, hscm]
    exact .inr (.inl ⟨hop, metadata_seeded ((c.versioning m.versioning).remarked ⟨c.workspace, m⟩),
      agrees_append_problem (agrees_remarks _) _⟩)
  | @refused s k e henabled _ hs hscm hfacts =>
    have hscm : c.workspace.scm = some k := hscm
    have hfacts : VersionControl.facts k c.workspace.files = .error e := hfacts
    have hop : c.operation? m.versioning = none := by
      unfold operation?
      rw [if_pos henabled, hs, hscm]
      simp only [hfacts]
    exact .inl ⟨hop, rfl, fun _ _ _ => List.not_mem_nil⟩
  | @filled s k facts rendered mismatches henabled _ hs hscm hfacts hrendered hmismatches =>
    have hscm : c.workspace.scm = some k := hscm
    have hfacts : VersionControl.facts k c.workspace.files = .ok facts := hfacts
    have hop : c.operation? m.versioning = some (filling rendered) := by
      unfold operation?
      rw [if_pos henabled, hs, hscm]
      simp only [hfacts, hrendered]
    refine .inr (.inr ⟨rendered, hop, rfl, fun source expected current => ?_⟩)
    show _ ∈ (c.versioning m.versioning).remarks ++ mismatches ↔ _
    -- the remarks on the declaration say nothing about version texts
    rw [← hmismatches, List.mem_append, Option.mem_toList]
    exact or_iff_right (agrees_remarks _ source expected current)

theorem filled_eq (c : Call σ) {m : Metadata} (howned : ¬ IsOwned m) :
    c.filled m = m.run (c.operation? m.versioning).toList := by
  rcases c.cases_of_not_owned howned with ⟨hop, hfilled, -⟩ | ⟨hop, hfilled, -⟩ |
    ⟨rendered, hop, hfilled, -⟩ <;> rw [hop, hfilled] <;> rfl

theorem versionMismatch_mem_remarks_iff (c : Call σ) {m : Metadata} (howned : ¬ IsOwned m)
    (source expected current : String) :
    Diagnostic.versionMismatch source expected current ∈ c.remarks m ↔
      ∃ rendered, c.operation? m.versioning = some (filling rendered) ∧
        mismatch? (firstDeclared? m) rendered =
          some (.versionMismatch source expected current) := by
  rcases c.cases_of_not_owned howned with ⟨hop, -, hagrees⟩ | ⟨hop, -, hagrees⟩ |
    ⟨rendered, hop, -, hremarks⟩
  · refine iff_of_false (hagrees source expected current) ?_
    rintro ⟨rendered, hfilling, -⟩
    exact absurd (hop.symm.trans hfilling) nofun
  · refine iff_of_false (hagrees source expected current) ?_
    rintro ⟨rendered, hfilling, -⟩
    exact absurd (Option.some.inj (hop.symm.trans hfilling)) (seeding_ne_filling rendered)
  · rw [hremarks]
    constructor
    · exact fun hmismatch => ⟨rendered, hop, hmismatch⟩
    · rintro ⟨rendered', hfilling, hmismatch⟩
      obtain rfl := filling_injective (Option.some.inj (hop.symm.trans hfilling))
      exact hmismatch

end Call

/-! ## Runs of calls -/

def fillAll (m : Metadata) (calls : List (Call σ)) : Metadata :=
  calls.foldl (fun m c => c.filled m) m

theorem fillAll_append_singleton (m : Metadata) (calls : List (Call σ)) (c : Call σ) :
    fillAll m (calls ++ [c]) = c.filled (fillAll m calls) :=
  List.foldl_append

section

variable {m : Metadata} (hm : m.definition? Metadata.versionKey = none)

include hm

omit [VersionControl σ] in
/-- A version that other sources have filled in does not belong to the other build system. -/
theorem not_isOwned_run {ops : List Operation}
    (hops : ∀ op ∈ ops, op.entry.source ≠ alternateBuildSource) : ¬ IsOwned (m.run ops) := by
  rintro ⟨d, hd, hsource, -⟩
  rw [Metadata.definition?_run hm] at hd
  obtain ⟨op, hop, hentry⟩ :=
    Definition.exists_mem_of_mem_sources hd (Definition.mem_sources_of_ofHistory? hd)
  refine hops op (List.mem_filter.mp hop).1 ?_
  rw [hentry]
  exact hsource

/-- **A run of calls** is the history of its fills. -/
theorem fillAll_eq_run (calls : List (Call σ)) :
    fillAll m calls = m.run (calls.filterMap (·.operation? m.versioning)) ∧
      ¬ IsOwned (fillAll m calls) := by
  -- every fill is a seed or a version text, so the version never comes to belong to anybody else
  have howned : ∀ calls : List (Call σ),
      ¬ IsOwned (m.run (calls.filterMap (·.operation? m.versioning))) := by
    intro calls
    refine not_isOwned_run hm fun op hop => ?_
    obtain ⟨c, -, hc⟩ := List.mem_filterMap.mp hop
    exact Call.source_of_operation?_eq_some hc
  suffices hrun : fillAll m calls = m.run (calls.filterMap (·.operation? m.versioning)) by
    rw [hrun]
    exact ⟨rfl, howned calls⟩
  induction calls using List.reverseRecOn with
  | nil => rfl
  | append_singleton calls c ih =>
    -- the last call finds the declaration that the run began with
    rw [fillAll_append_singleton, ih, Call.filled_eq c (howned calls), Metadata.versioning_run,
      List.filterMap_append, Metadata.run_append]
    cases h : c.operation? m.versioning <;> simp [h]

theorem firstDeclared?_run {ops : List Operation}
    (hops : ∀ op ∈ ops, op.key = Metadata.versionKey) :
    firstDeclared? (m.run ops) = (ops.head?.map (·.entry)).filter (·.value != "") := by
  have hfilter : ops.filter (·.key = Metadata.versionKey) = ops :=
    List.filter_eq_self.mpr fun op hop => decide_eq_true (hops op hop)
  unfold firstDeclared?
  rw [Metadata.definition?_run hm, hfilter]
  cases ops <;> rfl

/-- **When a version text is found to differ** although nothing has declared the version: when the
present text does not start with the one that the first fill has left. That fill can be a seed, from
before there was source control. -/
theorem versionMismatch_iff_of_filled (before : List (Call σ)) (c : Call σ)
    (source expected current : String) :
    let fills := before.filterMap (·.operation? m.versioning)
    (Diagnostic.versionMismatch source expected current ∈ c.remarks (fillAll m before) ↔
      ∃ rendered, c.operation? m.versioning = some (filling rendered) ∧
        fills.head?.map (·.entry) = some ⟨source, current⟩ ∧ current ≠ "" ∧ rendered ≠ "" ∧
        ¬ current.toList <+: rendered.toList ∧
        expected = String.ofList (rendered.toList.take current.length)) ∧
      ∀ op ∈ fills, op = seeding ∨ ∃ rendered, op = filling rendered := by
  intro fills
  obtain ⟨hrun, howned⟩ := fillAll_eq_run hm before
  have hops : ∀ op ∈ fills, ∃ c : Call σ, c.operation? m.versioning = some op := by
    intro op hop
    obtain ⟨c, -, hc⟩ := List.mem_filterMap.mp hop
    exact ⟨c, hc⟩
  refine ⟨?_, ?_⟩
  · have hversioning : (fillAll m before).versioning = m.versioning := by
      rw [hrun, Metadata.versioning_run]
    have hfirst : firstDeclared? (fillAll m before) =
        (fills.head?.map (·.entry)).filter (·.value != "") := by
      rw [hrun]
      refine firstDeclared?_run hm fun op hop => ?_
      obtain ⟨c, hc⟩ := hops op hop
      exact Call.key_of_operation?_eq_some hc
    -- one step from the metadata that the run has left
    rw [c.versionMismatch_mem_remarks_iff howned, hversioning]
    refine exists_congr fun rendered => and_congr_right fun _ => ?_
    rw [mismatch?_eq_some_iff, hfirst]
    constructor
    · rintro ⟨first, hsome, hrendered, hprefix, heq⟩
      obtain ⟨hhead, hvalue⟩ := Option.filter_eq_some_iff.mp hsome
      obtain ⟨rfl, rfl, rfl⟩ := Diagnostic.versionMismatch.inj heq
      exact ⟨hhead, bne_iff_ne.mp hvalue, hrendered, hprefix, rfl⟩
    · rintro ⟨hhead, hvalue, hrendered, hprefix, rfl⟩
      exact ⟨⟨source, current⟩, Option.filter_eq_some_iff.mpr ⟨hhead, bne_iff_ne.mpr hvalue⟩,
        hrendered, hprefix, rfl⟩
  · intro op hop
    obtain ⟨c, hc⟩ := hops op hop
    exact Call.eq_of_operation?_eq_some hc

end

end

/-! ### Source control that appears, and a later tag -/

namespace Sample

def call (scm : Option Recorder) : Call Recorder where
  workspace := workspace scm
  root := ""
  host := host

def metadata : Metadata := Metadata.ofDeclaration (some (.switch true))

end Sample

open Sample in
/-- Neither text was declared by anybody. -/
theorem versionMismatch_iff_of_filled_twice :
    let later : Recorder := { recorder with facts := .ofTriplet ⟨2, 0, 0⟩ }
    metadata.definition? Metadata.versionKey = none ∧
      .versionMismatch "missing" "1.2.3" "0.0.0" ∈
        (call (some recorder)).remarks (fillAll metadata [call none]) ∧
      .versionMismatch "git" "2.0.0" "1.2.3" ∈
        (call (some later)).remarks (fillAll metadata [call (some recorder), call none]) := by
  intro later
  have hm : metadata.definition? Metadata.versionKey = none := rfl
  have hfirst : (call (some recorder)).operation? metadata.versioning = some (filling "1.2.3") := by
    decide +kernel
  have hlater : (call (some later)).operation? metadata.versioning = some (filling "2.0.0") := by
    decide +kernel
  refine ⟨hm, ?_, ?_⟩
  · refine (versionMismatch_iff_of_filled hm _ _ _ _ _).1.mpr
      ⟨"1.2.3", hfirst, ?_, by decide, by decide, by decide, by decide⟩
    decide +kernel
  · refine (versionMismatch_iff_of_filled hm _ _ _ _ _).1.mpr
      ⟨"2.0.0", hlater, ?_, by decide, by decide, by decide, by decide⟩
    decide +kernel

end Versioning

end TagVersion
