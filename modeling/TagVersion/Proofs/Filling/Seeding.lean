import TagVersion.Proofs.Filling.Problems

/-!
# Versions without a text

A project without source control has its version seeded. The seed is made for a version that counts
as missing: one that is not defined, and also one whose value and first entry have no text, as a
configuration leaves it that names sources and no value. But a seed may not override. A version that
is defined without a text is found to be missing, and stays without one.

* **`Metadata.definition?_ofConfig`**: the version that a configuration declares.
* **`IsMissing`**: what counts as missing; no other build system owns it.
* **`isMissing_ofConfig_iff`**: the configurations that leave the version missing.
* **`fillVersion_missing`**: which of the missing versions get the seed.
-/

namespace TagVersion

/-! ## The version of a configuration -/

namespace Definition

open Metadata (Operation)

theorem ofHistory?_declare (key : String) (e : SourceEntry) (es : List SourceEntry) :
    ofHistory? key ((e :: es).map (.declare key)) =
      some { key, value := e.value, source := e.source, sources := e :: es } := by
  have hoverrides : (es.map (Operation.declare key)).filter (·.overrides) = [] := by
    simp [Operation.overrides]
  have hkept : (es.map (Operation.declare key)).filter (·.isKept) = es.map (.declare key) :=
    List.filter_eq_self.mpr (by simp [Operation.isKept])
  have hentries : (es.map (Operation.declare key)).map (·.entry) = es :=
    (List.map_map ..).trans (List.map_id es)
  simp only [List.map_cons, ofHistory?, hoverrides, hkept, hentries]
  rfl

end Definition

namespace Metadata

theorem value_of_mem_configEntries {v : VersionDeclaration} {e : SourceEntry}
    (h : e ∈ configEntries v) : e.value = v.value.getD "" := by
  unfold configEntries at h
  generalize v.value.getD "" = value at h ⊢
  split at h
  · dsimp only at h
    split at h
    · exact absurd h List.not_mem_nil
    · rw [List.mem_singleton.mp h]
  · obtain ⟨source, -, rfl⟩ := List.mem_map.mp h
    rfl

theorem configEntries_eq_nil_iff {v : VersionDeclaration} :
    configEntries v = [] ↔ v.sources = [] ∧ v.value.getD "" = "" := by
  unfold configEntries
  by_cases hsources : v.sources = []
  · rw [if_pos hsources, and_iff_right hsources]
    by_cases hvalue : v.value.getD "" = ""
    · exact iff_of_true (if_pos hvalue) hvalue
    · exact iff_of_false (by simp [hvalue]) hvalue
  · simp [hsources]

theorem definition?_ofConfig (c : ProjectConfig) :
    (ofConfig c).definition? versionKey =
      Definition.ofHistory? versionKey
        (((c.version.map configEntries).getD []).map (.declare versionKey)) := by
  refine (definition?_run_origin (.config c) [] versionKey).trans (congrArg _ ?_)
  rw [List.append_nil]
  exact List.filter_eq_self.mpr (by simp [Origin.operations, Operation.key])

theorem definition?_ofConfig_eq_none_iff {c : ProjectConfig} :
    (ofConfig c).definition? versionKey = none ↔
      ∀ v ∈ c.version, v.sources = [] ∧ v.value.getD "" = "" := by
  rw [definition?_ofConfig, Definition.ofHistory?_eq_none_iff, List.map_eq_nil_iff]
  cases c.version with
  | none => exact iff_of_true rfl nofun
  | some v => simp [configEntries_eq_nil_iff]

end Metadata

namespace Versioning

/-! ## What counts as missing -/

/-- The version is not defined, or neither its value nor its first entry has a text. -/
def IsMissing (m : Metadata) : Prop :=
  ∀ d, m.definition? Metadata.versionKey = some d → d.value = "" ∧ ∀ text ∈ d.declared?, text = ""

/-- The value of the version is the seed. -/
def HasSeed (m : Metadata) : Prop :=
  ∃ d, m.definition? Metadata.versionKey = some d ∧ d.value = "0.0.0" ∧ d.source = "missing"

namespace IsMissing

variable {m m' : Metadata} (h : IsMissing m)

include h

theorem not_isOwned : ¬ IsOwned m := by
  rintro ⟨d, hd, -, text, htext, hne⟩
  exact hne ((h d hd).2 text htext)

theorem firstDeclared?_eq_none : firstDeclared? m = none := by
  refine Option.eq_none_iff_forall_ne_some.mpr fun first hfirst => ?_
  obtain ⟨hentry, hne⟩ := firstDeclared?_eq_some_iff.mp hfirst
  obtain ⟨d, hd, hhead⟩ := Option.bind_eq_some_iff.mp hentry
  have htext : d.declared? = some first.value := by
    unfold Definition.declared?
    rw [hhead, Option.map_some]
  exact hne ((h d hd).2 first.value htext)

/-- The seed does not reach a version that is defined. -/
theorem hasSeed_iff (hseeded : Seeded m m') :
    HasSeed m' ↔ m.definition? Metadata.versionKey = none := by
  unfold HasSeed
  rw [hseeded.version]
  cases hm : m.definition? Metadata.versionKey with
  | none => exact iff_of_true ⟨_, rfl, rfl, rfl⟩ rfl
  | some d =>
    refine iff_of_false ?_ nofun
    rintro ⟨d', hd', hvalue, -⟩
    obtain rfl : d = d' := Option.some.inj hd'
    rw [(h d hm).1] at hvalue
    exact absurd hvalue (by decide)

end IsMissing

/-- **A configuration** leaves the version missing if it gives no text for it, whatever sources it
names. -/
theorem isMissing_ofConfig_iff {c : ProjectConfig} :
    IsMissing (Metadata.ofConfig c) ↔ ∀ v ∈ c.version, v.value.getD "" = "" := by
  unfold IsMissing
  rw [Metadata.definition?_ofConfig]
  cases c.version with
  | none => exact iff_of_true nofun nofun
  | some v =>
    have hv : (∀ v' ∈ some v, v'.value.getD "" = "") ↔ v.value.getD "" = "" := by simp
    rw [Option.map_some, Option.getD_some, hv]
    cases hentries : Metadata.configEntries v with
    | nil => exact iff_of_true nofun (Metadata.configEntries_eq_nil_iff.mp hentries).2
    | cons e es =>
      have hvalue : e.value = v.value.getD "" :=
        Metadata.value_of_mem_configEntries (hentries ▸ List.mem_cons_self ..)
      rw [Definition.ofHistory?_declare, ← hvalue]
      constructor
      · exact fun h => (h _ rfl).1
      · rintro h d hd
        obtain rfl := Option.some.inj hd
        exact ⟨h, fun text htext => (Option.some.inj htext).symm.trans h⟩

/-! ## Seeds -/

section

variable {σ : Type} [VersionControl σ]

/-- **A missing version** of a project without source control gets the seed if and only if it is not
defined, that is, if no operation has named it and its configuration no source. One that is defined
without a text stays as it is, and the answer is the same. -/
theorem fillVersion_missing (host : Host) (d : Option Declaration) (root : String) (p : Draft σ)
    (henabled : (ofDeclaration d false root).enabled = true) (hmissing : IsMissing p.metadata) :
    let m := p.metadata
    let v := ofDeclaration d false root
    let p' := (v.fillVersion host).after p
    (v.fillVersion host).answer p = .ok (v.remarks ++ [.problem noScmProblem]) ∧
      Seeded m p'.metadata ∧
      (HasSeed p'.metadata ↔ m.definition? Metadata.versionKey = none) ∧
      ((m.definition? Metadata.versionKey).isSome → p'.metadata = m ∧
        p'.workspace.log = p.workspace.log ++ v.remarks.map (·.record) ++
          [.trace "not auto-filling 'version', already defined",
            (Diagnostic.problem noScmProblem).record,
            .trace ("not auto-filling version due to problem: [" ++ noScmProblem ++ "]")]) ∧
      (∀ (o : Metadata.Origin) (ops : List Metadata.Operation), m = o.metadata.run ops →
        (HasSeed p'.metadata ↔ ∀ op ∈ o.operations ++ ops, op.key ≠ Metadata.versionKey)) ∧
      ∀ c, m = Metadata.ofConfig c → (HasSeed p'.metadata ↔ ∀ v ∈ c.version, v.sources = []) := by
  intro m v p'
  obtain ⟨s, hs, -⟩ := enabled_iff.mp henabled
  have hexit : v.fillVersion host p = _ :=
    fillVersion_of_problem henabled hmissing.not_isOwned (Option.isSome_of_eq_some hs)
      (problem_of_strategy hs)
  obtain ⟨hanswer, hafter⟩ := Filling.of_eq_ok hexit
  have hmetadata : p'.metadata = m.autoFill Metadata.versionKey ⟨"missing", "0.0.0"⟩ false :=
    (congrArg Draft.metadata hafter :).trans (metadata_seeded (v.remarked p))
  have hseeded : Seeded m p'.metadata := by
    rw [hmetadata]
    exact seeded_autoFill m
  have hseed := hmissing.hasSeed_iff hseeded
  refine ⟨hanswer, hseeded, hseed, ?_, ?_, ?_⟩
  · intro hdefined
    refine ⟨hmetadata.trans (Metadata.autoFill_of_isSome hdefined _), ?_⟩
    have hlog : m.autoFillLog Metadata.versionKey false =
        [.trace "not auto-filling 'version', already defined"] := by
      unfold Metadata.autoFillLog
      rw [hdefined]
      rfl
    have hrecords : p'.workspace.log =
        p.workspace.log ++ v.remarks.map (·.record) ++ m.autoFillLog Metadata.versionKey false ++
            [(Diagnostic.problem noScmProblem).record] ++
          [.trace ("not auto-filling version due to problem: [" ++ noScmProblem ++ "]")] := by
      rw [hmissing.firstDeclared?_eq_none] at hafter
      exact (congrArg (fun p => p.workspace.log) hafter :)
    rw [hrecords, hlog]
    simp only [List.append_assoc, List.cons_append, List.nil_append]
  · intro o ops hm
    have hrun := Metadata.definition?_run_origin o ops Metadata.versionKey
    rw [← hm] at hrun
    rw [hseed, (hrun :), Definition.ofHistory?_eq_none_iff, List.filter_eq_nil_iff]
    simp only [decide_eq_true_eq, ne_eq]
  · intro c hc
    have htext : IsMissing (Metadata.ofConfig c) := hc ▸ hmissing
    have hnone : m.definition? Metadata.versionKey = none ↔
        ∀ v ∈ c.version, v.sources = [] ∧ v.value.getD "" = "" :=
      hc ▸ Metadata.definition?_ofConfig_eq_none_iff
    rw [isMissing_ofConfig_iff] at htext
    refine (hseed.trans hnone).trans ?_
    exact forall₂_congr fun v hv => and_iff_left (htext v hv)

end

/-! ### A configuration that names a source and no text -/

namespace Sample

/-- A project without source control, as a configuration declares it. -/
def configured (version : Option VersionDeclaration) : Draft Recorder where
  workspace := workspace none
  metadata := Metadata.ofConfig { versioning := some (.switch true), version }

end Sample

open Sample in
theorem fillVersion_missing_sourceOnly :
    let v := ofDeclaration (some (.switch true)) false ""
    let bare := configured none
    let sourceOnly := configured (some { value := none, sources := ["setup.py:1"] })
    IsMissing bare.metadata ∧ IsMissing sourceOnly.metadata ∧
      HasSeed ((v.fillVersion host).after bare).metadata ∧
      ¬ HasSeed ((v.fillVersion host).after sourceOnly).metadata ∧
      ((v.fillVersion host).after sourceOnly).metadata.value? Metadata.versionKey = some "" ∧
      (v.fillVersion host).answer sourceOnly = .ok [.problem noScmProblem] := by
  intro v bare sourceOnly
  have hbare : IsMissing bare.metadata := isMissing_ofConfig_iff.mpr nofun
  have hsourceOnly : IsMissing sourceOnly.metadata := isMissing_ofConfig_iff.mpr (by decide)
  have henabled : v.enabled = true := by decide +kernel
  obtain ⟨-, -, hbareSeed, -⟩ :=
    fillVersion_missing host (some (.switch true)) "" bare henabled hbare
  obtain ⟨hanswer, -, -, hkept, -, hconfig⟩ :=
    fillVersion_missing host (some (.switch true)) "" sourceOnly henabled hsourceOnly
  obtain ⟨hsame, -⟩ := hkept (by decide)
  refine ⟨hbare, hsourceOnly, hbareSeed.mpr rfl, ?_, ?_, hanswer⟩
  · exact mt (hconfig _ rfl).mp (by decide)
  · rw [hsame]
    rfl

end Versioning

end TagVersion
