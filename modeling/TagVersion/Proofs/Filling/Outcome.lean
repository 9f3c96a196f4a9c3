import TagVersion.Proofs.Filling.Exits
import TagVersion.Proofs.Metadata.History
import TagVersion.Proofs.Repository.Commits
import TagVersion.Scm.Recorder

/-!
# What filling in leaves

A project that has nothing against its versioning has its version filled in, unless another build
system owns it or the backend does not tell the facts. Then nothing is changed. Otherwise the
version text replaces the value, and a text that was declared first is compared with it, character
by character.

* **`FilledWith`**: metadata in which one entry has been filled in.
* **`Compared`**: the remark about a text that was declared first.
* **`fillVersion_usable`**: the three exits of a project without a problem.
-/

namespace TagVersion

namespace Versioning

/-! ## Metadata that was filled in -/

/-- One entry was filled in for the version, and nothing else was changed. -/
structure FilledWith (m m' : Metadata) (e : SourceEntry) : Prop where
  versioning : m'.versioning = m.versioning
  version : ∃ d, m'.definition? Metadata.versionKey = some d ∧ d.key = Metadata.versionKey ∧
    d.value = e.value ∧ d.source = e.source ∧
    d.sources = ((m.definition? Metadata.versionKey).map (·.sources)).getD [] ++ [e]
  others : ∀ key, key ≠ Metadata.versionKey → m'.definition? key = m.definition? key

theorem filledWith_autoFill (m : Metadata) (e : SourceEntry) :
    FilledWith m (m.autoFill Metadata.versionKey e true) e := by
  have hdefinition := m.definition?_perform (.autoFill Metadata.versionKey e true)
  refine ⟨rfl, ?_, fun key hkey => (hdefinition key).trans (if_neg hkey)⟩
  have hversion := (hdefinition Metadata.versionKey).trans (if_pos rfl)
  cases h : m.definition? Metadata.versionKey with
  | none =>
    rw [h] at hversion
    exact ⟨_, hversion, rfl, rfl, rfl, rfl⟩
  | some d =>
    rw [h] at hversion
    exact ⟨_, hversion, (Metadata.key_of_definition?_eq_some h :), rfl, rfl, rfl⟩

/-! ## The comparison with what was declared -/

/-- A text was declared first, and the version text is there and does not start with it. -/
def Disagrees (m : Metadata) (first : SourceEntry) (rendered : String) : Prop :=
  IsDeclared m first ∧ rendered ≠ "" ∧ ¬ first.value.toList <+: rendered.toList

/-- The remark about a first entry names its source and its text, and shows as many letters of the
version text as can stand against it. -/
def Compared (first : SourceEntry) (rendered : String) (d : Diagnostic) : Prop :=
  ∃ expected, d = .versionMismatch first.source expected first.value ∧
    expected.toList <+: rendered.toList ∧
    expected.length = min first.value.length rendered.length ∧ expected ≠ first.value

theorem mismatch?_firstDeclared?_eq_some_iff {m : Metadata} {rendered : String} {d : Diagnostic} :
    mismatch? (firstDeclared? m) rendered = some d ↔
      ∃ first, Disagrees m first rendered ∧
        d = .versionMismatch first.source
          (String.ofList (rendered.toList.take first.value.length)) first.value := by
  rw [mismatch?_eq_some_iff]
  unfold Disagrees
  simp only [firstDeclared?_eq_some_iff, and_assoc]

theorem compared_of_disagrees {m : Metadata} {first : SourceEntry} {rendered : String}
    (h : Disagrees m first rendered) :
    Compared first rendered
      (.versionMismatch first.source
        (String.ofList (rendered.toList.take first.value.length)) first.value) := by
  obtain ⟨-, -, hprefix⟩ := h
  refine ⟨_, rfl, ?_, ?_, ?_⟩
  · rw [String.toList_ofList]
    exact List.take_prefix _ _
  · rw [String.length_ofList, List.length_take, String.length_toList]
  · -- a text that is the same would be a prefix itself
    intro hsame
    have hlist : rendered.toList.take first.value.length = first.value.toList := by
      rw [← hsame, String.toList_ofList]
      rw [hsame]
    exact hprefix (hlist ▸ List.take_prefix _ _)

theorem length_mismatches_eq_one_iff {m : Metadata} {rendered : String} :
    (mismatch? (firstDeclared? m) rendered).toList.length = 1 ↔
      ∃ first, Disagrees m first rendered := by
  rw [Option.length_toList]
  constructor
  · intro hone
    have hsome : (mismatch? (firstDeclared? m) rendered).isSome = true := by
      by_contra hnone
      rw [if_neg hnone] at hone
      exact absurd hone nofun
    obtain ⟨d, hd⟩ := Option.isSome_iff_exists.mp hsome
    obtain ⟨first, hfirst, -⟩ := mismatch?_firstDeclared?_eq_some_iff.mp hd
    exact ⟨first, hfirst⟩
  · rintro ⟨first, hfirst⟩
    have hd := mismatch?_firstDeclared?_eq_some_iff.mpr ⟨first, hfirst, rfl⟩
    exact if_pos (Option.isSome_iff_exists.mpr ⟨_, hd⟩)

theorem exists_compared_of_mem {m : Metadata} {rendered : String} {d : Diagnostic}
    (h : d ∈ (mismatch? (firstDeclared? m) rendered).toList) :
    ∃ first, Disagrees m first rendered ∧ Compared first rendered d := by
  obtain ⟨first, hfirst, rfl⟩ :=
    mismatch?_firstDeclared?_eq_some_iff.mp (Option.mem_toList.mp h)
  exact ⟨first, hfirst, compared_of_disagrees hfirst⟩

/-! ## The three exits -/

section

variable {σ : Type} [VersionControl σ]

/-- **Filling in a version** that nothing stands in the way of. One that another build system has
declared is left alone, and an error of the backend is passed on with the metadata as it was.
Otherwise the version text is filled in, and a first entry that it does not start with is remarked
on. Files and repository are only looked at. -/
theorem fillVersion_usable (host : Host) (root : String) (p : Draft σ)
    (hproblem : (ofDeclaration p.metadata.versioning p.workspace.scm.isSome root).problem = none) :
    let m := p.metadata
    let v := ofDeclaration m.versioning p.workspace.scm.isSome root
    let p' := (v.fillVersion host).after p
    let answer := (v.fillVersion host).answer p
    (∃ s k, v.strategy = some s ∧ p.workspace.scm = some k ∧
      (IsOwned m → answer = .ok v.remarks ∧ p'.metadata = m) ∧
      (¬ IsOwned m → ∀ e, VersionControl.facts k p.workspace.files = .error e →
        answer = .error e ∧ p'.metadata = m) ∧
      (¬ IsOwned m → ∀ facts, VersionControl.facts k p.workspace.files = .ok facts →
        let rendered := s.render host.environment facts true
        ∃ mismatches, answer = .ok (v.remarks ++ mismatches) ∧
          FilledWith m p'.metadata ⟨"git", rendered⟩ ∧ mismatches.length ≤ 1 ∧
          (mismatches.length = 1 ↔ ∃ first, Disagrees m first rendered) ∧
          ∀ d ∈ mismatches, ∃ first, Disagrees m first rendered ∧ Compared first rendered d)) ∧
      (∀ d ∈ v.remarks, ∃ keys, d = .ignoredFields keys) ∧
      Workspace.Spared p.workspace p'.workspace ∧
      (∀ c : Checkout, (VersionControl.refresh c).repository = c.repository) ∧
      ∀ r : Recorder, VersionControl.refresh r = r := by
  intro m v p' answer
  obtain ⟨s, hs, henabled, hscm⟩ := exists_of_problem_eq_none hproblem
  obtain ⟨k, hk⟩ := Option.isSome_iff_exists.mp hscm
  refine ⟨⟨s, k, hs, hk, ?_, ?_, ?_⟩, fun d => of_mem_remarks, spared_fillVersion host _ root p,
    Checkout.repository_refresh, fun _ => rfl⟩
  · intro howned
    have hexit : v.fillVersion host p = _ := fillVersion_of_owned henabled howned
    obtain ⟨hanswer, hafter⟩ := Filling.of_eq_ok hexit
    exact ⟨hanswer, (congrArg Draft.metadata hafter :)⟩
  · intro howned e hfacts
    have hexit : v.fillVersion host p = _ :=
      fillVersion_of_refused henabled howned hs hk hproblem hfacts
    obtain ⟨hanswer, hafter⟩ := Filling.of_eq_error hexit
    exact ⟨hanswer, (congrArg Draft.metadata hafter :)⟩
  · intro howned facts hfacts rendered
    have hexit : v.fillVersion host p = _ :=
      fillVersion_of_facts henabled howned hs hk hproblem hfacts
    obtain ⟨hanswer, hafter⟩ := Filling.of_eq_ok hexit
    refine ⟨_, hanswer, ?_, Option.length_toList_le, ?_, ?_⟩
    · show FilledWith m ((v.fillVersion host).after p).metadata _
      rw [hafter]
      exact filledWith_autoFill m _
    · exact length_mismatches_eq_one_iff
    · exact fun d hd => exists_compared_of_mem hd

end

/-! ### A declared text that the tag does not bear out -/

namespace Sample

def recorder : Recorder where
  facts := .ofTriplet ⟨1, 2, 3⟩
  branch := "master"
  refuses := []
  tags := []
  commits := []

/-- A workspace without files, with some source control or none. -/
def workspace (scm : Option Recorder) : Workspace Recorder where
  files := ⟨[]⟩
  scm
  log := []
  journal := []

def host : Host where
  environment := []
  start _ files := (files, .error .notFound)

end Sample

namespace Differing

open Sample

/-- The second letter of the declared text takes two bytes. -/
def draft : Draft Recorder where
  workspace := workspace (some recorder)
  metadata :=
    (Metadata.ofDeclaration (some (.switch true))).declare Metadata.versionKey
      ⟨"setup.py:3", "1\u00b7"⟩

def versioning : Versioning :=
  ofDeclaration draft.metadata.versioning draft.workspace.scm.isSome ""

end Differing

open Differing Sample in
/-- As many letters of the version text are shown as the declared text has. -/
theorem fillVersion_usable_differs :
    versioning.problem = none ∧
      (versioning.fillVersion host).answer draft =
        .ok [.versionMismatch "setup.py:3" "1." "1\u00b7"] ∧
      FilledWith draft.metadata ((versioning.fillVersion host).after draft).metadata
        ⟨"git", "1.2.3"⟩ := by
  have hproblem : versioning.problem = none := by decide +kernel
  obtain ⟨⟨s, k, hs, hk, -, -, hfacts⟩, -⟩ := fillVersion_usable host "" draft hproblem
  obtain rfl := Option.some.inj hs
  obtain rfl := Option.some.inj hk
  have howned : ¬ IsOwned draft.metadata := by
    rw [← any_isOwnedElsewhere_iff]
    decide +kernel
  have hrendered :
      (Strategy.ofText "tag").render host.environment recorder.facts true = "1.2.3" := by
    decide +kernel
  obtain ⟨mismatches, hanswer, hfilled, -, hone, hcompared⟩ := hfacts howned recorder.facts rfl
  rw [hrendered] at hfilled hone hcompared
  have hdisagrees : Disagrees draft.metadata ⟨"setup.py:3", "1\u00b7"⟩ "1.2.3" :=
    ⟨⟨by decide +kernel, by decide⟩, by decide, by decide⟩
  obtain ⟨d, rfl⟩ := List.length_eq_one_iff.mp (hone.mpr ⟨_, hdisagrees⟩)
  obtain ⟨first, ⟨⟨hfirst, -⟩, -⟩, expected, rfl, hprefix, hlength, -⟩ :=
    hcompared d (List.mem_singleton_self d)
  obtain rfl := Option.some.inj (hdisagrees.1.1.symm.trans hfirst)
  -- the letters shown are settled by their number
  have hexpected : expected = "1." := by
    have htake := List.prefix_iff_eq_take.mp hprefix
    rw [String.length_toList, hlength] at htake
    exact String.toList_inj.mp htake
  rw [hexpected] at hanswer
  exact ⟨hproblem, hanswer, hfilled⟩

end Versioning

end TagVersion
