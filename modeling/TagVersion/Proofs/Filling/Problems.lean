import TagVersion.Proofs.Filling.Outcome

/-!
# Declarations with a problem

A project that declares versioning can lack source control, and its strategy can be invalid. Filling
in reports the first of these and seeds the version. A project whose strategy is invalid counts as
one that has versioning disabled: it is left before the problem is looked at, with source control or
without, and nobody is told.

* **`metadata_seeded`**, **`Seeded`**: what a seed leaves of the metadata.
* **`fillVersion_problem`**: which problems are reported, and what is filled in for the others.
-/

namespace TagVersion

theorem Strategy.isSome_ofDeclaration? (d : Declaration) :
    (Strategy.ofDeclaration? d).isSome = d.isTruthy := by
  unfold Strategy.ofDeclaration?
  cases d.isTruthy <;> rfl

/-- A fill that may not override leaves a field alone that is defined. -/
theorem Metadata.autoFill_of_isSome {m : Metadata} {key : String}
    (h : (m.definition? key).isSome = true) (e : SourceEntry) : m.autoFill key e false = m := by
  have hsame : (m.definitions.map fun d =>
      if d.key == key then (if false then d.override e else d) else d) = m.definitions := by
    simp
  unfold Metadata.autoFill Metadata.update
  rw [if_pos h, hsame]

namespace Versioning

/-! ## Seeds -/

/-- The version is defined, as it was or by a seed, and nothing else was changed. -/
structure Seeded (m m' : Metadata) : Prop where
  versioning : m'.versioning = m.versioning
  version : m'.definition? Metadata.versionKey =
    some ((m.definition? Metadata.versionKey).getD
      (Definition.ofEntry Metadata.versionKey ⟨"missing", "0.0.0"⟩))
  others : ∀ key, key ≠ Metadata.versionKey → m'.definition? key = m.definition? key

theorem seeded_autoFill (m : Metadata) :
    Seeded m (m.autoFill Metadata.versionKey ⟨"missing", "0.0.0"⟩ false) := by
  have hdefinition :=
    m.definition?_perform (.autoFill Metadata.versionKey ⟨"missing", "0.0.0"⟩ false)
  refine ⟨rfl, ?_, fun key hkey => (hdefinition key).trans (if_neg hkey)⟩
  have hversion := (hdefinition Metadata.versionKey).trans (if_pos rfl)
  refine (hversion :).trans (congrArg some ?_)
  cases m.definition? Metadata.versionKey <;> rfl

theorem metadata_seeded {σ : Type} (p : Draft σ) :
    (seeded p (firstDeclared? p.metadata)).metadata =
      p.metadata.autoFill Metadata.versionKey ⟨"missing", "0.0.0"⟩ false := by
  unfold seeded
  split
  · -- a declared version is defined, which the fill would have found out by itself
    next hdeclared =>
    have hdefined : (p.metadata.definition? Metadata.versionKey).isSome = true :=
      Option.isSome_of_isSome_bind hdeclared
    rw [Metadata.autoFill_of_isSome hdefined]
  · rfl

/-! ## Reported and hidden problems -/

section

variable {σ : Type} [VersionControl σ]

/-- **The problem of a declaration is reported if and only if the strategy is valid**, so that it is
the missing source control. Then the version is seeded. With an invalid strategy the metadata stays
as it was, and neither the answer nor a new record of the log tells why. -/
theorem fillVersion_problem (host : Host) (root : String) (p : Draft σ) {d : Declaration}
    (hd : p.metadata.versioning = some d) (htruthy : d.isTruthy = true)
    (howned : ¬ IsOwned p.metadata) {text : String}
    (hproblem :
      (ofDeclaration p.metadata.versioning p.workspace.scm.isSome root).problem = some text) :
    let v := ofDeclaration p.metadata.versioning p.workspace.scm.isSome root
    let p' := (v.fillVersion host).after p
    ∃ s remarks, v.strategy = some s ∧ (v.fillVersion host).answer p = .ok remarks ∧
      (Diagnostic.problem text ∈ remarks ↔ s.problem? = none) ∧
      (s.problem? = none →
        p.workspace.scm = none ∧ text = noScmProblem ∧ remarks = v.remarks ++ [.problem text] ∧
          Seeded p.metadata p'.metadata) ∧
      (s.problem? ≠ none →
        remarks = v.remarks ∧ p'.metadata = p.metadata ∧
          p'.workspace.log = p.workspace.log ++ v.remarks.map (·.record) ++
            [.trace "not auto-filling version, versioning is disabled"]) := by
  intro v p'
  have hisSome : v.strategy.isSome = true := by
    show (p.metadata.versioning.bind Strategy.ofDeclaration?).isSome = true
    rw [hd, Option.bind_some, Strategy.isSome_ofDeclaration?, htruthy]
  obtain ⟨s, hs⟩ := Option.isSome_iff_exists.mp hisSome
  by_cases hvalid : s.problem? = none
  · have hv : (if p.workspace.scm.isSome then s.problem? else some noScmProblem) = some text :=
      (problem_of_strategy hs).symm.trans hproblem
    -- a valid strategy leaves only the source control
    have hscm : ¬ p.workspace.scm.isSome = true := by
      intro hscm
      rw [if_pos hscm, hvalid] at hv
      exact absurd hv nofun
    rw [if_neg hscm] at hv
    have hexit : v.fillVersion host p = _ :=
      fillVersion_of_problem (enabled_iff.mpr ⟨s, hs, hvalid⟩) howned hisSome hproblem
    obtain ⟨hanswer, hafter⟩ := Filling.of_eq_ok hexit
    have hseeded : p'.metadata =
        p.metadata.autoFill Metadata.versionKey ⟨"missing", "0.0.0"⟩ false := by
      have hmetadata : p'.metadata = _ := congrArg Draft.metadata hafter
      exact hmetadata.trans (metadata_seeded (v.remarked p))
    refine ⟨s, _, hs, hanswer, ?_, ?_, fun h => absurd hvalid h⟩
    · exact iff_of_true (List.mem_append_right _ (List.mem_singleton_self _)) hvalid
    · intro _
      refine ⟨Option.not_isSome_iff_eq_none.mp hscm, (Option.some.inj hv).symm, rfl, ?_⟩
      rw [hseeded]
      exact seeded_autoFill p.metadata
  · -- the problem of the strategy has disabled versioning before it can be reported
    have hdisabled : v.enabled = false := by
      rw [enabled_of_strategy hs]
      exact Bool.eq_false_iff.mpr (mt Option.isNone_iff_eq_none.mp hvalid)
    have hexit : v.fillVersion host p = _ := fillVersion_of_disabled hdisabled
    obtain ⟨hanswer, hafter⟩ := Filling.of_eq_ok hexit
    refine ⟨s, _, hs, hanswer, iff_of_false (problem_not_mem_remarks v text) hvalid,
      fun h => absurd h hvalid, fun _ => ⟨rfl, ?_, ?_⟩⟩
    · exact (congrArg Draft.metadata hafter :)
    · exact (congrArg (fun p => p.workspace.log) hafter :)

end

/-! ### A format with an unknown part, and a project without source control -/

namespace Sample

def undeclared (d : Declaration) (scm : Option Recorder) : Draft Recorder where
  workspace := workspace scm
  metadata := Metadata.ofDeclaration (some d)

/-- What filling in answers on a project that declares its versioning and no version. -/
def answer (d : Declaration) (scm : Option Recorder) : Except Error (List Diagnostic) :=
  ((ofDeclaration (some d) scm.isSome "").fillVersion host).answer (undeclared d scm)

end Sample

open Sample in
theorem fillVersion_problem_hidden :
    let invalid := Declaration.compact "\x7bmajor\x7d.\x7bnope\x7d"
    (ofDeclaration (some invalid) true "").problem = some "invalid versioning part 'nope'" ∧
      answer invalid (some recorder) = .ok [] ∧
      (ofDeclaration (some (.switch true)) false "").problem = some noScmProblem ∧
      answer (.switch true) none = .ok [.problem noScmProblem] := by
  intro invalid
  have hinvalid : (ofDeclaration (some invalid) true "").problem =
      some "invalid versioning part 'nope'" := by decide +kernel
  have howned : ∀ d scm, ¬ IsOwned (undeclared d scm).metadata := by
    intro d scm
    rw [← any_isOwnedElsewhere_iff]
    exact Bool.false_ne_true
  refine ⟨hinvalid, ?_, rfl, ?_⟩
  · obtain ⟨s, remarks, hs, hanswer, -, -, hhidden⟩ :=
      fillVersion_problem host "" (undeclared invalid (some recorder)) rfl (by decide) (howned _ _)
        hinvalid
    obtain rfl := Option.some.inj hs
    obtain ⟨rfl, -⟩ := hhidden (by decide +kernel)
    exact hanswer
  · obtain ⟨s, remarks, hs, hanswer, -, hreported, -⟩ :=
      fillVersion_problem host "" (undeclared (.switch true) none) rfl rfl (howned _ _) rfl
    obtain rfl := Option.some.inj hs
    obtain ⟨-, -, rfl, -⟩ := hreported (by decide +kernel)
    exact hanswer

end Versioning

end TagVersion
