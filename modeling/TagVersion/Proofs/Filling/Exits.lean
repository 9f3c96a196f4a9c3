import TagVersion.Project.Versioning
import TagVersion.Proofs.Release.Checks

/-!
# The exits of filling in

To fill in the version of a project ends in one of five ways: versioning is disabled, the version is
owned by another build system, there is no source control, the backend refuses to tell the facts, or
the version is filled in. This module says for each of them when it is taken, what it answers and
what it leaves.

* **`Draft.noted`**, **`Draft.looked`**, **`Draft.filledIn`**: the changes that are made on the way.
* **`enabled_iff`**, **`problem_of_strategy`**: a declaration is usable up to its source control.
* **`fillVersion_of_disabled`**, **`fillVersion_of_owned`**, **`fillVersion_of_refused`**,
  **`fillVersion_of_facts`**, **`fillVersion_of_problem`**: the run, once it is known what decides.
* **`exit_fillVersion`**: every run takes one of the five exits.
* **`spared_fillVersion`**: none of them has done more to the workspace than look at it.
-/

namespace TagVersion

/-! ## Changes to a draft -/

namespace Workspace

variable {σ : Type} [VersionControl σ]

/-- Nothing was written or asked of the backend, which has looked at the files at most. -/
structure Spared (w w' : Workspace σ) : Prop where
  files : w'.files = w.files
  journal : w'.journal = w.journal
  scm : w'.scm = w.scm ∨ w'.scm = w.scm.map VersionControl.refresh

end Workspace

namespace Draft

variable {σ : Type}

def noted (p : Draft σ) (records : List LogRecord) : Draft σ :=
  { p with workspace := { p.workspace with log := p.workspace.log ++ records } }

theorem noted_nil (p : Draft σ) : p.noted [] = p := by
  simp [noted]

def looked [VersionControl σ] (p : Draft σ) : Draft σ :=
  { p with workspace := { p.workspace with scm := p.workspace.scm.map VersionControl.refresh } }

def filledIn (p : Draft σ) (key : String) (e : SourceEntry) (mayOverride : Bool) : Draft σ :=
  { p.noted (p.metadata.autoFillLog key mayOverride) with
    metadata := p.metadata.autoFill key e mayOverride }

end Draft

namespace Filling

variable {σ α β : Type} {p p' : Draft σ}

theorem bind_of_ok {act : Filling σ α} {a : α} (h : act p = .ok a p') (f : α → Filling σ β) :
    (act >>= f) p = f a p' := by
  simp only [bind, EStateM.bind, h]

theorem bind_of_error {act : Filling σ α} {e : Error} (h : act p = .error e p')
    (f : α → Filling σ β) : (act >>= f) p = .error e p' := by
  simp only [bind, EStateM.bind, h]

/-- The draft after an operation, whether it failed or not. -/
def after (act : Filling σ α) (p : Draft σ) : Draft σ :=
  match act p with
  | .ok _ p' => p'
  | .error _ p' => p'

def answer (act : Filling σ α) (p : Draft σ) : Except Error α :=
  match act p with
  | .ok a _ => .ok a
  | .error e _ => .error e

theorem of_eq_ok {act : Filling σ α} {a : α} (h : act p = .ok a p') :
    act.answer p = .ok a ∧ act.after p = p' := by
  unfold answer after
  rw [h]
  exact ⟨rfl, rfl⟩

theorem of_eq_error {act : Filling σ α} {e : Error} (h : act p = .error e p') :
    act.answer p = .error e ∧ act.after p = p' := by
  unfold answer after
  rw [h]
  exact ⟨rfl, rfl⟩

theorem get_bind (f : Draft σ → Filling σ β) (p : Draft σ) : (get >>= f) p = f p p := rfl

theorem work_strategyRemarks (v : Versioning) (p : Draft σ) :
    work v.strategyRemarks p = .ok v.remarks (p.noted (v.remarks.map (·.record))) := by
  unfold work
  rw [Versioning.strategyRemarks_apply]
  rfl

theorem work_facts [VersionControl σ] (k : σ) (p : Draft σ) :
    work (Action.facts k) p =
      match VersionControl.facts k p.workspace.files with
      | .ok facts => .ok facts p.looked
      | .error e => .error e p.looked := by
  have hfacts : Action.facts k p.workspace =
      Action.ofExcept (VersionControl.facts k p.workspace.files) p.looked.workspace := rfl
  unfold work
  rw [hfacts]
  cases VersionControl.facts k p.workspace.files <;> rfl

end Filling

/-! ## What decides -/

namespace Versioning

/-- The version stems from the other build system, which has declared it. -/
def IsOwned (m : Metadata) : Prop :=
  ∃ d, m.definition? Metadata.versionKey = some d ∧ d.source = alternateBuildSource ∧
    ∃ text, d.declared? = some text ∧ text ≠ ""

/-- The version is defined, and its first entry has a text. -/
def IsDeclared (m : Metadata) (first : SourceEntry) : Prop :=
  (m.definition? Metadata.versionKey).bind (·.sources.head?) = some first ∧ first.value ≠ ""

theorem any_isOwnedElsewhere_iff {m : Metadata} :
    (m.definition? Metadata.versionKey).any isOwnedElsewhere = true ↔ IsOwned m := by
  unfold IsOwned
  cases m.definition? Metadata.versionKey with
  | none => simp
  | some d =>
    have howned : isOwnedElsewhere d = true ↔
        d.source = alternateBuildSource ∧ ∃ text, d.declared? = some text ∧ text ≠ "" := by
      unfold isOwnedElsewhere
      cases d.declared? <;> simp
    rw [Option.any_some, howned]
    simp

/-- The entry that a version text has to agree with. -/
def firstDeclared? (m : Metadata) : Option SourceEntry :=
  (m.definition? Metadata.versionKey).bind declared?

theorem firstDeclared?_eq_some_iff {m : Metadata} {first : SourceEntry} :
    firstDeclared? m = some first ↔ IsDeclared m first := by
  unfold IsDeclared firstDeclared?
  cases m.definition? Metadata.versionKey with
  | none => simp
  | some d => simp [declared?, Option.filter_eq_some_iff]

theorem mismatch?_eq_some_iff {declared : Option SourceEntry} {rendered : String}
    {d : Diagnostic} :
    mismatch? declared rendered = some d ↔
      ∃ first, declared = some first ∧ rendered ≠ "" ∧
        ¬ first.value.toList <+: rendered.toList ∧
        d = .versionMismatch first.source
          (String.ofList (rendered.toList.take first.value.length)) first.value := by
  unfold mismatch?
  cases declared with
  | none => simp
  | some first =>
    simp only [Option.some.injEq, exists_eq_left', List.isPrefixOf_iff_prefix]
    split
    · next h =>
      constructor
      · intro hnone
        exact absurd hnone nofun
      · rintro ⟨hrendered, hprefix, -⟩
        rcases h with h | h
        · exact absurd h hrendered
        · exact absurd h hprefix
    · next h =>
      obtain ⟨hrendered, hprefix⟩ := not_or.mp h
      constructor
      · intro hsome
        exact ⟨hrendered, hprefix, (Option.some.inj hsome).symm⟩
      · rintro ⟨-, -, rfl⟩
        rfl

/-! ## Projects that declare versioning -/

theorem enabled_iff {d : Option Declaration} {hasScm : Bool} {root : String} :
    (ofDeclaration d hasScm root).enabled = true ↔
      ∃ s, (ofDeclaration d hasScm root).strategy = some s ∧ s.problem? = none := by
  unfold ofDeclaration
  cases d.bind Strategy.ofDeclaration? <;> simp

/-- A strategy with a problem counts as none. -/
theorem enabled_of_strategy {d : Option Declaration} {hasScm : Bool} {root : String} {s : Strategy}
    (hs : (ofDeclaration d hasScm root).strategy = some s) :
    (ofDeclaration d hasScm root).enabled = s.problem?.isNone := by
  have hbind : d.bind Strategy.ofDeclaration? = some s := hs
  unfold ofDeclaration
  rw [hbind]
  rfl

/-- With a strategy, a problem is that there is no backend or one of the strategy itself. -/
theorem problem_of_strategy {d : Option Declaration} {hasScm : Bool} {root : String} {s : Strategy}
    (hs : (ofDeclaration d hasScm root).strategy = some s) :
    (ofDeclaration d hasScm root).problem =
      if hasScm then s.problem? else some noScmProblem := by
  have hbind : d.bind Strategy.ofDeclaration? = some s := hs
  unfold ofDeclaration
  rw [hbind]

theorem exists_of_problem_eq_none {d : Option Declaration} {hasScm : Bool} {root : String}
    (h : (ofDeclaration d hasScm root).problem = none) :
    ∃ s, (ofDeclaration d hasScm root).strategy = some s ∧
      (ofDeclaration d hasScm root).enabled = true ∧ hasScm = true := by
  obtain ⟨hstrategy, hscm⟩ := ofDeclaration_problem_eq_none h
  obtain ⟨s, hs⟩ := Option.isSome_iff_exists.mp hstrategy
  rw [problem_of_strategy hs, if_pos hscm] at h
  exact ⟨s, hs, enabled_iff.mpr ⟨s, hs, h⟩, hscm⟩

theorem of_mem_remarks {v : Versioning} {d : Diagnostic} (h : d ∈ v.remarks) :
    ∃ keys, d = .ignoredFields keys := by
  unfold remarks at h
  split at h
  · next s _ =>
    split at h
    · exact absurd h List.not_mem_nil
    · exact ⟨s.ignoredFields, List.mem_singleton.mp h⟩
  · exact absurd h List.not_mem_nil

theorem problem_not_mem_remarks (v : Versioning) (text : String) :
    Diagnostic.problem text ∉ v.remarks := by
  intro hmem
  obtain ⟨keys, hkeys⟩ := of_mem_remarks hmem
  exact absurd hkeys nofun

/-! ## The exits -/

section

variable {σ : Type} [VersionControl σ] {host : Host} {v : Versioning} {p : Draft σ}

open Filling

/-- The draft after the remarks on the declaration. -/
def remarked (v : Versioning) (p : Draft σ) : Draft σ :=
  p.noted (v.remarks.map (·.record))

/-- The draft after a seed, which is made only where nothing is declared. -/
def seeded (p : Draft σ) (declared : Option SourceEntry) : Draft σ :=
  if declared.isSome then p else p.filledIn Metadata.versionKey ⟨"missing", "0.0.0"⟩ false

omit [VersionControl σ] in
theorem seed_apply (declared : Option SourceEntry) (p : Draft σ) :
    seed declared p = .ok () (seeded p declared) := by
  unfold seed seeded
  split <;> rfl

theorem fillFromFacts_of_error {s : Strategy} {k : σ} {e : Error}
    (h : VersionControl.facts k p.workspace.files = .error e) (declared : Option SourceEntry) :
    fillFromFacts host s k declared p = .error e p.looked := by
  unfold fillFromFacts
  exact bind_of_error (by rw [work_facts, h]) _

theorem fillFromFacts_of_ok {s : Strategy} {k : σ} {facts : VersionFacts}
    (h : VersionControl.facts k p.workspace.files = .ok facts) (declared : Option SourceEntry) :
    let rendered := s.render host.environment facts true
    let remarks := (mismatch? declared rendered).toList
    fillFromFacts host s k declared p =
      .ok remarks
        ((p.looked.noted (remarks.map (·.record))).filledIn Metadata.versionKey ⟨"git", rendered⟩
          true) := by
  intro rendered remarks
  unfold fillFromFacts
  have hlooked : work (Action.facts k) p = .ok facts p.looked := by rw [work_facts, h]
  rw [bind_of_ok hlooked]
  cases hmismatch : mismatch? declared (s.render host.environment facts true) with
  | none =>
    simp only [remarks, rendered, hmismatch, Option.toList_none, List.map_nil, Draft.noted_nil]
    rfl
  | some d =>
    simp only [remarks, rendered, hmismatch]
    rfl

omit [VersionControl σ] in
theorem reportProblem_apply (declared : Option SourceEntry) (hs : v.strategy.isSome = true)
    {text : String} (hproblem : v.problem = some text) :
    v.reportProblem declared p =
      .ok [.problem text]
        (((seeded p declared).noted [(Diagnostic.problem text).record]).noted
          [.trace ("not auto-filling version due to problem: [" ++ text ++ "]")]) := by
  unfold reportProblem
  rw [bind_of_ok (seed_apply declared p)]
  simp only [hproblem, hs, ↓reduceIte]
  rfl

theorem fillVersion_of_disabled (h : v.enabled = false) :
    v.fillVersion host p =
      .ok v.remarks
        ((v.remarked p).noted
          [.trace "not auto-filling version, versioning is disabled"]) := by
  unfold fillVersion
  rw [bind_of_ok (work_strategyRemarks v p), h]
  rfl

section

variable (henabled : v.enabled = true)

include henabled

theorem fillVersion_of_owned (howned : IsOwned p.metadata) :
    v.fillVersion host p =
      .ok v.remarks
        ((v.remarked p).noted
          [.trace ("not auto-filling version for " ++ alternateBuildSource)]) := by
  have hany := any_isOwnedElsewhere_iff.mpr howned
  unfold fillVersion
  rw [bind_of_ok (work_strategyRemarks v p)]
  simp only [henabled, Bool.not_true, Bool.false_eq_true, ↓reduceIte]
  rw [get_bind]
  simp only [Draft.noted, hany, ↓reduceIte]
  rfl

/-- What is left of filling in once the version turns out to be nobody else's. -/
theorem fillVersion_of_not_owned (howned : ¬ IsOwned p.metadata) :
    v.fillVersion host p =
      (match v.strategy, p.workspace.scm, v.problem with
        | some strategy, some scm, none => do
          return v.remarks ++ (← fillFromFacts host strategy scm (firstDeclared? p.metadata))
        | _, _, _ => do return v.remarks ++ (← v.reportProblem (firstDeclared? p.metadata)))
        (v.remarked p) := by
  have hany : (p.metadata.definition? Metadata.versionKey).any isOwnedElsewhere = false :=
    Bool.eq_false_iff.mpr (mt any_isOwnedElsewhere_iff.mp howned)
  unfold fillVersion
  rw [bind_of_ok (work_strategyRemarks v p)]
  simp only [henabled, Bool.not_true, Bool.false_eq_true, ↓reduceIte]
  rw [get_bind]
  simp only [Draft.noted, hany, Bool.false_eq_true, ↓reduceIte]
  rfl

section

variable (howned : ¬ IsOwned p.metadata)

include howned

section

variable {s : Strategy} {k : σ} (hs : v.strategy = some s) (hk : p.workspace.scm = some k)
  (hproblem : v.problem = none)

include hs hk hproblem

theorem fillVersion_of_refused {e : Error}
    (hfacts : VersionControl.facts k p.workspace.files = .error e) :
    v.fillVersion host p = .error e (v.remarked p).looked := by
  rw [fillVersion_of_not_owned henabled howned, hs, hk, hproblem]
  exact bind_of_error (fillFromFacts_of_error (p := v.remarked p) hfacts _) _

theorem fillVersion_of_facts {facts : VersionFacts}
    (hfacts : VersionControl.facts k p.workspace.files = .ok facts) :
    let rendered := s.render host.environment facts true
    let mismatches :=
      (mismatch? (firstDeclared? p.metadata) rendered).toList
    v.fillVersion host p =
      .ok (v.remarks ++ mismatches)
        (((v.remarked p).looked.noted (mismatches.map (·.record))).filledIn Metadata.versionKey
          ⟨"git", rendered⟩ true) := by
  intro rendered mismatches
  rw [fillVersion_of_not_owned henabled howned, hs, hk, hproblem]
  exact bind_of_ok (fillFromFacts_of_ok (p := v.remarked p) hfacts _) _

end

theorem fillVersion_of_problem (hs : v.strategy.isSome = true) {text : String}
    (hproblem : v.problem = some text) :
    v.fillVersion host p =
      .ok (v.remarks ++ [.problem text])
        (((seeded (v.remarked p) (firstDeclared? p.metadata)).noted
            [(Diagnostic.problem text).record]).noted
          [.trace ("not auto-filling version due to problem: [" ++ text ++ "]")]) := by
  have hreport := reportProblem_apply (p := v.remarked p) (firstDeclared? p.metadata) hs hproblem
  rw [fillVersion_of_not_owned henabled howned]
  -- a problem leads past the facts, whatever the strategy and the backend
  cases v.strategy <;> cases p.workspace.scm <;> simp only [hproblem] <;>
    exact bind_of_ok hreport _

end

end

/-- Filling in a version ends in one of five ways, with what it answers and what it leaves. -/
inductive Exit (host : Host) (v : Versioning) (p : Draft σ) :
    EStateM.Result Error (Draft σ) (List Diagnostic) → Prop where
  | disabled (henabled : v.enabled = false) :
    Exit host v p
      (.ok v.remarks
        ((v.remarked p).noted [.trace "not auto-filling version, versioning is disabled"]))
  | owned (henabled : v.enabled = true) (howned : IsOwned p.metadata) :
    Exit host v p
      (.ok v.remarks
        ((v.remarked p).noted [.trace ("not auto-filling version for " ++ alternateBuildSource)]))
  | unversioned {s : Strategy} (henabled : v.enabled = true) (howned : ¬ IsOwned p.metadata)
      (hs : v.strategy = some s) (hscm : p.workspace.scm = none) :
    Exit host v p
      (.ok (v.remarks ++ [.problem noScmProblem])
        (((seeded (v.remarked p) (firstDeclared? p.metadata)).noted
            [(Diagnostic.problem noScmProblem).record]).noted
          [.trace ("not auto-filling version due to problem: [" ++ noScmProblem ++ "]")]))
  | refused {s : Strategy} {k : σ} {e : Error} (henabled : v.enabled = true)
      (howned : ¬ IsOwned p.metadata) (hs : v.strategy = some s) (hscm : p.workspace.scm = some k)
      (hfacts : VersionControl.facts k p.workspace.files = .error e) :
    Exit host v p (.error e (v.remarked p).looked)
  | filled {s : Strategy} {k : σ} {facts : VersionFacts} {rendered : String}
      {mismatches : List Diagnostic} (henabled : v.enabled = true) (howned : ¬ IsOwned p.metadata)
      (hs : v.strategy = some s) (hscm : p.workspace.scm = some k)
      (hfacts : VersionControl.facts k p.workspace.files = .ok facts)
      (hrendered : s.render host.environment facts true = rendered)
      (hmismatches : (mismatch? (firstDeclared? p.metadata) rendered).toList = mismatches) :
    Exit host v p
      (.ok (v.remarks ++ mismatches)
        (((v.remarked p).looked.noted (mismatches.map (·.record))).filledIn Metadata.versionKey
          ⟨"git", rendered⟩ true))

theorem exit_fillVersion (host : Host) (d : Option Declaration) (root : String) (p : Draft σ) :
    let v := ofDeclaration d p.workspace.scm.isSome root
    Exit host v p (v.fillVersion host p) := by
  intro v
  cases henabled : v.enabled with
  | false =>
    rw [fillVersion_of_disabled henabled]
    exact .disabled henabled
  | true =>
    by_cases howned : IsOwned p.metadata
    · rw [fillVersion_of_owned henabled howned]
      exact .owned henabled howned
    · obtain ⟨s, hs, hvalid⟩ := enabled_iff.mp henabled
      have hproblem : v.problem =
          if p.workspace.scm.isSome then s.problem? else some noScmProblem :=
        problem_of_strategy hs
      -- a valid strategy leaves the source control to decide
      cases hscm : p.workspace.scm with
      | none =>
        rw [hscm] at hproblem
        rw [fillVersion_of_problem henabled howned (Option.isSome_of_eq_some hs) hproblem]
        exact .unversioned henabled howned hs hscm
      | some k =>
        rw [hscm] at hproblem
        have husable : v.problem = none := hproblem.trans hvalid
        cases hfacts : VersionControl.facts k p.workspace.files with
        | error e =>
          rw [fillVersion_of_refused henabled howned hs hscm husable hfacts]
          exact .refused henabled howned hs hscm hfacts
        | ok facts =>
          rw [fillVersion_of_facts henabled howned hs hscm husable hfacts]
          exact .filled henabled howned hs hscm hfacts rfl rfl

/-- However filling in ends, it has only looked at the workspace. -/
theorem spared_fillVersion (host : Host) (d : Option Declaration) (root : String) (p : Draft σ) :
    let v := ofDeclaration d p.workspace.scm.isSome root
    Workspace.Spared p.workspace ((v.fillVersion host).after p).workspace := by
  intro v
  have hexit : Exit host v p (v.fillVersion host p) := exit_fillVersion host d root p
  unfold Filling.after
  generalize v.fillVersion host p = r at hexit ⊢
  cases hexit with
  | disabled => exact ⟨rfl, rfl, .inl rfl⟩
  | owned => exact ⟨rfl, rfl, .inl rfl⟩
  | unversioned =>
    show Workspace.Spared p.workspace
      (((seeded (v.remarked p) (firstDeclared? p.metadata)).noted _).noted _).workspace
    unfold seeded
    split <;> exact ⟨rfl, rfl, .inl rfl⟩
  | refused => exact ⟨rfl, rfl, .inr rfl⟩
  | filled => exact ⟨rfl, rfl, .inr rfl⟩

end

end Versioning

end TagVersion
