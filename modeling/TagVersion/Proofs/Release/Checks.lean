import TagVersion.Project.Release
import TagVersion.Proofs.Steps

/-!
# The checks of a release

A release is refused for one of eight reasons, several of which may hold at once. This module
judges each of them on its own and shows that a release is refused for the first one in a fixed
order, before it has done anything.

* **`bump_eq`**: a release is its checks, and then what they allow.
* **`plan_spec`**: the checks find the first reason against a release.
* **`bump_checks`**: a release that the checks refuse leaves the project as it was.
-/

namespace TagVersion

/-! ## Single checks -/

namespace Triplet

/-- The number that a bump increments. -/
def number (t : Triplet) : Component → UInt64
  | .major => t.major
  | .minor => t.minor
  | .patch => t.patch

theorem successor?_eq_none_iff {w : UInt64} :
    successor? w = none ↔ w.toNat + 1 = UInt64.size := by
  have hlt : w.toNat < UInt64.size := w.toNat_lt_size
  unfold successor?
  split
  · next h =>
    constructor
    · intro hsome
      exact absurd hsome (by simp)
    · intro heq
      omega
  · next h =>
    constructor
    · intro _
      omega
    · intro _
      rfl

/-- A bump is refused where the number is the greatest word. -/
theorem bump?_eq_none_iff {t : Triplet} {c : Component} :
    t.bump? c = none ↔ (t.number c).toNat + 1 = UInt64.size := by
  rw [← successor?_eq_none_iff]
  cases c with
  | major => exact Option.map_eq_none_iff
  | minor => exact Option.map_eq_none_iff
  | patch => exact Option.map_eq_none_iff

end Triplet

namespace Versioning

/-- The checks of a release. -/
inductive Check where
  /-- Nothing is wrong with the versioning of the project. -/
  | usable
  /-- The backend can tell the branch, unless one is assumed. -/
  | branchKnown
  /-- The strategy allows releases from the branch. -/
  | branchAllowed
  /-- The backend can tell the facts of the checkout. -/
  | factsKnown
  /-- Nothing is pending that a commit would leave out. -/
  | clean
  /-- The main format has parts. -/
  | template
  /-- One of the parts shows the component. -/
  | inScope
  /-- The component can be incremented. -/
  | inRange
deriving DecidableEq, Repr

namespace Check

/-- The checks in the order in which they are made. -/
def all : List Check :=
  [usable, branchKnown, branchAllowed, factsKnown, clean, template, inScope, inRange]

/-- Whether the backend has looked at the checkout when a check is made. -/
def looks : Check → Bool
  | usable | branchKnown | branchAllowed => false
  | factsKnown | clean | template | inScope | inRange => true

/-- The error of an answer. -/
def refusal? {α : Type} : Except Error α → Option Error
  | .ok _ => none
  | .error e => some e

variable {σ : Type} [VersionControl σ]

/-- What a check has against a release, whatever the other checks have. -/
def objection? (v : Versioning) (request : BumpRequest) (scm : Option σ) (files : FileTree) :
    Check → Option Error
  | usable => v.problem.map .disabled
  | branchKnown => do
    if request.simulatedBranch.isSome then none
    else refusal? (VersionControl.branch (← scm))
  | branchAllowed => do
    let allowed := (← v.strategy).branches
    let branch ← request.simulatedBranch.or (scm.bind (VersionControl.branch · |>.toOption))
    if branch ∈ allowed then none else some (.branchNotAllowed branch allowed)
  | factsKnown => do refusal? (VersionControl.facts (← scm) files)
  | clean => do
    let facts ← (VersionControl.facts (← scm) files).toOption
    if request.commit ∧ facts.dirty ∧ ¬ request.commitAll then some .pendingChanges else none
  | template => do
    let main := (← v.strategy).main
    if main.parts? = none then some (.customMainFormat main.display) else none
  | inScope => do
    let main := (← v.strategy).main
    let parts ← main.parts?
    if ∃ p ∈ parts, p.field?.bind (·.component?) = some request.component then none
    else some (.outOfScope request.component.name main.display)
  | inRange => do
    let facts ← (VersionControl.facts (← scm) files).toOption
    if (facts.triplet.number request.component).toNat + 1 = UInt64.size then
      some (.versionOverflow request.component.name facts.triplet.text)
    else none

end Check

section

variable {σ : Type} [VersionControl σ]

/-- The first of some checks that has something against a release, and what it has. -/
def firstOf? (v : Versioning) (request : BumpRequest) (scm : Option σ) (files : FileTree)
    (checks : List Check) : Option (Check × Error) :=
  checks.findSome? fun check => (check.objection? v request scm files).map (check, ·)

/-- The first check in the order that has something against a release, and what it has. -/
def firstObjection? (v : Versioning) (request : BumpRequest) (scm : Option σ)
    (files : FileTree) : Option (Check × Error) :=
  v.firstOf? request scm files Check.all

variable {v : Versioning} {request : BumpRequest} {scm : Option σ} {files : FileTree}
  {check : Check} {checks : List Check}

theorem firstOf?_cons_of_some {e : Error} (h : check.objection? v request scm files = some e) :
    v.firstOf? request scm files (check :: checks) = some (check, e) := by
  unfold firstOf?
  rw [List.findSome?_cons, h]
  rfl

theorem firstOf?_cons_of_none (h : check.objection? v request scm files = none) :
    v.firstOf? request scm files (check :: checks) = v.firstOf? request scm files checks := by
  unfold firstOf?
  rw [List.findSome?_cons, h]
  rfl

end

/-! ## The remarks before the checks -/

/-- The remarks on keys of the declaration that mean nothing. -/
def remarks (v : Versioning) : List Diagnostic :=
  match v.strategy with
  | some s => if s.ignoredFields = [] then [] else [.ignoredFields s.ignoredFields]
  | none => []

theorem strategyRemarks_apply {σ : Type} (v : Versioning) (w : Workspace σ) :
    v.strategyRemarks w = .ok v.remarks { w with log := w.log ++ v.remarks.map (·.record) } := by
  unfold strategyRemarks remarks
  cases v.strategy with
  | none => simp [pure, EStateM.pure]
  | some s =>
    by_cases hfields : s.ignoredFields = []
    · simp [hfields, pure, EStateM.pure]
    · simp only [if_neg hfields]
      rfl

/-! ## The order of the checks -/

theorem inScope_eq_true_iff {parts : List TemplatePart} {c : Component} :
    Strategy.inScope parts c = true ↔ ∃ p ∈ parts, p.field?.bind (·.component?) = some c := by
  unfold Strategy.inScope
  rw [List.any_eq_true]
  simp only [beq_iff_eq]

theorem bump_cases (s : Strategy) (environment : Environment) (c : Component)
    (facts : VersionFacts) :
    s.bump environment c facts =
      match s.main.parts? with
      | none => .error (.customMainFormat s.main.display)
      | some parts =>
        if ∃ p ∈ parts, p.field?.bind (·.component?) = some c then
          match facts.triplet.bump? c with
          | none => .error (.versionOverflow c.name facts.triplet.text)
          | some next => .ok (s.render environment (.ofTriplet next) false)
        else .error (.outOfScope c.name s.main.display) := by
  unfold Strategy.bump Triplet.bump
  cases s.main.parts? with
  | none => rfl
  | some parts =>
    show _ = if _ then _ else _
    by_cases hscope : ∃ p ∈ parts, p.field?.bind (·.component?) = some c
    · rw [if_pos hscope]
      simp only [inScope_eq_true_iff.mpr hscope]
      cases facts.triplet.bump? c <;> rfl
    · rw [if_neg hscope]
      have hfalse : Strategy.inScope parts c = false := by
        rw [← Bool.not_eq_true, inScope_eq_true_iff]
        exact hscope
      simp only [hfalse]
      rfl

/-- A project that has nothing against releases has a strategy and a backend. -/
theorem ofDeclaration_problem_eq_none {d : Option Declaration} {hasScm : Bool} {root : String}
    (h : (ofDeclaration d hasScm root).problem = none) :
    (ofDeclaration d hasScm root).strategy.isSome ∧ hasScm = true := by
  unfold ofDeclaration at h ⊢
  cases hstrategy : d.bind Strategy.ofDeclaration? with
  | none =>
    rw [hstrategy] at h
    exact absurd h (by simp)
  | some s =>
    rw [hstrategy] at h
    cases hasScm with
    | false => exact absurd h (by simp)
    | true => exact ⟨rfl, rfl⟩

section

variable {σ : Type} [VersionControl σ] {v : Versioning} {request : BumpRequest} {s : Strategy}
  {k : σ} {scm : Option σ} {files : FileTree}

theorem releaseTarget_of_problem {problem : String} (hproblem : v.problem = some problem) :
    v.releaseTarget request scm = .error (.disabled problem) := by
  unfold releaseTarget
  rw [hproblem]
  rfl

theorem releaseTarget_of_usable (hproblem : v.problem = none) (hs : v.strategy = some s) :
    v.releaseTarget request (some k) =
      match releaseBranch request k with
      | .error e => .error e
      | .ok branch =>
        if branch ∈ s.branches then .ok (s, k, branch)
        else .error (.branchNotAllowed branch s.branches) := by
  have htarget : v.releaseTarget request (some k) = releaseBranch request k >>= fun branch =>
      if s.branches.contains branch then .ok (s, k, branch)
      else .error (.branchNotAllowed branch s.branches) := by
    unfold releaseTarget
    rw [hproblem, hs]
    rfl
  rw [htarget]
  simp only [List.contains_iff_mem]
  cases releaseBranch request k <;> rfl

theorem plan_of_refusal (environment : Environment) {e : Error}
    (h : v.releaseTarget request scm = .error e) :
    v.plan environment request scm files = .error e := by
  unfold plan
  rw [h]
  rfl

theorem plan_of_target (environment : Environment) {branch : String}
    (h : v.releaseTarget request scm = .ok (s, k, branch)) :
    v.plan environment request scm files =
      match VersionControl.facts k files with
      | .error e => .error e
      | .ok facts =>
        if request.commit ∧ facts.dirty ∧ ¬ request.commitAll then .error .pendingChanges
        else (s.bump environment request.component facts).map (⟨·, branch⟩) := by
  have hplan : v.plan environment request scm files = VersionControl.facts k files >>= fun facts =>
      if request.commit && facts.dirty && !request.commitAll then .error .pendingChanges
      else (s.bump environment request.component facts).map (⟨·, branch⟩) := by
    unfold plan
    rw [h]
    rfl
  rw [hplan]
  cases VersionControl.facts k files with
  | error e => rfl
  | ok facts =>
    show (if _ then _ else _) = if _ then _ else _
    simp [and_assoc]

/-! ### The checks of a project with a strategy and a backend -/

theorem objection?_usable :
    Check.usable.objection? v request scm files = v.problem.map .disabled := rfl

theorem objection?_branchKnown :
    Check.branchKnown.objection? v request (some k) files =
      Check.refusal? (releaseBranch request k) := by
  simp only [Check.objection?]
  unfold releaseBranch
  cases request.simulatedBranch <;> rfl

theorem objection?_branchAllowed {branch : String} (hs : v.strategy = some s)
    (hbranch : releaseBranch request k = .ok branch) :
    Check.branchAllowed.objection? v request (some k) files =
      if branch ∈ s.branches then none else some (.branchNotAllowed branch s.branches) := by
  simp only [Check.objection?, hs]
  unfold releaseBranch at hbranch
  cases hsimulated : request.simulatedBranch with
  | some simulated =>
    rw [hsimulated] at hbranch
    obtain rfl := Except.ok.inj hbranch
    rfl
  | none =>
    rw [hsimulated] at hbranch
    have hbranch : VersionControl.branch k = .ok branch := hbranch
    rw [Option.bind_some, hbranch]
    rfl

theorem objection?_factsKnown :
    Check.factsKnown.objection? v request (some k) files =
      Check.refusal? (VersionControl.facts k files) := rfl

theorem objection?_template (hs : v.strategy = some s) :
    Check.template.objection? v request scm files =
      if s.main.parts? = none then some (.customMainFormat s.main.display) else none := by
  simp only [Check.objection?, hs]
  rfl

theorem objection?_inScope {parts : List TemplatePart} (hs : v.strategy = some s)
    (hparts : s.main.parts? = some parts) :
    Check.inScope.objection? v request scm files =
      if ∃ p ∈ parts, p.field?.bind (·.component?) = some request.component then none
      else some (.outOfScope request.component.name s.main.display) := by
  simp only [Check.objection?, hs, Option.bind_eq_bind, Option.bind_some, hparts]

section

variable {facts : VersionFacts} (hfacts : VersionControl.facts k files = .ok facts)

include hfacts

theorem objection?_clean :
    Check.clean.objection? v request (some k) files =
      if request.commit ∧ facts.dirty ∧ ¬ request.commitAll then some .pendingChanges
      else none := by
  simp only [Check.objection?, Option.bind_eq_bind, Option.bind_some, hfacts]
  rfl

theorem objection?_inRange :
    Check.inRange.objection? v request (some k) files =
      if facts.triplet.bump? request.component = none then
        some (.versionOverflow request.component.name facts.triplet.text)
      else none := by
  simp only [Check.objection?, Option.bind_eq_bind, Option.bind_some, hfacts,
    Triplet.bump?_eq_none_iff]
  rfl

/-- What the checks of the next version have against it. -/
theorem firstOf?_bump (environment : Environment) (hs : v.strategy = some s) :
    match v.firstOf? request (some k) files [.template, .inScope, .inRange] with
    | some (check, e) =>
      s.bump environment request.component facts = .error e ∧ check.looks = true
    | none => ∃ version, s.bump environment request.component facts = .ok version := by
  rw [bump_cases]
  cases hparts : s.main.parts? with
  | none =>
    rw [firstOf?_cons_of_some (by rw [objection?_template hs, if_pos hparts])]
    exact ⟨rfl, rfl⟩
  | some parts =>
    rw [firstOf?_cons_of_none (by rw [objection?_template hs, hparts]; rfl)]
    by_cases hscope : ∃ p ∈ parts, p.field?.bind (·.component?) = some request.component
    · rw [firstOf?_cons_of_none (by rw [objection?_inScope hs hparts, if_pos hscope])]
      simp only [if_pos hscope]
      cases hnext : facts.triplet.bump? request.component with
      | none =>
        rw [firstOf?_cons_of_some (by rw [objection?_inRange hfacts, if_pos hnext])]
        exact ⟨rfl, rfl⟩
      | some next =>
        rw [firstOf?_cons_of_none (by rw [objection?_inRange hfacts, hnext]; rfl)]
        exact ⟨_, rfl⟩
    · rw [firstOf?_cons_of_some (by rw [objection?_inScope hs hparts, if_neg hscope])]
      refine ⟨?_, rfl⟩
      show (if _ then _ else _) = _
      rw [if_neg hscope]

end

/-- **The checks** find the first objection to a release, and the backend looks at the checkout
once it has to tell its facts. -/
theorem plan_spec (environment : Environment)
    (husable : v.problem = none → v.strategy.isSome ∧ scm.isSome) :
    match v.firstObjection? request scm files with
    | some (check, e) =>
      v.plan environment request scm files = .error e ∧
        (v.releaseTarget request scm).isOk = check.looks
    | none =>
      (∃ p, v.plan environment request scm files = .ok p) ∧
        (v.releaseTarget request scm).isOk = true := by
  unfold firstObjection? Check.all
  -- along the order of the checks: each case but the last ends with the check that fails
  cases hproblem : v.problem with
  | some problem =>
    have htarget : v.releaseTarget request scm = .error (.disabled problem) :=
      releaseTarget_of_problem hproblem
    rw [firstOf?_cons_of_some (by rw [objection?_usable, hproblem]; rfl),
      plan_of_refusal environment htarget, htarget]
    exact ⟨rfl, rfl⟩
  | none =>
    obtain ⟨hstrategy, hscm⟩ := husable hproblem
    obtain ⟨s, hs⟩ := Option.isSome_iff_exists.mp hstrategy
    obtain ⟨k, rfl⟩ := Option.isSome_iff_exists.mp hscm
    have htarget := @releaseTarget_of_usable _ _ _ request _ k hproblem hs
    rw [firstOf?_cons_of_none (by rw [objection?_usable, hproblem]; rfl)]
    cases hbranch : releaseBranch request k with
    | error e =>
      rw [hbranch] at htarget
      rw [firstOf?_cons_of_some (by rw [objection?_branchKnown, hbranch]; rfl),
        plan_of_refusal environment htarget, htarget]
      exact ⟨rfl, rfl⟩
    | ok branch =>
      rw [firstOf?_cons_of_none (by rw [objection?_branchKnown, hbranch]; rfl)]
      by_cases hmem : branch ∈ s.branches
      · simp only [hbranch, if_pos hmem] at htarget
        rw [firstOf?_cons_of_none (by rw [objection?_branchAllowed hs hbranch, if_pos hmem]),
          plan_of_target environment htarget, htarget]
        cases hfacts : VersionControl.facts k files with
        | error e =>
          rw [firstOf?_cons_of_some (by rw [objection?_factsKnown, hfacts]; rfl)]
          exact ⟨rfl, rfl⟩
        | ok facts =>
          rw [firstOf?_cons_of_none (by rw [objection?_factsKnown, hfacts]; rfl)]
          by_cases hpending : request.commit ∧ facts.dirty ∧ ¬ request.commitAll
          · rw [firstOf?_cons_of_some (by rw [objection?_clean hfacts, if_pos hpending])]
            simp only [if_pos hpending]
            exact ⟨trivial, rfl⟩
          · rw [firstOf?_cons_of_none (by rw [objection?_clean hfacts, if_neg hpending])]
            have hbump := @firstOf?_bump _ _ _ request _ _ _ _ hfacts environment hs
            simp only [if_neg hpending]
            cases hfirst : v.firstOf? request (some k) files [.template, .inScope, .inRange] with
            | some objection =>
              rw [hfirst] at hbump
              obtain ⟨hversion, hlooks⟩ := hbump
              rw [hversion]
              exact ⟨rfl, hlooks.symm⟩
            | none =>
              rw [hfirst] at hbump
              obtain ⟨version, hversion⟩ := hbump
              rw [hversion]
              exact ⟨⟨_, rfl⟩, rfl⟩
      · simp only [hbranch, if_neg hmem] at htarget
        rw [firstOf?_cons_of_some (by rw [objection?_branchAllowed hs hbranch, if_neg hmem]),
          plan_of_refusal environment htarget, htarget]
        exact ⟨rfl, rfl⟩

theorem of_releaseTarget_eq_ok {branch : String}
    (h : v.releaseTarget request scm = .ok (s, k, branch)) : v.strategy = some s ∧ scm = some k := by
  cases hproblem : v.problem with
  | some problem =>
    rw [releaseTarget_of_problem hproblem] at h
    exact absurd h (by simp)
  | none =>
    cases hstrategy : v.strategy with
    | none =>
      unfold releaseTarget at h
      rw [hproblem, hstrategy] at h
      exact absurd h (by simp [throw, throwThe, MonadExceptOf.throw])
    | some s' =>
      cases scm with
      | none =>
        unfold releaseTarget at h
        rw [hproblem, hstrategy] at h
        exact absurd h (by simp [throw, throwThe, MonadExceptOf.throw])
      | some k' =>
        rw [releaseTarget_of_usable hproblem hstrategy] at h
        split at h
        · exact absurd h (by simp)
        · split at h
          · obtain ⟨rfl, hrest⟩ := Prod.mk.inj (Except.ok.inj h)
            obtain ⟨rfl, -⟩ := Prod.mk.inj hrest
            exact ⟨rfl, rfl⟩
          · exact absurd h (by simp)

/-- A release that passes the checks has the version that its strategy makes of the facts. -/
theorem exists_bump_of_plan {environment : Environment} {p : BumpPlan}
    (hplan : v.plan environment request scm files = .ok p) :
    (v.releaseTarget request scm).isOk = true ∧
      ∃ s k facts, v.strategy = some s ∧ scm = some k ∧
        VersionControl.facts k files = .ok facts ∧
        s.bump environment request.component facts = .ok p.version := by
  cases htarget : v.releaseTarget request scm with
  | error e =>
    rw [plan_of_refusal environment htarget] at hplan
    exact absurd hplan (by simp)
  | ok target =>
    obtain ⟨s, k, branch⟩ := target
    obtain ⟨hs, hk⟩ := of_releaseTarget_eq_ok htarget
    rw [plan_of_target environment htarget] at hplan
    refine ⟨rfl, s, k, ?_⟩
    split at hplan
    · exact absurd hplan (by simp)
    · next facts hfacts =>
      refine ⟨facts, hs, hk, hfacts, ?_⟩
      split at hplan
      · exact absurd hplan (by simp)
      · cases hbump : s.bump environment request.component facts with
        | error e =>
          rw [hbump] at hplan
          exact absurd hplan (by simp [Except.map])
        | ok version =>
          rw [hbump] at hplan
          rw [← Except.ok.inj hplan]

/-! ## The release after its checks -/

/-- The workspace of a release when the checks are over. -/
def checked (v : Versioning) (request : BumpRequest) (w : Workspace σ) : Workspace σ :=
  { w with
    scm :=
      if (v.releaseTarget request w.scm).isOk then w.scm.map VersionControl.refresh else w.scm
    log := w.log ++ v.remarks.map (·.record) }

/-- A release that passes the checks goes on with a backend that has looked at the checkout. -/
theorem checked_of_plan {environment : Environment} {p : BumpPlan} {w : Workspace σ}
    (hplan : v.plan environment request w.scm w.files = .ok p) :
    (v.checked request w).unlogged =
        { w.unlogged with scm := w.scm.map VersionControl.refresh } ∧
      (v.checked request w).scm.isSome := by
  obtain ⟨htarget, s, k, facts, -, hk, -⟩ := exists_bump_of_plan hplan
  unfold checked
  rw [if_pos htarget]
  refine ⟨rfl, ?_⟩
  rw [hk]
  rfl

/-- A release after its checks, with the remarks that came before them. -/
def release (host : Host) (base : String) (v : Versioning) (m : Metadata) (request : BumpRequest)
    (p : BumpPlan) : Action σ BumpReport := do
  let report ← v.carryOut host base m request p
  return { report with diagnostics := v.remarks ++ report.diagnostics }

/-- **A release** is its checks, and then what they allow. -/
theorem bump_eq (host : Host) (base : String) (m : Metadata) (w : Workspace σ) :
    v.bump host base m request w =
      match v.plan host.environment request w.scm w.files with
      | .error e => .error e (v.checked request w)
      | .ok p => v.release host base m request p (v.checked request w) := by
  have hremarks := strategyRemarks_apply v w
  unfold bump checked
  simp only [bind, EStateM.bind, hremarks, get, getThe, MonadStateOf.get, EStateM.get]
  -- whether the backend looks at the checkout, and whether the checks pass
  cases (v.releaseTarget request w.scm).isOk <;>
    cases v.plan host.environment request w.scm w.files with
    | error e => rfl
    | ok p => rfl

/-- **The first objection decides.** A release that is refused ends in it, with the files and the
journal as they were: nothing is written, no request to commit or to tag reaches the backend, and
no hook is run. A project without a strategy or a backend is refused for its problem already, and
the branch that is checked out does not matter to a release that assumes one. -/
theorem bump_checks (host : Host) (base : String) (m : Metadata) (root : String)
    (request : BumpRequest) (w : Workspace σ) :
    let v := ofDeclaration m.versioning w.scm.isSome root
    (v.problem = none → v.strategy.isSome ∧ w.scm.isSome) ∧
      (match v.firstObjection? request w.scm w.files with
      | some (check, e) =>
        v.bump host base m request w =
          .error e
            { w with
              scm := if check.looks then w.scm.map VersionControl.refresh else w.scm
              log := w.log ++ v.remarks.map (·.record) }
      | none =>
        ∃ p, v.plan host.environment request w.scm w.files = .ok p ∧
          v.bump host base m request w =
            v.release host base m request p (v.checked request w)) ∧
      (request.simulatedBranch.isSome → ∀ answer : σ → Except Error String,
        @bump σ { ‹VersionControl σ› with branch := answer } host base v m request w =
          v.bump host base m request w) := by
  intro v
  refine ⟨?_, ?_, ?_⟩
  · exact ofDeclaration_problem_eq_none
  · have husable : v.problem = none → v.strategy.isSome ∧ w.scm.isSome :=
      ofDeclaration_problem_eq_none
    have hspec := @plan_spec _ _ v request w.scm w.files host.environment husable
    rw [bump_eq]
    cases hfirst : v.firstObjection? request w.scm w.files with
    | some objection =>
      rw [hfirst] at hspec
      unfold checked
      rw [hspec.1, hspec.2]
    | none =>
      rw [hfirst] at hspec
      obtain ⟨⟨p, hplan⟩, -⟩ := hspec
      rw [hplan]
      exact ⟨p, rfl, rfl⟩
  · -- the backend is asked for a branch in one place only
    intro hsimulated answer
    obtain ⟨branch, hbranch⟩ := Option.isSome_iff_exists.mp hsimulated
    unfold bump plan releaseTarget releaseBranch
    rw [hbranch]
    rfl

end

end Versioning

end TagVersion
