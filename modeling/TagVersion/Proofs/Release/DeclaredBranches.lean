import TagVersion.Proofs.Branches.Literal
import TagVersion.Proofs.Compact.NormalForm
import TagVersion.Proofs.Release.Prediction
import TagVersion.Proofs.Repository.Commits
import TagVersion.Scm.Recorder

/-!
# The branches that a project declares

A declaration lists the branches from which a project may be released. The list goes through its
text before a strategy has it, and releases are refused by what has come of it.

* **`Strategy.ofDeclaration?_names`**: the branches that a strategy takes from a list.
* **`refusesBranch_of_run`**: nothing after the checks refuses a branch.
* **`bump_declaredBranches`**: the releases that are refused for their branch.
-/

namespace TagVersion

/-! ## Branches of a declaration -/

namespace Strategy

/-- A strategy that is declared with a list of branches takes what is read of their text; the default
stands in where that is nothing. -/
theorem ofDeclaration?_names {t : StrategyTable} {names : List String}
    (hbranches : t.branches = some (.names names)) :
    ∃ s, ofDeclaration? (.table t) = some s ∧
      s.branches =
        if Branches.parse (Branches.text names) = [] then ["master"]
        else Branches.parse (Branches.text names) := by
  have htruthy : (Declaration.table t).isTruthy = true := by
    simp [Declaration.isTruthy, StrategyTable.isEmpty, hbranches]
  refine ⟨ofTable t, ?_, ?_⟩
  · unfold ofDeclaration?
    rw [if_pos htruthy]
  · unfold ofTable make
    rw [hbranches, ← parse_defaultBranches]

theorem defaulted_eq_self_iff {names : List String} (hne : names ≠ [])
    (hnames : ∀ name ∈ names, name.toList ≠ [] ∧ Text.trim name.toList = name.toList) :
    (if Branches.parse (Branches.text names) = [] then ["master"]
      else Branches.parse (Branches.text names)) = names ↔ Branches.IsLiteral names := by
  rw [← Branches.parse_text_eq_self_iff hnames]
  split
  · next hnil =>
    -- the default itself would have been read back
    rw [hnil]
    constructor
    · rintro rfl
      exact absurd hnil (by decide)
    · intro heq
      exact absurd heq.symm hne
  · exact Iff.rfl

end Strategy

/-! ## Errors that are not about a branch -/

/-- Whether an error is the refusal of a branch. -/
def Error.refusesBranch : Error → Bool
  | .branchNotAllowed _ _ => true
  | _ => false

/-- A backend that leaves it to the strategy from which branches a project may be released. -/
structure VersionControl.LeavesBranches (σ : Type) [VersionControl σ] : Prop where
  facts : ∀ {k : σ} {files e}, VersionControl.facts k files = .error e → e.refusesBranch = false
  applyTag : ∀ {k : σ} {commit version e},
    (VersionControl.applyTag k commit version).result = .error e → e.refusesBranch = false
  commitFiles : ∀ {k : σ} {files commit paths version e},
    (VersionControl.commitFiles k files commit paths version).result = .error e →
      e.refusesBranch = false

open VersionControl (LeavesBranches)

theorem Checkout.leavesBranches : LeavesBranches Checkout where
  facts {c files e} h := by
    have h : c.repository.facts c.refresh.read.entries files c.workdir = .error e := h
    unfold Repository.facts at h
    split at h
    · rw [← Except.error.inj h]
      rfl
    · split at h
      · exact absurd h nofun
      · simp only at h
        split at h
        · exact absurd h nofun
        · rw [← Except.error.inj h]
          rfl
  applyTag {c commit version e} h := by
    have h : (c.applyTag commit version).result = .error e := h
    unfold Checkout.applyTag at h
    simp only at h
    split at h
    · exact absurd h nofun
    · split at h
      · rw [← Except.error.inj h]
        rfl
      · split at h
        · rw [← Except.error.inj h]
          rfl
        · split at h
          · rw [← Except.error.inj h]
            rfl
          · obtain ⟨fault, rfl⟩ := of_publish_eq_error h
            rfl
  commitFiles {c files commit paths version e} h := by
    cases commit with
    | false => exact absurd (h : Except.ok () = .error e) nofun
    | true =>
      obtain ⟨fault, rfl⟩ := of_commitFiles_eq_error h
      rfl

theorem Recorder.refusesBranch_of_request {r granted : Recorder} {call : ScmCall} {e : Error}
    (h : (r.request call granted).result = .error e) : e.refusesBranch = false := by
  unfold request attempt at h
  split at h
  · exact absurd h nofun
  · next e' hattempt =>
    split at hattempt
    · rw [← Except.error.inj h, ← Except.error.inj hattempt]
      rfl
    · exact absurd hattempt nofun

theorem Recorder.leavesBranches : LeavesBranches Recorder where
  facts {r files e} h := by
    have h : r.attempt .getVersion r.facts = .error e := h
    unfold attempt at h
    split at h
    · rw [← Except.error.inj h]
      rfl
    · exact absurd h nofun
  applyTag h := refusesBranch_of_request h
  commitFiles h := refusesBranch_of_request h

theorem Strategy.refusesBranch_of_bump {s : Strategy} {environment : Environment} {c : Component}
    {facts : VersionFacts} {e : Error} (h : s.bump environment c facts = .error e) :
    e.refusesBranch = false := by
  rw [Versioning.bump_cases] at h
  split at h
  · rw [← Except.error.inj h]
    rfl
  · split at h
    · split at h
      · rw [← Except.error.inj h]
        rfl
      · exact absurd h nofun
    · rw [← Except.error.inj h]
      rfl

section

variable {σ : Type}

theorem Workspace.of_request_eq_error {w w' : Workspace σ} {step : Step} {ask : σ → Reply σ}
    {e : Error} (h : w.request step ask = .error e w') :
    e = .disabled noScmProblem ∨ ∃ k, (ask k).result = .error e := by
  cases hscm : w.scm with
  | none =>
    rw [Workspace.request_of_none hscm] at h
    injection h with he
    exact .inl he.symm
  | some k =>
    rw [Workspace.request_of_some hscm] at h
    refine .inr ⟨k, ?_⟩
    cases hresult : (ask k).result with
    | ok _ =>
      rw [hresult] at h
      exact absurd h nofun
    | error e' =>
      rw [hresult] at h
      injection h with he
      rw [he]

variable [VersionControl σ] {host : Host} {w w' : Workspace σ} {e : Error}

/-- **No attempt refuses a branch**, as long as the backend does not. -/
theorem Workspace.refusesBranch_of_attempt (hscm : LeavesBranches σ) {directory : String}
    {a : Attempt} (h : w.attempt host directory a = .error e w') : e.refusesBranch = false := by
  unfold attempt at h
  cases a with
  | read path =>
    simp only at h
    split at h
    · exact absurd h nofun
    · injection h with he
      rw [← he]
      rfl
  | step s =>
    cases s with
    | write path content =>
      simp only at h
      split at h
      · exact absurd h nofun
      · injection h with he
        rw [← he]
        rfl
    | commitFiles commit paths version =>
      rcases of_request_eq_error h with rfl | ⟨k, hrefused⟩
      · rfl
      · exact hscm.commitFiles hrefused
    | applyTag commit version =>
      rcases of_request_eq_error h with rfl | ⟨k, hrefused⟩
      · rfl
      · exact hscm.applyTag hrefused
    | runHook path environment =>
      simp only at h
      split at h
      · unfold Hook.verdict at h
        split at h
        · injection h with he
          rw [← he]
          rfl
        · split at h
          · exact absurd h nofun
          · injection h with he
            rw [← he]
            rfl
      · injection h with he
        rw [← he]
        rfl

namespace Versioning

variable {base : String} {v : Versioning} {m : Metadata} {request : BumpRequest} {p : BumpPlan}

theorem refusesBranch_of_follows {α : Type} {directory : String} {act : Action σ α}
    {attempts : List Attempt} {post : α → Workspace σ → Prop} (hscm : LeavesBranches σ)
    (hrun : Action.Follows host directory act w attempts post) (h : act w = .error e w') :
    e.refusesBranch = false := by
  unfold Action.Follows at hrun
  rw [h] at hrun
  -- a run that fails does so in one of its attempts
  have hall : w.unlogged.attemptAll host directory attempts = .error e w'.unlogged := hrun
  obtain ⟨_, _, _, _, -, -, hattempt⟩ := Workspace.exists_of_attemptAll_eq_error hall
  exact Workspace.refusesBranch_of_attempt hscm hattempt

/-- **Nothing after the checks** refuses a branch, whether anything is to be committed or not. -/
theorem refusesBranch_of_release (hscm : LeavesBranches σ) (hsome : w.scm.isSome)
    (h : v.release host base m request p w = .error e w') : e.refusesBranch = false := by
  unfold release at h
  rcases Action.of_bind_eq_error h with hcarry | ⟨_, _, -, hdone⟩
  · cases hcommit : request.commit with
    | true => exact refusesBranch_of_follows hscm (follows_carryOut base v m hcommit p hsome) hcarry
    | false => exact refusesBranch_of_follows hscm (follows_simulate hcommit p hsome) hcarry
  · exact absurd hdone nofun

theorem refusesBranch_of_bump (hscm : LeavesBranches σ) {s : Strategy} {k : σ} {branch : String}
    (htarget : v.releaseTarget request w.scm = .ok (s, k, branch))
    (h : v.bump host base m request w = .error e w') : e.refusesBranch = false := by
  rw [bump_eq] at h
  cases hplan : v.plan host.environment request w.scm w.files with
  | ok p =>
    rw [hplan] at h
    exact refusesBranch_of_release hscm (checked_of_plan hplan).2 h
  | error e' =>
    rw [hplan] at h
    injection h with he
    -- the branch was judged before, so one of the later checks has failed
    rw [← he]
    rw [plan_of_target host.environment htarget] at hplan
    split at hplan
    · next hfacts =>
      rw [← Except.error.inj hplan]
      exact hscm.facts hfacts
    · split at hplan
      · rw [← Except.error.inj hplan]
        rfl
      · next facts _ _ =>
        cases hbump : s.bump host.environment request.component facts with
        | ok version =>
          rw [hbump] at hplan
          exact absurd hplan nofun
        | error e'' =>
          rw [hbump] at hplan
          obtain rfl : e'' = e' := Except.error.inj hplan
          exact Strategy.refusesBranch_of_bump hbump

/-- A release from a branch that the strategy does not have is refused before it has done anything. -/
theorem bump_of_not_mem (host : Host) (base : String) (m : Metadata) {s : Strategy} {k : σ}
    {branch : String} (hproblem : v.problem = none) (hs : v.strategy = some s)
    (hk : w.scm = some k) (hbranch : releaseBranch request k = .ok branch)
    (hmem : branch ∉ s.branches) :
    ∃ w', v.bump host base m request w = .error (.branchNotAllowed branch s.branches) w' ∧
      w'.files = w.files ∧ w'.scm = w.scm ∧ w'.journal = w.journal := by
  have htarget : v.releaseTarget request w.scm =
      .error (.branchNotAllowed branch s.branches) := by
    rw [hk, releaseTarget_of_usable hproblem hs]
    simp only [hbranch, if_neg hmem]
  refine ⟨v.checked request w, ?_, rfl, ?_, rfl⟩
  · rw [bump_eq, plan_of_refusal host.environment htarget]
  · unfold checked
    rw [htarget]
    rfl

/-- **The branches of a declared list** are what is read of its text: without the brackets at its ends,
and with the names that stand between the commas of one name. They are the list itself if and only
if it is literal. A release is refused for its branch exactly if it is none of them. -/
theorem bump_declaredBranches (hscm : LeavesBranches σ) (host : Host) (base : String)
    (m : Metadata) (root : String) (request : BumpRequest) (w : Workspace σ) {t : StrategyTable}
    {names : List String} (hversioning : m.versioning = some (.table t))
    (hbranches : t.branches = some (.names names)) (hne : names ≠ [])
    (hnames : ∀ name ∈ names, name ≠ "" ∧ Text.trimmed name = name) :
    let read := (Branches.unbracketed names).flatMap Branches.names
    let v := ofDeclaration m.versioning w.scm.isSome root
    ∃ s, Strategy.ofDeclaration? (.table t) = some s ∧
      s.branches = (if read = [] then ["master"] else read) ∧
      (s.branches = names ↔ Branches.IsLiteral names) ∧
      (∀ name ∈ names, ',' ∈ name.toList → name ∉ s.branches) ∧
      ∀ k branch, w.scm = some k → v.problem = none → releaseBranch request k = .ok branch →
        (branch ∉ s.branches →
          ∃ w', v.bump host base m request w = .error (.branchNotAllowed branch s.branches) w' ∧
            w'.files = w.files ∧ w'.scm = w.scm ∧ w'.journal = w.journal) ∧
        (branch ∈ s.branches → ∀ e w', v.bump host base m request w = .error e w' →
          e.refusesBranch = false) := by
  intro read v
  obtain ⟨s, hs, hread⟩ := Strategy.ofDeclaration?_names hbranches
  have hstrategy : v.strategy = some s := by
    show m.versioning.bind Strategy.ofDeclaration? = some s
    rw [hversioning]
    exact hs
  have hchars : ∀ name ∈ names, name.toList ≠ [] ∧ Text.trim name.toList = name.toList := by
    intro name hname
    obtain ⟨hempty, htrimmed⟩ := hnames name hname
    refine ⟨fun hnil => hempty (String.toList_eq_nil_iff.mp hnil), ?_⟩
    have hlist := congrArg String.toList htrimmed
    rwa [Text.trimmed, String.toList_ofList] at hlist
  refine ⟨s, hs, ?_, ?_, ?_, fun k branch hk hproblem hbranch => ⟨fun hmem => ?_, fun hmem => ?_⟩⟩
  · rw [hread, Branches.parse_text]
  · rw [hread]
    exact Strategy.defaulted_eq_self_iff hne hchars
  · intro name _ hcomma hmem
    rw [hread] at hmem
    split at hmem
    · rw [List.mem_singleton.mp hmem] at hcomma
      exact absurd hcomma (by decide)
    · exact (Branches.of_mem_names hmem).1.not_mem_comma hcomma
  · exact bump_of_not_mem host base m hproblem hstrategy hk hbranch hmem
  · intro e w' hbump
    have htarget : v.releaseTarget request w.scm = .ok (s, k, branch) := by
      rw [hk, releaseTarget_of_usable hproblem hstrategy]
      simp only [hbranch, if_pos hmem]
    exact refusesBranch_of_bump hscm htarget hbump

end Versioning

end

/-! ### A name with a comma -/

namespace Versioning

namespace CommaBranch

def names : List String := ["feature,1", "(x)"]

def table : StrategyTable where
  main := none
  extra := none
  separator := none
  branches := some (.names names)
  other := []

def metadata : Metadata where
  versioning := some (.table table)
  definitions := []

/-- The branch that is checked out is the first of those that are declared. -/
def recorder : Recorder where
  facts := .ofTriplet ⟨1, 2, 3⟩
  branch := "feature,1"
  refuses := []
  tags := []
  commits := []

def workspace : Workspace Recorder where
  files := ⟨[]⟩
  scm := some recorder
  log := []
  journal := []

def host : Host where
  environment := []
  start _ files := (files, .error .notFound)

def request : BumpRequest where
  component := .patch
  commit := true
  commitAll := false
  simulatedBranch := none

end CommaBranch

open CommaBranch in
/-- The names between the commas are allowed in place of the declared ones, and the declared branch is
refused. -/
theorem bump_declaredBranches_comma :
    let v := ofDeclaration metadata.versioning workspace.scm.isSome ""
    LeavesBranches Recorder ∧ metadata.versioning = some (.table table) ∧
      table.branches = some (.names names) ∧ names ≠ [] ∧
      (∀ name ∈ names, name ≠ "" ∧ Text.trimmed name = name) ∧
      ¬ Branches.IsLiteral names ∧
      ∃ s, Strategy.ofDeclaration? (.table table) = some s ∧
        s.branches = ["feature", "1", "(x"] ∧
        ∃ w', v.bump host "" metadata request workspace =
          .error (.branchNotAllowed "feature,1" ["feature", "1", "(x"]) w' := by
  intro v
  have hnames : ∀ name ∈ names, name ≠ "" ∧ Text.trimmed name = name := by decide
  have hliteral : ¬ Branches.IsLiteral names := fun h =>
    h.not_mem_comma "feature,1" (by decide) (by decide)
  obtain ⟨s, hs, hread, -, -, hbump⟩ :=
    bump_declaredBranches Recorder.leavesBranches host "" metadata "" request workspace
      (rfl : metadata.versioning = some (.table table)) rfl (by decide) hnames
  have hbranches : s.branches = ["feature", "1", "(x"] := hread.trans (by decide)
  obtain ⟨hrefused, -⟩ := hbump recorder "feature,1" rfl (by cbv) rfl
  obtain ⟨w', hw', -⟩ := hrefused (by rw [hbranches]; decide)
  rw [hbranches] at hw'
  exact ⟨Recorder.leavesBranches, rfl, rfl, by decide, hnames, hliteral, s, hs, hbranches, w', hw'⟩

end Versioning

end TagVersion
