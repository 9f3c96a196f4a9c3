import TagVersion.Project.Release
import TagVersion.Proofs.Steps
import TagVersion.Repository.Checkout
import TagVersion.Scm.Recorder

/-!
# Dry runs

A release that is not to be committed is a dry run: it goes the way of a release and only tells
what it would do. The request says so in one flag, which every operation on the way hands on.

* **`Workspace.Untouched`**: what a dry run leaves of a workspace.
* **`Action.Untouching`**: an operation that leaves that of any workspace, whether it fails or not.
* **`VersionControl.Inert`**: what a backend keeps of itself where nothing is to be committed.
* **`bump_dryRun`**: a dry run touches nothing.
-/

namespace TagVersion

/-- Whether a step only tells what would be done. -/
def Step.isSimulated : Step → Bool
  | .commitFiles commit _ _ => !commit
  | .applyTag commit _ => !commit
  | .write .. => false
  | .runHook .. => false

/-- A relation between the states of a backend that looks at the checkout keep, and requests that
are not to be committed. -/
structure VersionControl.Inert {σ : Type} [VersionControl σ] (same : σ → σ → Prop) : Prop where
  refl : ∀ k, same k k
  trans : ∀ {k₁ k₂ k₃}, same k₁ k₂ → same k₂ k₃ → same k₁ k₃
  refresh : ∀ k, same k (VersionControl.refresh k)
  applyTag : ∀ k version, same k (VersionControl.applyTag k false version).state
  commitFiles : ∀ k files paths version,
    same k (VersionControl.commitFiles k files false paths version).state

open VersionControl (Inert)

/-! ## Workspaces that nothing touched -/

namespace Workspace

variable {σ : Type}

/-- What a dry run leaves of a workspace: its files, and of its backend what a relation tells. The
steps since have only told what would be done. -/
structure Untouched (same : σ → σ → Prop) (w w' : Workspace σ) : Prop where
  files : w'.files = w.files
  scm : Option.Rel same w.scm w'.scm
  journal : ∃ steps, w'.journal = w.journal ++ steps ∧ ∀ s ∈ steps, s.isSimulated = true

namespace Untouched

variable [VersionControl σ] {same : σ → σ → Prop}

theorem scm_refl (h : Inert same) (k? : Option σ) : Option.Rel same k? k? := by
  cases k? with
  | none => exact .none
  | some k => exact .some (h.refl k)

theorem scm_trans (h : Inert same) {k₁? k₂? k₃? : Option σ} (h₁ : Option.Rel same k₁? k₂?)
    (h₂ : Option.Rel same k₂? k₃?) : Option.Rel same k₁? k₃? := by
  cases h₁ with
  | none => exact h₂
  | some hk =>
    cases h₂ with
    | some hk' => exact .some (h.trans hk hk')

omit [VersionControl σ] in
theorem scm_map {α : Type} {k? k'? : Option σ} (h : Option.Rel same k? k'?) {f : σ → α}
    (hf : ∀ k k', same k k' → f k' = f k) : k'?.map f = k?.map f := by
  cases h with
  | none => rfl
  | some hk => exact congrArg some (hf _ _ hk)

/-- Nothing but the log differs. -/
theorem of_unlogged (h : Inert same) {w w' : Workspace σ} (heq : w'.unlogged = w.unlogged) :
    Untouched same w w' where
  files := by
    show w'.unlogged.files = w.files
    rw [heq]
    rfl
  scm := by
    show Option.Rel same w.scm w'.unlogged.scm
    rw [heq]
    exact scm_refl h w.scm
  journal := by
    refine ⟨[], ?_, fun _ hs => absurd hs List.not_mem_nil⟩
    show w'.unlogged.journal = w.journal ++ []
    rw [heq, List.append_nil]
    rfl

theorem trans (h : Inert same) {w₁ w₂ w₃ : Workspace σ} (h₁ : Untouched same w₁ w₂)
    (h₂ : Untouched same w₂ w₃) : Untouched same w₁ w₃ where
  files := h₂.files.trans h₁.files
  scm := scm_trans h h₁.scm h₂.scm
  journal := by
    obtain ⟨first, hfirst, hsimulated⟩ := h₁.journal
    obtain ⟨rest, hrest, hsimulated'⟩ := h₂.journal
    refine ⟨first ++ rest, by rw [hrest, hfirst, List.append_assoc], fun s hs => ?_⟩
    rcases List.mem_append.mp hs with hs | hs
    · exact hsimulated s hs
    · exact hsimulated' s hs

end Untouched

end Workspace

/-! ## Operations that touch nothing -/

namespace Action

variable {σ α β : Type}

/-- The workspace after an operation, whether it failed or not. -/
def after (act : Action σ α) (w : Workspace σ) : Workspace σ :=
  match act w with
  | .ok _ w' => w'
  | .error _ w' => w'

theorem after_of_ok {act : Action σ α} {w w' : Workspace σ} {a : α} (h : act w = .ok a w') :
    act.after w = w' := by
  unfold after
  rw [h]

theorem after_of_error {act : Action σ α} {w w' : Workspace σ} {e : Error}
    (h : act w = .error e w') : act.after w = w' := by
  unfold after
  rw [h]

/-- An operation that touches no workspace. -/
def Untouching (same : σ → σ → Prop) (act : Action σ α) : Prop :=
  ∀ w : Workspace σ, w.Untouched same (act.after w)

namespace Untouching

variable [VersionControl σ] {same : σ → σ → Prop}

theorem pure (h : Inert same) (a : α) : Untouching same (Pure.pure a : Action σ α) :=
  fun _ => .of_unlogged h rfl

theorem throw (h : Inert same) (e : Error) : Untouching same (MonadExcept.throw e : Action σ α) :=
  fun _ => .of_unlogged h rfl

theorem ofExcept (h : Inert same) (answer : Except Error α) :
    Untouching same (Action.ofExcept answer : Action σ α) := by
  cases answer with
  | ok a => exact pure h a
  | error e => exact throw h e

theorem note (h : Inert same) (records : List LogRecord) :
    Untouching same (Action.note records : Action σ Unit) :=
  fun _ => .of_unlogged h rfl

theorem remark (h : Inert same) (d : Diagnostic) :
    Untouching same (Action.remark d : Action σ Diagnostic) :=
  fun _ => .of_unlogged h rfl

omit [VersionControl σ] in
/-- An operation may begin with a look at its workspace. -/
theorem get_bind {f : Workspace σ → Action σ β} (hf : ∀ w, Untouching same (f w)) :
    Untouching same (get >>= f) :=
  fun w => hf w w

/-- **One operation after another** touches nothing if neither of them does. -/
theorem bind (h : Inert same) {act : Action σ α} {f : α → Action σ β}
    (hact : Untouching same act) (hf : ∀ a, Untouching same (f a)) :
    Untouching same (act >>= f) := by
  intro w
  have hw := hact w
  have happly := bind_apply act f w
  cases hrun : act w with
  | error e w₁ =>
    rw [hrun] at happly
    rw [after_of_error hrun] at hw
    rwa [after_of_error happly]
  | ok a w₁ =>
    rw [hrun] at happly
    rw [after_of_ok hrun] at hw
    have hafter : (act >>= f).after w = (f a).after w₁ := by
      unfold after
      rw [happly]
    rw [hafter]
    exact hw.trans h (hf a w₁)

/-! ### Looks and requests -/

theorem look (h : Inert same) : Untouching same (Action.look : Action σ Unit) := by
  intro w
  refine ⟨rfl, ?_, [], (List.append_nil _).symm, fun _ hs => absurd hs List.not_mem_nil⟩
  show Option.Rel same w.scm (w.scm.map VersionControl.refresh)
  cases w.scm with
  | none => exact .none
  | some k => exact .some (h.refresh k)

theorem scm (h : Inert same) : Untouching same (Action.scm : Action σ σ) := by
  unfold Action.scm
  refine get_bind fun w => ?_
  cases w.scm with
  | none => exact throw h _
  | some k => exact pure h k

/-- A request touches nothing if its step is simulated and its answer leaves the backend what the
relation tells. -/
theorem request (h : Inert same) {step : Step} (hstep : step.isSimulated = true)
    {ask : σ → FileTree → Reply σ} (hask : ∀ k files, same k (ask k files).state) :
    Untouching same (do let k ← Action.scm; enter step; accept (ask k (← get).files)) := by
  intro w
  cases hscm : w.scm with
  | none =>
    have hrun : (do let k ← Action.scm; enter step; accept (ask k (← get).files) : Action σ Unit) w =
        .error (.disabled noScmProblem) w := by
      rw [bind_apply]
      unfold Action.scm
      rw [Action.get_bind, hscm]
      rfl
    rw [after_of_error hrun]
    exact .of_unlogged h rfl
  | some k =>
    have hrun : (do let k ← Action.scm; enter step; accept (ask k (← get).files) : Action σ Unit) w =
        Action.ofExcept (ask k w.files).result
          { w with
            scm := some (ask k w.files).state
            log := w.log ++ (ask k w.files).log
            journal := w.journal ++ [step] } := by
      rw [bind_apply]
      unfold Action.scm
      rw [Action.get_bind, hscm]
      exact accept_apply _ _
    have hafter : (do let k ← Action.scm; enter step; accept (ask k (← get).files) :
        Action σ Unit).after w =
          { w with
            scm := some (ask k w.files).state
            log := w.log ++ (ask k w.files).log
            journal := w.journal ++ [step] } := by
      unfold after
      rw [hrun]
      cases (ask k w.files).result <;> rfl
    rw [hafter]
    refine ⟨rfl, ?_, [step], rfl, ?_⟩
    · rw [hscm]
      exact .some (hask k w.files)
    · intro s hs
      rw [List.mem_singleton.mp hs]
      exact hstep

theorem commitFiles (h : Inert same) (paths : List String) (version : String) :
    Untouching same (Action.commitFiles false paths version : Action σ Unit) :=
  @request _ _ _ h (.commitFiles false paths version) rfl
    (fun k files => VersionControl.commitFiles k files false paths version)
    fun k files => h.commitFiles k files paths version

theorem applyTag (h : Inert same) (version : String) :
    Untouching same (Action.applyTag false version : Action σ Unit) :=
  @request _ _ _ h (.applyTag false version) rfl
    (fun k _ => VersionControl.applyTag k false version) fun k _ => h.applyTag k version

end Untouching

end Action

open TagVersion.Action (Untouching)

section

variable {σ : Type} [VersionControl σ] {same : σ → σ → Prop}

/-! ## The operations of a dry run -/

namespace Sources

theorem untouching_updateLine (h : Inert same) (root version source path : String) (line : UInt64)
    (done : SourceUpdate) :
    Untouching same (updateLine root version false source path line done : Action σ SourceUpdate) := by
  unfold updateLine
  refine .get_bind fun w => ?_
  cases w.readText (Path.join root path) with
  | error e => exact .throw h _
  | ok text =>
    simp only
    cases revised? text.toList version.toList line with
    | none => exact .bind h (.remark h _) fun _ => .pure h _
    | some revision => exact .bind h (.remark h _) fun _ => .pure h _

theorem untouching_updateLines (h : Inert same) (root version : String) (entries : List SourceEntry)
    (done : SourceUpdate) :
    Untouching same (updateLines root version false entries done : Action σ SourceUpdate) := by
  induction entries generalizing done with
  | nil => exact .pure h _
  | cons e rest ih =>
    rw [updateLines]
    cases e.filePointer? with
    | none => exact ih done
    | some pointer =>
      obtain ⟨path, line⟩ := pointer
      exact .bind h (untouching_updateLine h root version e.source path line done) ih

end Sources

theorem Action.untouching_updateSources (h : Inert same) (root version : String) (commitAll : Bool)
    (d : Definition) :
    Untouching same (updateSources root version false commitAll d : Action σ SourceUpdate) := by
  unfold updateSources
  refine .bind h (.scm h) fun _ => ?_
  refine .bind h (Sources.untouching_updateLines h root version d.sources _) fun update => ?_
  by_cases hnil : update.modified = []
  · simp only [if_pos hnil]
    exact .pure h _
  · simp only [if_neg hnil]
    exact .bind h (.commitFiles h _ version) fun _ => .pure h _

/-- A hook that is only simulated is not started. -/
theorem Hook.untouching_execute (h : Inert same) (host : Host) (base path directory : String)
    {context : HookContext} (hdry : context.dryRun = true) :
    Untouching same (Hook.execute host base path directory context : Action σ Unit) := by
  unfold Hook.execute
  refine .get_bind fun w => ?_
  cases w.files.resolve path with
  | error e => exact .throw h _
  | ok location =>
    simp only [hdry, ↓reduceIte]
    cases w.files.isFile path with
    | false => exact .throw h _
    | true => exact .note h _

namespace Versioning

variable {host : Host} {base : String} {v : Versioning} {m : Metadata} {request : BumpRequest}

theorem untouching_strategyRemarks (h : Inert same) (v : Versioning) :
    Untouching same (v.strategyRemarks : Action σ (List Diagnostic)) := by
  unfold strategyRemarks
  cases v.strategy with
  | none => exact .pure h _
  | some s =>
    by_cases hfields : s.ignoredFields = []
    · simp only [if_pos hfields]
      exact .pure h _
    · simp only [if_neg hfields]
      exact .bind h (.remark h _) fun _ => .pure h _

theorem untouching_updateVersion (h : Inert same) (hdry : request.commit = false) (version : String) :
    Untouching same (v.updateVersion m request version : Action σ SourceUpdate) := by
  unfold updateVersion
  cases m.definition? Metadata.versionKey with
  | none => exact .pure h _
  | some d =>
    rw [hdry]
    exact Action.untouching_updateSources h v.root version request.commitAll d

theorem untouching_runHook (h : Inert same) (hdry : request.commit = false) (p : BumpPlan) :
    Untouching same (v.runHook host base request p : Action σ (List Diagnostic)) := by
  unfold runHook
  refine .get_bind fun w => ?_
  by_cases hexecutable : w.files.isExecutable (Path.join v.root Hook.fileName) = true
  · simp only [if_pos hexecutable, hdry]
    exact .bind h (Hook.untouching_execute h host base _ v.root rfl) fun _ => .pure h _
  · simp only [if_neg hexecutable]
    by_cases hpath : w.files.pathExists (Path.join v.root Hook.fileName) = true
    · simp only [if_pos hpath]
      exact .bind h (.remark h _) fun _ => .pure h _
    · simp only [if_neg hpath]
      exact .pure h _

theorem untouching_carryOut (h : Inert same) (hdry : request.commit = false) (p : BumpPlan) :
    Untouching same (v.carryOut host base m request p : Action σ BumpReport) := by
  have hnotice : Untouching same (notice request : Action σ (List Diagnostic)) := by
    unfold notice
    rw [hdry]
    exact .bind h (.remark h _) fun _ => .pure h _
  unfold carryOut
  refine .bind h hnotice fun _ => ?_
  refine .bind h (untouching_updateVersion h hdry p.version) fun _ => ?_
  rw [hdry]
  refine .bind h (.applyTag h p.version) fun _ => ?_
  exact .bind h (untouching_runHook h hdry p) fun _ => .pure h _

theorem untouching_bump (h : Inert same) (hdry : request.commit = false) :
    Untouching same (v.bump host base m request : Action σ BumpReport) := by
  unfold bump
  refine .bind h (untouching_strategyRemarks h v) fun _ => ?_
  refine .get_bind fun w => ?_
  have hrest : ∀ remarks : List Diagnostic, Untouching same
      (do
        let p ← Action.ofExcept (v.plan host.environment request w.scm w.files)
        let report ← v.carryOut host base m request p
        return { report with diagnostics := remarks ++ report.diagnostics } :
          Action σ BumpReport) :=
    fun _ => .bind h (.ofExcept h _) fun p =>
      .bind h (untouching_carryOut h hdry p) fun _ => .pure h _
  by_cases htarget : (v.releaseTarget request w.scm).isOk = true
  · simp only [if_pos htarget]
    exact .bind h (.look h) fun _ => hrest _
  · simp only [if_neg htarget]
    exact hrest _

/-! ## The hosts of dry runs -/

omit [VersionControl σ] in
theorem execute_of_host (host host' : Host) {context : HookContext} (hdry : context.dryRun = true)
    (path directory : String) :
    (Hook.execute host' base path directory context : Action σ Unit) =
      Hook.execute host base path directory context := by
  unfold Hook.execute
  simp only [hdry, ↓reduceIte]

/-- A host starts no program for a dry run, so only its environment matters. -/
theorem bump_of_host {host' : Host} (henvironment : host'.environment = host.environment)
    (hdry : request.commit = false) :
    (v.bump host' base m request : Action σ BumpReport) = v.bump host base m request := by
  have hhook : ∀ p, (v.runHook host' base request p : Action σ (List Diagnostic)) =
      v.runHook host base request p := by
    intro p
    unfold runHook
    simp only [hdry, Bool.not_false, execute_of_host host host']
  unfold bump carryOut
  simp only [hhook, henvironment]

end Versioning

end

/-! ## The backends of dry runs -/

/-- A repository is left as it is, whatever its checkout has read of it. -/
theorem Checkout.inert : Inert fun c c' : Checkout => c'.repository = c.repository where
  refl _ := rfl
  trans h h' := h'.trans h
  refresh c := by
    show c.refresh.repository = c.repository
    unfold refresh
    split <;> rfl
  applyTag _ _ := rfl
  commitFiles _ _ _ _ := rfl

/-- The requests that a recorder has granted since another state were not to be committed. -/
def Recorder.Simulated (r r' : Recorder) : Prop :=
  ∃ tags commits, r'.tags = r.tags ++ tags ∧ r'.commits = r.commits ++ commits ∧
    (∀ t ∈ tags, t.1 = false) ∧ ∀ c ∈ commits, c.1 = false

theorem Recorder.simulated_request {r granted : Recorder} (call : ScmCall) (h : r.Simulated granted)
    (hrefl : r.Simulated r) : r.Simulated (r.request call granted).state := by
  unfold request attempt
  cases r.refuses.contains call with
  | true => exact hrefl
  | false => exact h

theorem Recorder.inert : Inert Recorder.Simulated := by
  have hrefl : ∀ r : Recorder, r.Simulated r := fun r => ⟨[], [], by simp⟩
  refine ⟨hrefl, ?_, hrefl, fun r version => ?_, fun r _ paths version => ?_⟩
  · rintro r₁ r₂ r₃ ⟨tags, commits, htags, hcommits, ht, hc⟩
      ⟨tags', commits', htags', hcommits', ht', hc'⟩
    refine ⟨tags ++ tags', commits ++ commits', ?_, ?_, ?_, ?_⟩
    · rw [htags', htags, List.append_assoc]
    · rw [hcommits', hcommits, List.append_assoc]
    · exact List.forall_mem_append.mpr ⟨ht, ht'⟩
    · exact List.forall_mem_append.mpr ⟨hc, hc'⟩
  · exact simulated_request .applyTag ⟨[(false, version)], [], by simp⟩ (hrefl r)
  · exact simulated_request .commitFiles ⟨[], [(false, paths, version)], by simp⟩ (hrefl r)

/-! ## The whole dry run -/

/-- **A dry run touches nothing**, whether it ends well or in an error: no file is written and no
program started, and no request to the backend is to be committed. A repository keeps its head, its
references, its commits and what is staged; a recorder is asked for nothing but simulations. -/
theorem Versioning.bump_dryRun (host : Host) (base : String) (v : Versioning) (m : Metadata)
    (request : BumpRequest) :
    let dry : BumpRequest := { request with commit := false }
    (∀ {σ : Type} [VersionControl σ] (w : Workspace σ),
      let w' := (v.bump host base m dry).after w
      w'.files = w.files ∧
        (∃ steps, w'.journal = w.journal ++ steps ∧ ∀ s ∈ steps, s.isSimulated = true) ∧
        ∀ start, v.bump { host with start } base m dry w = v.bump host base m dry w) ∧
      (∀ w : Workspace Checkout,
        ((v.bump host base m dry).after w).scm.map (·.repository) = w.scm.map (·.repository)) ∧
      ∀ w : Workspace Recorder,
        Option.Rel Recorder.Simulated w.scm ((v.bump host base m dry).after w).scm := by
  intro dry
  refine ⟨?_, ?_, ?_⟩
  · intro σ _ w w'
    -- of a backend that is not known nothing is told
    have hinert : Inert fun _ _ : σ => True := by constructor <;> intros <;> trivial
    have hw : w.Untouched _ w' := untouching_bump hinert rfl w
    exact ⟨hw.files, hw.journal, fun start => congrFun (bump_of_host rfl rfl) w⟩
  · intro w
    exact Workspace.Untouched.scm_map (untouching_bump Checkout.inert rfl w).scm fun _ _ h => h
  · intro w
    exact (untouching_bump Recorder.inert rfl w).scm

end TagVersion
