import Mathlib
import TagVersion.Project.Hook
import TagVersion.Project.Sources
import TagVersion.Proofs.Files.Shape

/-!
# Operations and their attempts

What an operation does to a project is told by what it attempts: it reads files, and it takes
steps that have their effect on the files and on source control. Each attempt may fail, and then
nothing after it is attempted.

* **`Workspace.attempt`**: what an attempt does to a workspace.
* **`Workspace.attemptAll`**: attempts one after the other, up to the first that fails.
* **`Action.Follows`**: an operation does what the given attempts do.
* **`Action.Follows.bind`**: operations that follow each other.
-/

namespace TagVersion

/-! ## Attempts -/

/-- What an operation attempts: to read a file, or to take a step. -/
inductive Attempt where
  | read (path : String)
  | step (step : Step)
deriving DecidableEq, Repr

namespace Attempt

/-- The step of an attempt that is not to read only. -/
def step? : Attempt → Option Step
  | read _ => none
  | step s => some s

/-- The steps among some attempts. -/
def steps (attempts : List Attempt) : List Step :=
  attempts.filterMap step?

theorem steps_append (first rest : List Attempt) :
    steps (first ++ rest) = steps first ++ steps rest :=
  List.filterMap_append

theorem steps_map_step (ss : List Step) : steps (ss.map step) = ss := by
  unfold steps
  rw [List.filterMap_map]
  exact List.filterMap_some

end Attempt

namespace Workspace

section

variable {σ : Type} {w : Workspace σ} {path : String}

/-- What is read is there. -/
theorem files_readText {text : String} (h : w.readText path = .ok text) :
    w.files.readText path = .ok text := by
  unfold readText at h
  cases hfault : w.faults.read? w.journal path with
  | some e =>
    rw [hfault] at h
    exact absurd h (by simp)
  | none =>
    rw [hfault] at h
    exact h

/-- What is written is there afterwards. -/
theorem files_writeText {content : String} {files : FileTree}
    (h : w.writeText path content = .ok files) : files = w.files.written path content := by
  unfold writeText at h
  cases hfault : w.faults.write? w.journal path with
  | some e =>
    rw [hfault] at h
    exact absurd h (by simp)
  | none =>
    rw [hfault] at h
    exact (FileTree.written_eq h).symm

end

variable {σ : Type}

/-- Has the backend answer to a step. What it does stays done, whether it grants the step or not. -/
def request (w : Workspace σ) (step : Step) (ask : σ → Reply σ) :
    EStateM.Result Error (Workspace σ) Unit :=
  match w.scm with
  | none => .error (.disabled noScmProblem) w
  | some k =>
    Action.ofExcept (ask k).result
      { w with scm := some (ask k).state, journal := w.journal ++ [step] }

theorem request_of_none {w : Workspace σ} (h : w.scm = none) (step : Step) (ask : σ → Reply σ) :
    w.request step ask = .error (.disabled noScmProblem) w := by
  unfold request
  rw [h]

theorem request_of_some {w : Workspace σ} {k : σ} (h : w.scm = some k) (step : Step)
    (ask : σ → Reply σ) :
    w.request step ask =
      Action.ofExcept (ask k).result
        { w with scm := some (ask k).state, journal := w.journal ++ [step] } := by
  unfold request
  rw [h]

/-- Whether an outcome is a success or not, the journal has grown: by the given steps, or by some
of the first. -/
def Entered (w : Workspace σ) (steps : List Step) :
    EStateM.Result Error (Workspace σ) Unit → Prop
  | .ok _ w' => w'.journal = w.journal ++ steps
  | .error _ w' => ∃ done, done <+: steps ∧ w'.journal = w.journal ++ done

theorem entered_error (w : Workspace σ) (steps : List Step) (e : Error) :
    w.Entered steps (.error e w) :=
  ⟨[], List.nil_prefix, (List.append_nil _).symm⟩

theorem entered_ofExcept {w w' : Workspace σ} {steps : List Step}
    (h : w'.journal = w.journal ++ steps) (answer : Except Error Unit) :
    w.Entered steps (Action.ofExcept answer w') := by
  cases answer with
  | ok _ => exact h
  | error e => exact ⟨steps, List.prefix_refl steps, h⟩

theorem entered_request (w : Workspace σ) (step : Step) (ask : σ → Reply σ) :
    w.Entered [step] (w.request step ask) := by
  cases hscm : w.scm with
  | none =>
    rw [request_of_none hscm]
    exact entered_error w [step] _
  | some k =>
    rw [request_of_some hscm]
    exact entered_ofExcept rfl (ask k).result

variable [VersionControl σ]

/-- Makes an attempt. A file that cannot be written is left alone, and so is a hook that is not
there; a hook that fails has been run. Hooks are run in the given directory. -/
def attempt (host : Host) (directory : String) (w : Workspace σ) :
    Attempt → EStateM.Result Error (Workspace σ) Unit
  | .read path =>
    match w.readText path with
    | .ok _ => .ok () w
    | .error e => .error (.source ("cannot read " ++ path ++ ": " ++ e.message)) w
  | .step (.write path content) =>
    match w.writeText path content with
    | .ok files => .ok () { w with files, journal := w.journal ++ [.write path content] }
    | .error e => .error (.source ("cannot write " ++ path ++ ": " ++ e.message)) w
  | .step (.commitFiles commit paths version) =>
    w.request (.commitFiles commit paths version) fun k =>
      VersionControl.commitFiles k w.files commit paths version
  | .step (.applyTag commit version) =>
    w.request (.applyTag commit version) fun k => VersionControl.applyTag k commit version
  | .step (.runHook path environment) =>
    match w.files.resolve path, w.files.isFile path with
    | .ok location, true =>
      let started := host.start { location, directory, extra := environment } w.files
      Action.ofExcept (Hook.verdict path started.2)
        { w with files := started.1, journal := w.journal ++ [.runHook path environment] }
    | _, _ => .error (.hook ("Hook script not found: " ++ path)) w

/-- Makes attempts one after the other, up to the first that fails. -/
def attemptAll (host : Host) (directory : String) (w : Workspace σ) :
    List Attempt → EStateM.Result Error (Workspace σ) Unit
  | [] => .ok () w
  | a :: rest =>
    match w.attempt host directory a with
    | .ok _ w' => attemptAll host directory w' rest
    | .error e w' => .error e w'

/-- A workspace without its log. -/
def unlogged (w : Workspace σ) : Workspace σ :=
  { w with log := [] }

section

variable {host : Host} {directory : String} {w w' : Workspace σ} {a : Attempt}
  {attempts : List Attempt}

theorem attemptAll_cons_of_ok (h : w.attempt host directory a = .ok () w')
    (rest : List Attempt) :
    w.attemptAll host directory (a :: rest) = w'.attemptAll host directory rest := by
  rw [attemptAll, h]

theorem attemptAll_cons_of_error {e : Error} (h : w.attempt host directory a = .error e w')
    (rest : List Attempt) : w.attemptAll host directory (a :: rest) = .error e w' := by
  rw [attemptAll, h]

theorem attemptAll_singleton (w : Workspace σ) (a : Attempt) :
    w.attemptAll host directory [a] = w.attempt host directory a := by
  cases h : w.attempt host directory a with
  | ok _ w' => exact attemptAll_cons_of_ok h []
  | error e w' => exact attemptAll_cons_of_error h []

/-- Nothing of the rest is attempted where one of the first attempts fails. -/
theorem attemptAll_append (w : Workspace σ) (first rest : List Attempt) :
    w.attemptAll host directory (first ++ rest) =
      match w.attemptAll host directory first with
      | .ok _ w' => w'.attemptAll host directory rest
      | .error e w' => .error e w' := by
  induction first generalizing w with
  | nil => rfl
  | cons a first ih =>
    rw [List.cons_append]
    cases h : w.attempt host directory a with
    | ok _ w' =>
      rw [attemptAll_cons_of_ok h, attemptAll_cons_of_ok h]
      exact ih w'
    | error e w' => rw [attemptAll_cons_of_error h, attemptAll_cons_of_error h]

/-- **Attempts that fail** do so at one of them, with all before it made. -/
theorem exists_of_attemptAll_eq_error {e : Error}
    (h : w.attemptAll host directory attempts = .error e w') :
    ∃ done a rest w₁, attempts = done ++ a :: rest ∧
      w.attemptAll host directory done = .ok () w₁ ∧
      w₁.attempt host directory a = .error e w' := by
  induction attempts generalizing w with
  | nil => exact absurd h (by simp [attemptAll])
  | cons a rest ih =>
    cases ha : w.attempt host directory a with
    | ok _ w₁ =>
      rw [attemptAll_cons_of_ok ha] at h
      obtain ⟨done, b, rest', w₂, rfl, hdone, hb⟩ := ih h
      refine ⟨a :: done, b, rest', w₂, rfl, ?_, hb⟩
      rw [attemptAll_cons_of_ok ha]
      exact hdone
    | error e' w₁ =>
      rw [attemptAll_cons_of_error ha] at h
      rw [h] at ha
      exact ⟨[], a, rest, w, rfl, rfl, ha⟩

end

/-! ## The journal of attempts -/

section

variable {host : Host} {directory : String}

theorem entered_attempt (w : Workspace σ) (a : Attempt) :
    w.Entered (Attempt.steps [a]) (w.attempt host directory a) := by
  unfold attempt
  -- an attempt that fails before its step is entered leaves the journal alone
  cases a with
  | read path =>
    simp only
    cases w.readText path with
    | ok _ => exact (List.append_nil _).symm
    | error e => exact entered_error w _ _
  | step s =>
    cases s with
    | write path content =>
      simp only
      cases w.writeText path content with
      | ok _ => rfl
      | error e => exact entered_error w _ _
    | commitFiles commit paths version => exact entered_request w _ _
    | applyTag commit version => exact entered_request w _ _
    | runHook path environment =>
      simp only
      cases w.files.resolve path with
      | error e => exact entered_error w _ _
      | ok location =>
        cases w.files.isFile path with
        | false => exact entered_error w _ _
        | true => exact entered_ofExcept rfl _

theorem entered_attemptAll (w : Workspace σ) (attempts : List Attempt) :
    w.Entered (Attempt.steps attempts) (w.attemptAll host directory attempts) := by
  induction attempts generalizing w with
  | nil => exact (List.append_nil _).symm
  | cons a rest ih =>
    have ha := @entered_attempt _ _ host directory w a
    have hsteps : Attempt.steps (a :: rest) = Attempt.steps [a] ++ Attempt.steps rest :=
      Attempt.steps_append [a] rest
    rw [hsteps]
    cases hattempt : w.attempt host directory a with
    | error e w' =>
      rw [hattempt] at ha
      -- the rest is not attempted, so its steps are not entered
      obtain ⟨done, hdone, hjournal⟩ := ha
      rw [attemptAll_cons_of_error hattempt]
      exact ⟨done, hdone.trans (List.prefix_append _ _), hjournal⟩
    | ok _ w₁ =>
      rw [hattempt] at ha
      have ha : w₁.journal = w.journal ++ Attempt.steps [a] := ha
      have hrest := ih w₁
      rw [attemptAll_cons_of_ok hattempt]
      cases hall : w₁.attemptAll host directory rest with
      | ok _ w' =>
        rw [hall] at hrest
        have hrest : w'.journal = w₁.journal ++ Attempt.steps rest := hrest
        show w'.journal = _
        rw [hrest, ha, List.append_assoc]
      | error e w' =>
        rw [hall] at hrest
        obtain ⟨done, hdone, hjournal⟩ := hrest
        refine ⟨Attempt.steps [a] ++ done, (List.prefix_append_right_inj _).mpr hdone, ?_⟩
        rw [hjournal, ha, List.append_assoc]

end

end Workspace

/-! ## Following attempts -/

namespace Action

open Workspace

variable {σ α β : Type}

theorem bind_apply (act : Action σ α) (f : α → Action σ β) (w : Workspace σ) :
    (act >>= f) w =
      match act w with
      | .ok a w' => f a w'
      | .error e w' => .error e w' := by
  simp only [bind, EStateM.bind]
  cases act w <;> rfl

/-- Operations that succeed one after the other have both succeeded. -/
theorem of_bind_eq_ok {act : Action σ α} {f : α → Action σ β} {w w' : Workspace σ} {b : β}
    (h : (act >>= f) w = .ok b w') : ∃ a w₁, act w = .ok a w₁ ∧ f a w₁ = .ok b w' := by
  rw [bind_apply] at h
  cases hact : act w with
  | error e w₁ =>
    rw [hact] at h
    exact absurd h nofun
  | ok a w₁ =>
    rw [hact] at h
    exact ⟨a, w₁, rfl, h⟩

/-- Of operations that fail one after the other, the first has failed, or the second after it. -/
theorem of_bind_eq_error {act : Action σ α} {f : α → Action σ β} {w w' : Workspace σ} {e : Error}
    (h : (act >>= f) w = .error e w') :
    act w = .error e w' ∨ ∃ a w₁, act w = .ok a w₁ ∧ f a w₁ = .error e w' := by
  rw [bind_apply] at h
  cases hact : act w with
  | error e₁ w₁ =>
    rw [hact] at h
    injection h with he hw
    rw [he, hw]
    exact .inl rfl
  | ok a w₁ =>
    rw [hact] at h
    exact .inr ⟨a, w₁, rfl, h⟩

theorem get_bind (f : Workspace σ → Action σ β) (w : Workspace σ) : (get >>= f) w = f w w := rfl

/-- Whether an operation succeeds with a result and a workspace that pass a test. -/
def succeedsWith (act : Action σ α) (test : α → Workspace σ → Bool) (w : Workspace σ) : Bool :=
  match act w with
  | .ok a w' => test a w'
  | .error .. => false

theorem exists_of_succeedsWith {act : Action σ α} {test : α → Workspace σ → Bool}
    {w : Workspace σ} (h : act.succeedsWith test w = true) :
    ∃ a w', act w = .ok a w' ∧ test a w' = true := by
  unfold succeedsWith at h
  cases hact : act w with
  | ok a w' =>
    rw [hact] at h
    exact ⟨a, w', rfl, h⟩
  | error e w' =>
    rw [hact] at h
    exact absurd h Bool.false_ne_true

/-- Whether an operation fails with an error and a workspace that pass a test. -/
def failsWith (act : Action σ α) (test : Error → Workspace σ → Bool) (w : Workspace σ) : Bool :=
  match act w with
  | .ok .. => false
  | .error e w' => test e w'

theorem exists_of_failsWith {act : Action σ α} {test : Error → Workspace σ → Bool}
    {w : Workspace σ} (h : act.failsWith test w = true) :
    ∃ e w', act w = .error e w' ∧ test e w' = true := by
  unfold failsWith at h
  cases hact : act w with
  | ok a w' =>
    rw [hact] at h
    exact absurd h Bool.false_ne_true
  | error e w' =>
    rw [hact] at h
    exact ⟨e, w', rfl, h⟩

/-- An answer of the backend is taken over whether it grants the request or not. -/
theorem accept_apply (reply : Reply σ) (w : Workspace σ) :
    accept reply w =
      ofExcept reply.result { w with scm := some reply.state, log := w.log ++ reply.log } := by
  unfold accept
  rw [bind_apply]
  rfl

variable [VersionControl σ]

/-- An operation does what the given attempts do, except for the log: it ends as they leave the
workspace and with the given outcome, or in the same error. -/
def Follows (host : Host) (directory : String) (act : Action σ α) (w : Workspace σ)
    (attempts : List Attempt) (post : α → Workspace σ → Prop) : Prop :=
  match act w with
  | .ok a w' => w.unlogged.attemptAll host directory attempts = .ok () w'.unlogged ∧ post a w'
  | .error e w' => w.unlogged.attemptAll host directory attempts = .error e w'.unlogged

namespace Follows

variable {host : Host} {directory : String} {w : Workspace σ} {first rest : List Attempt}
  {attempts : List Attempt} {post : α → Workspace σ → Prop} {post' : β → Workspace σ → Prop}

theorem of_pure {act : Action σ α} {a : α} {w' : Workspace σ} (h : act w = .ok a w')
    (hlog : w'.unlogged = w.unlogged) (hpost : post a w') :
    Follows host directory act w [] post := by
  unfold Follows
  rw [h]
  refine ⟨?_, hpost⟩
  rw [hlog]
  rfl

theorem of_get {f : Workspace σ → Action σ α}
    (h : Follows host directory (f w) w attempts post) :
    Follows host directory (get >>= f) w attempts post := h

/-- A file that is read has no effect. -/
theorem of_read {act : Action σ α} {path text : String} (hread : w.readText path = .ok text)
    (h : Follows host directory act w attempts post) :
    Follows host directory act w (.read path :: attempts) post := by
  have hattempt : w.unlogged.attempt host directory (.read path) = .ok () w.unlogged := by
    unfold Workspace.attempt
    have hread : w.unlogged.readText path = .ok text := hread
    simp only [hread]
  unfold Follows at *
  rw [attemptAll_cons_of_ok hattempt]
  exact h

/-- An operation may end in a file that cannot be read. -/
theorem of_unreadable {act : Action σ α} {path : String} {e : SystemError}
    (hread : w.readText path = .error e)
    (h : act w = .error (.source ("cannot read " ++ path ++ ": " ++ e.message)) w) :
    Follows host directory act w (.read path :: attempts) post := by
  have hattempt : w.unlogged.attempt host directory (.read path) =
      .error (.source ("cannot read " ++ path ++ ": " ++ e.message)) w.unlogged := by
    unfold Workspace.attempt
    have hread : w.unlogged.readText path = .error e := hread
    simp only [hread]
  unfold Follows
  rw [h, attemptAll_cons_of_error hattempt]

/-- **One operation after another** follows the attempts of both. If the first one fails, none of
those of the second is made. -/
theorem bind {act : Action σ α} {f : α → Action σ β} (h : Follows host directory act w first post)
    (hnext : ∀ a w', post a w' → Follows host directory (f a) w' rest post') :
    Follows host directory (act >>= f) w (first ++ rest) post' := by
  unfold Follows at *
  rw [bind_apply, attemptAll_append]
  cases hact : act w with
  | error e w' =>
    rw [hact] at h
    have h : w.unlogged.attemptAll host directory first = .error e w'.unlogged := h
    rw [h]
  | ok a w' =>
    rw [hact] at h
    obtain ⟨hfirst, hpost⟩ := h
    -- the second operation starts where the first one has left the workspace
    rw [hfirst]
    exact hnext a w' hpost

/-- An operation that attempts nothing may come first. -/
theorem bind_of_nil {act : Action σ α} {f : α → Action σ β}
    (h : Follows host directory act w [] post)
    (hnext : ∀ a w', post a w' → Follows host directory (f a) w' rest post') :
    Follows host directory (act >>= f) w rest post' :=
  h.bind hnext

/-- An operation may end with what it makes of an outcome. -/
theorem bind_pure {act : Action σ α} {f : α → β}
    (h : Follows host directory act w attempts post)
    (hpost : ∀ a w', post a w' → post' (f a) w') :
    Follows host directory (do let a ← act; return f a) w attempts post' := by
  rw [← List.append_nil attempts]
  exact h.bind fun a w' ha => .of_pure rfl rfl (hpost a w' ha)

/-- The outcome may be weakened. -/
theorem mono {act : Action σ α} {post₁ post₂ : α → Workspace σ → Prop}
    (h : Follows host directory act w attempts post₁)
    (himp : ∀ a w', post₁ a w' → post₂ a w') :
    Follows host directory act w attempts post₂ := by
  unfold Follows at *
  cases hact : act w with
  | ok a w' =>
    rw [hact] at h
    exact ⟨h.1, himp a w' h.2⟩
  | error e w' =>
    rw [hact] at h
    exact h

end Follows

/-! ## Single operations -/

variable {host : Host} {directory : String} {w : Workspace σ}

theorem follows_note (records : List LogRecord) :
    Follows host directory (note records) w [] fun _ w' => w'.files = w.files :=
  ⟨rfl, rfl⟩

theorem follows_remark (d : Diagnostic) :
    Follows host directory (remark d) w [] fun _ w' => w'.files = w.files :=
  ⟨rfl, rfl⟩

theorem follows_scm (hscm : w.scm.isSome) :
    Follows host directory scm w [] fun _ w' => w' = w := by
  obtain ⟨k, hk⟩ := Option.isSome_iff_exists.mp hscm
  unfold scm
  refine .of_get ?_
  rw [hk]
  exact .of_pure rfl rfl rfl

theorem follows_writeText (path content : String) :
    Follows host directory (writeText path content) w [.step (.write path content)] fun _ w' =>
      w'.files = w.files.written path content := by
  have hunlogged : w.unlogged.writeText path content = w.writeText path content := rfl
  unfold writeText
  refine .of_get ?_
  unfold Follows
  rw [attemptAll_singleton]
  unfold Workspace.attempt
  simp only [hunlogged]
  cases hwrite : w.writeText path content with
  | error e => rfl
  | ok files => exact And.intro rfl (files_writeText hwrite)

/-- A request to the backend is entered before it is answered. -/
theorem follows_request (step : Step) (ask : σ → FileTree → Reply σ)
    (hattempt : ∀ w : Workspace σ,
      w.attempt host directory (.step step) = w.request step (ask · w.files)) :
    Follows host directory
      (do let k ← scm; enter step; accept (ask k (← get).files)) w [.step step]
      fun _ w' => w'.files = w.files := by
  unfold Follows
  rw [attemptAll_singleton, hattempt]
  cases hscm : w.scm with
  | none =>
    -- a missing backend is noticed before the step is entered
    have hact : (do let k ← scm; enter step; accept (ask k (← get).files) : Action σ Unit) w =
        .error (.disabled noScmProblem) w := by
      rw [bind_apply]
      unfold scm
      rw [get_bind, hscm]
      rfl
    have hunlogged : w.unlogged.scm = none := hscm
    rw [hact, request_of_none hunlogged]
  | some k =>
    have hact : (do let k ← scm; enter step; accept (ask k (← get).files) : Action σ Unit) w =
        accept (ask k w.files) { w with journal := w.journal ++ [step] } := by
      rw [bind_apply]
      unfold scm
      rw [get_bind, hscm]
      rfl
    have hunlogged : w.unlogged.scm = some k := hscm
    -- to enter the step changes none of the files that the backend gets to see
    have hrequest := request_of_some hunlogged step (ask · w.files)
    have hfiles : w.unlogged.files = w.files := rfl
    rw [hact, accept_apply, hfiles, hrequest]
    cases (ask k w.files).result with
    | ok _ => exact And.intro rfl rfl
    | error e => rfl

theorem follows_commitFiles (commit : Bool) (paths : List String) (version : String) :
    Follows host directory (commitFiles commit paths version) w
      [.step (.commitFiles commit paths version)] fun _ w' => w'.files = w.files :=
  follows_request (.commitFiles commit paths version)
    (fun k files => VersionControl.commitFiles k files commit paths version) fun _ => rfl

theorem follows_applyTag (commit : Bool) (version : String) :
    Follows host directory (applyTag commit version) w [.step (.applyTag commit version)]
      fun _ w' => w'.files = w.files :=
  follows_request (.applyTag commit version)
    (fun k _ => VersionControl.applyTag k commit version) fun _ => rfl

end Action

end TagVersion
