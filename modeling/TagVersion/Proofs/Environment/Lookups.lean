import Mathlib.Data.List.Nodup
import Mathlib.Data.String.Basic
import TagVersion.Environment.Lookup

/-!
# What a lookup finds

An environment is a list, but a lookup does not depend on its order: of the variables that match it
takes the one with the least name. So it sees no other variable, and what it yields stays the same
when variables are moved about, and when some that it does not take come or go.

* **`EnvLookup.Takes`**: the variable that a lookup takes its value from.
* **`EnvLookup.exists_takes`**, **`Takes.eq`**: there is one if any variable matches, and only one.
* **`takes_iff_of_irrelevant`**: the variables that a lookup does not take make no difference.
* **`resolve_of_distinct`**: what a lookup yields, and that it depends on nothing else.
-/

namespace TagVersion

/-! ## The least variable -/

namespace Environment

variable {env : Environment} {v w : String × String}

theorem lesser_le_left : (lesser v w).1 ≤ v.1 := by
  unfold lesser
  split
  · next h => exact h.le
  · exact le_rfl

theorem lesser_le_right : (lesser v w).1 ≤ w.1 := by
  unfold lesser
  split
  · exact le_rfl
  · next h => exact not_lt.mp h

theorem lesser_eq_or : lesser v w = v ∨ lesser v w = w := by
  unfold lesser
  split
  · exact .inr rfl
  · exact .inl rfl

/-- The search along an environment ends at one of its variables, and at no name does it stay above
another. -/
theorem of_foldl_lesser (v : String × String) (rest : Environment) :
    rest.foldl lesser v ∈ v :: rest ∧ ∀ w ∈ v :: rest, (rest.foldl lesser v).1 ≤ w.1 := by
  induction rest generalizing v with
  | nil => simp
  | cons u rest ih =>
    obtain ⟨hmem, hle⟩ := ih (lesser v u)
    rw [List.foldl_cons]
    constructor
    · rcases List.mem_cons.mp hmem with hmem | hmem
      · rw [hmem]
        rcases lesser_eq_or (v := v) (w := u) with h | h <;> simp [h]
      · exact List.mem_cons_of_mem _ (List.mem_cons_of_mem _ hmem)
    · -- the two variables that were compared are covered by the lesser of them
      have hfirst := hle (lesser v u) List.mem_cons_self
      intro w hw
      rcases List.mem_cons.mp hw with rfl | hw
      · exact hfirst.trans lesser_le_left
      · rcases List.mem_cons.mp hw with rfl | hw
        · exact hfirst.trans lesser_le_right
        · exact hle w (List.mem_cons_of_mem _ hw)

theorem least?_eq_none_iff : least? env = none ↔ env = [] := by
  cases env with
  | nil => simp [least?]
  | cons v rest => simp [least?]

theorem of_least?_eq_some (h : least? env = some v) : v ∈ env ∧ ∀ w ∈ env, v.1 ≤ w.1 := by
  cases env with
  | nil => exact absurd h nofun
  | cons u rest =>
    obtain rfl := Option.some.inj h
    exact of_foldl_lesser u rest

theorem eq_of_name_eq (hnames : (env.map (·.1)).Nodup) (hv : v ∈ env) (hw : w ∈ env)
    (h : v.1 = w.1) : v = w :=
  List.inj_on_of_nodup_map hnames hv hw h

end Environment

/-! ## The variable that is taken -/

namespace EnvLookup

/-- The variable that a lookup takes its value from: of those that match, the one with the least
name. Names are compared character by character, by code points. -/
structure Takes (l : EnvLookup) (env : Environment) (v : String × String) : Prop where
  mem : v ∈ env
  accepts : l.pattern.accepts v.1 = true
  le : ∀ w ∈ env, l.pattern.accepts w.1 = true → v.1 ≤ w.1

/-- A variable that a lookup passes over: it does not match, or another one matches and has a
smaller name. -/
def Irrelevant (l : EnvLookup) (env : Environment) (v : String × String) : Prop :=
  l.pattern.accepts v.1 = false ∨ ∃ w ∈ env, l.pattern.accepts w.1 = true ∧ w.1 < v.1

variable {l : EnvLookup} {env kept extra : Environment} {v w : String × String}

theorem takes_of_least?_eq_some (h : Environment.least? (env.filter (l.pattern.accepts ·.1)) = some v) :
    l.Takes env v := by
  obtain ⟨hmem, hle⟩ := Environment.of_least?_eq_some h
  obtain ⟨hmem, haccepts⟩ := List.mem_filter.mp hmem
  exact ⟨hmem, haccepts, fun w hw hwaccepts => hle w (List.mem_filter.mpr ⟨hw, hwaccepts⟩)⟩

/-- **A variable is taken** where any of them matches. -/
theorem exists_takes (h : ∃ v ∈ env, l.pattern.accepts v.1 = true) :
    ∃ v, l.Takes env v ∧ Environment.least? (env.filter (l.pattern.accepts ·.1)) = some v := by
  cases hleast : Environment.least? (env.filter (l.pattern.accepts ·.1)) with
  | some v => exact ⟨v, takes_of_least?_eq_some hleast, rfl⟩
  | none =>
    -- the search ends with nothing only where nothing was left to search
    obtain ⟨v, hv, haccepts⟩ := h
    have hnil := Environment.least?_eq_none_iff.mp hleast
    exact absurd haccepts (List.filter_eq_nil_iff.mp hnil v hv)

theorem Takes.eq (hnames : (env.map (·.1)).Nodup) (hv : l.Takes env v) (hw : l.Takes env w) :
    v = w :=
  Environment.eq_of_name_eq hnames hv.mem hw.mem
    (le_antisymm (hv.le w hw.mem hw.accepts) (hw.le v hv.mem hv.accepts))

theorem Takes.not_irrelevant (h : l.Takes env v) : ¬ l.Irrelevant env v := by
  rintro (haccepts | ⟨w, hw, haccepts, hlt⟩)
  · exact absurd h.accepts (Bool.eq_false_iff.mp haccepts)
  · exact absurd (h.le w hw haccepts) (not_le.mpr hlt)

/-- **What is passed over** makes no difference to what is taken. -/
theorem takes_iff_of_irrelevant (hperm : env.Perm (kept ++ extra))
    (hextra : ∀ v ∈ extra, l.Irrelevant env v) : l.Takes env v ↔ l.Takes kept v := by
  have hkept : ∀ w ∈ kept, w ∈ env := fun w hw => hperm.mem_iff.mpr (List.mem_append_left _ hw)
  have hmem : ∀ w, l.Takes env w → w ∈ kept := by
    intro w hw
    rcases List.mem_append.mp (hperm.mem_iff.mp hw.mem) with hmem | hmem
    · exact hmem
    · exact absurd (hextra w hmem) hw.not_irrelevant
  constructor
  · intro h
    exact ⟨hmem v h, h.accepts, fun w hw => h.le w (hkept w hw)⟩
  · intro h
    -- the variable that the larger environment takes is in the smaller one, and so not below `v`
    obtain ⟨u, hu, -⟩ := exists_takes ⟨v, hkept v h.mem, h.accepts⟩
    have hle : v.1 ≤ u.1 := h.le u (hmem u hu) hu.accepts
    exact ⟨hkept v h.mem, h.accepts, fun w hw haccepts => hle.trans (hu.le w hw haccepts)⟩

/-! ## What is yielded -/

theorem value?_of_takes (hnames : (env.map (·.1)).Nodup) (h : l.Takes env v) :
    l.value? env = some v.2 := by
  obtain ⟨w, hw, hleast⟩ := exists_takes ⟨v, h.mem, h.accepts⟩
  obtain rfl := h.eq hnames hw
  unfold value?
  rw [hleast]

theorem value?_of_unmatched (h : ∀ v ∈ env, l.pattern.accepts v.1 = false) :
    l.value? env = l.alternative := by
  have hnil : env.filter (l.pattern.accepts ·.1) = [] :=
    List.filter_eq_nil_iff.mpr fun v hv => Bool.eq_false_iff.mp (h v hv)
  unfold value?
  rw [hnil]
  rfl

/-- Environments in which the same variables are taken give the same value. -/
theorem value?_congr (hnames : (env.map (·.1)).Nodup) (hkept : (kept.map (·.1)).Nodup)
    (h : ∀ v, l.Takes env v ↔ l.Takes kept v) : l.value? env = l.value? kept := by
  by_cases hmatch : ∃ v ∈ env, l.pattern.accepts v.1 = true
  · obtain ⟨v, hv, -⟩ := exists_takes hmatch
    rw [value?_of_takes hnames hv, value?_of_takes hkept ((h v).mp hv)]
  · -- what matches in the one environment would be taken in the other
    have hunmatched : ∀ v ∈ kept, l.pattern.accepts v.1 = false := by
      intro v hv
      refine Bool.eq_false_iff.mpr fun haccepts => hmatch ?_
      obtain ⟨w, hw, -⟩ := exists_takes ⟨v, hv, haccepts⟩
      exact ⟨w, ((h w).mpr hw).mem, hw.accepts⟩
    rw [value?_of_unmatched hunmatched, value?_of_unmatched]
    exact fun v hv => Bool.eq_false_iff.mpr fun haccepts => hmatch ⟨v, hv, haccepts⟩

/-- **What a lookup yields** is its lead with the value of the variable that it takes, which is the
only one of the kind; where nothing matches, its lead with the alternative; without an alternative
the empty text if there is a lead, and nothing if there is none. So the order of the variables does
not matter, nor do variables that are passed over. -/
theorem resolve_of_distinct (l : EnvLookup) (env : Environment) (hnames : (env.map (·.1)).Nodup) :
    ((∃ v ∈ env, l.pattern.accepts v.1 = true) →
      (∃! v, l.Takes env v) ∧ ∀ v, l.Takes env v → l.resolve env = some (l.lead ++ v.2)) ∧
    ((∀ v ∈ env, l.pattern.accepts v.1 = false) →
      (∀ text, l.alternative = some text → l.resolve env = some (l.lead ++ text)) ∧
      (l.alternative = none → l.resolve env = if l.lead = "" then none else some "")) ∧
    ∀ kept extra : Environment, env.Perm (kept ++ extra) → (∀ v ∈ extra, l.Irrelevant env v) →
      l.resolve kept = l.resolve env := by
  refine ⟨fun hmatch => ⟨?_, fun v hv => ?_⟩, fun hunmatched => ⟨fun text htext => ?_, fun hnone => ?_⟩,
    fun kept extra hperm hextra => ?_⟩
  · obtain ⟨v, hv, -⟩ := exists_takes hmatch
    exact ⟨v, hv, fun w hw => hw.eq hnames hv⟩
  · unfold resolve
    rw [value?_of_takes hnames hv]
  · unfold resolve
    rw [value?_of_unmatched hunmatched, htext]
  · unfold resolve
    rw [value?_of_unmatched hunmatched, hnone]
  · have hkept : (kept.map (·.1)).Nodup := by
      have hall := (hperm.map (·.1)).nodup_iff.mp hnames
      rw [List.map_append] at hall
      exact hall.of_append_left
    unfold resolve
    rw [value?_congr hnames hkept fun v => takes_iff_of_irrelevant hperm hextra]

/-- Of three variables that match the one that comes last has the least name, and an empty value. -/
theorem resolve_of_distinct_least :
    let l : EnvLookup := ⟨".b", .contains "BUILD", some "0"⟩
    let env : Environment :=
      [("CI_BUILD", "7"), ("BUILD_é", "8"), ("A", "9"), ("BUILD_Z", "")]
    (env.map (·.1)).Nodup ∧ l.Takes env ("BUILD_Z", "") ∧ l.resolve env = some ".b" ∧
      l.resolve [("BUILD_Z", "")] = some ".b" := by
  intro l env
  have hnames : (env.map (·.1)).Nodup := by decide
  obtain ⟨hmatched, -, hkept⟩ := resolve_of_distinct l env hnames
  have htakes : l.Takes env ("BUILD_Z", "") := ⟨by decide, by decide, by decide⟩
  have hresolve := (hmatched ⟨_, htakes.mem, htakes.accepts⟩).2 _ htakes
  refine ⟨hnames, htakes, hresolve, ?_⟩
  rw [hkept [("BUILD_Z", "")] [("CI_BUILD", "7"), ("BUILD_é", "8"), ("A", "9")] (by decide)]
  · exact hresolve
  · simp only [Irrelevant]
    decide

end EnvLookup

end TagVersion
