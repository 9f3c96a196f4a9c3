import TagVersion.Proofs.Template.Decomposition
import TagVersion.Proofs.Version.Triplets
import TagVersion.Strategy.Rendering

/-!
# Extra formats without a text

A placeholder can yield nothing, and it can yield an empty text. An extra format that yields nothing
is left out of a version with its separator; one that yields empty texts only leaves the separator
behind.

* **`PartMeaning.IsHollow`**: what a placeholder that yields an empty text can mean.
* **`TemplatePart.render_eq_some_empty_iff`**: no other part yields one.
* **`Strategy.Dangles`**: the versions that end in a separator with nothing behind it.
* **`Strategy.render_eq_iff_not_dangles`**: all other versions are the same with and without an extra
  format that has no text.
-/

namespace TagVersion

/-! ## Parts with an empty text -/

/-- What a placeholder means that yields an empty text: a count of the commits since the tag, on the
tag itself; a fact that is there and empty; a variable with an empty value; a lead of which neither
a variable nor an alternative is found. -/
inductive PartMeaning.IsHollow (env : Environment) (v : VersionFacts) : PartMeaning → Prop where
  | distance {f : VersionField} (hfield : f ∈ [VersionField.post, .dev, .devcommit])
      (h : v.distance = 0) : IsHollow env v (.field f)
  | main (h : v.main = "") : IsHollow env v (.field .main)
  | commitId (h : v.commitId = some "") : IsHollow env v (.field .commitid)
  | described (h : v.described = some "") : IsHollow env v (.field .text)
  | value {l : EnvLookup} (hlead : l.lead = "") (h : l.value? env = some "") :
      IsHollow env v (.lookup l)
  | missing {l : EnvLookup} (hlead : l.lead ≠ "") (h : l.value? env = none) :
      IsHollow env v (.lookup l)

section

variable {env : Environment} {v : VersionFacts} {p : TemplatePart}

theorem Text.numeralText_ne_empty (w : UInt64) : Text.numeralText w ≠ "" := by
  intro h
  have hnil := congrArg String.toList h
  rw [Text.numeralText, String.toList_ofList] at hnil
  exact Triplet.numeral_ne_nil w hnil

namespace VersionFacts

theorem suffix_eq_empty_iff (label : String) : v.suffix label = "" ↔ v.distance = 0 := by
  unfold suffix
  split
  · next h => exact iff_of_true rfl h
  · next h =>
    refine iff_of_false ?_ h
    rw [String.append_eq_empty_iff]
    exact fun hempty => Text.numeralText_ne_empty _ hempty.2

theorem field?_devcommit_eq_some_empty_iff :
    v.field? .devcommit = some "" ↔ v.distance = 0 := by
  rw [← suffix_eq_empty_iff "dev"]
  cases hcommit : v.commitId with
  | none => simp [field?, hcommit]
  | some id =>
    -- the commit id comes behind a distance only
    simp only [field?, hcommit, Option.some.injEq]
    split
    · rfl
    · next h =>
      rw [suffix_eq_empty_iff, String.append_eq_empty_iff]
      exact iff_of_false (fun hempty => h ((suffix_eq_empty_iff "dev").mp
        (String.append_eq_empty_iff.mp hempty.1).1)) h

theorem field?_eq_some_empty_iff {f : VersionField} :
    v.field? f = some "" ↔ PartMeaning.IsHollow env v (.field f) := by
  constructor
  · intro h
    cases f with
    | major | minor | patch | changes | distance => simp [field?, Text.numeralText_ne_empty] at h
    | post => exact .distance (by simp) ((suffix_eq_empty_iff _).mp (Option.some.inj h))
    | dev => exact .distance (by simp) ((suffix_eq_empty_iff _).mp (Option.some.inj h))
    | devcommit => exact .distance (by simp) (field?_devcommit_eq_some_empty_iff.mp h)
    | commitid => exact .commitId h
    | dirty =>
      have hdirty : (if v.dirty then "true" else "false") = "" := Option.some.inj h
      split at hdirty <;> exact absurd hdirty (by decide)
    | main => exact .main (Option.some.inj h)
    | text => exact .described h
  · intro h
    cases h with
    | distance hfield h =>
      simp only [List.mem_cons, List.not_mem_nil, or_false] at hfield
      rcases hfield with rfl | rfl | rfl
      · exact congrArg some ((suffix_eq_empty_iff _).mpr h)
      · exact congrArg some ((suffix_eq_empty_iff _).mpr h)
      · exact field?_devcommit_eq_some_empty_iff.mpr h
    | main h => exact congrArg some h
    | commitId h => exact h
    | described h => exact h

end VersionFacts

theorem EnvLookup.resolve_eq_some_empty_iff {l : EnvLookup} :
    l.resolve env = some "" ↔ PartMeaning.IsHollow env v (.lookup l) := by
  unfold EnvLookup.resolve
  constructor
  · intro h
    cases hvalue : l.value? env with
    | some value =>
      rw [hvalue] at h
      obtain ⟨hlead, rfl⟩ := String.append_eq_empty_iff.mp (Option.some.inj h)
      exact .value hlead hvalue
    | none =>
      rw [hvalue] at h
      have hlead : l.lead ≠ "" := by
        intro hlead
        simp [hlead] at h
      exact .missing hlead hvalue
  · intro h
    cases h with
    | value hlead h => simp [h, hlead]
    | missing hlead h => simp [h, hlead]

theorem TemplatePart.meaning_placeholder_ne_constant (name : String) (alternative : Option String)
    (text : String) : (placeholder name alternative).meaning ≠ .constant text := by
  simp only [TemplatePart.meaning]
  cases EnvLookup.ofString? name alternative with
  | some l => simp
  | none => cases VersionField.ofName? name <;> simp

/-- **The parts with an empty text** are placeholders of a hollow meaning: a constant of a template is
never empty. -/
theorem TemplatePart.render_eq_some_empty_iff {template : String} (hp : p ∈ Template.parts template) :
    p.render env v = some "" ↔ p.meaning.IsHollow env v := by
  have hspelled : p.IsSpelled := (Template.spelled_partsFrom _).spelled p hp
  unfold TemplatePart.render
  cases p with
  | constant text =>
    refine iff_of_false (fun h => ?_) (fun h => ?_)
    · exact hspelled.1 (Option.some.inj h)
    · cases h
  | placeholder name alternative =>
    cases hmeaning : (placeholder name alternative).meaning with
    | constant text => exact absurd hmeaning (meaning_placeholder_ne_constant name alternative text)
    | field f => exact VersionFacts.field?_eq_some_empty_iff
    | lookup l => exact EnvLookup.resolve_eq_some_empty_iff
    | invalid =>
      refine iff_of_false (fun h => ?_) (fun h => ?_)
      · exact absurd (Option.some.inj h) (by decide)
      · cases h

end

/-! ## Versions with and without the extra format -/

namespace Strategy

variable {s : Strategy} {env : Environment} {v : VersionFacts}

/-- What the extra format contributes to the version of the given facts. -/
def extraText (s : Strategy) (env : Environment) (v : VersionFacts) : String :=
  String.join (s.extra.pieces env v)

/-- The version shows its extra format, which has hollow placeholders and no text, behind a separator
that can be seen. -/
structure Dangles (s : Strategy) (env : Environment) (v : VersionFacts) : Prop where
  needed : s.needsExtra v = true
  separator_ne_empty : s.separator ≠ ""
  separator_ne_blank : s.separator ≠ " "
  hollow : ∃ template, s.extra = .template template ∧
    ∃ p ∈ Template.parts template, p.meaning.IsHollow env v

theorem join_eq_empty_iff {pieces : List String} :
    String.join pieces = "" ↔ ∀ piece ∈ pieces, piece = "" := by
  induction pieces with
  | nil => simp
  | cons piece rest ih =>
    rw [String.join_cons, String.append_eq_empty_iff, ih, List.forall_mem_cons]

/-- **An extra format without a text** has pieces where a placeholder of its template is hollow. A
custom format has none. -/
theorem pieces_ne_nil_iff (h : s.extraText env v = "") :
    s.extra.pieces env v ≠ [] ↔ ∃ template, s.extra = .template template ∧
      ∃ p ∈ Template.parts template, p.meaning.IsHollow env v := by
  have hempty := join_eq_empty_iff.mp h
  cases hextra : s.extra with
  | custom render =>
    rw [hextra] at hempty
    -- a custom format leaves out an empty text itself
    refine iff_of_false (not_not.mpr ?_) (by simp)
    refine List.eq_nil_iff_forall_not_mem.mpr fun piece hpiece => ?_
    exact bne_iff_ne.mp (List.mem_filter.mp hpiece).2 (hempty piece hpiece)
  | template template =>
    rw [hextra] at hempty
    simp only [Format.template.injEq, exists_eq_left']
    constructor
    · intro hne
      obtain ⟨piece, hpiece⟩ := List.exists_mem_of_ne_nil _ hne
      obtain rfl := hempty piece hpiece
      obtain ⟨p, hp, hrender⟩ := List.mem_filterMap.mp hpiece
      exact ⟨p, hp, (TemplatePart.render_eq_some_empty_iff hp).mp hrender⟩
    · rintro ⟨p, hp, hhollow⟩
      have hrender := (TemplatePart.render_eq_some_empty_iff hp).mpr hhollow
      exact List.ne_nil_of_mem (List.mem_filterMap.mpr ⟨p, hp, hrender⟩)

theorem render_true (s : Strategy) (env : Environment) (v : VersionFacts) :
    s.render env v true = s.render env v false ++
      String.join (if s.needsExtra v then s.extraPieces env v else []) := by
  unfold render
  rw [String.join_append, Bool.true_and, Bool.false_and]
  simp

/-- With no text of its own, the extra format adds its separator or nothing. -/
theorem join_extraPieces (h : s.extraText env v = "") :
    String.join (s.extraPieces env v) =
      if s.extra.pieces env v = [] ∨ s.separator = " " then "" else s.separator := by
  have htext : String.join (s.extra.pieces env v) = "" := h
  unfold extraPieces
  cases hpieces : s.extra.pieces env v with
  | nil => simp
  | cons piece rest =>
    rw [hpieces] at htext
    by_cases hblank : s.separator = " "
    · simp only [hblank, or_true, if_true]
      exact htext
    · simp only [hblank, reduceCtorEq, or_false, if_false]
      rw [String.join_cons, htext, String.append_empty]

/-- **A separator is left behind** where the version dangles, and nowhere else. For an extra format
that contributes no text, the version is the same with and without it unless the format is needed,
its separator can be seen and a placeholder of its template yields an empty text; then the version
with it ends in the separator. -/
theorem render_eq_iff_not_dangles (s : Strategy) (env : Environment) (v : VersionFacts)
    (h : s.extraText env v = "") :
    (s.render env v true = s.render env v false ↔ ¬ s.Dangles env v) ∧
      (s.Dangles env v → s.render env v true = s.render env v false ++ s.separator) := by
  have hdangling : s.Dangles env v → s.render env v true = s.render env v false ++ s.separator := by
    rintro ⟨hneeded, -, hblank, hhollow⟩
    have hpieces := (pieces_ne_nil_iff h).mpr hhollow
    rw [render_true, if_pos hneeded, join_extraPieces h,
      if_neg (not_or.mpr ⟨hpieces, hblank⟩)]
  refine ⟨⟨fun heq hdangles => ?_, fun hnot => ?_⟩, hdangling⟩
  · rw [hdangling hdangles] at heq
    exact hdangles.separator_ne_empty (String.append_eq_left_iff.mp heq)
  · rw [render_true]
    by_cases hneeded : s.needsExtra v = true
    · rw [if_pos hneeded, join_extraPieces h]
      split
      · exact String.append_empty
      · next hshown =>
        obtain ⟨hpieces, hblank⟩ := not_or.mp hshown
        -- only a separator without a text is left
        by_cases hseparator : s.separator = ""
        · rw [hseparator, String.append_empty]
        · exact absurd ⟨hneeded, hseparator, hblank, (pieces_ne_nil_iff h).mp hpieces⟩ hnot
    · rw [if_neg hneeded]
      exact String.append_empty

/-- On its tag a checkout has no distance to show, and a variable that is set may be empty. -/
theorem render_eq_iff_not_dangles_post :
    let s := make (.template "\x7bmajor\x7d") (.template "!\x7bpost\x7d\x7b$CI\x7d") "+" []
    let v := VersionFacts.ofTriplet ⟨1, 2, 3⟩
    s.extraText [("CI", "")] v = "" ∧ s.Dangles [("CI", "")] v ∧
      s.render [("CI", "")] v true = "1+" ∧ s.render [("CI", "")] v false = "1" := by
  intro s v
  have htext : s.extraText [("CI", "")] v = "" := by decide +kernel
  have hmain : s.render [("CI", "")] v false = "1" := by decide +kernel
  have hparts : TemplatePart.placeholder "post" none ∈
      Template.parts "!\x7bpost\x7d\x7b$CI\x7d" := by decide +kernel
  have hdangles : s.Dangles [("CI", "")] v :=
    ⟨by decide, by decide, by decide, _, rfl, _, hparts, .distance (by decide) rfl⟩
  refine ⟨htext, hdangles, ?_, hmain⟩
  rw [(render_eq_iff_not_dangles s [("CI", "")] v htext).2 hdangles, hmain]
  rfl

end Strategy

end TagVersion
