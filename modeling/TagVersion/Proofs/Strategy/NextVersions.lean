import TagVersion.Proofs.Release.Checks
import TagVersion.Proofs.Version.Triplets

/-!
# Next versions

The text of the next version is made of the triplet of the present one and of nothing else. It is
refused to a custom main format, to a component that no placeholder of the template names, and to a
number that is the greatest word already; where it is not refused, the template is shown for facts
that have the next triplet and no trace of the checkout.

* **`Triplet.bump?_eq_some_iff`**: a bump leads to the next triplet, counted without bound.
* **`VersionFacts.ofTriplet_eq_release`**: a triplet that is written and read again is that of a
  release.
* **`TemplatePart.component?_eq_some_iff`**: the placeholders that name a component.
* **`Strategy.NextVersion`**: the four answers, each with its conditions.
* **`Strategy.bump_eq_iff`**: there are no others, and only the triplet decides.
-/

namespace TagVersion

/-! ## The next triplet -/

namespace Triplet

/-- The triplet after `t` in one of its numbers: the numbers before that one stay, it grows by one,
and those after it are zero. -/
def IsNext (t next : Triplet) : Component → Prop
  | .major => next.major.toNat = t.major.toNat + 1 ∧ next.minor = 0 ∧ next.patch = 0
  | .minor => next.major = t.major ∧ next.minor.toNat = t.minor.toNat + 1 ∧ next.patch = 0
  | .patch => next.major = t.major ∧ next.minor = t.minor ∧ next.patch.toNat = t.patch.toNat + 1

variable {t next : Triplet} {c : Component}

theorem successor?_eq_some_iff {w w' : UInt64} :
    successor? w = some w' ↔ w'.toNat = w.toNat + 1 := by
  have hsucc : w.toNat + 1 < UInt64.size → (w + 1).toNat = w.toNat + 1 := by
    intro h
    rw [UInt64.toNat_add]
    exact Nat.mod_eq_of_lt h
  unfold successor?
  split
  · next h =>
    rw [Option.some.injEq, ← UInt64.toNat_inj, hsucc h]
    exact eq_comm
  · next h =>
    refine iff_of_false nofun fun heq => h ?_
    rw [← heq]
    exact w'.toNat_lt_size

/-- **A bump** leads to the next triplet, if that one is made of words. -/
theorem bump?_eq_some_iff : t.bump? c = some next ↔ t.IsNext next c := by
  obtain ⟨major, minor, patch⟩ := next
  cases c with
  | major =>
    simp only [bump?, IsNext, Option.map_eq_some_iff, successor?_eq_some_iff, mk.injEq]
    constructor
    · rintro ⟨w, hw, rfl, rfl, rfl⟩
      exact ⟨hw, rfl, rfl⟩
    · rintro ⟨hw, rfl, rfl⟩
      exact ⟨major, hw, rfl, rfl, rfl⟩
  | minor =>
    simp only [bump?, IsNext, Option.map_eq_some_iff, successor?_eq_some_iff, mk.injEq]
    constructor
    · rintro ⟨w, hw, rfl, rfl, rfl⟩
      exact ⟨rfl, hw, rfl⟩
    · rintro ⟨rfl, hw, rfl⟩
      exact ⟨minor, hw, rfl, rfl, rfl⟩
  | patch =>
    simp only [bump?, IsNext, Option.map_eq_some_iff, successor?_eq_some_iff, mk.injEq]
    constructor
    · rintro ⟨w, hw, rfl, rfl, rfl⟩
      exact ⟨rfl, rfl, hw⟩
    · rintro ⟨rfl, rfl, hw⟩
      exact ⟨patch, hw, rfl, rfl, rfl⟩

end Triplet

namespace VersionFacts

/-- The facts of a release: its triplet, and nothing of the checkout that it was made from. -/
def release (t : Triplet) : VersionFacts where
  main := t.text
  triplet := t
  distance := 0
  commitId := none
  dirty := false
  described := none

/-- **Nothing is lost** when a triplet is written as a tag and read again. -/
theorem ofTriplet_eq_release (t : Triplet) : ofTriplet t = release t := by
  unfold ofTriplet ofTag release
  rw [t.mainOfTag_chars, t.ofChars_chars]
  rfl

end VersionFacts

/-! ## Placeholders that name a component -/

namespace VersionField

theorem ofName?_eq_some_iff {name : String} {f : VersionField} :
    ofName? name = some f ↔ f.name = name := by
  constructor
  · intro h
    have hname := List.find?_some h
    exact beq_iff_eq.mp hname
  · rintro rfl
    exact ofName?_name f

theorem component?_eq_some_iff {f : VersionField} {c : Component} :
    f.component? = some c ↔ f.name = c.name := by
  cases f <;> cases c <;> decide

end VersionField

theorem EnvLookup.ofString?_component (c : Component) (alternative : Option String) :
    EnvLookup.ofString? c.name alternative = none := by
  cases c <;> rfl

/-- **A placeholder that is bumped** is one that names the component, whatever its alternative. -/
theorem TemplatePart.component?_eq_some_iff {p : TemplatePart} {c : Component} :
    p.field?.bind (·.component?) = some c ↔ ∃ alternative, p = .placeholder c.name alternative := by
  cases p with
  | constant text => exact iff_of_false nofun nofun
  | placeholder name alternative =>
    simp only [TemplatePart.placeholder.injEq, exists_and_left, exists_eq', and_true]
    constructor
    · intro h
      -- the field is the one that the placeholder names, and so is its component
      obtain ⟨f, hfield, hcomponent⟩ := Option.bind_eq_some_iff.mp h
      rw [VersionField.component?_eq_some_iff] at hcomponent
      simp only [TemplatePart.field?, TemplatePart.meaning] at hfield
      cases hlookup : EnvLookup.ofString? name alternative with
      | some l => simp [hlookup] at hfield
      | none =>
        cases hname : VersionField.ofName? name with
        | none => simp [hlookup, hname] at hfield
        | some g =>
          obtain rfl : g = f := by simpa [hlookup, hname] using hfield
          rw [← hcomponent, VersionField.ofName?_eq_some_iff.mp hname]
    · rintro rfl
      obtain ⟨f, hf⟩ : ∃ f : VersionField, f.component? = some c := by
        cases c with
        | major => exact ⟨.major, rfl⟩
        | minor => exact ⟨.minor, rfl⟩
        | patch => exact ⟨.patch, rfl⟩
      have hname := VersionField.ofName?_eq_some_iff.mpr (VersionField.component?_eq_some_iff.mp hf)
      simp [TemplatePart.field?, TemplatePart.meaning, EnvLookup.ofString?_component, hname, hf]

/-- A template shows a component if one of its placeholders has the name of the component. -/
def Template.Shows (c : Component) (template : String) : Prop :=
  ∃ alternative, TemplatePart.placeholder c.name alternative ∈ Template.parts template

theorem Template.shows_iff {c : Component} {template : String} :
    Template.Shows c template ↔
      ∃ p ∈ Template.parts template, p.field?.bind (·.component?) = some c := by
  simp only [TemplatePart.component?_eq_some_iff]
  constructor
  · rintro ⟨alternative, hmem⟩
    exact ⟨_, hmem, alternative, rfl⟩
  · rintro ⟨_, hmem, alternative, rfl⟩
    exact ⟨alternative, hmem⟩

/-! ## The answers -/

namespace Strategy

/-- What a strategy answers when it is asked for the next version. The conditions exclude each other:
the format comes first, then what it shows, then the number. -/
inductive NextVersion (s : Strategy) (env : Environment) (c : Component) (v : VersionFacts) :
    Except Error String → Prop where
  | custom {render : VersionFacts → Option String} (hmain : s.main = .custom render) :
      NextVersion s env c v (.error (.customMainFormat "<custom>"))
  | hidden {template : String} (hmain : s.main = .template template)
      (hhidden : ¬ Template.Shows c template) :
      NextVersion s env c v (.error (.outOfScope c.name template))
  | greatest {template : String} (hmain : s.main = .template template)
      (hshown : Template.Shows c template)
      (hgreatest : (v.triplet.number c).toNat = 2 ^ 64 - 1) :
      NextVersion s env c v (.error (.versionOverflow c.name v.triplet.text))
  | next {template : String} {next : Triplet} (hmain : s.main = .template template)
      (hshown : Template.Shows c template) (hnext : v.triplet.IsNext next c) :
      NextVersion s env c v
        (.ok (String.join ((Format.template template).pieces env (.release next))))

variable {s : Strategy} {env : Environment} {c : Component} {v : VersionFacts}

theorem bump_custom {render : VersionFacts → Option String} (hmain : s.main = .custom render) :
    s.bump env c v = .error (.customMainFormat "<custom>") := by
  rw [Versioning.bump_cases, hmain]
  rfl

theorem bump_template {template : String} (hmain : s.main = .template template) :
    s.bump env c v =
      if ∃ p ∈ Template.parts template, p.field?.bind (·.component?) = some c then
        match v.triplet.bump? c with
        | none => .error (.versionOverflow c.name v.triplet.text)
        | some next => .ok (s.render env (.ofTriplet next) false)
      else .error (.outOfScope c.name template) := by
  rw [Versioning.bump_cases, hmain]
  rfl

theorem bump_hidden {template : String} (hmain : s.main = .template template)
    (hhidden : ¬ Template.Shows c template) :
    s.bump env c v = .error (.outOfScope c.name template) := by
  rw [bump_template hmain, if_neg (Template.shows_iff.not.mp hhidden)]

theorem bump_greatest {template : String} (hmain : s.main = .template template)
    (hshown : Template.Shows c template) (hgreatest : v.triplet.bump? c = none) :
    s.bump env c v = .error (.versionOverflow c.name v.triplet.text) := by
  rw [bump_template hmain, if_pos (Template.shows_iff.mp hshown), hgreatest]

theorem bump_next {template : String} {next : Triplet} (hmain : s.main = .template template)
    (hshown : Template.Shows c template) (hnext : v.triplet.bump? c = some next) :
    s.bump env c v =
      .ok (String.join ((Format.template template).pieces env (.release next))) := by
  rw [bump_template hmain, if_pos (Template.shows_iff.mp hshown), hnext]
  show Except.ok (s.render env (.ofTriplet next) false) = _
  unfold render
  rw [VersionFacts.ofTriplet_eq_release, hmain, Bool.false_and]
  simp

theorem number_eq_greatest_iff : (v.triplet.number c).toNat = 2 ^ 64 - 1 ↔ v.triplet.bump? c = none := by
  rw [Triplet.bump?_eq_none_iff, show UInt64.size = 2 ^ 64 from rfl]
  omega

theorem NextVersion.bump_eq {answer : Except Error String} (h : s.NextVersion env c v answer) :
    s.bump env c v = answer := by
  cases h with
  | custom hmain => exact bump_custom hmain
  | hidden hmain hhidden => exact bump_hidden hmain hhidden
  | greatest hmain hshown hgreatest =>
    exact bump_greatest hmain hshown (number_eq_greatest_iff.mp hgreatest)
  | next hmain hshown hnext => exact bump_next hmain hshown (Triplet.bump?_eq_some_iff.mpr hnext)

theorem exists_nextVersion (s : Strategy) (env : Environment) (c : Component) (v : VersionFacts) :
    ∃ answer, s.NextVersion env c v answer := by
  cases hmain : s.main with
  | custom render => exact ⟨_, .custom hmain⟩
  | template template =>
    by_cases hshown : Template.Shows c template
    · cases hnext : v.triplet.bump? c with
      | none => exact ⟨_, .greatest hmain hshown (number_eq_greatest_iff.mpr hnext)⟩
      | some next => exact ⟨_, .next hmain hshown (Triplet.bump?_eq_some_iff.mp hnext)⟩
    · exact ⟨_, .hidden hmain hshown⟩

theorem bump_eq_iff_nextVersion {answer : Except Error String} :
    s.bump env c v = answer ↔ s.NextVersion env c v answer := by
  refine ⟨?_, NextVersion.bump_eq⟩
  -- the answers exclude each other, since the one that is listed is given
  rintro rfl
  obtain ⟨answer, h⟩ := exists_nextVersion s env c v
  rwa [h.bump_eq]

/-- **The next version** is one of four answers, each given under its own conditions. There is a text
if and only if the main format is a template that shows the component and the number can grow. All
facts of the present version but its triplet make no difference. -/
theorem bump_eq_iff (s : Strategy) (env : Environment) (c : Component) (v : VersionFacts) :
    (∀ answer, s.bump env c v = answer ↔ s.NextVersion env c v answer) ∧
      ((∃ text, s.bump env c v = .ok text) ↔
        (∃ template, s.main = .template template ∧ Template.Shows c template) ∧
          (v.triplet.number c).toNat < 2 ^ 64 - 1) ∧
      ∀ w : VersionFacts, w.triplet = v.triplet → s.bump env c w = s.bump env c v := by
  refine ⟨fun answer => bump_eq_iff_nextVersion, ⟨?_, ?_⟩, ?_⟩
  · rintro ⟨text, htext⟩
    cases bump_eq_iff_nextVersion.mp htext with
    | @next template next hmain hshown hnext =>
      have hsome := Triplet.bump?_eq_some_iff.mpr hnext
      refine ⟨⟨template, hmain, hshown⟩, ?_⟩
      -- a number that has a successor is not the greatest one
      have hne : (v.triplet.number c).toNat ≠ 2 ^ 64 - 1 := by
        rw [Ne, number_eq_greatest_iff, hsome]
        exact nofun
      have hlt : (v.triplet.number c).toNat < 2 ^ 64 := (v.triplet.number c).toNat_lt_size
      omega
  · rintro ⟨⟨template, hmain, hshown⟩, hlt⟩
    cases hnext : v.triplet.bump? c with
    | none => exact absurd (number_eq_greatest_iff.mpr hnext) (Nat.ne_of_lt hlt)
    | some next => exact ⟨_, bump_next hmain hshown hnext⟩
  · intro w hw
    rw [Versioning.bump_cases, Versioning.bump_cases, hw]

/-- The alternative of a placeholder does not matter to its scope, and the greatest words are kept. -/
example :
    (make (.template "\x7bmajor:x\x7d-\x7bpatch\x7d\x7bpost\x7d\x7bmain\x7d") (.template "!x") "+" []).bump
      [] .patch ⟨"x", ⟨18446744073709551615, 7, 18446744073709551614⟩, 9, some "g1", true, some "y"⟩ =
      .ok "18446744073709551615-1844674407370955161518446744073709551615.7.18446744073709551615" := by
  decide +kernel

end Strategy

end TagVersion
