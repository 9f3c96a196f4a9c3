import TagVersion.Proofs.Strategy.NextVersions
import TagVersion.Proofs.Template.Decomposition

/-!
# Problems of strategies

A strategy has a problem if its main format is a template without parts, or if a placeholder of one of
its templates means nothing. Whether it means something can be told from the text between the braces
alone. A strategy without a problem makes its version texts of what it was told to, and never of the
text that stands in for a placeholder without a meaning.

* **`TemplatePart.IsMeant`**: what has a meaning between braces.
* **`TemplatePart.meaning_eq_invalid_iff`**: the parts that have none.
* **`Format.Yields`**: where a piece of a version text may come from.
* **`Format.problems_eq`**, **`Format.yields_of_mem_pieces`**: what is said of a format, and what it
  yields if nothing is.
* **`Strategy.problem?_spec`**: both, for every strategy.
-/

namespace TagVersion

/-! ## Placeholders without a meaning -/

theorem EnvLookup.ofString?_eq_none_iff {name : String} {alternative : Option String} :
    ofString? name alternative = none ↔ '$' ∉ name.toList := by
  unfold ofString?
  rw [Option.map_eq_none_iff, Text.cutFirst_eq_none_iff]

theorem VersionField.ofName?_eq_none_iff {name : String} :
    ofName? name = none ↔ ¬ ∃ f ∈ all, f.name.toList = name.toList := by
  rw [Option.eq_none_iff_forall_ne_some]
  constructor
  · rintro h ⟨f, -, hname⟩
    exact h f (ofName?_eq_some_iff.mpr (String.toList_injective hname))
  · intro h f hf
    exact h ⟨f, f.mem_all, congrArg String.toList (ofName?_eq_some_iff.mp hf)⟩

namespace TemplatePart

/-- The text between the braces of a placeholder. -/
def braced? : TemplatePart → Option (List Char)
  | constant _ => none
  | placeholder name none => some name.toList
  | placeholder name (some alternative) => some (name.toList ++ ':' :: alternative.toList)

/-- What stands between braces, up to the first colon. -/
def bracedName (braced : List Char) : List Char :=
  braced.takeWhile (· ≠ ':')

/-- There is a dollar sign in the name, or it is that of a field. -/
def IsMeant (braced : List Char) : Prop :=
  '$' ∈ bracedName braced ∨ ∃ f ∈ VersionField.all, f.name.toList = bracedName braced

instance (braced : List Char) : Decidable (IsMeant braced) :=
  inferInstanceAs (Decidable (_ ∨ _))

/-- What is said of a placeholder without a meaning. -/
def complaint (braced : List Char) : String :=
  "invalid versioning part '" ++ String.ofList (bracedName braced) ++ "'"

variable {p : TemplatePart} {name : String} {alternative : Option String} {braced : List Char}

theorem bracedName_append {front : List Char} (h : ':' ∉ front) (rest : List Char) :
    bracedName (front ++ ':' :: rest) = front := by
  have hfront : ∀ c ∈ front, decide (c ≠ ':') = true := by
    intro c hc
    simpa using fun heq : c = ':' => h (heq ▸ hc)
  unfold bracedName
  rw [List.takeWhile_append_of_pos hfront, List.takeWhile_cons_of_neg (by simp), List.append_nil]

theorem bracedName_eq_self (h : ':' ∉ braced) : bracedName braced = braced := by
  unfold bracedName
  rw [List.takeWhile_eq_self_iff]
  intro c hc
  simpa using fun heq : c = ':' => h (heq ▸ hc)

/-- The name of a placeholder is read up to the first colon. -/
theorem bracedName_of_isSpelled (h : (placeholder name alternative).IsSpelled) {braced : List Char}
    (hbraced : (placeholder name alternative).braced? = some braced) :
    bracedName braced = name.toList := by
  obtain ⟨-, hcolon, -⟩ := h
  cases alternative with
  | none =>
    obtain rfl := Option.some.inj hbraced
    exact bracedName_eq_self hcolon
  | some text =>
    obtain rfl := Option.some.inj hbraced
    exact bracedName_append hcolon text.toList

/-- **A placeholder means nothing** if its name has no dollar sign and is not that of a field. -/
theorem meaning_eq_invalid_iff (h : (placeholder name alternative).IsSpelled)
    (hbraced : (placeholder name alternative).braced? = some braced) :
    (placeholder name alternative).meaning = .invalid ↔ ¬ IsMeant braced := by
  unfold IsMeant
  rw [bracedName_of_isSpelled h hbraced, not_or, ← VersionField.ofName?_eq_none_iff,
    ← EnvLookup.ofString?_eq_none_iff]
  cases hlookup : EnvLookup.ofString? name alternative with
  | some l => simp [meaning, hlookup]
  | none =>
    cases hfield : VersionField.ofName? name with
    | some f => simp [meaning, hlookup, hfield]
    | none => simp [meaning, hlookup, hfield]

theorem exists_braced? (name : String) (alternative : Option String) :
    ∃ braced, (placeholder name alternative).braced? = some braced := by
  cases alternative with
  | none => exact ⟨_, rfl⟩
  | some text => exact ⟨_, rfl⟩

/-- What is said of a part can be told from what stands between its braces. -/
theorem problem?_eq (h : p.IsSpelled) :
    p.problem? = (p.braced?.filter fun braced => ¬ IsMeant braced).map complaint := by
  cases p with
  | constant text => rfl
  | placeholder name alternative =>
    obtain ⟨braced, hbraced⟩ := exists_braced? name alternative
    have hiff := meaning_eq_invalid_iff h hbraced
    have hcomplaint : complaint braced = "invalid versioning part '" ++ name ++ "'" := by
      unfold complaint
      rw [bracedName_of_isSpelled h hbraced, String.ofList_toList]
    unfold problem?
    rw [hbraced]
    by_cases hmeant : IsMeant braced
    · have hvalid : (placeholder name alternative).meaning ≠ .invalid := fun hinvalid =>
        hiff.mp hinvalid hmeant
      rw [Option.filter_some_neg (by simpa using hmeant), Option.map_none]
      split
      · next hinvalid => exact absurd hinvalid hvalid
      · rfl
    · rw [hiff.mpr hmeant, Option.filter_some_pos (by simpa using hmeant), Option.map_some,
        hcomplaint]
      rfl

end TemplatePart

/-! ## Formats -/

namespace Format

open TemplatePart

/-- What stands between the braces of a template; a custom format has none. -/
def placeholders : Format → List (List Char)
  | template text => (Template.parts text).filterMap (·.braced?)
  | custom _ => []

/-- The placeholders that mean nothing. -/
def meaningless (f : Format) : List (List Char) :=
  f.placeholders.filter fun braced => ¬ IsMeant braced

/-- Where a piece of a version text comes from. A placeholder without a meaning is not among this. -/
inductive Yields (env : Environment) (v : VersionFacts) : Format → String → Prop where
  | constant {template text : String} {p : TemplatePart} (hp : p ∈ Template.parts template)
      (hmeaning : p.meaning = .constant text) : Yields env v (.template template) text
  | field {template text : String} {p : TemplatePart} {f : VersionField}
      (hp : p ∈ Template.parts template) (hmeaning : p.meaning = .field f)
      (htext : v.field? f = some text) : Yields env v (.template template) text
  | lookup {template text : String} {p : TemplatePart} {l : EnvLookup}
      (hp : p ∈ Template.parts template) (hmeaning : p.meaning = .lookup l)
      (htext : l.resolve env = some text) : Yields env v (.template template) text
  | custom {render : VersionFacts → Option String} {text : String}
      (htext : render v = some text) : Yields env v (.custom render) text

variable {f : Format} {env : Environment} {v : VersionFacts} {piece : String}

theorem isSpelled_of_mem_parts {template : String} {p : TemplatePart}
    (hp : p ∈ Template.parts template) : p.IsSpelled :=
  (Template.spelled_partsFrom _).spelled p hp

/-- **What is said of a format**: one complaint about each placeholder that means nothing. -/
theorem problems_eq (f : Format) : f.problems = f.meaningless.map complaint := by
  cases f with
  | custom render => rfl
  | template text =>
    show (Template.parts text).filterMap (·.problem?) =
      (((Template.parts text).filterMap (·.braced?)).filter fun braced => ¬ IsMeant braced).map
        complaint
    rw [List.filter_filterMap, List.map_filterMap]
    exact List.filterMap_congr fun p hp => problem?_eq (isSpelled_of_mem_parts hp)

theorem meaningless_eq_nil_iff :
    f.meaningless = [] ↔ ∀ braced ∈ f.placeholders, IsMeant braced := by
  unfold meaningless
  rw [List.filter_eq_nil_iff]
  simp

/-- **What a format yields** if nothing is said of it. -/
theorem yields_of_mem_pieces (h : f.meaningless = []) (hpiece : piece ∈ f.pieces env v) :
    f.Yields env v piece := by
  cases f with
  | custom render =>
    have hmem : piece ∈ (render v).toList := List.mem_of_mem_filter hpiece
    exact .custom (Option.mem_toList.mp hmem)
  | template text =>
    obtain ⟨p, hp, hrender⟩ := List.mem_filterMap.mp hpiece
    have hproblem : p.problem? = none := by
      have hproblems : (Format.template text).problems = [] := by rw [problems_eq, h]; rfl
      exact List.filterMap_eq_nil_iff.mp hproblems p hp
    unfold TemplatePart.render at hrender
    cases hmeaning : p.meaning with
    | constant constant =>
      rw [hmeaning] at hrender
      exact .constant hp (hmeaning.trans (congrArg _ (Option.some.inj hrender)))
    | field field =>
      rw [hmeaning] at hrender
      exact .field hp hmeaning hrender
    | lookup lookup =>
      rw [hmeaning] at hrender
      exact .lookup hp hmeaning hrender
    | invalid =>
      unfold problem? at hproblem
      rw [hmeaning] at hproblem
      exact absurd hproblem nofun

end Format

/-! ## Strategies -/

/-- Texts on lines of their own are found again, if none of them has a line end. -/
theorem Text.splitOn_intercalate_newline {lines : List String} (hne : lines ≠ [])
    (h : ∀ line ∈ lines, '\n' ∉ line.toList) :
    ("\n".intercalate lines).toList.splitOn '\n' = lines.map String.toList := by
  have hend : "\n".toList = ['\n'] := by decide
  rw [String.toList_intercalate, hend]
  refine List.splitOn_intercalate '\n' ?_ (by simpa using hne)
  simpa using h

namespace Strategy

open TemplatePart

variable {s : Strategy}

theorem problem?_of_ne (h : s.main.parts? ≠ some []) :
    s.problem? =
      if s.main.meaningless ++ s.extra.meaningless = [] then none
      else some ("\n".intercalate ((s.main.meaningless ++ s.extra.meaningless).map complaint)) := by
  unfold problem?
  rw [if_neg h, s.main.problems_eq, s.extra.problems_eq, ← List.map_append]
  cases s.main.meaningless ++ s.extra.meaningless with
  | nil => rfl
  | cons braced rest => rfl

theorem problem?_eq_none_iff :
    s.problem? = none ↔
      s.main.parts? ≠ some [] ∧ s.main.meaningless = [] ∧ s.extra.meaningless = [] := by
  rw [← List.append_eq_nil_iff]
  by_cases hempty : s.main.parts? = some []
  · have hproblem : s.problem? = some "No versioning format specified" := if_pos hempty
    rw [hproblem]
    exact iff_of_false nofun fun h => h.1 hempty
  · rw [problem?_of_ne hempty, and_iff_right hempty, ite_eq_left_iff]
    exact ⟨fun h => by_contra fun hne => absurd (h hne) nofun, fun h hne => absurd h hne⟩

theorem mem_extraPieces {env : Environment} {v : VersionFacts} {piece : String}
    (h : piece ∈ s.extraPieces env v) : piece = s.separator ∨ piece ∈ s.extra.pieces env v := by
  unfold extraPieces at h
  split at h
  · exact absurd h List.not_mem_nil
  · next pieces =>
    split at h
    · exact .inr h
    · exact List.mem_cons.mp h

/-- A complaint is a line, if the name that it is about is on one. -/
theorem newline_not_mem_complaint {braced : List Char} (h : '\n' ∉ bracedName braced) :
    '\n' ∉ (complaint braced).toList := by
  unfold complaint
  simp [h]

/-- **The problem of a strategy** is exact. It has none if and only if its main format is not a
template without parts and all placeholders of both templates mean something; a template without parts
is its only problem, and otherwise there is a line about each placeholder that means nothing, in their
order. A strategy without a problem makes its texts of what it was told to. -/
theorem problem?_spec (main extra : Format) (separator : String) (branches : List String) :
    let s := make main extra separator branches
    let meaningless := main.meaningless ++ extra.meaningless
    (s.problem? = none ↔
      main.parts? ≠ some [] ∧
        (∀ braced ∈ main.placeholders, IsMeant braced) ∧
        ∀ braced ∈ extra.placeholders, IsMeant braced) ∧
    (main.parts? = some [] → s.problem? = some "No versioning format specified") ∧
    (main.parts? ≠ some [] → ∀ text, s.problem? = some text →
      text = "\n".intercalate (meaningless.map complaint) ∧
        ((∀ braced ∈ meaningless, '\n' ∉ bracedName braced) →
          text.toList.splitOn '\n' = meaningless.map fun braced => (complaint braced).toList)) ∧
    (s.problem? = none → ∀ (env : Environment) (v : VersionFacts) (withExtra : Bool),
      ∃ rest, s.render env v withExtra = String.join (main.pieces env v ++ rest) ∧
        (∀ piece ∈ main.pieces env v, main.Yields env v piece) ∧
        (rest = [] ∨ rest = s.extraPieces env v) ∧
        ∀ piece ∈ rest, piece = s.separator ∨ extra.Yields env v piece) := by
  intro s meaningless
  refine ⟨?_, fun hempty => if_pos hempty, fun hne text htext => ?_, fun hnone env v withExtra => ?_⟩
  · rw [← Format.meaningless_eq_nil_iff, ← Format.meaningless_eq_nil_iff]
    exact problem?_eq_none_iff
  · have hproblem : s.problem? = if meaningless = [] then none
        else some ("\n".intercalate (meaningless.map complaint)) := problem?_of_ne hne
    rw [hproblem, Option.ite_none_left_eq_some, Option.some.injEq] at htext
    obtain ⟨hmeaningless, rfl⟩ := htext
    refine ⟨rfl, fun hlines => ?_⟩
    rw [Text.splitOn_intercalate_newline (mt List.map_eq_nil_iff.mp hmeaningless), List.map_map]
    · rfl
    · intro line hline
      obtain ⟨braced, hbraced, rfl⟩ := List.mem_map.mp hline
      exact newline_not_mem_complaint (hlines braced hbraced)
  · obtain ⟨-, hmain, hextra⟩ := problem?_eq_none_iff.mp hnone
    have hpieces : ∀ piece ∈ main.pieces env v, main.Yields env v piece :=
      fun piece hpiece => Format.yields_of_mem_pieces hmain hpiece
    have hrest : ∀ piece ∈ s.extraPieces env v, piece = s.separator ∨ extra.Yields env v piece :=
      fun piece hpiece => (mem_extraPieces hpiece).imp_right (Format.yields_of_mem_pieces hextra)
    refine ⟨_, rfl, hpieces, ?_, ?_⟩
    · split
      · exact .inr rfl
      · exact .inl rfl
    · split
      · exact hrest
      · exact nofun

/-- Two templates with placeholders without a meaning, one of them with a lookup for its alternative;
and two without any, with a brace that nothing closes. -/
theorem problem?_spec_templates :
    let flawed := make (.template "!\x7bmajor\x7d\x7bnope:$A\x7d") (.template "\x7b$A\x7d\x7b\x7d") "" []
    let sound := make (.template "!v\x7bmajor:nope\x7d\x7b") (.template "\x7bb$A:nope\x7d") "-" []
    let v := VersionFacts.ofTag "v1.2".toList 3 none true
    flawed.problem? = some "invalid versioning part 'nope'\ninvalid versioning part ''" ∧
      "invalid versioning part 'nope'\ninvalid versioning part ''".toList.splitOn '\n' =
        ["invalid versioning part 'nope'".toList, "invalid versioning part ''".toList] ∧
      sound.problem? = none ∧
      sound.render [("A", "5")] v true = "v1-b5" ∧
      ∀ piece ∈ sound.main.pieces [("A", "5")] v, sound.main.Yields [("A", "5")] v piece := by
  intro flawed sound v
  obtain ⟨-, -, hlines, -⟩ := problem?_spec (.template "!\x7bmajor\x7d\x7bnope:$A\x7d")
    (.template "\x7b$A\x7d\x7b\x7d") "" []
  obtain ⟨hiff, -, -, hyields⟩ := problem?_spec (.template "!v\x7bmajor:nope\x7d\x7b")
    (.template "\x7bb$A:nope\x7d") "-" []
  have hflawed : flawed.problem? =
      some "invalid versioning part 'nope'\ninvalid versioning part ''" := by decide +kernel
  have hsound : sound.problem? = none :=
    hiff.mpr ⟨by decide +kernel, by decide +kernel, by decide +kernel⟩
  obtain ⟨rest, -, hmain, -⟩ := hyields hsound [("A", "5")] v true
  refine ⟨hflawed, ?_, hsound, by decide +kernel, hmain⟩
  exact ((hlines (by decide +kernel) _ hflawed).2 (by decide +kernel)).trans (by decide +kernel)

end Strategy

end TagVersion
