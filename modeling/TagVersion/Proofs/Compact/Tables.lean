import TagVersion.Proofs.Compact.NormalForm
import TagVersion.Strategy.Rendering

/-!
# Tables and compact texts

A strategy can be declared field by field or in one line. Where the parts can be told apart in
the line, both ways declare the same strategy.

* **`ofGiven_writable`**: given parts of that kind are those of a strategy that can be written.
* **`Writable.ofDeclaration?_written`**: the line that is written for such a strategy declares it.
* **`ofDeclaration?_table`**: so does the table of its parts, where the names of the branches are
  put into one text and read from it again.
* **`ofDeclaration?_table_compact`**: the two declarations give the same versions.
-/

namespace TagVersion

namespace Strategy

open TagVersion.Compact

/-! ## Given parts -/

/-- The strategy that has exactly the given parts. -/
def ofGiven (branches : List String) (main : String) (separator : Char) (extra : String) :
    Strategy where
  main := .template main
  extra := .template extra
  separator := String.singleton separator
  branches
  ignoredFields := []

/-- The table that declares exactly the given parts, and keys that mean nothing to a strategy. -/
def givenTable (branches : List String) (main : String) (separator : Char) (extra : String)
    (other : Toml.Table) : StrategyTable where
  main := some main
  extra := some extra
  separator := some (String.singleton separator)
  branches := some (.names branches)
  other

/-- A name of a branch as it can be written between the brackets of a compact text: word
characters, hyphens and blanks, none of them at an end. -/
structure IsListed (name : String) : Prop where
  ne_empty : name ≠ ""
  trimmed : Text.trimmed name = name
  chars : ∀ c ∈ name.toList, Text.isWordChar c = true ∨ Text.isBlank c = true ∨ c = '-'

theorem not_isWordChar_comma : Text.isWordChar ',' = false := by decide

theorem not_isBlank_comma : Text.isBlank ',' = false := by decide

namespace IsListed

variable {name : String}

theorem isBranchChar (h : IsListed name) : ∀ c ∈ name.toList, isBranchChar c = true := by
  intro c hc
  unfold Compact.isBranchChar
  rcases h.chars c hc with hword | hblank | hhyphen
  · rw [hword]
    rfl
  · rw [hblank, Bool.or_true]
    rfl
  · rw [hhyphen]
    decide

theorem isName (h : IsListed name) : Branches.IsName name where
  ne_nil := fun hnil => h.ne_empty (String.toList_eq_nil_iff.mp hnil)
  not_mem_comma := by
    intro hmem
    rcases h.chars ',' hmem with hword | hblank | hhyphen
    · exact absurd hword (Bool.eq_false_iff.mp not_isWordChar_comma)
    · exact absurd hblank (Bool.eq_false_iff.mp not_isBlank_comma)
    · exact absurd hhyphen (by decide)
  trim_eq := by
    have htrimmed := congrArg String.toList h.trimmed
    rwa [Text.trimmed, String.toList_ofList] at htrimmed

end IsListed

variable {branches : List String} {main extra : String} {separator : Char}

/-- **Given parts can be written** if the main format holds no separator, the formats are single
lines and the branches can be listed. -/
theorem ofGiven_writable (hmain : ∀ c ∈ main.toList, isSeparator c = false)
    (hmainLine : '\n' ∉ main.toList) (hseparator : isSeparator separator = true)
    (hextraLine : '\n' ∉ extra.toList) (hne : branches ≠ [])
    (hbranches : ∀ name ∈ branches, IsListed name) :
    Writable (ofGiven branches main separator extra) main.toList separator extra.toList where
  eq_ofParts := by
    unfold ofGiven ofParts
    rw [if_neg hne, String.ofList_toList, String.singleton_eq_ofList]
    simp only [Option.map_some, Option.getD_some, String.ofList_toList]
  separator_isSeparator := hseparator
  main_separator := hmain
  main_line := hmainLine
  extra_line := hextraLine
  branches_ne_nil := hne
  branches_isName := fun name hname => (hbranches name hname).isName
  branches_char := fun name hname => (hbranches name hname).isBranchChar

/-! ## The two declarations -/

/-- The bracket in what is written for a strategy makes it none of the texts with a meaning of
their own. -/
theorem Writable.display_ne {s : Strategy} {cs extra : List Char} (h : Writable s cs separator extra)
    (hmain : s.main.display ≠ "") {text : String} (htext : '(' ∉ text.toList) :
    s.display ≠ text := by
  intro heq
  refine htext ?_
  rw [← heq, h.display_toList hmain]
  simp

/-- **The line that is written for a strategy** declares it. -/
theorem Writable.ofDeclaration?_written {s : Strategy} {cs extra : List Char}
    (h : Writable s cs separator extra) (hmain : s.main.display ≠ "") :
    ofDeclaration? (.compact s.display) = some s := by
  rw [ofDeclaration?_of_ne_empty (h.display_ne hmain (by decide)),
    ofText_eq_ofSplit (h.display_ne hmain (by decide)) (h.display_ne hmain (by decide)),
    h.ofSplit_display hmain]

/-- The names of the branches are read back from the text that a table makes of them. -/
theorem Writable.parse_text {s : Strategy} {cs extra : List Char} (h : Writable s cs separator extra) :
    Branches.parse (Branches.text s.branches) = s.branches := by
  have hchars := h.text_branches.2
  unfold Branches.parse
  rw [Branches.parseChars_of_not_mem (fun hopen => absurd (hchars _ hopen) (by decide))
    (fun hclose => absurd (hchars _ hclose) (by decide))]
  exact Branches.names_text h.branches_ne_nil h.branches_isName

/-- **The table of the parts of a strategy** declares it, and remembers the keys that it did not
understand. -/
theorem ofDeclaration?_table (other : Toml.Table)
    (h : Writable (ofGiven branches main separator extra) main.toList separator extra.toList) :
    ofDeclaration? (.table (givenTable branches main separator extra other)) =
      some { ofGiven branches main separator extra with ignoredFields := other.keys } := by
  have hparse : Branches.parse (Branches.text branches) = branches := h.parse_text
  have hne : branches ≠ [] := h.branches_ne_nil
  have hseparator : String.singleton separator ≠ "" := by simp
  have htable : ofTable (givenTable branches main separator extra other) =
      { ofGiven branches main separator extra with ignoredFields := other.keys } := by
    unfold ofTable givenTable make ofGiven
    simp only [Option.getD_some, hparse, if_neg hne, if_neg hseparator]
  show some (ofTable (givenTable branches main separator extra other)) = _
  rw [htable]

/-- **Tables and compact texts agree.** A table and the line that is written for its parts give
strategies with exactly these parts; so they have the same problems, and every checkout gets the
same version and the same next version from them. -/
theorem ofDeclaration?_table_compact (other : Toml.Table) (hmain : main ≠ "")
    (hmainLine : '\n' ∉ main.toList) (hmainChars : ∀ c ∈ main.toList, isSeparator c = false)
    (hseparator : isSeparator separator = true) (hextraLine : '\n' ∉ extra.toList)
    (hne : branches ≠ []) (hbranches : ∀ name ∈ branches, IsListed name) :
    ∃ s t,
      ofDeclaration? (.table (givenTable branches main separator extra other)) = some s ∧
      ofDeclaration? (.compact (format branches main (String.singleton separator) extra)) =
        some t ∧
      (s.main = .template main ∧ s.extra = .template extra ∧
        s.separator = String.singleton separator ∧ s.branches = branches) ∧
      (t.main = .template main ∧ t.extra = .template extra ∧
        t.separator = String.singleton separator ∧ t.branches = branches) ∧
      s.problem? = t.problem? ∧
      (∀ env v withExtra, s.render env v withExtra = t.render env v withExtra) ∧
      ∀ env c v, s.bump env c v = t.bump env c v := by
  have h := ofGiven_writable hmainChars hmainLine hseparator hextraLine hne hbranches
  have hcompact := h.ofDeclaration?_written hmain
  exact ⟨_, _, ofDeclaration?_table other h, hcompact, ⟨rfl, rfl, rfl, rfl⟩,
    ⟨rfl, rfl, rfl, rfl⟩, rfl, fun _ _ _ => rfl, fun _ _ _ => rfl⟩

/-- A main format that looks like a declaration of branches, names with a blank or a hyphen
inside, and an extra format that is always shown. -/
theorem ofDeclaration?_table_compact_lead :
    let branches := ["a b", "é-1"]
    let main := "tag:(x)"
    let extra := "!y"
    main ≠ "" ∧ '\n' ∉ main.toList ∧ (∀ c ∈ main.toList, isSeparator c = false) ∧
      isSeparator '/' = true ∧ '\n' ∉ extra.toList ∧ branches ≠ [] ∧
      (∀ name ∈ branches, IsListed name) ∧
      ∃ s t,
        ofDeclaration? (.table (givenTable branches main '/' extra [])) = some s ∧
        ofDeclaration? (.compact "tag(a b,é-1):tag:(x)/!y") = some t ∧
        s.branches = branches ∧ t.branches = branches ∧ t.main = .template main ∧
        ∀ env v withExtra, s.render env v withExtra = t.render env v withExtra := by
  intro branches main extra
  have hmainChars : ∀ c ∈ main.toList, isSeparator c = false := by
    have hall : main.toList.all (fun c => isSeparator c == false) = true := by decide
    exact fun c hc => beq_iff_eq.mp (List.all_eq_true.mp hall c hc)
  -- the characters of a name are judged one by one
  have hchars : ∀ name ∈ branches, ∀ c ∈ name.toList,
      Text.isWordChar c = true ∨ Text.isBlank c = true ∨ c = '-' := by
    intro name hname c hc
    have hall : branches.all (fun name => name.toList.all fun c =>
        Text.isWordChar c || Text.isBlank c || c == '-') = true := by decide +kernel
    have hone := List.all_eq_true.mp (List.all_eq_true.mp hall name hname) c hc
    rwa [Bool.or_eq_true, Bool.or_eq_true, beq_iff_eq, or_assoc] at hone
  have hlisted : ∀ name ∈ branches, IsListed name := by
    intro name hname
    have hone := hchars name hname
    rcases List.mem_cons.mp hname with rfl | hname
    · exact ⟨by decide, by decide, hone⟩
    · obtain rfl := List.mem_singleton.mp hname
      exact ⟨by decide, by decide, hone⟩
  obtain ⟨s, t, hs, ht, ⟨-, -, -, hsBranches⟩, ⟨htMain, -, -, htBranches⟩, -, hrender, -⟩ :=
    ofDeclaration?_table_compact [] (by decide : main ≠ "") (by decide) hmainChars
      (by decide : isSeparator '/' = true) (by decide : '\n' ∉ extra.toList)
      (by decide : branches ≠ []) hlisted
  exact ⟨by decide, by decide, hmainChars, by decide, by decide, by decide, hlisted, s, t, hs, ht,
    hsBranches, htBranches, htMain, hrender⟩

end Strategy

end TagVersion
