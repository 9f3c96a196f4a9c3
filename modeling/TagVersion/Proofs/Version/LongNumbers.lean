import TagVersion.Proofs.Strategy.NextVersions
import TagVersion.Proofs.Version.Descriptions

/-!
# Numbers of any length

A tag can spell numbers that are no words. A number that does not fit a word is taken for zero, and so
is one that runs into a digit of another script; a bump then starts from a lower version than the one
that the tag spells.

* **`Triplet.spelled`**: the numbers that a tag spells, without a bound.
* **`Triplet.IsWord`**: a number that is read as it is spelled.
* **`Triplet.component_takeWhile`**: what is read of one number.
* **`Triplet.number_ofChars`**: where the numbers of a triplet are read.
* **`Triplet.spelledRank_lt`**, **`Triplet.not_spelledRank_lt`**: which bumps lead up.
* **`VersionFacts.lt_bump_iff`**: they are those whose numbers are words.
-/

namespace TagVersion

/-- The component itself and the more significant ones. -/
def Component.upTo : Component → List Component
  | .major => [.major]
  | .minor => [.major, .minor]
  | .patch => [.major, .minor, .patch]

namespace Triplet

/-! ## What a tag spells -/

/-- What follows a leading point, if that is a digit; nothing otherwise. -/
def behindPoint : List Char → List Char
  | '.' :: rest => if rest.head?.any Char.isDigit then rest else []
  | _ => []

/-- The text of a tag from the numeral of a component on; nothing if the numeral is missing. -/
def spelledFrom (main : List Char) : Component → List Char
  | .major => main
  | .minor => behindPoint (main.dropWhile Char.isDigit)
  | .patch => behindPoint ((behindPoint (main.dropWhile Char.isDigit)).dropWhile Char.isDigit)

/-- The number that a text starts with, however long it is; zero if there is none. -/
def leadingNumber (cs : List Char) : ℕ :=
  Nat.ofDigitChars 10 (cs.takeWhile Char.isDigit) 0

/-- The numbers that a tag spells, those that are missing as zeros. -/
def spelled (main : List Char) (c : Component) : ℕ :=
  leadingNumber (spelledFrom main c)

/-- The numbers that a tag spells, in the order in which they count. -/
def spelledRank (main : List Char) : ℕ ×ₗ ℕ ×ₗ ℕ :=
  toLex (spelled main .major, toLex (spelled main .minor, spelled main .patch))

/-- The number that a text starts with fits a word and ends at a character that is no digit in any
script. Zero is read as such in any case. -/
def IsWord (cs : List Char) : Prop :=
  leadingNumber cs ≠ 0 → leadingNumber cs < UInt64.size ∧
    ∀ d ∈ (cs.dropWhile Char.isDigit).head?, Text.isDecimalDigit d = false

instance (cs : List Char) : Decidable (IsWord cs) :=
  inferInstanceAs (Decidable (leadingNumber cs ≠ 0 → _))

/-- Numbers of any length are spelled, and what is no numeral ends them. -/
example : [Component.major, .minor, .patch].map (spelled "007.18446744073709551616-rc.5".toList) =
    [7, 18446744073709551616, 0] := by decide

/-! ## What is read of one number -/

section

variable {cs : List Char} {c : Component}

theorem isWord_nil : IsWord [] := fun h => absurd rfl h

/-- The run of digits of any script starts with the ASCII ones. -/
theorem takeWhile_isDecimalDigit (cs : List Char) :
    cs.takeWhile Text.isDecimalDigit =
      cs.takeWhile Char.isDigit ++ (cs.dropWhile Char.isDigit).takeWhile Text.isDecimalDigit := by
  have hdigits : ∀ d ∈ cs.takeWhile Char.isDigit, Text.isDecimalDigit d = true :=
    fun d hd => Text.isDecimalDigit_of_isDigit (List.mem_takeWhile_imp hd)
  conv_lhs => rw [← List.takeWhile_append_dropWhile (p := Char.isDigit) (l := cs)]
  exact List.takeWhile_append_of_pos hdigits

theorem dropWhile_isDecimalDigit (cs : List Char) :
    cs.dropWhile Text.isDecimalDigit =
      (cs.dropWhile Char.isDigit).dropWhile Text.isDecimalDigit := by
  have hdigits : ∀ d ∈ cs.takeWhile Char.isDigit, Text.isDecimalDigit d = true :=
    fun d hd => Text.isDecimalDigit_of_isDigit (List.mem_takeWhile_imp hd)
  conv_lhs => rw [← List.takeWhile_append_dropWhile (p := Char.isDigit) (l := cs)]
  exact List.dropWhile_append_of_pos hdigits

theorem component_of_word? {digits : List Char} {w : UInt64} (h : Text.word? digits = some w) :
    component digits = w := by
  unfold component
  rw [h, Option.getD_some]

theorem component_eq_zero {digits : List Char} (h : ∀ w, Text.word? digits ≠ some w) :
    component digits = 0 := by
  unfold component
  rw [Option.eq_none_iff_forall_ne_some.mpr h, Option.getD_none]

/-- The digits of a number that is followed by no other digit. -/
theorem component_takeWhile_isDigit (cs : List Char) :
    (component (cs.takeWhile Char.isDigit)).toNat =
      if leadingNumber cs < UInt64.size then leadingNumber cs else 0 := by
  have hdigits : ∀ d ∈ cs.takeWhile Char.isDigit, d.isDigit = true :=
    fun d hd => List.mem_takeWhile_imp hd
  by_cases hne : cs.takeWhile Char.isDigit = []
  · have hnumber : leadingNumber cs = 0 := by
      unfold leadingNumber
      rw [hne]
      rfl
    rw [hne, hnumber]
    rfl
  · split
    · next hlt =>
      have hword : Text.word? (cs.takeWhile Char.isDigit) = some (UInt64.ofNat (leadingNumber cs)) :=
        Text.word?_eq_some_iff.mpr ⟨hne, hdigits, (UInt64.toNat_ofNat_of_lt' hlt).symm⟩
      rw [component_of_word? hword, UInt64.toNat_ofNat_of_lt' hlt]
    · next hle =>
      rw [component_eq_zero]
      · rfl
      · intro w hword
        have hw : leadingNumber cs = w.toNat := (Text.word?_eq_some_iff.mp hword).2.2
        exact hle (hw ▸ w.toNat_lt_size)

theorem isWord_iff_of_ends
    (hends : ∀ d ∈ (cs.dropWhile Char.isDigit).head?, Text.isDecimalDigit d = false) :
    IsWord cs ↔ leadingNumber cs < UInt64.size := by
  refine ⟨fun h => ?_, fun h _ => ⟨h, hends⟩⟩
  by_cases hzero : leadingNumber cs = 0
  · rw [hzero]
    decide
  · exact (h hzero).1

/-- A digit of another script is part of the run, and has no value. -/
theorem component_of_foreign {d : Char} (hd : (cs.dropWhile Char.isDigit).head? = some d)
    (hdecimal : Text.isDecimalDigit d = true) :
    component (cs.takeWhile Text.isDecimalDigit) = 0 := by
  obtain ⟨rest, hrest⟩ := List.head?_eq_some_iff.mp hd
  have hforeign : ¬ d.isDigit = true := by
    have hhead := List.head?_dropWhile_not Char.isDigit cs
    rw [hrest] at hhead
    simpa using hhead
  have hmem : d ∈ cs.takeWhile Text.isDecimalDigit := by
    rw [takeWhile_isDecimalDigit, hrest]
    simp [hdecimal]
  apply component_eq_zero
  intro w hword
  exact hforeign ((Text.word?_eq_some_iff.mp hword).2.1 d hmem)

/-- **One number** is read as it is spelled if it is a word, and is taken for zero if not. -/
theorem component_takeWhile (cs : List Char) :
    (component (cs.takeWhile Text.isDecimalDigit)).toNat =
      if IsWord cs then leadingNumber cs else 0 := by
  by_cases hends : ∀ d ∈ (cs.dropWhile Char.isDigit).head?, Text.isDecimalDigit d = false
  · have hrun : cs.takeWhile Text.isDecimalDigit = cs.takeWhile Char.isDigit := by
      rw [takeWhile_isDecimalDigit]
      cases hrest : cs.dropWhile Char.isDigit with
      | nil => simp
      | cons d rest =>
        rw [hrest] at hends
        simp [hends d rfl]
    rw [hrun, component_takeWhile_isDigit]
    simp only [isWord_iff_of_ends hends]
  · push Not at hends
    obtain ⟨d, hd, hdecimal⟩ := hends
    rw [component_of_foreign hd (by simpa using hdecimal)]
    symm
    -- such a number is no word, unless it is zero
    split
    · next h =>
      by_contra hzero
      exact hdecimal ((h hzero).2 d hd)
    · rfl

/-! ## Where the numbers are read -/

theorem exists_of_behindPoint_ne_nil {r : List Char} (h : behindPoint r ≠ []) :
    ∃ d rest, r = '.' :: d :: rest ∧ d.isDigit = true ∧ behindPoint r = d :: rest := by
  unfold behindPoint at h
  split at h
  · next rest =>
    split at h
    · next hdigit =>
      obtain ⟨d, hd, hisDigit⟩ := (Option.any_eq_true ..).mp hdigit
      obtain ⟨rest, rfl⟩ := List.head?_eq_some_iff.mp hd
      exact ⟨d, rest, rfl, hisDigit, if_pos hdigit⟩
    · exact absurd rfl h
  · exact absurd rfl h

/-- A number behind a point is cut at the point, since a point is no digit in any script. -/
theorem pointNumeral_dropWhile (h : behindPoint (cs.dropWhile Char.isDigit) ≠ []) :
    pointNumeral (cs.dropWhile Text.isDecimalDigit) =
      ((behindPoint (cs.dropWhile Char.isDigit)).takeWhile Text.isDecimalDigit,
        (behindPoint (cs.dropWhile Char.isDigit)).dropWhile Text.isDecimalDigit) := by
  obtain ⟨d, rest, hdrop, hdigit, hbehind⟩ := exists_of_behindPoint_ne_nil h
  have hpoint : ¬ Text.isDecimalDigit '.' = true := by decide
  have hdecimal := Text.isDecimalDigit_of_isDigit hdigit
  have hspan : (d :: rest).span Text.isDecimalDigit =
      (d :: rest.takeWhile Text.isDecimalDigit, rest.dropWhile Text.isDecimalDigit) := by
    rw [List.span_eq_takeWhile_dropWhile, List.takeWhile_cons_of_pos hdecimal,
      List.dropWhile_cons_of_pos hdecimal]
  rw [dropWhile_isDecimalDigit, hbehind, hdrop, List.dropWhile_cons_of_neg hpoint]
  simp only [pointNumeral, hspan, List.takeWhile_cons_of_pos hdecimal,
    List.dropWhile_cons_of_pos hdecimal]

theorem ofChars_eq {main : List Char} (h : main.head?.any Char.isDigit = true) :
    ofChars main =
      let minor := pointNumeral (main.dropWhile Text.isDecimalDigit)
      ⟨component (main.takeWhile Text.isDecimalDigit), component minor.1,
        component (pointNumeral minor.2).1⟩ := by
  obtain ⟨d, hd, hdigit⟩ := (Option.any_eq_true ..).mp h
  obtain ⟨rest, rfl⟩ := List.head?_eq_some_iff.mp hd
  have hdecimal := Text.isDecimalDigit_of_isDigit hdigit
  unfold ofChars
  rw [List.span_eq_takeWhile_dropWhile, List.takeWhile_cons_of_pos hdecimal]

theorem spelledFrom_minor_ne_nil {main : List Char} (h : spelledFrom main .patch ≠ []) :
    spelledFrom main .minor ≠ [] := by
  intro hminor
  apply h
  show behindPoint ((spelledFrom main .minor).dropWhile Char.isDigit) = []
  rw [hminor]
  rfl

/-- **Each number** of a triplet is read where the tag spells it. -/
theorem number_ofChars {main : List Char} (hmain : main.head?.any Char.isDigit = true)
    (h : spelledFrom main c ≠ []) :
    (ofChars main).number c = component ((spelledFrom main c).takeWhile Text.isDecimalDigit) := by
  have hminor (h : spelledFrom main .minor ≠ []) :
      pointNumeral (main.dropWhile Text.isDecimalDigit) =
        ((spelledFrom main .minor).takeWhile Text.isDecimalDigit,
          (spelledFrom main .minor).dropWhile Text.isDecimalDigit) :=
    pointNumeral_dropWhile h
  have hpatch (h : spelledFrom main .patch ≠ []) :
      pointNumeral ((spelledFrom main .minor).dropWhile Text.isDecimalDigit) =
        ((spelledFrom main .patch).takeWhile Text.isDecimalDigit,
          (spelledFrom main .patch).dropWhile Text.isDecimalDigit) :=
    pointNumeral_dropWhile h
  rw [ofChars_eq hmain]
  cases c with
  | major => rfl
  | minor =>
    show component (pointNumeral _).1 = _
    rw [hminor h]
  | patch =>
    show component (pointNumeral (pointNumeral _).2).1 = _
    rw [hminor (spelledFrom_minor_ne_nil h), hpatch h]

/-- The value of each number that the tag spells. -/
theorem toNat_number_ofChars {main : List Char} (hmain : main.head?.any Char.isDigit = true)
    (h : spelledFrom main c ≠ []) :
    ((ofChars main).number c).toNat =
      if IsWord (spelledFrom main c) then spelled main c else 0 := by
  rw [number_ofChars hmain h, component_takeWhile]
  rfl

/-- A number that is a word is read as it is; one that is missing may be read further behind. -/
theorem spelled_le_number {main : List Char} (hmain : main.head?.any Char.isDigit = true)
    (h : IsWord (spelledFrom main c)) : spelled main c ≤ ((ofChars main).number c).toNat := by
  by_cases hne : spelledFrom main c = []
  · have hzero : spelled main c = 0 := by
      unfold spelled
      rw [hne]
      rfl
    rw [hzero]
    exact Nat.zero_le _
  · rw [toNat_number_ofChars hmain hne, if_pos h]

/-- A number that is no word is lost. -/
theorem number_eq_zero_of_not_isWord {main : List Char}
    (hmain : main.head?.any Char.isDigit = true) (h : ¬ IsWord (spelledFrom main c)) :
    ((ofChars main).number c).toNat = 0 ∧ 0 < spelled main c := by
  have hne : spelledFrom main c ≠ [] := by
    intro hnil
    rw [hnil] at h
    exact h isWord_nil
  refine ⟨?_, ?_⟩
  · rw [toNat_number_ofChars hmain hne, if_neg h]
  · have hspelled := (Classical.not_imp.mp h).1
    exact Nat.pos_of_ne_zero hspelled

/-- No number is read as more than the tag spells, if the tag spells it at all. -/
theorem number_le_spelled {main : List Char} (hmain : main.head?.any Char.isDigit = true)
    (h : spelledFrom main c ≠ []) : ((ofChars main).number c).toNat ≤ spelled main c := by
  rw [toNat_number_ofChars hmain h]
  split
  · exact le_rfl
  · exact Nat.zero_le _

end

/-! ## Bumps -/

section

variable {main : List Char} {c d : Component} {next : Triplet}

theorem spelledRank_lt_iff :
    spelledRank main < next.rank ↔
      spelled main .major < next.major.toNat ∨
        spelled main .major = next.major.toNat ∧ (spelled main .minor < next.minor.toNat ∨
          spelled main .minor = next.minor.toNat ∧ spelled main .patch < next.patch.toNat) := by
  unfold spelledRank rank
  rw [Prod.Lex.toLex_lt_toLex, Prod.Lex.toLex_lt_toLex]

/-- **A bump leads up** from what the tag spells, if no number that counts for it is lost. -/
theorem spelledRank_lt (hmain : main.head?.any Char.isDigit = true)
    (hnext : (ofChars main).IsNext next c) (hword : ∀ d ∈ c.upTo, IsWord (spelledFrom main d)) :
    spelledRank main < next.rank := by
  have hle : ∀ d ∈ c.upTo, spelled main d ≤ ((ofChars main).number d).toNat :=
    fun d hd => spelled_le_number hmain (hword d hd)
  rw [spelledRank_lt_iff]
  cases c with
  | major =>
    have hmajor : _ ≤ (ofChars main).major.toNat := hle .major (by decide)
    obtain ⟨hnumber, -, -⟩ := hnext
    omega
  | minor =>
    have hmajor : _ ≤ (ofChars main).major.toNat := hle .major (by decide)
    have hminor : _ ≤ (ofChars main).minor.toNat := hle .minor (by decide)
    obtain ⟨hsame, hnumber, -⟩ := hnext
    rw [hsame]
    omega
  | patch =>
    have hmajor : _ ≤ (ofChars main).major.toNat := hle .major (by decide)
    have hminor : _ ≤ (ofChars main).minor.toNat := hle .minor (by decide)
    have hpatch : _ ≤ (ofChars main).patch.toNat := hle .patch (by decide)
    obtain ⟨hsame, hsame', hnumber⟩ := hnext
    rw [hsame, hsame']
    omega

/-- **A bump does not lead up** if one of these numbers is lost, since it starts from zero there. -/
theorem not_spelledRank_lt (hmain : main.head?.any Char.isDigit = true)
    (hnext : (ofChars main).IsNext next c) (hd : d ∈ c.upTo) (h : ¬ IsWord (spelledFrom main d)) :
    ¬ spelledRank main < next.rank := by
  have hne : spelledFrom main d ≠ [] := by
    intro hnil
    rw [hnil] at h
    exact h isWord_nil
  have hmajor : (ofChars main).major.toNat ≤ spelled main .major := by
    have hpresent : spelledFrom main .major ≠ [] := by
      rintro (rfl : main = [])
      exact absurd hmain (by decide)
    exact number_le_spelled hmain hpresent
  obtain ⟨hzero, hpos⟩ := number_eq_zero_of_not_isWord hmain h
  rw [spelledRank_lt_iff]
  cases d with
  | major =>
    replace hzero : (ofChars main).major.toNat = 0 := hzero
    cases c with
    | major =>
      obtain ⟨hnumber, hminor, hpatch⟩ := hnext
      rw [hminor, hpatch, UInt64.toNat_zero]
      omega
    | minor =>
      rw [hnext.1]
      omega
    | patch =>
      rw [hnext.1]
      omega
  | minor =>
    replace hzero : (ofChars main).minor.toNat = 0 := hzero
    cases c with
    | major => exact absurd hd (by decide)
    | minor =>
      obtain ⟨hsame, hnumber, hpatch⟩ := hnext
      rw [hsame, hpatch, UInt64.toNat_zero]
      omega
    | patch =>
      obtain ⟨hsame, hsame', -⟩ := hnext
      rw [hsame, hsame']
      omega
  | patch =>
    replace hzero : (ofChars main).patch.toNat = 0 := hzero
    -- the number in front of it is not missing
    have hminor : (ofChars main).minor.toNat ≤ spelled main .minor :=
      number_le_spelled hmain (spelledFrom_minor_ne_nil hne)
    cases c with
    | major => exact absurd hd (by decide)
    | minor => exact absurd hd (by decide)
    | patch =>
      obtain ⟨hsame, hsame', hnumber⟩ := hnext
      rw [hsame, hsame']
      omega

end

end Triplet

namespace VersionFacts

/-- **Up from the tag**: a bump is refused at the greatest word, and leads up from the numbers that
the tag spells if and only if the one that is bumped, and those before it, are words. -/
theorem lt_bump_iff (tag : List Char) (distance : UInt64) (commitId : Option String) (dirty : Bool)
    (c : Component) (htag : (mainOfTag tag).head?.any Char.isDigit = true) :
    let main := mainOfTag tag
    let t := (ofTag tag distance commitId dirty).triplet
    t.bump c = .error (.versionOverflow c.name t.text) ∧ (t.number c).toNat + 1 = UInt64.size ∨
      ∃ next, t.bump c = .ok next ∧
        (Triplet.spelledRank main < next.rank ↔
          ∀ d ∈ c.upTo, Triplet.IsWord (Triplet.spelledFrom main d)) := by
  intro main t
  unfold Triplet.bump
  cases hbump : t.bump? c with
  | none => exact .inl ⟨rfl, Triplet.bump?_eq_none_iff.mp hbump⟩
  | some next =>
    have hnext : (Triplet.ofChars main).IsNext next c := Triplet.bump?_eq_some_iff.mp hbump
    refine .inr ⟨next, rfl, fun hlt d hd => ?_, Triplet.spelledRank_lt htag hnext⟩
    by_contra hword
    exact Triplet.not_spelledRank_lt htag hnext hd hword hlt

/-- A minor number that does not fit a word, and the lower one that its bump leads to. -/
theorem lt_bump_iff_long :
    let tag := "v1.18446744073709551616.0".toList
    (mainOfTag tag).head?.any Char.isDigit = true ∧
      (ofTag tag 0 none false).triplet.bump .minor = .ok ⟨1, 1, 0⟩ ∧
      Triplet.spelledRank (mainOfTag tag) = toLex (1, toLex (18446744073709551616, 0)) ∧
      ¬ Triplet.spelledRank (mainOfTag tag) < (⟨1, 1, 0⟩ : Triplet).rank := by
  intro tag
  have htag : (mainOfTag tag).head?.any Char.isDigit = true := by decide
  have hbump : (ofTag tag 0 none false).triplet.bump .minor = .ok ⟨1, 1, 0⟩ := by decide
  have hlong : Triplet.spelled (mainOfTag tag) .minor = 18446744073709551616 := by decide
  have hlost : ¬ Triplet.IsWord (Triplet.spelledFrom (mainOfTag tag) .minor) := by
    intro hword
    have hne : Triplet.spelled (mainOfTag tag) .minor ≠ 0 := by
      rw [hlong]
      decide
    have hlt : Triplet.spelled (mainOfTag tag) .minor < UInt64.size := (hword hne).1
    rw [hlong] at hlt
    exact absurd hlt (by decide)
  refine ⟨htag, hbump, by decide, ?_⟩
  rcases lt_bump_iff tag 0 none false .minor htag with ⟨hrefused, -⟩ | ⟨next, hnext, hiff⟩
  · exact absurd (hbump.symm.trans hrefused) nofun
  · obtain rfl := Except.ok.inj (hbump.symm.trans hnext)
    exact fun hlt => hlost (hiff.mp hlt .minor (by decide))

end VersionFacts

end TagVersion
