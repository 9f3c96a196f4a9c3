import Mathlib
import TagVersion.Version.Facts

/-!
# Triplets in order

Triplets are compared by their most significant numbers first. A bump leads to a greater triplet, and
a triplet that is written down is read back, with version letters before it or without.

* **`Triplet.lt_iff`**: the order of triplets.
* **`Triplet.lt_of_bump?_eq_some`**: a bump goes up.
* **`Triplet.ofChars_chars`**: a written triplet is read back.
* **`VersionFacts.triplet_ofTag`**: also off a tag.
-/

namespace TagVersion

namespace Triplet

variable {t u next : Triplet} {c : Component}

/-! ## The order -/

/-- The numbers of a triplet, in the order in which they count. -/
def rank (t : Triplet) : ℕ ×ₗ ℕ ×ₗ ℕ :=
  toLex (t.major.toNat, toLex (t.minor.toNat, t.patch.toNat))

instance : LT Triplet := ⟨fun t u => t.rank < u.rank⟩

theorem lt_iff :
    t < u ↔ t.major < u.major ∨
      t.major = u.major ∧ (t.minor < u.minor ∨ t.minor = u.minor ∧ t.patch < u.patch) := by
  show t.rank < u.rank ↔ _
  unfold rank
  rw [Prod.Lex.toLex_lt_toLex, Prod.Lex.toLex_lt_toLex]
  simp only [UInt64.lt_iff_toNat_lt, UInt64.toNat_inj]

instance : IsTrans Triplet (· < ·) where
  trans t u v h h' := by
    have htu : t.rank < u.rank := h
    have huv : u.rank < v.rank := h'
    exact htu.trans huv

theorem ne_of_lt (h : t < u) : t ≠ u := by
  rintro rfl
  exact lt_irrefl t.rank h

theorem lt_of_successor?_eq_some {w w' : UInt64} (h : successor? w = some w') : w < w' := by
  unfold successor? at h
  split at h
  · next hlt =>
    obtain rfl := Option.some.inj h
    have hadd : (w + 1).toNat = w.toNat + 1 := by
      rw [UInt64.toNat_add]
      exact Nat.mod_eq_of_lt hlt
    rw [UInt64.lt_iff_toNat_lt, hadd]
    exact Nat.lt_succ_self _
  · exact absurd h nofun

/-- **A bump** goes up, whatever it clears. -/
theorem lt_of_bump?_eq_some (h : t.bump? c = some next) : t < next := by
  rw [lt_iff]
  cases c with
  | major =>
    obtain ⟨w, hw, rfl⟩ := Option.map_eq_some_iff.mp h
    exact .inl (lt_of_successor?_eq_some hw)
  | minor =>
    obtain ⟨w, hw, rfl⟩ := Option.map_eq_some_iff.mp h
    exact .inr ⟨rfl, .inl (lt_of_successor?_eq_some hw)⟩
  | patch =>
    obtain ⟨w, hw, rfl⟩ := Option.map_eq_some_iff.mp h
    exact .inr ⟨rfl, .inr ⟨rfl, lt_of_successor?_eq_some hw⟩⟩

/-- A bump of another component clears the patch number. -/
theorem patch_of_bump?_eq_some (h : t.bump? c = some next) (hc : c ≠ .patch) : next.patch = 0 := by
  cases c with
  | major =>
    obtain ⟨w, -, rfl⟩ := Option.map_eq_some_iff.mp h
    rfl
  | minor =>
    obtain ⟨w, -, rfl⟩ := Option.map_eq_some_iff.mp h
    rfl
  | patch => exact absurd rfl hc

/-! ## Reading what was written -/

theorem isDecimalDigit_of_mem_numeral {w : UInt64} {d : Char} (h : d ∈ Text.numeral w) :
    Text.isDecimalDigit d = true :=
  Text.isDecimalDigit_of_isDigit (Nat.isDigit_of_mem_toDigits (by decide) (by decide) h)

/-- A numeral is the run of digits at the front of a text, up to a character that is none. -/
theorem span_numeral (w : UInt64) {rest : List Char}
    (h : ∀ d ∈ rest.head?, Text.isDecimalDigit d = false) :
    (Text.numeral w ++ rest).span Text.isDecimalDigit = (Text.numeral w, rest) := by
  have hdigits : ∀ d ∈ Text.numeral w, Text.isDecimalDigit d = true :=
    fun d hd => isDecimalDigit_of_mem_numeral hd
  rw [List.span_eq_takeWhile_dropWhile, List.takeWhile_append_of_pos hdigits,
    List.dropWhile_append_of_pos hdigits]
  cases rest with
  | nil => rw [List.takeWhile_nil, List.append_nil, List.dropWhile_nil]
  | cons d rest =>
    have hd : ¬ Text.isDecimalDigit d = true := by simp [h d rfl]
    rw [List.takeWhile_cons_of_neg hd, List.append_nil, List.dropWhile_cons_of_neg hd]

theorem numeral_ne_nil (w : UInt64) : Text.numeral w ≠ [] := Nat.toDigits_ne_nil

theorem pointNumeral_numeral (w : UInt64) {rest : List Char}
    (h : ∀ d ∈ rest.head?, Text.isDecimalDigit d = false) :
    pointNumeral ('.' :: (Text.numeral w ++ rest)) = (Text.numeral w, rest) := by
  obtain ⟨d, ds, hw⟩ := List.exists_cons_of_ne_nil (numeral_ne_nil w)
  have hspan := span_numeral w h
  unfold pointNumeral
  simp only [hspan]
  rw [hw]

theorem component_numeral (w : UInt64) : component (Text.numeral w) = w := by
  unfold component
  rw [Text.word?_numeral, Option.getD_some]

/-- **A triplet** is read back from its dotted form. -/
theorem ofChars_chars (t : Triplet) : ofChars t.chars = t := by
  have hpoint : Text.isDecimalDigit '.' = false := by decide
  have hmajor := @span_numeral t.major
    ('.' :: (Text.numeral t.minor ++ '.' :: Text.numeral t.patch)) (by simp [hpoint])
  have hminor := @pointNumeral_numeral t.minor ('.' :: Text.numeral t.patch) (by simp [hpoint])
  have hpatch := @pointNumeral_numeral t.patch [] (by simp)
  rw [List.append_nil] at hpatch
  obtain ⟨d, ds, hw⟩ := List.exists_cons_of_ne_nil (numeral_ne_nil t.major)
  have hchars : t.chars =
      Text.numeral t.major ++ '.' :: (Text.numeral t.minor ++ '.' :: Text.numeral t.patch) := by
    unfold chars
    simp
  unfold ofChars
  rw [hchars, hmajor, hw]
  simp only [hminor, hpatch, component_numeral]
  rw [← hw, component_numeral]

theorem chars_injective : Function.Injective chars :=
  Function.LeftInverse.injective ofChars_chars

theorem text_injective : Function.Injective text := by
  intro t u h
  exact chars_injective (String.ofList_injective h)

/-- A triplet does not start with a version letter. -/
theorem mainOfTag_chars (t : Triplet) : VersionFacts.mainOfTag t.chars = t.chars := by
  obtain ⟨d, ds, hw⟩ := List.exists_cons_of_ne_nil (numeral_ne_nil t.major)
  have hdigit : d.isDigit = true :=
    Nat.isDigit_of_mem_toDigits (by decide) (by decide) (hw ▸ List.mem_cons_self)
  have hletter : ¬ VersionFacts.isVersionLetter d = true := by
    unfold VersionFacts.isVersionLetter
    intro h
    rcases (by simpa using h : d = 'v' ∨ d = 'V') with rfl | rfl
    · exact absurd hdigit (by decide)
    · exact absurd hdigit (by decide)
  unfold VersionFacts.mainOfTag chars
  rw [hw]
  exact List.dropWhile_cons_of_neg hletter

end Triplet

namespace VersionFacts

/-- A version letter before a tag does not count. -/
theorem mainOfTag_cons (tag : List Char) : mainOfTag ('v' :: tag) = mainOfTag tag :=
  List.dropWhile_cons_of_pos rfl

/-- **The triplet of a tag** is the one that it spells after its version letter. -/
theorem triplet_ofTag (t : Triplet) (distance : UInt64) (commitId : Option String) (dirty : Bool) :
    (ofTag ('v' :: t.chars) distance commitId dirty).triplet = t := by
  show Triplet.ofChars (mainOfTag ('v' :: t.chars)) = t
  rw [mainOfTag_cons, t.mainOfTag_chars, t.ofChars_chars]

theorem triplet_ofTriplet (t : Triplet) : (ofTriplet t).triplet = t := by
  show Triplet.ofChars (mainOfTag t.chars) = t
  rw [t.mainOfTag_chars, t.ofChars_chars]

end VersionFacts

end TagVersion
