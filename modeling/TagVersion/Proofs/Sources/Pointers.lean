import Mathlib.Data.List.TakeDrop
import TagVersion.Proofs.Sources.Rewriting
import TagVersion.Proofs.Version.Descriptions

/-!
# Sources that point to a line

A source is a line of a file if it is written as a path, a colon and the number of the line. The path
may hold colons of its own, so the number is what follows the last one; blanks may stand around it,
a plus sign and zeros before it. Any other source is a word for where a value came from, and leads
to no file.

* **`Text.trim_append_blanks`**: what a text between blanks is trimmed to.
* **`SourceEntry.WritesNumber`**, **`SourceEntry.PointsTo`**: how a source has to be written.
* **`SourceEntry.filePointer?_eq_some`**: the line that a source points to.
* **`SourceEntry.pointsTo_written`**: a path and a number make such a source.
* **`Sources.updateLines_filter`**: sources that are not written so are passed over.
* **`SourceEntry.filePointer?_eq_some_iff_pointsTo`**: all of it.
-/

namespace TagVersion

namespace Text

/-! ## Numbers between blanks -/

/-- A text between blanks is what they are trimmed to, if it has no blank at its own ends. -/
theorem trim_append_blanks {before body after : List Char}
    (hbefore : ∀ c ∈ before, isBlank c = true) (hafter : ∀ c ∈ after, isBlank c = true)
    (hhead : ∀ c ∈ body.head?, isBlank c = false)
    (hlast : ∀ c ∈ body.getLast?, isBlank c = false) :
    trim (before ++ body ++ after) = body := by
  have hfront : (before ++ body ++ after).dropWhile isBlank = (body ++ after).dropWhile isBlank := by
    rw [List.append_assoc]
    exact List.dropWhile_append_of_pos hbefore
  have hend : (body ++ after).rdropWhile isBlank = body.rdropWhile isBlank := by
    have hreverse : ∀ c ∈ after.reverse, isBlank c = true := by simpa using hafter
    unfold List.rdropWhile
    rw [List.reverse_append, List.dropWhile_append_of_pos hreverse]
  unfold trim
  rw [hfront, dropEndWhile_eq_rdropWhile]
  cases body with
  | nil =>
    have hnil : after.dropWhile isBlank = [] := List.dropWhile_eq_nil_iff.mpr hafter
    rw [List.nil_append, hnil, List.rdropWhile_nil]
  | cons c body =>
    have hc : ¬ isBlank c = true := Bool.eq_false_iff.mp (hhead c rfl)
    rw [List.cons_append, List.dropWhile_cons_of_neg hc, ← List.cons_append, hend]
    have htrim := trim_of_ends hhead hlast
    unfold trim at htrim
    rwa [List.dropWhile_cons_of_neg hc, dropEndWhile_eq_rdropWhile] at htrim

/-- A word is read off its digits, with a plus sign before them or without. -/
theorem signedWord?_eq_some_iff {cs : List Char} {w : UInt64} :
    signedWord? cs = some w ↔
      ∃ sign digits, cs = sign ++ digits ∧ (sign = [] ∨ sign = ['+']) ∧ word? digits = some w := by
  constructor
  · intro h
    unfold signedWord? at h
    split at h
    · next digits => exact ⟨['+'], digits, rfl, .inr rfl, h⟩
    · exact ⟨[], cs, rfl, .inl rfl, h⟩
  · rintro ⟨sign, digits, rfl, rfl | rfl, hword⟩
    · -- a plus sign is no digit, so the digits are not taken for a sign and its digits
      obtain ⟨-, hdigits, -⟩ := word?_eq_some_iff.mp hword
      rw [List.nil_append]
      unfold signedWord?
      split
      · next rest => exact absurd (hdigits '+' List.mem_cons_self) (by decide)
      · exact hword
    · exact hword

theorem isBlank_of_isDigit {c : Char} (h : c.isDigit = true) : isBlank c = false := by
  apply Description.isBlank_of_isHexDigit
  unfold Description.isHexDigit
  rw [h]
  rfl

end Text

namespace SourceEntry

/-! ## How a line is pointed to -/

/-- A number as it may be written: digits of that value, a plus sign before them if at all, and blanks
around. -/
def WritesNumber (cs : List Char) (n : Nat) : Prop :=
  ∃ before sign digits after, cs = before ++ (sign ++ digits) ++ after ∧
    (∀ c ∈ before, Text.isBlank c = true) ∧ (∀ c ∈ after, Text.isBlank c = true) ∧
    (sign = [] ∨ sign = ['+']) ∧ digits ≠ [] ∧ (∀ c ∈ digits, c.isDigit = true) ∧
    Nat.ofDigitChars 10 digits 0 = n

/-- A source that is written as a path, a colon, and the number of a line in what follows. Lines are
counted from one, in 64 bits. -/
structure PointsTo (source path : String) (n : Nat) : Prop where
  path_ne_empty : path ≠ ""
  written : ∃ rest, source.toList = path.toList ++ ':' :: rest ∧ ':' ∉ rest ∧ WritesNumber rest n
  pos : 1 ≤ n
  lt : n < 2 ^ 64

/-- A source that points to some line of some file. -/
def IsPointer (source : String) : Prop :=
  ∃ path n, PointsTo source path n

/-- **What is read** between blanks as the number of a line. -/
theorem signedWord?_trim_eq_some_iff {cs : List Char} {w : UInt64} :
    Text.signedWord? (Text.trim cs) = some w ↔ WritesNumber cs w.toNat := by
  rw [Text.signedWord?_eq_some_iff]
  constructor
  · rintro ⟨sign, digits, htrim, hsign, hword⟩
    obtain ⟨hne, hdigits, hvalue⟩ := Text.word?_eq_some_iff.mp hword
    obtain ⟨before, after, hcs, hbefore, hafter⟩ := Text.exists_blanks_around_trim cs
    rw [htrim] at hcs
    exact ⟨before, sign, digits, after, hcs, hbefore, hafter, hsign, hne, hdigits, hvalue⟩
  · rintro ⟨before, sign, digits, after, rfl, hbefore, hafter, hsign, hne, hdigits, hvalue⟩
    have hhead : ∀ c ∈ (sign ++ digits).head?, Text.isBlank c = false := by
      rcases hsign with rfl | rfl
      · intro c hc
        exact Text.isBlank_of_isDigit (hdigits c (List.mem_of_mem_head? hc))
      · intro c hc
        obtain rfl : '+' = c := by simpa using hc
        decide
    have hlast : ∀ c ∈ (sign ++ digits).getLast?, Text.isBlank c = false := by
      intro c hc
      rw [List.getLast?_append_of_ne_nil sign hne] at hc
      exact Text.isBlank_of_isDigit (hdigits c (List.mem_of_mem_getLast? hc))
    have htrim := Text.trim_append_blanks hbefore hafter hhead hlast
    exact ⟨sign, digits, htrim, hsign, Text.word?_eq_some_iff.mpr ⟨hne, hdigits, hvalue⟩⟩

variable {e : SourceEntry} {path : String} {line : UInt64} {n : Nat}

/-- **The line that a source points to** is the one that it is written with. -/
theorem filePointer?_eq_some :
    e.filePointer? = some (path, line) ↔ PointsTo e.source path line.toNat := by
  have hpos : line ≠ 0 ↔ 1 ≤ line.toNat := by
    rw [Ne, ← UInt64.toNat_inj]
    show ¬ line.toNat = 0 ↔ _
    omega
  constructor
  · intro h
    unfold filePointer? at h
    obtain ⟨⟨before, after⟩, hcut, h⟩ := Option.bind_eq_some_iff.mp h
    obtain ⟨number, hnumber, h⟩ := Option.bind_eq_some_iff.mp h
    obtain ⟨hsource, hcolon⟩ := Text.cutLast_eq_some_iff.mp hcut
    split at h
    · exact absurd h nofun
    · next hnot =>
      obtain ⟨rfl, rfl⟩ := Prod.mk.inj (Option.some.inj h)
      have hne : before ≠ [] := fun hnil => hnot (.inl hnil)
      refine ⟨?_, ⟨after, ?_, hcolon, signedWord?_trim_eq_some_iff.mp hnumber⟩, ?_, ?_⟩
      · intro hempty
        exact hne (String.ofList_eq_empty_iff.mp hempty)
      · rw [String.toList_ofList]
        exact hsource
      · exact hpos.mp fun hzero => hnot (.inr hzero)
      · exact number.toNat_lt_size
  · rintro ⟨hpath, ⟨rest, hsource, hcolon, hnumber⟩, hone, -⟩
    have hcut : Text.cutLast ':' e.source.toList = some (path.toList, rest) :=
      Text.cutLast_eq_some_iff.mpr ⟨hsource, hcolon⟩
    have hword : Text.signedWord? (Text.trim rest) = some line :=
      signedWord?_trim_eq_some_iff.mpr hnumber
    have hnot : ¬ (path.toList = [] ∨ line = 0) := by
      rintro (hnil | hzero)
      · exact hpath (String.toList_eq_nil_iff.mp hnil)
      · exact hpos.mpr hone hzero
    unfold filePointer?
    rw [hcut, Option.bind_eq_bind, Option.bind_some]
    show (Text.signedWord? (Text.trim rest)).bind _ = _
    rw [hword, Option.bind_some, if_neg hnot, String.ofList_toList]

theorem isSome_filePointer?_iff : e.filePointer?.isSome = true ↔ IsPointer e.source := by
  rw [Option.isSome_iff_exists]
  constructor
  · rintro ⟨⟨path, line⟩, h⟩
    exact ⟨path, line.toNat, filePointer?_eq_some.mp h⟩
  · rintro ⟨path, n, h⟩
    have hline : (UInt64.ofNat n).toNat = n := UInt64.toNat_ofNat_of_lt' h.lt
    rw [← hline] at h
    exact ⟨(path, UInt64.ofNat n), filePointer?_eq_some.mpr h⟩

instance (source : String) : Decidable (IsPointer source) :=
  decidable_of_iff _ (isSome_filePointer?_iff (e := ⟨source, ""⟩))

/-- **A path and a number make a source** that points there, also if the path has colons. -/
theorem pointsTo_written (hpath : path ≠ "") (hpos : 1 ≤ n) (hlt : n < 2 ^ 64) :
    PointsTo (path ++ ":" ++ toString n) path n := by
  have hdigits : ∀ c ∈ Nat.toDigits 10 n, c.isDigit = true := fun c hc =>
    Nat.isDigit_of_mem_toDigits (by decide) (by decide) hc
  have hvalue : Nat.ofDigitChars 10 (Nat.toDigits 10 n) 0 = n :=
    Nat.ofDigitChars_toDigits (by decide) (by decide)
  refine ⟨hpath, ⟨Nat.toDigits 10 n, ?_, ?_, ?_⟩, hpos, hlt⟩
  · simp
  · intro hcolon
    exact absurd (hdigits ':' hcolon) (by decide)
  · exact ⟨[], [], Nat.toDigits 10 n, [], by simp, nofun, nofun, .inl rfl, Nat.toDigits_ne_nil,
      hdigits, hvalue⟩

/-- The line before the one that is pointed to has a number too: nothing is taken from zero. -/
theorem toNat_sub_one (h : e.filePointer? = some (path, line)) :
    (line - 1).toNat + 1 = line.toNat := by
  have hpos : 1 ≤ line.toNat := (filePointer?_eq_some.mp h).pos
  have hle : (1 : UInt64) ≤ line := UInt64.le_iff_toNat_le.mpr hpos
  rw [UInt64.toNat_sub_of_le line 1 hle]
  show line.toNat - 1 + 1 = line.toNat
  omega

end SourceEntry

namespace Sources

variable {σ : Type}

/-- **Sources that point to no line** are passed over: the others are rewritten as if they were all
that there are. -/
theorem updateLines_filter (root version : String) (commit : Bool) (entries : List SourceEntry)
    (done : SourceUpdate) :
    (updateLines root version commit entries done : Action σ SourceUpdate) =
      updateLines root version commit
        (entries.filter fun e => SourceEntry.IsPointer e.source) done := by
  induction entries generalizing done with
  | nil => rfl
  | cons e rest ih =>
    by_cases he : SourceEntry.IsPointer e.source
    · -- both runs rewrite this line, and go on alike from what that leaves
      obtain ⟨⟨path, line⟩, hpointer⟩ :=
        Option.isSome_iff_exists.mp (SourceEntry.isSome_filePointer?_iff.mpr he)
      rw [List.filter_cons_of_pos (by simpa using he)]
      unfold updateLines
      rw [hpointer]
      simp only [ih]
    · have hpointer : e.filePointer? = none := by
        rw [← Option.not_isSome_iff_eq_none, SourceEntry.isSome_filePointer?_iff]
        exact he
      rw [List.filter_cons_of_neg (by simpa using he), ← ih]
      conv_lhs => unfold updateLines
      rw [hpointer]

end Sources

namespace SourceEntry

/-- **A source points to a line** if and only if it is written as a path, a colon and the number of
the line, and every path and number can be written so. A line that is pointed to has a number from
which one can be taken, and sources that point to no line do not count when the sources are
rewritten. -/
theorem filePointer?_eq_some_iff_pointsTo (e : SourceEntry) :
    (∀ path line, e.filePointer? = some (path, line) ↔ PointsTo e.source path line.toNat) ∧
      (∀ path n, path ≠ "" → 1 ≤ n → n < 2 ^ 64 →
        (SourceEntry.mk (path ++ ":" ++ toString n) e.value).filePointer? =
          some (path, UInt64.ofNat n)) ∧
      (∀ path line, e.filePointer? = some (path, line) → (line - 1).toNat + 1 = line.toNat) ∧
      ∀ (σ : Type) (root version : String) (commit : Bool) (entries : List SourceEntry)
        (done : SourceUpdate),
        (Sources.updateLines root version commit entries done : Action σ SourceUpdate) =
          Sources.updateLines root version commit (entries.filter fun e => IsPointer e.source)
            done := by
  refine ⟨fun path line => filePointer?_eq_some, fun path n hpath hpos hlt => ?_,
    fun path line => toNat_sub_one,
    fun σ root version commit entries done => Sources.updateLines_filter _ _ _ _ _⟩
  apply filePointer?_eq_some.mpr
  have hline : (UInt64.ofNat n).toNat = n := UInt64.toNat_ofNat_of_lt' hlt
  rw [hline]
  exact pointsTo_written hpath hpos hlt

/-- A path with a colon of its own, and a number with all that may stand around it. -/
theorem filePointer?_eq_some_iff_pointsTo_colons :
    let e : SourceEntry := ⟨"c:é: +007\t", "1.2.3"⟩
    e.filePointer? = some ("c:é", 7) ∧ PointsTo e.source "c:é" 7 ∧ (7 - 1 : UInt64).toNat + 1 = 7 ∧
      ("c:é" ≠ "" ∧ 1 ≤ 2 ^ 64 - 1 ∧ 2 ^ 64 - 1 < 2 ^ 64) ∧
      (SourceEntry.mk ("c:é" ++ ":" ++ toString (2 ^ 64 - 1)) "1.2.3").filePointer? =
        some ("c:é", 18446744073709551615) := by
  intro e
  obtain ⟨hiff, hwritten, hsub, -⟩ := filePointer?_eq_some_iff_pointsTo e
  have hpointer : e.filePointer? = some ("c:é", 7) := by decide
  exact ⟨hpointer, (hiff _ _).mp hpointer, hsub _ _ hpointer, by decide,
    hwritten "c:é" (2 ^ 64 - 1) (by decide) (by decide) (by decide)⟩

end SourceEntry

end TagVersion
