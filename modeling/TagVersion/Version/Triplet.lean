import TagVersion.Text.DecimalDigit
import TagVersion.Text.Numeral

/-!
# Version triplets

The three numbers of a version, ordered by significance. A bump increments one of them and
clears the less significant ones; it is refused when the number is already the greatest word.
-/

namespace TagVersion

/-- Major, minor and patch number of a version. -/
structure Triplet where
  major : UInt64
  minor : UInt64
  patch : UInt64
deriving DecidableEq, Repr, Inhabited

/-- The component of a version that a bump increments. -/
inductive Component where
  | major
  | minor
  | patch
deriving DecidableEq, Repr

namespace Component

def name : Component → String
  | major => "major"
  | minor => "minor"
  | patch => "patch"

/-- The component of a name, which is matched exactly. -/
def ofName? (s : String) : Option Component :=
  [major, minor, patch].find? (·.name == s)

theorem ofName?_name (c : Component) : ofName? c.name = some c := by
  cases c <;> decide

end Component

namespace Triplet

/-- The triplet in dotted form. -/
def chars (t : Triplet) : List Char :=
  Text.numeral t.major ++ '.' :: Text.numeral t.minor ++ '.' :: Text.numeral t.patch

/-- The triplet in dotted form, as a text. -/
def text (t : Triplet) : String :=
  String.ofList t.chars

/-- The next word, unless `w` is the greatest. -/
def successor? (w : UInt64) : Option UInt64 :=
  if w.toNat + 1 < UInt64.size then some (w + 1) else none

/-- Increments one component and clears the less significant ones. -/
def bump? (t : Triplet) : Component → Option Triplet
  | .major => (successor? t.major).map (⟨·, 0, 0⟩)
  | .minor => (successor? t.minor).map (⟨t.major, ·, 0⟩)
  | .patch => (successor? t.patch).map (⟨t.major, t.minor, ·⟩)

/-! ### Reading the triplet off a tag

A tag text starts with up to three numerals separated by points. Numerals are cut out as runs
of decimal digits of any script; one whose value is not a word counts as zero, and so does one
that is missing. -/

/-- The run of digits after a leading point, and the rest; an empty run leaves the point. -/
def pointNumeral : List Char → List Char × List Char
  | '.' :: rest =>
    match rest.span Text.isDecimalDigit with
    | ([], _) => ([], '.' :: rest)
    | cut => cut
  | cs => ([], cs)

/-- The value of a numeral, zero if it has none among the words. -/
def component (digits : List Char) : UInt64 :=
  (Text.word? digits).getD 0

/-- The triplet that a text starts with. -/
def ofChars (cs : List Char) : Triplet :=
  match cs.span Text.isDecimalDigit with
  | ([], _) => ⟨0, 0, 0⟩
  | (major, rest) =>
    let (minor, rest) := pointNumeral rest
    let (patch, _) := pointNumeral rest
    ⟨component major, component minor, component patch⟩

end Triplet

end TagVersion
