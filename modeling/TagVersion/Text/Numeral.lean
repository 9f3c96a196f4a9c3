/-!
# Numerals

Version components, distances and line numbers are 64-bit words written in ASCII digits.
Reading refuses a numeral whose value does not fit; writing gives the shortest numeral.
-/

namespace TagVersion.Text

/-- The value of a non-empty run of ASCII digits. -/
def natural? (cs : List Char) : Option Nat :=
  if !cs.isEmpty && cs.all Char.isDigit then some (Nat.ofDigitChars 10 cs 0) else none

/-- The value of a non-empty run of ASCII digits, if it fits 64 bits. -/
def word? (cs : List Char) : Option UInt64 := do
  let n ← natural? cs
  if n < UInt64.size then some (UInt64.ofNat n) else none

/-- As `word?`, but one plus sign may stand before the digits. -/
def signedWord? : List Char → Option UInt64
  | '+' :: cs => word? cs
  | cs => word? cs

/-- The shortest numeral of a word. -/
def numeral (w : UInt64) : List Char :=
  Nat.toDigits 10 w.toNat

/-- The shortest numeral of a word, as a text. -/
def numeralText (w : UInt64) : String :=
  String.ofList (numeral w)

theorem natural?_toDigits (n : Nat) : natural? (Nat.toDigits 10 n) = some n := by
  have hd : ∀ c ∈ Nat.toDigits 10 n, c.isDigit = true := fun c hc =>
    Nat.isDigit_of_mem_toDigits (by decide) (by decide) hc
  have hne : Nat.toDigits 10 n ≠ [] := Nat.toDigits_ne_nil
  simp only [natural?, Nat.ofDigitChars_toDigits (b := 10) (by decide) (by decide)]
  simp [hne, List.all_eq_true.2 hd]

/-- Every word is read back from its numeral. -/
theorem word?_numeral (w : UInt64) : word? (numeral w) = some w := by
  simp [word?, numeral, natural?_toDigits, w.toNat_lt_size]

end TagVersion.Text
