import TagVersion.Version.Description

/-!
# Ids of commits

A repository gives every commit an id, which is shown by its first hexadecimal digits. Which ids
these are is up to the repository; nothing but that there are digits is relied on.
-/

namespace TagVersion

/-- The ids of the commits of a repository, as they are abbreviated. -/
structure CommitIds where
  abbreviated : Nat → List Char
  abbreviated_ne_nil : ∀ n, abbreviated n ≠ []
  isHexDigit : ∀ n, ∀ c ∈ abbreviated n, Description.isHexDigit c = true

namespace Repository

/-- The number of hexadecimal digits of an abbreviated id. -/
def abbreviationDigits : Nat := 7

/-- An id for the commit of a number. The odd factor spreads consecutive numbers over all ids of
that length without meeting one twice. -/
def abbreviation (n : Nat) : List Char :=
  let digits := Nat.toDigits 16 ((n * 0x5DEECE7 + 0xA3C59B1) % 0x10000000)
  List.replicate (abbreviationDigits - digits.length) '0' ++ digits

end Repository

namespace CommitIds

theorem isHexDigit_of_mem_toDigits {n : Nat} {c : Char} (h : c ∈ Nat.toDigits 16 n) :
    Description.isHexDigit c = true := by
  have hdigit : ∀ d < 16, Description.isHexDigit d.digitChar = true := by decide
  induction n using Nat.strongRecOn with
  | ind n ih =>
    rw [Nat.toDigits_eq_if (by decide)] at h
    split at h
    · next hlt =>
      obtain rfl := List.mem_singleton.mp h
      exact hdigit n hlt
    · rcases List.mem_append.mp h with h | h
      · exact ih (n / 16) (by omega) h
      · obtain rfl := List.mem_singleton.mp h
        exact hdigit (n % 16) (Nat.mod_lt n (by decide))

theorem isHexDigit_of_mem_abbreviation {n : Nat} {c : Char} (h : c ∈ Repository.abbreviation n) :
    Description.isHexDigit c = true := by
  unfold Repository.abbreviation at h
  rcases List.mem_append.mp h with h | h
  · obtain rfl := List.eq_of_mem_replicate h
    decide
  · exact isHexDigit_of_mem_toDigits h

theorem abbreviation_ne_nil (n : Nat) : Repository.abbreviation n ≠ [] := by
  unfold Repository.abbreviation
  exact List.append_ne_nil_of_right_ne_nil _ Nat.toDigits_ne_nil

/-- Ids that go by the numbers of the commits. -/
def numbered : CommitIds where
  abbreviated := Repository.abbreviation
  abbreviated_ne_nil := abbreviation_ne_nil
  isHexDigit _ _ h := isHexDigit_of_mem_abbreviation h

end CommitIds

end TagVersion
