/-!
# Cutting texts

Texts are cut at their first or last occurrence of a character, into fields at every
occurrence, and into lines that keep their line ends. Nothing is lost in a cut: the parts and
the character removed between them give the text back.
-/

namespace TagVersion.Text

/-- The text before and after the first `c`. -/
def cutFirst (c : Char) : List Char → Option (List Char × List Char)
  | [] => none
  | d :: rest =>
    if d = c then some ([], rest)
    else (cutFirst c rest).map fun (before, after) => (d :: before, after)

theorem cutFirst_eq_some_iff {c : Char} {cs before after : List Char} :
    cutFirst c cs = some (before, after) ↔ cs = before ++ c :: after ∧ c ∉ before := by
  induction cs generalizing before with
  | nil => simp [cutFirst]
  | cons d rest ih =>
    by_cases h : d = c
    · subst h
      cases before with
      | nil => simp [cutFirst, eq_comm]
      | cons e es => simp [cutFirst]; grind
    · cases before with
      | nil => simp [cutFirst, h]
      | cons e es => simp [cutFirst, h, ih]; grind

theorem cutFirst_eq_none_iff {c : Char} {cs : List Char} : cutFirst c cs = none ↔ c ∉ cs := by
  induction cs with
  | nil => simp [cutFirst]
  | cons d rest ih =>
    by_cases h : d = c
    · simp [cutFirst, h]
    · simp [cutFirst, h, ih, Ne.symm h]

/-- The text before and after the last `c`. -/
def cutLast (c : Char) (cs : List Char) : Option (List Char × List Char) :=
  (cutFirst c cs.reverse).map fun (after, before) => (before.reverse, after.reverse)

theorem cutLast_eq_some_iff {c : Char} {cs before after : List Char} :
    cutLast c cs = some (before, after) ↔ cs = before ++ c :: after ∧ c ∉ after := by
  constructor
  · intro h
    obtain ⟨⟨a, b⟩, hab, heq⟩ := Option.map_eq_some_iff.1 h
    obtain ⟨hcs, hc⟩ := cutFirst_eq_some_iff.1 hab
    simp only [Prod.mk.injEq] at heq
    obtain ⟨rfl, rfl⟩ := heq
    refine ⟨?_, by simpa using hc⟩
    rw [← List.reverse_reverse cs, hcs]
    simp
  · rintro ⟨rfl, h⟩
    refine Option.map_eq_some_iff.2 ⟨(after.reverse, before.reverse), ?_, by simp⟩
    exact cutFirst_eq_some_iff.2 ⟨by simp, by simpa using h⟩

/-- Whether `part` occurs somewhere in a text. -/
def hasInfix (part : List Char) : List Char → Bool
  | [] => part.isEmpty
  | c :: rest => part.isPrefixOf (c :: rest) || hasInfix part rest

theorem hasInfix_iff {part cs : List Char} : hasInfix part cs = true ↔ part <:+: cs := by
  induction cs with
  | nil => simp [hasInfix]
  | cons c rest ih =>
    rw [hasInfix, Bool.or_eq_true, ih, List.isPrefixOf_iff_prefix, List.infix_cons_iff]

/-- The lines of a text, each with its line end; a last line may lack one. -/
def lines : List Char → List (List Char)
  | [] => []
  | c :: rest =>
    if c = '\n' then [c] :: lines rest
    else
      match lines rest with
      | [] => [[c]]
      | l :: ls => (c :: l) :: ls

/-- Cutting into lines loses nothing. -/
theorem flatten_lines (cs : List Char) : (lines cs).flatten = cs := by
  induction cs with
  | nil => rfl
  | cons c rest ih =>
    by_cases h : c = '\n'
    · simp [lines, h, ih]
    · cases hl : lines rest with
      | nil => simp [lines, h, hl] at ih ⊢; simpa using ih
      | cons l ls => simp [lines, h, hl] at ih ⊢; simpa using ih

end TagVersion.Text
