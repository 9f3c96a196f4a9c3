import Mathlib.Data.List.Basic
import TagVersion.Environment.Pattern

/-!
# The names that a pattern matches

A pattern is a text in which a star at either end stands for any text, and everything else for
itself. What it matches is told here by the places of the text, without the four kinds of patterns
that the text is sorted into.

* **`Place`**, **`places`**: what stands at each place of a pattern as it is written.
* **`Spells`**: the texts that a row of places stands for.
* **`accepts_ofString_of_ends`**: the pattern of a text accepts what its places stand for.
* **`text_ofString`**: a pattern is written as it was read, but for a lone star.
* **`accepts_ofString_iff`**: the names that are accepted, and what is read back.
-/

namespace TagVersion

namespace NamePattern

/-! ## Places of a pattern -/

/-- What stands at one place of a pattern. -/
inductive Place where
  /-- A character that stands for itself. -/
  | char (c : Char)
  /-- A star that stands for any text, also for the empty one. -/
  | any
deriving DecidableEq, Repr

/-- A character at one of the ends of a pattern. -/
def Place.ofEnd (c : Char) : Place :=
  if c = '*' then .any else .char c

/-- The places of a pattern as it is written: only a star that comes first or last stands for any
text. -/
def places (cs : List Char) : List Place :=
  cs.mapIdx fun i c => if i = 0 ∨ i + 1 = cs.length then Place.ofEnd c else .char c

/-- The texts that a row of places stands for. -/
inductive Spells : List Place → List Char → Prop where
  | nil : Spells [] []
  | char {c : Char} {ps : List Place} {cs : List Char} (h : Spells ps cs) :
      Spells (.char c :: ps) (c :: cs)
  | any {text : List Char} {ps : List Place} {cs : List Char} (h : Spells ps cs) :
      Spells (.any :: ps) (text ++ cs)

variable {ps qs : List Place} {cs part : List Char}

/-! ## What places stand for -/

theorem spells_any_cons_iff :
    Spells (.any :: ps) cs ↔ ∃ text rest, cs = text ++ rest ∧ Spells ps rest := by
  constructor
  · intro h
    cases h with
    | any hrest => exact ⟨_, _, rfl, hrest⟩
  · rintro ⟨text, rest, rfl, hrest⟩
    exact .any hrest

/-- Places in a row stand for the texts that they stand for, one behind the other. -/
theorem spells_append_iff :
    Spells (ps ++ qs) cs ↔ ∃ front back, cs = front ++ back ∧ Spells ps front ∧ Spells qs back := by
  constructor
  · intro h
    induction ps generalizing cs with
    | nil => exact ⟨[], cs, rfl, .nil, h⟩
    | cons p ps ih =>
      cases h with
      | @char c _ rest hrest =>
        obtain ⟨front, back, rfl, hfront, hback⟩ := ih hrest
        exact ⟨c :: front, back, rfl, .char hfront, hback⟩
      | @any text _ rest hrest =>
        obtain ⟨front, back, rfl, hfront, hback⟩ := ih hrest
        exact ⟨text ++ front, back, (List.append_assoc _ _ _).symm, .any hfront, hback⟩
  · rintro ⟨front, back, rfl, hfront, hback⟩
    induction hfront with
    | nil => exact hback
    | char _ ih => exact .char ih
    | @any text _ rest _ ih =>
      rw [List.append_assoc]
      exact .any ih

/-- Characters stand for themselves. -/
theorem spells_map_char_iff : Spells (part.map .char) cs ↔ cs = part := by
  constructor
  · intro h
    induction part generalizing cs with
    | nil =>
      cases h
      rfl
    | cons c part ih =>
      cases h with
      | char hrest => rw [ih hrest]
  · rintro rfl
    induction cs with
    | nil => exact .nil
    | cons c cs ih => exact .char ih

theorem spells_any (cs : List Char) : Spells [.any] cs := by
  have h : Spells [.any] (cs ++ []) := .any .nil
  rwa [List.append_nil] at h

theorem spells_endsWith_iff : Spells (.any :: part.map .char) cs ↔ part <:+ cs := by
  rw [spells_any_cons_iff]
  constructor
  · rintro ⟨text, rest, rfl, hrest⟩
    rw [spells_map_char_iff.mp hrest]
    exact List.suffix_append text part
  · rintro ⟨text, rfl⟩
    exact ⟨text, part, rfl, spells_map_char_iff.mpr rfl⟩

theorem spells_startsWith_iff : Spells (part.map .char ++ [.any]) cs ↔ part <+: cs := by
  rw [spells_append_iff]
  constructor
  · rintro ⟨front, back, rfl, hfront, -⟩
    rw [spells_map_char_iff.mp hfront]
    exact List.prefix_append part back
  · rintro ⟨back, rfl⟩
    exact ⟨part, back, rfl, spells_map_char_iff.mpr rfl, spells_any back⟩

theorem spells_contains_iff : Spells (.any :: (part.map .char ++ [.any])) cs ↔ part <:+: cs := by
  rw [spells_any_cons_iff]
  constructor
  · rintro ⟨text, rest, rfl, hrest⟩
    exact (spells_startsWith_iff.mp hrest).isInfix.trans (List.suffix_append text rest).isInfix
  · rintro ⟨before, after, rfl⟩
    refine ⟨before, part ++ after, List.append_assoc _ _ _, ?_⟩
    exact spells_startsWith_iff.mpr (List.prefix_append part after)

/-! ## Both ends of a text -/

/-- A text has no end, one character that is at both ends, or two ends with a text between them. -/
theorem cases_ends (cs : List Char) :
    cs = [] ∨ (∃ c, cs = [c]) ∨ ∃ first inner last, cs = first :: (inner ++ [last]) := by
  cases cs with
  | nil => exact .inl rfl
  | cons first rest =>
    rcases List.eq_nil_or_concat' rest with rfl | ⟨inner, last, rfl⟩
    · exact .inr (.inl ⟨first, rfl⟩)
    · exact .inr (.inr ⟨first, inner, last, rfl⟩)

theorem places_of_ends (first : Char) (inner : List Char) (last : Char) :
    places (first :: (inner ++ [last])) =
      Place.ofEnd first :: (inner.map .char ++ [Place.ofEnd last]) := by
  unfold places
  apply List.ext_getElem
  · simp
  · intro i hi hi'
    rw [List.getElem_mapIdx]
    cases i with
    | zero => simp
    | succ i =>
      have hlt : i < inner.length + 1 := by simpa using hi
      by_cases hinner : i < inner.length
      · -- neither the first place nor the last one
        have hne : ¬ (i + 1 = 0 ∨ i + 1 + 1 = (first :: (inner ++ [last])).length) := by
          simp
          omega
        rw [if_neg hne]
        simp [hinner]
      · have hlast : i = inner.length := by omega
        subst hlast
        simp

/-- The kind of a pattern is told by its ends. -/
theorem ofString_of_ends {s : String} {first last : Char} {inner : List Char}
    (hs : s.toList = first :: (inner ++ [last])) :
    ofString s =
      if first = '*' then
        if last = '*' then contains (String.ofList inner)
        else endsWith (String.ofList (inner ++ [last]))
      else if last = '*' then startsWith (String.ofList (first :: inner))
      else exact s := by
  have hhead : (s.toList.head? == some '*') = (first == '*') := by
    rw [hs, List.head?_cons, Option.some_beq_some]
  have hlast : (s.toList.getLast? == some '*') = (last == '*') := by
    rw [hs, ← List.cons_append, List.getLast?_concat, Option.some_beq_some]
  have htail : s.toList.tail = inner ++ [last] := by rw [hs, List.tail_cons]
  have hfront : s.toList.dropLast = first :: inner := by
    rw [hs, ← List.cons_append, List.dropLast_concat]
  unfold ofString
  simp only [hhead, hlast, htail, hfront, List.dropLast_concat]
  by_cases hfirst : first = '*' <;> by_cases hstar : last = '*' <;>
    simp [hfirst, hstar, beq_false_of_ne]

theorem ofString_of_singleton {s : String} {c : Char} (hs : s.toList = [c]) :
    ofString s = if c = '*' then contains "" else exact s := by
  unfold ofString
  rw [hs]
  by_cases hc : c = '*'
  · subst hc
    rfl
  · simp [hc, beq_false_of_ne]

/-! ## Names that are accepted -/

theorem Place.ofEnd_star : Place.ofEnd '*' = .any := rfl

theorem Place.ofEnd_of_ne {c : Char} (hc : c ≠ '*') : Place.ofEnd c = .char c :=
  if_neg hc

theorem places_of_singleton (c : Char) : places [c] = [Place.ofEnd c] := by
  simp [places]

/-- A pattern without a star at its ends stands for itself. -/
theorem accepts_exact_iff {s name : String} :
    (exact s).accepts name = true ↔ Spells (s.toList.map .char) name.toList := by
  rw [spells_map_char_iff, String.toList_inj]
  exact beq_iff_eq

theorem accepts_contains_iff {part : List Char} {name : String} :
    (contains (String.ofList part)).accepts name = true ↔
      Spells (.any :: (part.map .char ++ [.any])) name.toList := by
  show Text.hasInfix (String.ofList part).toList name.toList = true ↔ _
  rw [spells_contains_iff, Text.hasInfix_iff, String.toList_ofList]

/-- Between two stars with nothing in between there is room for every name. -/
theorem accepts_contains_empty (name : String) : (contains "").accepts name = true := by
  have hempty : (contains "").accepts name = true ↔ [] <:+: name.toList := Text.hasInfix_iff
  exact hempty.mpr List.nil_infix

theorem accepts_endsWith_iff {part : List Char} {name : String} :
    (endsWith (String.ofList part)).accepts name = true ↔
      Spells (.any :: part.map .char) name.toList := by
  show (String.ofList part).toList.isSuffixOf name.toList = true ↔ _
  rw [spells_endsWith_iff, List.isSuffixOf_iff_suffix, String.toList_ofList]

theorem accepts_startsWith_iff {part : List Char} {name : String} :
    (startsWith (String.ofList part)).accepts name = true ↔
      Spells (part.map .char ++ [.any]) name.toList := by
  show (String.ofList part).toList.isPrefixOf name.toList = true ↔ _
  rw [spells_startsWith_iff, List.isPrefixOf_iff_prefix, String.toList_ofList]

/-- A pattern with two ends accepts what its places stand for. -/
theorem accepts_ofString_of_ends {s name : String} {first last : Char} {inner : List Char}
    (hs : s.toList = first :: (inner ++ [last])) :
    (ofString s).accepts name = true ↔
      Spells (Place.ofEnd first :: (inner.map .char ++ [Place.ofEnd last])) name.toList := by
  rw [ofString_of_ends hs]
  by_cases hfirst : first = '*'
  · subst hfirst
    rw [if_pos rfl, Place.ofEnd_star]
    by_cases hlast : last = '*'
    · subst hlast
      rw [if_pos rfl, Place.ofEnd_star]
      exact accepts_contains_iff
    · have hpart : inner.map .char ++ [Place.char last] = (inner ++ [last]).map .char := by
        rw [List.map_append, List.map_singleton]
      rw [if_neg hlast, Place.ofEnd_of_ne hlast, hpart]
      exact accepts_endsWith_iff
  · rw [if_neg hfirst, Place.ofEnd_of_ne hfirst]
    by_cases hlast : last = '*'
    · subst hlast
      rw [if_pos rfl, Place.ofEnd_star, ← List.cons_append, ← List.map_cons]
      exact accepts_startsWith_iff
    · have hpart : Place.char first :: (inner.map .char ++ [Place.char last]) =
          s.toList.map .char := by
        rw [hs, List.map_cons, List.map_append, List.map_singleton]
      rw [if_neg hlast, Place.ofEnd_of_ne hlast, hpart]
      exact accepts_exact_iff

/-- **The names of a pattern** are the texts that its places stand for. -/
theorem accepts_ofString (s name : String) :
    (ofString s).accepts name = true ↔ Spells (places s.toList) name.toList := by
  rcases cases_ends s.toList with hs | ⟨c, hs⟩ | ⟨first, inner, last, hs⟩
  · have hexact : ofString s = exact s := by
      unfold ofString
      rw [hs]
      rfl
    have hplaces : places s.toList = s.toList.map .char := by
      rw [hs]
      rfl
    rw [hexact, hplaces]
    exact accepts_exact_iff
  · rw [ofString_of_singleton hs, hs, places_of_singleton]
    by_cases hc : c = '*'
    · -- a lone star is both ends at once
      subst hc
      rw [if_pos rfl, Place.ofEnd_star]
      exact iff_of_true (accepts_contains_empty name) (spells_any _)
    · have hplaces : [Place.ofEnd c] = s.toList.map .char := by
        rw [hs, List.map_singleton, Place.ofEnd_of_ne hc]
      rw [if_neg hc, hplaces]
      exact accepts_exact_iff
  · rw [accepts_ofString_of_ends hs, hs, places_of_ends]

/-! ## Patterns that are written -/

/-- **A pattern is written as it was read**, but for a lone star, which gets the second star of the
patterns of its kind. -/
theorem text_ofString (s : String) : (ofString s).text = if s = "*" then "**" else s := by
  rcases cases_ends s.toList with hs | ⟨c, hs⟩ | ⟨first, inner, last, hs⟩
  · obtain rfl : s = "" := String.toList_eq_nil_iff.mp hs
    rfl
  · rw [ofString_of_singleton hs]
    by_cases hc : c = '*'
    · subst hc
      obtain rfl : s = "*" := String.toList_inj.mp hs
      rfl
    · have hne : s ≠ "*" := by
        rintro rfl
        exact hc (List.singleton_inj.mp hs).symm
      rw [if_neg hc, if_neg hne]
      rfl
  · have hne : s ≠ "*" := by
      rintro rfl
      exact absurd (congrArg List.length hs) (by simp)
    rw [ofString_of_ends hs, if_neg hne, ← String.toList_inj, hs]
    by_cases hfirst : first = '*' <;> by_cases hlast : last = '*' <;>
      simp [hfirst, hlast, text, hs]

/-- What is written for a pattern is read as the same pattern. -/
theorem ofString_text_ofString (s : String) : ofString (ofString s).text = ofString s := by
  rw [text_ofString]
  by_cases hs : s = "*"
  · subst hs
    rfl
  · rw [if_neg hs]

/-- **A pattern accepts its language**: a name is accepted if and only if it is one of the texts that
the places of the pattern stand for. Patterns of one or two stars accept every name, and what is
written for a pattern that was read is read as the same pattern. -/
theorem accepts_ofString_iff (s : String) :
    (∀ name, (ofString s).accepts name = true ↔ Spells (places s.toList) name.toList) ∧
      (∀ name, (ofString "*").accepts name = true) ∧
      (∀ name, (ofString "**").accepts name = true) ∧
      ofString (ofString s).text = ofString s :=
  ⟨accepts_ofString s, accepts_contains_empty, accepts_contains_empty, ofString_text_ofString s⟩

/-- Of three stars the one in the middle stands for itself. -/
example : places "***".toList = [.any, .char '*', .any] := by decide

end NamePattern

end TagVersion
