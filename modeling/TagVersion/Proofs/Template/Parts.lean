import Mathlib
import TagVersion.Template.Parser

/-!
# Templates from their parts

A template is read from the left: a constant goes up to the next opening brace, a placeholder up to
the closing one. So parts that are written one after the other can be told apart, as long as none of
them contains what would end it early and no constant runs into another.

* **`Template.Spelled`**: such parts.
* **`partsFrom_placeholder`**, **`partsFrom_constant`**: the reading takes one part.
* **`partsFrom_source`**: parts are read back from what they are written as.
-/

namespace TagVersion

namespace TemplatePart

def isConstant : TemplatePart → Bool
  | constant _ => true
  | placeholder .. => false

/-- A part that ends where it is read to its end. -/
def IsSpelled : TemplatePart → Prop
  | constant text => text ≠ "" ∧ '\x7b' ∉ text.toList
  | placeholder name alternative =>
    '\x7d' ∉ name.toList ∧ ':' ∉ name.toList ∧ ∀ a ∈ alternative, '\x7d' ∉ a.toList

end TemplatePart

namespace Template

open TemplatePart

/-- Parts of which each is one by itself, and which stay apart next to each other. -/
structure Spelled (parts : List TemplatePart) : Prop where
  spelled : ∀ p ∈ parts, p.IsSpelled
  apart : parts.IsChain fun p q => p.isConstant = true → q.isConstant = false

/-- Parts written one after the other. -/
def source (parts : List TemplatePart) : List Char :=
  parts.flatMap fun p => p.source.toList

theorem source_cons (p : TemplatePart) (rest : List TemplatePart) :
    source (p :: rest) = p.source.toList ++ source rest :=
  List.flatMap_cons

/-! ## One part -/

/-- The parts behind an opening brace; none if it is not closed. -/
def bracedFrom (cs : List Char) : List TemplatePart :=
  (Text.cutFirst '\x7d' cs).elim [] fun cut => ofBraced cut.1 :: partsFrom cut.2

theorem partsFrom_of_not_mem {cs : List Char} (h : '\x7b' ∉ cs) : partsFrom cs = ofConstant cs := by
  have hcut := Text.cutFirst_eq_none_iff.mpr h
  rw [partsFrom]
  grind

/-- One turn of the reading, at an opening brace. -/
theorem partsFrom_of_cutFirst {cs before after : List Char}
    (h : Text.cutFirst '\x7b' cs = some (before, after)) :
    partsFrom cs = ofConstant before ++ bracedFrom after := by
  rw [partsFrom]
  unfold bracedFrom
  cases hclose : Text.cutFirst '\x7d' after with
  | none => grind
  | some cut => grind

theorem partsFrom_braced {braced : List Char} (h : '\x7d' ∉ braced) (rest : List Char) :
    partsFrom ('\x7b' :: braced ++ '\x7d' :: rest) = ofBraced braced :: partsFrom rest := by
  have hopen : Text.cutFirst '\x7b' ('\x7b' :: braced ++ '\x7d' :: rest) =
      some ([], braced ++ '\x7d' :: rest) :=
    Text.cutFirst_eq_some_iff.mpr ⟨rfl, List.not_mem_nil⟩
  have hclose : Text.cutFirst '\x7d' (braced ++ '\x7d' :: rest) = some (braced, rest) :=
    Text.cutFirst_eq_some_iff.mpr ⟨rfl, h⟩
  rw [partsFrom_of_cutFirst hopen]
  unfold bracedFrom
  rw [hclose]
  rfl

/-- The reading takes a placeholder. -/
theorem partsFrom_placeholder {name : String} {alternative : Option String}
    (h : (placeholder name alternative).IsSpelled) (rest : List Char) :
    partsFrom ((placeholder name alternative).source.toList ++ rest) =
      placeholder name alternative :: partsFrom rest := by
  obtain ⟨hname, hcolon, halternative⟩ := h
  cases alternative with
  | none =>
    have hbraced : ofBraced name.toList = placeholder name none := by
      unfold ofBraced
      rw [Text.cutFirst_eq_none_iff.mpr hcolon]
      simp
    have hread := partsFrom_braced hname rest
    rw [hbraced] at hread
    simpa [TemplatePart.source] using hread
  | some text =>
    have hbraced : ofBraced (name.toList ++ ':' :: text.toList) = placeholder name (some text) := by
      unfold ofBraced
      rw [Text.cutFirst_eq_some_iff.mpr ⟨rfl, hcolon⟩]
      simp
    have hclose : '\x7d' ∉ name.toList ++ ':' :: text.toList := by
      have htext := halternative text rfl
      simp [hname, htext]
    have hread := partsFrom_braced hclose rest
    rw [hbraced] at hread
    simpa [TemplatePart.source] using hread

/-- The reading takes a constant, which ends at a brace or at the end of the template. -/
theorem partsFrom_constant {text : String} (h : (constant text).IsSpelled) {rest : List Char}
    (hrest : ∀ c ∈ rest.head?, c = '\x7b') :
    partsFrom ((constant text).source.toList ++ rest) = constant text :: partsFrom rest := by
  obtain ⟨hne, hopen⟩ := h
  have hconstant : ofConstant text.toList = [constant text] := by
    cases htext : text.toList with
    | nil => exact absurd (String.toList_eq_nil_iff.mp htext) hne
    | cons c cs =>
      show [constant (String.ofList (c :: cs))] = _
      rw [← htext, String.ofList_toList]
  show partsFrom (text.toList ++ rest) = _
  cases rest with
  | nil =>
    rw [List.append_nil, partsFrom_of_not_mem hopen, hconstant,
      partsFrom_of_not_mem List.not_mem_nil]
    rfl
  | cons c cs =>
    obtain rfl := hrest c rfl
    -- the text is cut at the same brace with the constant and without it
    have hcut : Text.cutFirst '\x7b' (text.toList ++ '\x7b' :: cs) = some (text.toList, cs) :=
      Text.cutFirst_eq_some_iff.mpr ⟨rfl, hopen⟩
    have hcut' : Text.cutFirst '\x7b' ('\x7b' :: cs) = some ([], cs) :=
      Text.cutFirst_eq_some_iff.mpr ⟨rfl, List.not_mem_nil⟩
    rw [partsFrom_of_cutFirst hcut, partsFrom_of_cutFirst hcut', hconstant]
    rfl

/-! ## All parts -/

/-- **Parts** are read back from what they are written as. -/
theorem partsFrom_source {parts : List TemplatePart} (h : Spelled parts) :
    partsFrom (source parts) = parts := by
  induction parts with
  | nil => exact partsFrom_of_not_mem List.not_mem_nil
  | cons p rest ih =>
    obtain ⟨hspelled, hapart⟩ := h
    have hp := hspelled p List.mem_cons_self
    have hrest : Spelled rest :=
      ⟨fun q hq => hspelled q (List.mem_cons_of_mem _ hq), hapart.tail⟩
    rw [source_cons]
    cases p with
    | placeholder name alternative => rw [partsFrom_placeholder hp, ih hrest]
    | constant text =>
      rw [partsFrom_constant hp, ih hrest]
      -- what follows a constant is a placeholder, which starts with its brace
      cases rest with
      | nil => exact nofun
      | cons q rest =>
        cases q with
        | constant other =>
          exact absurd (List.isChain_cons_cons.mp hapart).1 (by simp [isConstant])
        | placeholder name alternative =>
          cases alternative <;> simp [source_cons, TemplatePart.source]

end Template

end TagVersion
