import TagVersion.Proofs.Version.Descriptions
import TagVersion.Text.Regex

/-!
# The form of descriptions

A description has the form of a regular expression, whose tag takes as much of the line as it can.
The search for a match goes through the tags from the longest to the shortest, but a line leaves it
one only, so that reading a line from its end finds what the search finds.

* **`Description.form`**, **`Description.ofForm?`**: the expression, and what its groups tell.
* **`Description.written_of_match`**, **`Description.isSome_match`**: it matches the lines in the form
  of a description, with their parts in its groups.
* **`Description.ofForm?_eq_ofChars?`**: both ways of reading agree.
* **`VersionFacts.ofDescription?_inverse`**: the facts of a checkout and their description determine
  each other.
-/

namespace TagVersion

namespace Text.Regex

/-! ## Runs that cannot be empty -/

section

variable {α : Type} {p : Char → Bool} {cs held rest : List Char} {found : Groups} {a : α}

/-- What is found after a run is found at one of its ends. -/
theorem exists_of_afterRun_eq_some {isGreedy : Bool} {next : List Char → Option α}
    (h : afterRun isGreedy p next cs = some a) :
    ∃ held rest, cs = held ++ rest ∧ (∀ c ∈ held, p c = true) ∧ next rest = some a := by
  induction cs with
  | nil => exact ⟨[], [], rfl, nofun, h⟩
  | cons c cs ih =>
    have hhere (h : next (c :: cs) = some a) :
        ∃ held rest, c :: cs = held ++ rest ∧ (∀ c ∈ held, p c = true) ∧ next rest = some a :=
      ⟨[], c :: cs, rfl, nofun, h⟩
    unfold afterRun at h
    by_cases hc : p c = true
    · have hfound : afterRun isGreedy p next cs = some a ∨ next (c :: cs) = some a := by
        rw [if_pos hc] at h
        cases isGreedy with
        | true => exact (Option.or_eq_some_iff.mp h).imp_right And.right
        | false => exact (Option.or_eq_some_iff.mp h).symm.imp_left And.right
      rcases hfound with hlater | h
      · obtain ⟨held, rest, rfl, hheld, hrest⟩ := ih hlater
        exact ⟨c :: held, rest, rfl, List.forall_mem_cons.mpr ⟨hc, hheld⟩, hrest⟩
      · exact hhere h
    · rw [if_neg hc] at h
      exact hhere h

/-- Something is found after a run if something is found at one of its ends. -/
theorem isSome_afterRun {isGreedy : Bool} {next : List Char → Option α}
    (hheld : ∀ c ∈ held, p c = true) (hrest : (next rest).isSome) :
    (afterRun isGreedy p next (held ++ rest)).isSome := by
  induction held with
  | nil =>
    rw [List.nil_append]
    cases rest with
    | nil => exact hrest
    | cons c cs =>
      unfold afterRun
      cases p c <;> cases isGreedy <;> simp [hrest]
  | cons c held ih =>
    obtain ⟨hc, hheld⟩ := List.forall_mem_cons.mp hheld
    rw [List.cons_append, afterRun, if_pos hc]
    cases isGreedy <;> simp [ih hheld]

/-- At least one character with a property, and as many as there are. -/
def many (p : Char → Bool) : Regex :=
  one p ++ run true p

variable {next : List Char → Groups → Option α}

theorem exists_of_after_many_eq_some (h : (many p).after next cs found = some a) :
    ∃ held rest, cs = held ++ rest ∧ held ≠ [] ∧ (∀ c ∈ held, p c = true) ∧
      next rest found = some a := by
  unfold many at h
  rw [after_append, after_one_eq_some] at h
  obtain ⟨c, cs, rfl, hc, h⟩ := h
  rw [after_run] at h
  obtain ⟨held, rest, rfl, hheld, hrest⟩ := exists_of_afterRun_eq_some h
  exact ⟨c :: held, rest, rfl, List.cons_ne_nil c held, List.forall_mem_cons.mpr ⟨hc, hheld⟩, hrest⟩

theorem isSome_after_many (hne : held ≠ []) (hheld : ∀ c ∈ held, p c = true)
    (hrest : (next rest found).isSome) : ((many p).after next (held ++ rest) found).isSome := by
  obtain ⟨c, held, rfl⟩ := List.exists_cons_of_ne_nil hne
  obtain ⟨hc, hheld⟩ := List.forall_mem_cons.mp hheld
  unfold many
  rw [after_append, List.cons_append, after_one_cons, if_pos hc, after_run]
  exact isSome_afterRun hheld hrest

theorem Groups.text?_cons_of_ne {number other : Nat} (h : other ≠ number)
    (start rest : List Char) (found : Groups) :
    Groups.text? ((number, start, rest) :: found) other = Groups.text? found other := by
  unfold Groups.text?
  rw [List.lookup_cons, beq_eq_false_iff_ne.mpr h]

theorem after_stop_eq_some :
    stop.after next cs found = some a ↔ cs = [] ∧ next [] found = some a := by
  cases cs with
  | nil => simp [after]
  | cons c cs => simp

end

end Text.Regex

namespace Description

open Text.Regex

/-! ## The expression -/

/-- A tag goes on through everything but the end of a line. -/
def isTagChar (c : Char) : Bool :=
  c != '\n'

/-- The mark of pending changes, character by character. -/
def dirtyForm : Text.Regex :=
  char '-' ++ char 'd' ++ char 'i' ++ char 'r' ++ char 't' ++ char 'y'

/-- The form of a description: a tag, the distance from it, an id, and perhaps the mark of pending
changes. -/
def form : Text.Regex :=
  group 1 (many isTagChar) ++ char '-' ++ group 2 (many Text.isDecimalDigit) ++ char '-' ++
    char 'g' ++ group 3 (many isHexDigit) ++ optional (group 4 dirtyForm) ++ stop

/-- Reads a description off the groups of its form. -/
def ofForm? (cs : List Char) : Option Description := do
  let found ← form.match? cs
  let tag ← found.text? 1
  let digits ← found.text? 2
  let id ← found.text? 3
  let distance ← Text.word? digits
  some { tag, distance, id, dirty := (found.text? 4).isSome }

/-- What the groups hold of a line in the form of a description. -/
structure Held (found : Groups) (tag digits id : List Char) (dirty : Bool) : Prop where
  tag_eq : found.text? 1 = some tag
  digits_eq : found.text? 2 = some digits
  id_eq : found.text? 3 = some id
  dirty_eq : (found.text? 4).isSome = dirty

variable {cs rest : List Char} {found : Groups}

theorem after_dirtyForm_eq_some {α : Type} {next : List Char → Groups → Option α} {a : α} :
    dirtyForm.after next cs found = some a ↔
      ∃ rest, cs = dirtyMark ++ rest ∧ next rest found = some a := by
  unfold dirtyForm
  simp only [after_append, after_char_eq_some]
  constructor
  · rintro ⟨_, rfl, _, rfl, _, rfl, _, rfl, _, rfl, rest, rfl, h⟩
    exact ⟨rest, rfl, h⟩
  · rintro ⟨rest, rfl, h⟩
    exact ⟨_, rfl, _, rfl, _, rfl, _, rfl, _, rfl, rest, rfl, h⟩

/-- **A match** is a line in the form of a description, and its groups hold the parts. -/
theorem written_of_match (h : form.match? cs = some found) :
    ∃ tag digits id dirty, Written cs tag digits id dirty ∧ Held found tag digits id dirty := by
  unfold match? form at h
  simp only [after_append, after_group] at h
  obtain ⟨tag, rest, rfl, htagne, htag, h⟩ := exists_of_after_many_eq_some h
  obtain ⟨rest, rfl, h⟩ := (after_char_eq_some _ _ _).mp h
  obtain ⟨digits, rest, rfl, hdigitsne, hdigits, h⟩ := exists_of_after_many_eq_some h
  obtain ⟨rest, rfl, h⟩ := (after_char_eq_some _ _ _).mp h
  obtain ⟨rest, rfl, h⟩ := (after_char_eq_some _ _ _).mp h
  obtain ⟨id, rest, rfl, hidne, hid, h⟩ := exists_of_after_many_eq_some h
  have hline : '\n' ∉ tag := by
    intro hmem
    exact absurd (htag '\n' hmem) (by decide)
  rw [after_optional, Option.or_eq_some_iff, after_group, after_dirtyForm_eq_some] at h
  rcases h with ⟨rest, rfl, h⟩ | ⟨-, h⟩
  · obtain ⟨rfl, hfound⟩ := after_stop_eq_some.mp h
    obtain rfl := Option.some.inj hfound
    refine ⟨tag, digits, id, true, ⟨by simp, htagne, hline, hdigitsne, hdigits, hidne, hid⟩, ?_⟩
    constructor <;>
      simp (disch := decide) only [Groups.text?_cons_self, Groups.text?_cons_of_ne,
        Option.isSome_some]
  · obtain ⟨rfl, hfound⟩ := after_stop_eq_some.mp h
    obtain rfl := Option.some.inj hfound
    refine ⟨tag, digits, id, false, ⟨by simp, htagne, hline, hdigitsne, hdigits, hidne, hid⟩, ?_⟩
    constructor <;>
      simp (disch := decide) only [Groups.text?_cons_self, Groups.text?_cons_of_ne,
        Groups.text?_nil, Option.isSome_none]

/-- **A line in the form of a description** matches. -/
theorem isSome_match {tag digits id : List Char} {dirty : Bool}
    (h : Written cs tag digits id dirty) : (form.match? cs).isSome := by
  have htag : ∀ c ∈ tag, isTagChar c = true := by
    intro c hc
    rw [isTagChar, bne_iff_ne]
    rintro rfl
    exact h.newline_not_mem_tag hc
  have hcs : cs = tag ++ ('-' :: (digits ++ ('-' :: 'g' ::
      (id ++ if dirty then dirtyMark else [])))) := by
    rw [h.line_eq]
    simp
  rw [hcs]
  unfold match? form
  simp only [after_append, after_group]
  refine isSome_after_many h.tag_ne_nil htag ?_
  rw [after_char_cons, if_pos rfl]
  refine isSome_after_many h.digits_ne_nil h.isDecimalDigit_of_mem ?_
  rw [after_char_cons, if_pos rfl, after_char_cons, if_pos rfl]
  refine isSome_after_many h.id_ne_nil h.isHexDigit_of_mem ?_
  rw [after_optional, Option.isSome_or, Bool.or_eq_true]
  cases dirty with
  | true =>
    left
    rw [after_group, if_pos rfl]
    exact Option.isSome_of_eq_some (after_dirtyForm_eq_some.mpr ⟨[], rfl, rfl⟩)
  | false => exact .inr rfl

/-- **Reading a line from its end** finds what the search for a match finds. -/
theorem ofForm?_eq_ofChars? (cs : List Char) : ofForm? cs = ofChars? cs := by
  refine Option.ext fun d => ?_
  rw [ofChars?_eq_some_iff]
  constructor
  · intro h
    obtain ⟨found, hmatch, h⟩ := Option.bind_eq_some_iff.mp h
    obtain ⟨tag, digits, id, dirty, hwritten, hheld⟩ := written_of_match hmatch
    simp only [hheld.tag_eq, hheld.digits_eq, hheld.id_eq, hheld.dirty_eq, Option.bind_eq_bind,
      Option.bind_some] at h
    obtain ⟨distance, hword, h⟩ := Option.bind_eq_some_iff.mp h
    obtain rfl := Option.some.inj h
    exact ⟨digits, hwritten, hword⟩
  · rintro ⟨digits, hwritten, hword⟩
    obtain ⟨found, hmatch⟩ := Option.isSome_iff_exists.mp (isSome_match hwritten)
    -- a line leaves the search no other parts
    obtain ⟨tag, digits', id, dirty, hwritten', hheld⟩ := written_of_match hmatch
    obtain ⟨rfl, rfl, rfl, rfl⟩ := hwritten'.unique hwritten
    unfold ofForm?
    simp only [hmatch, hheld.tag_eq, hheld.digits_eq, hheld.id_eq, hheld.dirty_eq, hword,
      Option.bind_eq_bind, Option.bind_some]

/-! ## Facts -/

/-- The facts that a description on a line states. -/
def factsOn (d : Description) (line : List Char) : VersionFacts where
  main := String.ofList (VersionFacts.mainOfTag d.tag)
  triplet := Triplet.ofChars (VersionFacts.mainOfTag d.tag)
  distance := d.distance
  commitId := some (String.ofList ('g' :: d.id))
  dirty := d.dirty
  described := some (String.ofList line)

@[simp] theorem factsOn_described (d : Description) (line : List Char) :
    (d.factsOn line).described = some (String.ofList line) := rfl

end Description

namespace VersionFacts

open Description

variable {text : String} {v : VersionFacts}

theorem ofDescription?_eq_some_iff :
    ofDescription? text = some v ↔
      ∃ d, ofChars? (Text.trim text.toList) = some d ∧ v = d.factsOn (Text.trim text.toList) := by
  unfold ofDescription?
  rw [Option.map_eq_some_iff]
  exact exists_congr fun d => and_congr_right fun _ => eq_comm

/-- The facts keep the line that they were read from. -/
theorem ofDescription?_described (h : ofDescription? text = some v) :
    v.described.bind ofDescription? = some v := by
  obtain ⟨d, hd, rfl⟩ := ofDescription?_eq_some_iff.mp h
  have hline :
      Text.trim (String.ofList (Text.trim text.toList)).toList = Text.trim text.toList := by
    rw [String.toList_ofList, Text.trim_trim]
  rw [factsOn_described, Option.bind_some, ofDescription?_eq_some_iff, hline]
  exact ⟨d, hd, rfl⟩

theorem ofDescription?_eq_some_iff_written :
    ofDescription? text = some v ↔
      ∃ (d : Description) (digits : List Char),
        Written (Text.trim text.toList) d.tag digits d.id d.dirty ∧
        (∀ c ∈ d.tag.head?, Text.isBlank c = false) ∧ (∀ c ∈ digits, c.isDigit = true) ∧
        Nat.ofDigitChars 10 digits 0 = d.distance.toNat ∧
        v = d.factsOn (Text.trim text.toList) := by
  simp only [ofDescription?_eq_some_iff, ofChars?_eq_some_iff, Text.word?_eq_some_iff]
  constructor
  · rintro ⟨d, ⟨digits, hwritten, -, hdigit, hvalue⟩, hv⟩
    have hhead := hwritten.head?_eq ▸ Text.isBlank_of_mem_head?_trim
    exact ⟨d, digits, hwritten, hhead, hdigit,
      hvalue, hv⟩
  · rintro ⟨d, digits, hwritten, -, hdigit, hvalue, hv⟩
    exact ⟨d, ⟨digits, hwritten, hwritten.digits_ne_nil, hdigit, hvalue⟩, hv⟩

/-- **A description and the facts of its checkout** determine each other. What is written of a
description is read back, whatever its tag looks like. What is read was written so, with ASCII
digits that make a word, and reading it again gives the same facts. A search through all tags that
the form of a description allows finds nothing else. -/
theorem ofDescription?_inverse :
    (∀ d : Description, d.Legible → (∀ c ∈ d.tag.head?, Text.isBlank c = false) →
      ofDescription? (String.ofList d.chars) = some (d.factsOn d.chars)) ∧
    (∀ text v, ofDescription? text = some v ↔
      ∃ (d : Description) (digits : List Char),
        Written (Text.trim text.toList) d.tag digits d.id d.dirty ∧
        (∀ c ∈ d.tag.head?, Text.isBlank c = false) ∧ (∀ c ∈ digits, c.isDigit = true) ∧
        Nat.ofDigitChars 10 digits 0 = d.distance.toNat ∧
        v = d.factsOn (Text.trim text.toList)) ∧
    (∀ text v, ofDescription? text = some v → v.described.bind ofDescription? = some v) ∧
    (∀ text, ofDescription? text =
      (ofForm? (Text.trim text.toList)).map (·.factsOn (Text.trim text.toList))) := by
  refine ⟨fun d hd hhead => ofDescription?_chars hd hhead,
    fun _ _ => ofDescription?_eq_some_iff_written, fun _ _ => ofDescription?_described, ?_⟩
  intro text
  rw [ofForm?_eq_ofChars?]
  rfl

/-- A tag that looks like the description of a checkout with pending changes, and a distance with
zeros in front on a line with white space around it. -/
theorem ofDescription?_inverse_nested :
    let d : Description := ⟨"v1.2-3-gab-dirty".toList, 4, "Cd".toList, true⟩
    d.Legible ∧ String.ofList d.chars = "v1.2-3-gab-dirty-4-gCd-dirty" ∧
      ofDescription? "v1.2-3-gab-dirty-4-gCd-dirty" =
        some ⟨"1.2-3-gab-dirty", ⟨1, 2, 0⟩, 4, some "gCd", true,
          some "v1.2-3-gab-dirty-4-gCd-dirty"⟩ ∧
      ofDescription? " V5-007-g0\n" =
        some ⟨"5", ⟨5, 0, 0⟩, 7, some "g0", false, some "V5-007-g0"⟩ := by
  intro d
  obtain ⟨hread, hform, -, -⟩ := ofDescription?_inverse
  have hlegible : d.Legible := ⟨by decide, by decide, by decide, List.all_eq_true.mp (by decide)⟩
  have hchars : String.ofList d.chars = "v1.2-3-gab-dirty-4-gCd-dirty" := by decide +kernel
  have hhead : ∀ c ∈ d.tag.head?, Text.isBlank c = false := by
    intro c hc
    obtain rfl : 'v' = c := Option.some.inj hc
    decide
  refine ⟨hlegible, hchars, ?_, ?_⟩
  · rw [← hchars, hread d hlegible hhead]
    decide +kernel
  · refine (hform _ _).mpr ⟨⟨['V', '5'], 7, ['0'], false⟩, ['0', '0', '7'], ?_, ?_, ?_, by decide,
      by decide +kernel⟩
    · exact ⟨by decide +kernel, by decide, by decide, by decide, List.all_eq_true.mp (by decide),
        by decide, List.all_eq_true.mp (by decide)⟩
    · intro c hc
      obtain rfl : 'V' = c := Option.some.inj hc
      decide
    · exact List.all_eq_true.mp (by decide)

end VersionFacts

end TagVersion
