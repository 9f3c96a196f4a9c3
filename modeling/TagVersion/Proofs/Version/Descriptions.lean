import TagVersion.Proofs.Branches
import TagVersion.Version.Description

/-!
# Reading descriptions

A description is read from its end, where neither the id nor the distance holds a hyphen. So a line
describes a checkout in one way at most, whatever its tag looks like: hyphens, numbers and even the
mark of pending changes may stand in a tag.

* **`Description.Written`**: a line in the form of a description, part by part.
* **`Description.Written.unique`**: its parts are settled.
* **`Description.ofChars?_eq_some_iff`**: what is read off a line.
* **`Description.Legible`**, **`Description.ofChars?_chars`**: a description is read back from what
  it is written as.
* **`VersionFacts.ofDescription?_chars`**: so are its facts.
-/

namespace TagVersion

namespace Text

/-- A text without blanks at its ends has nothing to trim. -/
theorem trim_of_ends {cs : List Char} (hhead : ∀ c ∈ cs.head?, isBlank c = false)
    (hlast : ∀ c ∈ cs.getLast?, isBlank c = false) : trim cs = cs := by
  have hfront : cs.dropWhile isBlank = cs := by
    cases cs with
    | nil => rfl
    | cons c cs =>
      refine List.dropWhile_cons_of_neg ?_
      rw [hhead c rfl]
      exact Bool.false_ne_true
  unfold trim
  rw [hfront, dropEndWhile_eq_rdropWhile, List.rdropWhile_eq_self_iff]
  intro hne
  rw [hlast _ (List.getLast?_eq_some_getLast hne)]
  exact Bool.false_ne_true

theorem natural?_eq_some_iff {cs : List Char} {n : Nat} :
    natural? cs = some n ↔
      cs ≠ [] ∧ (∀ c ∈ cs, c.isDigit = true) ∧ Nat.ofDigitChars 10 cs 0 = n := by
  unfold natural?
  simp only [Bool.and_eq_true, Bool.not_eq_true', List.isEmpty_eq_false_iff, List.all_eq_true]
  split
  · next h => rw [Option.some.injEq, and_iff_right h.1, and_iff_right h.2]
  · next h =>
    refine iff_of_false nofun ?_
    rintro ⟨hne, hdigits, -⟩
    exact h ⟨hne, hdigits⟩

/-- A word is read off its digits, however many zeros stand in front. -/
theorem word?_eq_some_iff {cs : List Char} {w : UInt64} :
    word? cs = some w ↔
      cs ≠ [] ∧ (∀ c ∈ cs, c.isDigit = true) ∧ Nat.ofDigitChars 10 cs 0 = w.toNat := by
  rw [← natural?_eq_some_iff]
  unfold word?
  cases natural? cs with
  | none => simp
  | some n =>
    simp only [Option.bind_eq_bind, Option.bind_some, Option.some.injEq]
    split
    · next hlt =>
      rw [Option.some.injEq, ← UInt64.toNat_inj, UInt64.toNat_ofNat_of_lt' hlt]
    · next hlt =>
      refine iff_of_false nofun ?_
      rintro rfl
      exact hlt w.toNat_lt_size

end Text

namespace Description

variable {d : Description}

/-! ## Hexadecimal digits -/

theorem ne_of_isHexDigit {c other : Char} (h : isHexDigit c = true)
    (hother : isHexDigit other = false) : c ≠ other := by
  rintro rfl
  rw [h] at hother
  exact Bool.true_eq_false.mp hother

theorem isBlank_of_isHexDigit {c : Char} (h : isHexDigit c = true) : Text.isBlank c = false := by
  -- the digits lie in three ranges, and none of the blanks in any of them
  have hbounds : ('0' : Char).toNat = 48 ∧ ('9' : Char).toNat = 57 ∧ ('a' : Char).toNat = 97 ∧
      ('f' : Char).toNat = 102 ∧ ('A' : Char).toNat = 65 ∧ ('F' : Char).toNat = 70 := by decide
  unfold isHexDigit Char.isDigit at h
  unfold Text.isBlank
  simp only [Bool.or_eq_true, Bool.and_eq_true, decide_eq_true_eq, Char.le_def, ge_iff_le,
    UInt32.le_iff_toNat_le, Char.toNat_val] at h
  simp only [Bool.or_eq_false_iff, Bool.and_eq_false_iff, decide_eq_false_iff_not,
    beq_eq_false_iff_ne]
  omega

/-! ## Reading from the end -/

/-- A line in the form of a description; the digits of the distance can be those of any script. -/
structure Written (line tag digits id : List Char) (dirty : Bool) : Prop where
  line_eq :
    line = tag ++ '-' :: digits ++ '-' :: 'g' :: id ++ if dirty then dirtyMark else []
  tag_ne_nil : tag ≠ []
  newline_not_mem_tag : '\n' ∉ tag
  digits_ne_nil : digits ≠ []
  isDecimalDigit_of_mem : ∀ c ∈ digits, Text.isDecimalDigit c = true
  id_ne_nil : id ≠ []
  isHexDigit_of_mem : ∀ c ∈ id, isHexDigit c = true

namespace Written

variable {line tag digits id tag' digits' id' : List Char} {dirty dirty' : Bool}

theorem getLast?_body (h : Written line tag digits id dirty) :
    (tag ++ '-' :: digits ++ '-' :: 'g' :: id).getLast? = id.getLast? := by
  rw [List.getLast?_append_of_ne_nil _ (by simp), List.getLast?_cons_of_ne_nil (by simp),
    List.getLast?_cons_of_ne_nil h.id_ne_nil]

theorem cutDirtyMark_eq (h : Written line tag digits id dirty) :
    cutDirtyMark line = (tag ++ '-' :: digits ++ '-' :: 'g' :: id, dirty) := by
  have hlast := h.getLast?_body
  rw [h.line_eq]
  generalize tag ++ '-' :: digits ++ '-' :: 'g' :: id = body at hlast ⊢
  unfold cutDirtyMark
  cases dirty with
  | true =>
    have hmark : dirtyMark.isSuffixOf (body ++ dirtyMark) = true :=
      List.isSuffixOf_iff_suffix.mpr (List.suffix_append body dirtyMark)
    rw [if_pos rfl, if_pos hmark, List.length_append, Nat.add_sub_cancel, List.take_left]
  | false =>
    -- an id ends with a digit
    have hmark : ¬ dirtyMark.isSuffixOf body = true := by
      rw [List.isSuffixOf_iff_suffix]
      rintro ⟨front, hfront⟩
      have hy : id.getLast? = some 'y' := by
        rw [← hlast, ← hfront]
        simp [dirtyMark]
      exact ne_of_isHexDigit (h.isHexDigit_of_mem 'y' (List.mem_of_getLast? hy)) (by decide) rfl
    rw [if_neg Bool.false_ne_true, List.append_nil, if_neg hmark]

/-- The id has no hyphen, so the last one stands before its letter. -/
theorem cutLast_id (h : Written line tag digits id dirty) :
    Text.cutLast '-' (tag ++ '-' :: digits ++ '-' :: 'g' :: id) =
      some (tag ++ '-' :: digits, 'g' :: id) := by
  refine Text.cutLast_eq_some_iff.mpr ⟨rfl, ?_⟩
  intro hmem
  rcases List.mem_cons.mp hmem with heq | hmem
  · exact absurd heq (by decide)
  · exact ne_of_isHexDigit (h.isHexDigit_of_mem '-' hmem) (by decide) rfl

theorem cutLast_distance (h : Written line tag digits id dirty) :
    Text.cutLast '-' (tag ++ '-' :: digits) = some (tag, digits) := by
  have hhyphen : Text.isDecimalDigit '-' = false := by decide
  refine Text.cutLast_eq_some_iff.mpr ⟨rfl, fun hmem => ?_⟩
  exact absurd (h.isDecimalDigit_of_mem '-' hmem) (Bool.eq_false_iff.mp hhyphen)

/-- **The parts of a line** are settled by it: a tag that looks like a description of its own does
not shift them. -/
theorem unique (h : Written line tag digits id dirty) (h' : Written line tag' digits' id' dirty') :
    tag = tag' ∧ digits = digits' ∧ id = id' ∧ dirty = dirty' := by
  have hmark := h.cutDirtyMark_eq.symm.trans h'.cutDirtyMark_eq
  obtain ⟨hbody, rfl⟩ := Prod.mk.inj hmark
  have hid := h.cutLast_id
  rw [hbody, h'.cutLast_id] at hid
  obtain ⟨hfront, htail⟩ := Prod.mk.inj (Option.some.inj hid)
  have hdistance := h'.cutLast_distance
  rw [hfront, h.cutLast_distance] at hdistance
  obtain ⟨rfl, rfl⟩ := Prod.mk.inj (Option.some.inj hdistance)
  exact ⟨rfl, rfl, (List.cons.inj htail).2.symm, rfl⟩

theorem head?_eq (h : Written line tag digits id dirty) : line.head? = tag.head? := by
  obtain ⟨c, cs, htag⟩ := List.exists_cons_of_ne_nil h.tag_ne_nil
  rw [h.line_eq, htag]
  rfl

/-- White space could only stand before the tag. -/
theorem trim_eq (h : Written line tag digits id dirty)
    (hhead : ∀ c ∈ tag.head?, Text.isBlank c = false) : Text.trim line = line := by
  have hlast := h.getLast?_body
  refine Text.trim_of_ends ?_ ?_
  · rwa [h.head?_eq]
  · intro c hc
    rw [h.line_eq] at hc
    cases dirty with
    | true =>
      rw [if_pos rfl, List.getLast?_append_of_ne_nil _ (by decide)] at hc
      obtain rfl : 'y' = c := by simpa [dirtyMark] using hc
      decide
    | false =>
      rw [if_neg Bool.false_ne_true, List.append_nil, hlast] at hc
      exact isBlank_of_isHexDigit
        (h.isHexDigit_of_mem c (List.mem_of_getLast? (Option.mem_def.mp hc)))

end Written

theorem cutDirtyMark_fst_append (cs : List Char) :
    cs = (cutDirtyMark cs).1 ++ if (cutDirtyMark cs).2 then dirtyMark else [] := by
  unfold cutDirtyMark
  split
  · next hmark =>
    obtain ⟨front, rfl⟩ := List.isSuffixOf_iff_suffix.mp hmark
    simp
  · simp

/-- **What is read off a line**: the parts of its form, if the distance is a word. -/
theorem ofChars?_eq_some_iff {cs : List Char} :
    ofChars? cs = some d ↔
      ∃ digits, Written cs d.tag digits d.id d.dirty ∧ Text.word? digits = some d.distance := by
  constructor
  · intro h
    have hcs := cutDirtyMark_fst_append cs
    unfold ofChars? at h
    generalize cutDirtyMark cs = cut at h hcs
    obtain ⟨body, dirty⟩ := cut
    obtain ⟨⟨front, mark⟩, hid, h⟩ := Option.bind_eq_some_iff.mp h
    obtain ⟨⟨tag, digits⟩, hdistance, h⟩ := Option.bind_eq_some_iff.mp h
    obtain ⟨distance, hword, h⟩ := Option.bind_eq_some_iff.mp h
    obtain ⟨hbody, -⟩ := Text.cutLast_eq_some_iff.mp hid
    obtain ⟨hfront, -⟩ := Text.cutLast_eq_some_iff.mp hdistance
    obtain ⟨hdigits, hdigit, -⟩ := Text.word?_eq_some_iff.mp hword
    -- the checks of the parts are those of a written line
    split at h
    · next id =>
      split at h
      · next hparts =>
        simp only [Bool.and_eq_true, Bool.not_eq_true', List.isEmpty_eq_false_iff, List.all_eq_true,
          List.contains_eq_mem, decide_eq_false_iff_not] at hparts
        obtain ⟨⟨⟨hne, hhex⟩, htag⟩, hline⟩ := hparts
        obtain rfl := Option.some.inj h
        refine ⟨digits, ⟨?_, htag, hline, hdigits, ?_, hne, hhex⟩, hword⟩
        · rw [hcs, hbody, hfront]
        · exact fun c hc => Text.isDecimalDigit_of_isDigit (hdigit c hc)
      · exact absurd h nofun
    · exact absurd h nofun
  · rintro ⟨digits, hwritten, hword⟩
    unfold ofChars?
    rw [hwritten.cutDirtyMark_eq]
    simp only [hwritten.cutLast_id, hwritten.cutLast_distance, hword, Option.bind_eq_bind,
      Option.bind_some]
    refine if_pos ?_
    simp only [Bool.and_eq_true, Bool.not_eq_true', List.isEmpty_eq_false_iff, List.all_eq_true,
      List.contains_eq_mem, decide_eq_false_iff_not]
    exact ⟨⟨⟨hwritten.id_ne_nil, hwritten.isHexDigit_of_mem⟩, hwritten.tag_ne_nil⟩,
      hwritten.newline_not_mem_tag⟩

/-! ## Reading what was written -/

/-- A description that its written form determines. -/
structure Legible (d : Description) : Prop where
  tag_ne_nil : d.tag ≠ []
  not_mem_newline : '\n' ∉ d.tag
  id_ne_nil : d.id ≠ []
  isHexDigit_of_mem : ∀ c ∈ d.id, isHexDigit c = true

theorem written_chars (h : d.Legible) :
    Written d.chars d.tag (Text.numeral d.distance) d.id d.dirty := by
  obtain ⟨hne, hdigit, -⟩ := Text.word?_eq_some_iff.mp (Text.word?_numeral d.distance)
  exact ⟨rfl, h.tag_ne_nil, h.not_mem_newline, hne,
    fun c hc => Text.isDecimalDigit_of_isDigit (hdigit c hc), h.id_ne_nil, h.isHexDigit_of_mem⟩

/-- **A description** is read back from its written form. -/
theorem ofChars?_chars (h : d.Legible) : ofChars? d.chars = some d :=
  ofChars?_eq_some_iff.mpr ⟨_, written_chars h, Text.word?_numeral d.distance⟩

end Description

namespace VersionFacts

variable {d : Description}

/-- **The facts** of a description are read off its written form. -/
theorem ofDescription?_chars (h : d.Legible) (hhead : ∀ c ∈ d.tag.head?, Text.isBlank c = false) :
    ofDescription? (String.ofList d.chars) =
      some { d.facts with described := some (String.ofList d.chars) } := by
  have htrim : Text.trim d.chars = d.chars := (Description.written_chars h).trim_eq hhead
  unfold ofDescription?
  simp only [String.toList_ofList, htrim, Description.ofChars?_chars h, Option.map_some]

end VersionFacts

end TagVersion
