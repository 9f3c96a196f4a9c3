import Mathlib
import TagVersion.Strategy.Basic

/-!
# The split of a compact declaration

A compact declaration is read with a regular expression that leaves choices open: the lead may be
there or not, the main format is as short as possible, and the extra format may be missing. This
module shows that a text leaves no choice in the end, so that reading it is a plain split from
left to right.

* **`lead_after`**: the lead matches what `cutLead?` takes off a text, and in no other way.
* **`formats_after`**, **`formats_after_lines`**: the formats match a single line in the way of
  `cutTail`, and nothing else.
* **`ofChars_eq_split`**: reading a declaration gives the parts of its split.
-/

namespace TagVersion

namespace Compact

open Text.Regex

/-! ## The lead -/

/-- The lead of a text: `tag:`, or the same with a branch list in brackets. -/
inductive Lead : List Char → Option (List Char) → List Char → Prop where
  | bare (body : List Char) : Lead ('t' :: 'a' :: 'g' :: ':' :: body) none body
  | listed {names : List Char} (body : List Char) (hne : names ≠ [])
      (hnames : ∀ c ∈ names, isBranchChar c = true) :
      Lead ('t' :: 'a' :: 'g' :: '(' :: (names ++ ')' :: ':' :: body)) (some names) body

/-- Takes the lead off a text, and the branch list if there is one in it. -/
def cutLead? (cs : List Char) : Option (Option (List Char) × List Char) :=
  match cs with
  | 't' :: 'a' :: 'g' :: ':' :: body => some (none, body)
  | 't' :: 'a' :: 'g' :: '(' :: inner =>
    match inner.takeWhile isBranchChar, inner.dropWhile isBranchChar with
    | c :: names, ')' :: ':' :: body => some (some (c :: names), body)
    | _, _ => none
  | _ => none

/-- Cuts the formats at their first separator. -/
def cutTail (cs : List Char) : List Char × Option (Char × List Char) :=
  match cs.dropWhile (!isSeparator ·) with
  | [] => (cs, none)
  | separator :: extra => (cs.takeWhile (!isSeparator ·), some (separator, extra))

theorem not_isBranchChar_close : isBranchChar ')' = false := by decide

/-- A branch list ends at its closing bracket, which is none of its characters. -/
theorem takeWhile_branchList {names : List Char} (rest : List Char)
    (h : ∀ c ∈ names, isBranchChar c = true) :
    (names ++ ')' :: rest).takeWhile isBranchChar = names ∧
      (names ++ ')' :: rest).dropWhile isBranchChar = ')' :: rest := by
  rw [List.takeWhile_append_of_pos h, List.dropWhile_append_of_pos h]
  simp [not_isBranchChar_close]

theorem cutLead?_eq_some_iff {cs body : List Char} {listed : Option (List Char)} :
    cutLead? cs = some (listed, body) ↔ Lead cs listed body := by
  constructor
  · intro h
    -- along the patterns of `cutLead?`: what its run takes are the characters of a branch list
    unfold cutLead? at h
    split at h
    · obtain ⟨rfl, rfl⟩ := Prod.mk.inj (Option.some.inj h)
      exact .bare _
    · next inner =>
      split at h
      · next c names rest htake hdrop =>
        obtain ⟨rfl, rfl⟩ := Prod.mk.inj (Option.some.inj h)
        have hinner : c :: names ++ ')' :: ':' :: rest = inner := by
          rw [← htake, ← hdrop, List.takeWhile_append_dropWhile]
        rw [← hinner]
        refine .listed rest (List.cons_ne_nil c names) ?_
        intro d hd
        rw [← htake] at hd
        exact List.mem_takeWhile_imp hd
      · exact absurd h (by simp)
    · exact absurd h (by simp)
  · rintro (_ | ⟨_, hne, hnames⟩)
    · rfl
    · next names =>
      obtain ⟨htake, hdrop⟩ := takeWhile_branchList (':' :: body) hnames
      unfold cutLead?
      simp only
      rw [htake, hdrop]
      cases names with
      | nil => exact absurd rfl hne
      | cons c names => rfl

/-! ## Matching the lead

The run of a branch list cannot end early, so giving back some of its characters never helps. -/

section

variable {α : Type} {next : List Char → Groups → Option α} {found : Groups}

theorem branchList_after_eq_some {cs : List Char} {a : α} :
    branchList.after next cs found = some a ↔
      ∃ names rest, names ≠ [] ∧ (∀ c ∈ names, isBranchChar c = true) ∧
        cs = '(' :: (names ++ ')' :: rest) ∧ next rest ((2, cs, rest) :: found) = some a := by
  -- a shorter run is followed by a branch character, which is no closing bracket
  have hrun : ∀ (next : List Char → Groups → Option α) (ds : List Char),
      afterRun true isBranchChar (fun rest => (char ')').after next rest found) ds
        = (char ')').after next (ds.dropWhile isBranchChar) found := by
    intro next ds
    refine afterRun_greedy ?_ ds
    intro c cs hc
    have hne : c ≠ ')' := by
      rintro rfl
      rw [not_isBranchChar_close] at hc
      exact absurd hc (by decide)
    rw [after_char_cons, if_neg hne]
  unfold branchList
  simp only [after_group, after_append, after_run, after_char_eq_some, after_one_eq_some, hrun]
  constructor
  · rintro ⟨inner, hcs, c, ds, rfl, hc, rest, hrest, h⟩
    refine ⟨c :: ds.takeWhile isBranchChar, rest, List.cons_ne_nil _ _, ?_, ?_, h⟩
    · intro d hd
      rcases List.mem_cons.mp hd with rfl | hd
      · exact hc
      · exact List.mem_takeWhile_imp hd
    · rw [hcs, List.cons_append, ← hrest, List.takeWhile_append_dropWhile]
  · rintro ⟨names, rest, hne, hnames, hcs, h⟩
    obtain ⟨c, ds, rfl⟩ := List.exists_cons_of_ne_nil hne
    have hds : ∀ d ∈ ds, isBranchChar d = true := fun d hd => hnames d (List.mem_cons_of_mem c hd)
    exact ⟨_, hcs, c, _, rfl, hnames c (List.mem_cons_self ..), rest,
      (takeWhile_branchList rest hds).2, h⟩

/-- What the groups hold after the lead. -/
def leadGroups (cs : List Char) (listed : Option (List Char)) (body : List Char) : Groups :=
  match listed with
  | none => [(1, cs, body)]
  | some names => [(1, cs, body), (2, '(' :: (names ++ ')' :: ':' :: body), ':' :: body)]

theorem lead_after_eq_some {cs : List Char} {a : α} :
    lead.after next cs [] = some a ↔
      ∃ listed body, Lead cs listed body ∧ next body (leadGroups cs listed body) = some a := by
  unfold lead
  simp only [after_group, after_append, after_optional, after_char_eq_some,
    branchList_after_eq_some, Option.or_eq_some_iff]
  constructor
  · rintro ⟨_, hcs, _, rfl, _, rfl, hlist | hbare⟩
    · obtain ⟨names, _, hne, hnames, rfl, body, rfl, h⟩ := hlist
      subst hcs
      exact ⟨some names, body, .listed body hne hnames, h⟩
    · obtain ⟨-, body, rfl, h⟩ := hbare
      subst hcs
      exact ⟨none, body, .bare body, h⟩
  · rintro ⟨listed, body, hlead, h⟩
    cases hlead with
    | bare =>
      refine ⟨_, rfl, _, rfl, _, rfl, .inr ⟨?_, _, rfl, h⟩⟩
      -- a colon opens no branch list
      rw [Option.eq_none_iff_forall_ne_some]
      intro b hb
      obtain ⟨names, rest, -, -, heq, -⟩ := branchList_after_eq_some.mp hb
      exact absurd (List.cons.inj heq).1 (by decide)
    | listed _ hne hnames =>
      exact ⟨_, rfl, _, rfl, _, rfl, .inl ⟨_, _, hne, hnames, rfl, body, rfl, h⟩⟩

/-- **The lead.** It matches what `cutLead?` takes off a text, and in no other way. -/
theorem lead_after (cs : List Char) :
    lead.after next cs [] =
      (cutLead? cs).elim none fun (listed, body) => next body (leadGroups cs listed body) := by
  refine Option.ext fun a => ?_
  rw [lead_after_eq_some]
  constructor
  · rintro ⟨listed, body, hlead, h⟩
    rw [cutLead?_eq_some_iff.mpr hlead]
    exact h
  · intro h
    cases hcut : cutLead? cs with
    | none =>
      rw [hcut] at h
      exact absurd h (by simp)
    | some cut =>
      rw [hcut] at h
      exact ⟨cut.1, cut.2, cutLead?_eq_some_iff.mp hcut, h⟩

end

/-! ## Matching the formats

The extra format runs to the end of the text, so it stops the match where a line ends before
that. The main format is as short as possible, and a shorter one than up to the first separator
is followed neither by a separator nor by the end. -/

theorem isFormatChar_eq_false_iff {c : Char} : isFormatChar c = false ↔ c = '\n' := by
  unfold isFormatChar
  rw [bne_eq_false_iff_eq]

theorem dropWhile_isFormatChar_eq_nil_iff {cs : List Char} :
    cs.dropWhile isFormatChar = [] ↔ '\n' ∉ cs := by
  rw [List.dropWhile_eq_nil_iff]
  constructor
  · intro h hmem
    have hline := h '\n' hmem
    rw [isFormatChar_eq_false_iff.mpr rfl] at hline
    exact absurd hline (by decide)
  · intro h c hc
    rw [← Bool.not_eq_false, isFormatChar_eq_false_iff]
    rintro rfl
    exact h hc

/-- A run to the end takes a single line. -/
theorem afterRun_line (groups : List Char → Groups) (cs : List Char) :
    afterRun true isFormatChar (fun rest => stop.after accept rest (groups rest)) cs =
      if '\n' ∈ cs then none else some (groups []) := by
  refine (afterRun_greedy (fun _ _ _ => rfl) cs).trans ?_
  cases hrest : cs.dropWhile isFormatChar with
  | nil =>
    rw [dropWhile_isFormatChar_eq_nil_iff] at hrest
    rw [if_neg hrest]
    rfl
  | cons d ds =>
    have hline : '\n' ∈ cs := by
      by_contra hline
      rw [dropWhile_isFormatChar_eq_nil_iff.mpr hline] at hrest
      exact absurd hrest (by simp)
    rw [if_pos hline]
    rfl

/-- What the groups hold after the extra format. -/
def tailGroups (separator : Char) (extra : List Char) (found : Groups) : Groups :=
  (4, separator :: extra, []) :: (5, Template.unforced extra, []) :: found

theorem extraTail_after (c : Char) (extra : List Char) (found : Groups) :
    extraTail.after (stop.after accept) (c :: extra) found =
      if isSeparator c ∧ '\n' ∉ extra then some (tailGroups c extra found) else none := by
  have hend : ∀ cs, (group 5 (run true isFormatChar)).after
      (fun rest found => stop.after accept rest ((4, c :: extra, rest) :: found)) cs found =
        if '\n' ∈ cs then none else some ((4, c :: extra, []) :: (5, cs, []) :: found) := by
    intro cs
    rw [after_group, after_run]
    exact afterRun_line (fun rest => (4, c :: extra, rest) :: (5, cs, rest) :: found) cs
  unfold extraTail
  rw [after_group, after_append, after_append, after_one_cons, after_optional]
  by_cases hc : isSeparator c = true
  · rw [if_pos hc, hend extra]
    by_cases hline : '\n' ∈ extra
    · rw [if_pos hline, if_neg (fun h => h.2 hline), Option.or_none]
      -- taking the mark off leaves the line end
      rw [Option.eq_none_iff_forall_ne_some]
      intro a ha
      obtain ⟨rest, rfl, hrest⟩ := (after_char_eq_some ..).mp ha
      have hmem : '\n' ∈ rest := by simpa using hline
      rw [hend rest, if_pos hmem] at hrest
      exact absurd hrest (by simp)
    · rw [if_neg hline, if_pos ⟨hc, hline⟩]
      -- a mark at the start is matched on its own, and the group begins after it
      cases extra with
      | nil => rfl
      | cons d rest =>
        rw [after_char_cons]
        by_cases hd : d = '!'
        · subst hd
          have hmem : '\n' ∉ rest := fun h => hline (List.mem_cons_of_mem _ h)
          rw [if_pos rfl, hend rest, if_neg hmem]
          rfl
        · rw [if_neg hd, Option.none_or]
          unfold tailGroups Template.unforced
          split
          · next heq => exact absurd (List.cons.inj heq).1 hd
          · rfl
  · rw [if_neg hc, if_neg (fun h => hc h.1)]

/-- What the groups hold after the formats. -/
def formatGroups (cs : List Char) (found : Groups) : Groups :=
  match (cutTail cs).2 with
  | none => (3, cs, []) :: found
  | some (separator, extra) => tailGroups separator extra ((3, cs, separator :: extra) :: found)

/-- The end of the formats, from a place in them on. -/
theorem formatsEnd_after (cs : List Char) (found : Groups) :
    (optional extraTail).after (stop.after accept) cs found =
      match cs with
      | [] => some found
      | c :: extra =>
        if isSeparator c ∧ '\n' ∉ extra then some (tailGroups c extra found) else none := by
  rw [after_optional]
  cases cs with
  | nil => rfl
  | cons c extra => rw [extraTail_after, after_stop_cons, Option.or_none]

/-- **The formats** of a single line match it in the way of `cutTail`. -/
theorem formats_after {cs : List Char} (hline : '\n' ∉ cs) (found : Groups) :
    formats.after accept cs found = some (formatGroups cs found) := by
  unfold formats
  rw [after_append, after_append, after_group, after_run]
  have hcs : cs.takeWhile (!isSeparator ·) ++ cs.dropWhile (!isSeparator ·) = cs :=
    List.takeWhile_append_dropWhile
  have hmain : ∀ c ∈ cs.takeWhile (!isSeparator ·), isSeparator c = false := by
    intro c hc
    have hsep := List.mem_takeWhile_imp hc
    rwa [Bool.not_eq_true'] at hsep
  -- the main format grows up to the first separator, or else to the end
  have key : afterRun false isFormatChar
      (fun rest => (optional extraTail).after (stop.after accept) rest ((3, cs, rest) :: found))
      (cs.takeWhile (!isSeparator ·) ++ cs.dropWhile (!isSeparator ·)) =
        some (formatGroups cs found) := by
    refine afterRun_reluctant ?_ ?_ ?_
    · intro c hc
      rw [← Bool.not_eq_false, isFormatChar_eq_false_iff]
      rintro rfl
      rw [← hcs] at hline
      exact hline (List.mem_append_left _ hc)
    · intro c rest hc
      rw [formatsEnd_after]
      show (if _ then _ else _) = none
      rw [if_neg]
      intro h
      rw [hmain c hc] at h
      exact absurd h.1 (by decide)
    · rw [formatsEnd_after]
      unfold formatGroups cutTail
      cases hrest : cs.dropWhile (!isSeparator ·) with
      | nil => rfl
      | cons c extra =>
        have hsep : isSeparator c = true := by
          have hhead := List.head?_dropWhile_not (!isSeparator ·) cs
          rw [hrest] at hhead
          simpa using hhead
        have hextra : '\n' ∉ extra := by
          intro hmem
          rw [← hcs, hrest] at hline
          exact hline (List.mem_append_right _ (List.mem_cons_of_mem c hmem))
        show (if _ then _ else _) = _
        rw [if_pos ⟨hsep, hextra⟩]
  rw [hcs] at key
  exact key

/-- The formats match no text of several lines. -/
theorem formats_after_lines {cs : List Char} (hline : '\n' ∈ cs) (found : Groups) :
    formats.after accept cs found = none := by
  unfold formats
  rw [after_append, after_append, after_group, after_run]
  -- wherever the main format ends, the line end is still to come
  refine afterRun_eq_none fun before rest hcs hbefore => ?_
  have hrest : '\n' ∈ rest := by
    rw [hcs] at hline
    rcases List.mem_append.mp hline with hmem | hmem
    · have hchar := hbefore _ hmem
      rw [isFormatChar_eq_false_iff.mpr rfl] at hchar
      exact absurd hchar (by decide)
    · exact hmem
  rw [formatsEnd_after]
  cases rest with
  | nil => exact absurd hrest (by simp)
  | cons c extra =>
    show (if _ then _ else _) = none
    rw [if_neg]
    rintro ⟨hsep, hextra⟩
    rcases List.mem_cons.mp hrest with rfl | hmem
    · exact absurd hsep (by decide)
    · exact hextra hmem

/-! ## The parts of a declaration -/

theorem cutTail_fst_append (cs : List Char) :
    (cutTail cs).1 ++ ((cutTail cs).2.elim [] fun (separator, extra) => separator :: extra) = cs := by
  have hcs : cs.takeWhile (!isSeparator ·) ++ cs.dropWhile (!isSeparator ·) = cs :=
    List.takeWhile_append_dropWhile
  unfold cutTail
  cases hrest : cs.dropWhile (!isSeparator ·) with
  | nil => exact List.append_nil cs
  | cons c extra =>
    rw [hrest] at hcs
    exact hcs

theorem cutTail_fst_isSeparator {cs : List Char} {c : Char} (h : c ∈ (cutTail cs).1) :
    isSeparator c = false := by
  rw [← Bool.not_eq_true']
  unfold cutTail at h
  cases hrest : cs.dropWhile (!isSeparator ·) with
  | nil =>
    rw [hrest] at h
    exact List.dropWhile_eq_nil_iff.mp hrest c h
  | cons d extra =>
    rw [hrest] at h
    have hmem : c ∈ cs.takeWhile (!isSeparator ·) := h
    exact @List.mem_takeWhile_imp _ (!isSeparator ·) _ _ hmem

theorem cutTail_snd_isSeparator {cs : List Char} {tail : Char × List Char}
    (h : (cutTail cs).2 = some tail) : isSeparator tail.1 = true := by
  have hhead := List.head?_dropWhile_not (!isSeparator ·) cs
  unfold cutTail at h
  cases hrest : cs.dropWhile (!isSeparator ·) with
  | nil =>
    rw [hrest] at h
    exact absurd h (by simp)
  | cons d extra =>
    rw [hrest] at h hhead
    obtain rfl := Option.some.inj h
    simpa using hhead

/-- The formats are cut where they were put together. -/
theorem cutTail_append {main extra : List Char} {separator : Char}
    (hmain : ∀ c ∈ main, isSeparator c = false) (hseparator : isSeparator separator = true) :
    cutTail (main ++ separator :: extra) = (main, some (separator, extra)) := by
  have hpos : ∀ c ∈ main, (!isSeparator c) = true := by
    intro c hc
    rw [hmain c hc]
    rfl
  unfold cutTail
  rw [List.dropWhile_append_of_pos hpos, List.takeWhile_append_of_pos hpos]
  simp [hseparator]

/-- The second group holds the branch list with its brackets. -/
theorem leadGroups_text?_two (cs body : List Char) (listed : Option (List Char)) :
    (leadGroups cs listed body).text? 2 = listed.map fun names => '(' :: (names ++ [')']) := by
  cases listed with
  | none => rfl
  | some names =>
    have h := Groups.text?_cons_self 2 ('(' :: (names ++ [')'])) (':' :: body) []
    rw [List.cons_append, List.append_assoc] at h
    exact h

theorem leadGroups_text?_four (cs body : List Char) (listed : Option (List Char)) :
    (leadGroups cs listed body).text? 4 = none := by
  cases listed <;> rfl

theorem formatGroups_text?_two (cs : List Char) (found : Groups) :
    (formatGroups cs found).text? 2 = found.text? 2 := by
  unfold formatGroups tailGroups
  cases (cutTail cs).2 <;> rfl

/-- The third group holds the main format. -/
theorem formatGroups_text?_three (cs : List Char) (found : Groups) :
    (formatGroups cs found).text? 3 = some (cutTail cs).1 := by
  have hcs := cutTail_fst_append cs
  unfold formatGroups tailGroups
  cases htail : (cutTail cs).2 with
  | none =>
    rw [htail] at hcs
    have h := Groups.text?_cons_self 3 (cutTail cs).1 [] found
    rwa [show (cutTail cs).1 ++ [] = cs from hcs] at h
  | some tail =>
    rw [htail] at hcs
    have h := Groups.text?_cons_self 3 (cutTail cs).1 (tail.1 :: tail.2) found
    rwa [show (cutTail cs).1 ++ tail.1 :: tail.2 = cs from hcs] at h

/-- The fourth group holds the separator and the extra format. -/
theorem formatGroups_text?_four (cs : List Char) {found : Groups} (hfound : found.text? 4 = none) :
    (formatGroups cs found).text? 4 =
      (cutTail cs).2.map fun (separator, extra) => separator :: extra := by
  unfold formatGroups tailGroups
  cases (cutTail cs).2 with
  | none => exact hfound
  | some tail =>
    have h := Groups.text?_cons_self 4 (tail.1 :: tail.2) []
    rw [List.append_nil] at h
    exact h _

theorem ofGroups_formatGroups (cs : List Char) {found : Groups} (hfound : found.text? 4 = none) :
    ofGroups (formatGroups cs found) =
      { branches := found.text? 2, main := (cutTail cs).1, tail := (cutTail cs).2 } := by
  unfold ofGroups
  rw [formatGroups_text?_two, formatGroups_text?_three, formatGroups_text?_four cs hfound]
  cases (cutTail cs).2 <;> rfl

/-- The parts of a text by its split. -/
def split (cs : List Char) : Compact :=
  let (listed, body) := (cutLead? cs).getD (none, cs)
  if '\n' ∈ body then { branches := none, main := [], tail := none }
  else
    { branches := listed.map fun names => '(' :: (names ++ [')'])
      main := (cutTail body).1
      tail := (cutTail body).2 }

theorem Lead.mem {cs body : List Char} {listed : Option (List Char)} (h : Lead cs listed body)
    {c : Char} (hc : c ∈ body) : c ∈ cs := by
  cases h with
  | bare => simp [hc]
  | listed => simp [hc]

theorem form_match?_eq (cs : List Char) :
    form.match? cs =
      (lead.after (formats.after accept) cs []).or (formats.after accept cs []) := rfl

theorem ofChars_of_match {cs : List Char} {found : Groups} (h : form.match? cs = some found) :
    ofChars cs = ofGroups found := by
  unfold ofChars
  rw [h]

theorem ofChars_of_no_match {cs : List Char} (h : form.match? cs = none) :
    ofChars cs = { branches := none, main := [], tail := none } := by
  unfold ofChars
  rw [h]

/-- **Reading a declaration** gives the parts of its split. -/
theorem ofChars_eq_split (cs : List Char) : ofChars cs = split cs := by
  have hform := form_match?_eq cs
  rw [lead_after] at hform
  unfold split
  cases hcut : cutLead? cs with
  | none =>
    rw [hcut, Option.elim_none, Option.none_or] at hform
    show ofChars cs = if '\n' ∈ cs then _ else _
    by_cases hline : '\n' ∈ cs
    · rw [formats_after_lines hline] at hform
      rw [if_pos hline, ofChars_of_no_match hform]
    · rw [formats_after hline] at hform
      rw [if_neg hline, ofChars_of_match hform]
      exact ofGroups_formatGroups cs (Groups.text?_nil 4)
  | some cut =>
    obtain ⟨listed, body⟩ := cut
    rw [hcut, Option.elim_some] at hform
    have hform : form.match? cs = (formats.after accept body (leadGroups cs listed body)).or
        (formats.after accept cs []) := hform
    show ofChars cs = if '\n' ∈ body then _ else _
    by_cases hline : '\n' ∈ body
    · -- without the lead the text still has several lines
      have hcs : '\n' ∈ cs := (cutLead?_eq_some_iff.mp hcut).mem hline
      rw [formats_after_lines hline, formats_after_lines hcs] at hform
      rw [if_pos hline, ofChars_of_no_match hform]
    · rw [formats_after hline, Option.some_or] at hform
      rw [if_neg hline, ofChars_of_match hform, ← leadGroups_text?_two cs body listed]
      exact ofGroups_formatGroups body (leadGroups_text?_four cs body listed)

end Compact

end TagVersion
