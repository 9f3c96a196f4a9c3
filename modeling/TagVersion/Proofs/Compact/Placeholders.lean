import TagVersion.Proofs.Compact.Tables
import TagVersion.Proofs.Template.Decomposition

/-!
# Placeholders in compact texts

A compact text is cut at its first separator, wherever that stands. An alternative may hold a
separator, and then the cut goes through its placeholder: the main format ends in a brace that
nothing closes, and is shown without the placeholder, whose rest begins the extra format as plain
text. A first separator that stands between no braces leaves every placeholder in one piece.

* **`Compact.IsBraced`**, **`Compact.openAfter`**: braces that are closed in time, and a scan for
  them.
* **`Compact.CutAt`**: a placeholder around the first separator.
* **`Compact.IsBraced.main_iff`**, **`Compact.IsBraced.extra`**: what a cut does to the braces.
* **`Strategy.ofDeclaration?_braced`**: the strategy of a text whose braces are closed in time.
-/

namespace TagVersion

namespace Compact

/-! ## Braces that are closed in time -/

/-- An open brace in front of a text is closed before the next one opens. -/
def Closes (cs : List Char) : Prop :=
  ∃ inner rest, cs = inner ++ '\x7d' :: rest ∧ '\x7b' ∉ inner

/-- Every opening brace is closed before the next one opens. -/
def IsBraced (cs : List Char) : Prop :=
  ∀ before after, cs = before ++ '\x7b' :: after → Closes after

/-- Whether a brace is open behind a text, unless one opens while another is open; `isOpen` tells
whether one is open in front of the text. -/
def openAfter (isOpen : Bool) : List Char → Option Bool
  | [] => some isOpen
  | c :: cs =>
    if c = '\x7b' then if isOpen then none else openAfter true cs
    else if c = '\x7d' then openAfter false cs
    else openAfter isOpen cs

section

variable {cs before front back after : List Char} {c : Char}

theorem not_closes_nil : ¬ Closes [] := by
  rintro ⟨inner, rest, h, -⟩
  exact absurd h (by simp)

theorem closes_cons_iff : Closes (c :: cs) ↔ c = '\x7d' ∨ c ≠ '\x7b' ∧ Closes cs := by
  constructor
  · rintro ⟨inner, rest, h, hinner⟩
    cases inner with
    | nil => exact .inl (List.cons.inj h).1
    | cons d inner =>
      obtain ⟨rfl, rfl⟩ := List.cons.inj h
      have hne : c ≠ '\x7b' := by
        rintro rfl
        exact hinner (List.mem_cons_self ..)
      exact .inr ⟨hne, inner, rest, rfl, fun hmem => hinner (List.mem_cons_of_mem c hmem)⟩
  · rintro (rfl | ⟨hne, inner, rest, rfl, hinner⟩)
    · exact ⟨[], cs, rfl, List.not_mem_nil⟩
    · exact ⟨c :: inner, rest, rfl, List.not_mem_cons_of_ne_of_not_mem hne.symm hinner⟩

theorem isBraced_nil : IsBraced [] := by
  intro before after h
  exact absurd h (by simp)

theorem isBraced_cons_iff : IsBraced (c :: cs) ↔ (c = '\x7b' → Closes cs) ∧ IsBraced cs :=
  Template.forall_open_cons_iff

/-- **The scan** ends with no brace open if and only if every brace is closed in time, the one in
front of the text included. -/
theorem openAfter_eq_some_false_iff (cs : List Char) :
    (openAfter false cs = some false ↔ IsBraced cs) ∧
      (openAfter true cs = some false ↔ Closes cs ∧ IsBraced cs) := by
  induction cs with
  | nil =>
    refine ⟨iff_of_true rfl isBraced_nil, iff_of_false ?_ fun h => not_closes_nil h.1⟩
    exact fun h => Bool.false_ne_true (Option.some.inj h).symm
  | cons c cs ih =>
    rw [isBraced_cons_iff, closes_cons_iff]
    unfold openAfter
    by_cases hopen : c = '\x7b'
    · subst hopen
      simp [ih.2]
    · by_cases hclose : c = '\x7d'
      · subst hclose
        simp [ih.1]
      · simp [hopen, hclose, ih.1, ih.2]

theorem isBraced_iff : IsBraced cs ↔ openAfter false cs = some false :=
  (openAfter_eq_some_false_iff cs).1.symm

instance (cs : List Char) : Decidable (IsBraced cs) :=
  decidable_of_iff _ isBraced_iff.symm

theorem openAfter_append (isOpen : Bool) (front rest : List Char) :
    openAfter isOpen (front ++ rest) = (openAfter isOpen front).bind (openAfter · rest) := by
  induction front generalizing isOpen with
  | nil => rfl
  | cons c front ih =>
    rw [List.cons_append, openAfter, openAfter]
    split
    · cases isOpen
      · exact ih true
      · rfl
    · split
      · exact ih false
      · exact ih isOpen

/-- The brace that is open behind a text is the last of its braces. -/
theorem exists_of_openAfter_false (h : openAfter false cs = some true) :
    ∃ before front, cs = before ++ '\x7b' :: front ∧ IsBraced before ∧ '\x7b' ∉ front ∧
      '\x7d' ∉ front := by
  induction cs using List.reverseRecOn with
  | nil => exact absurd h (by decide)
  | append_singleton cs c ih =>
    rw [openAfter_append] at h
    obtain ⟨isOpen, hcs, hc⟩ := Option.bind_eq_some_iff.mp h
    unfold openAfter at hc
    cases isOpen with
    | false =>
      obtain rfl : c = '\x7b' := by
        by_contra hne
        simp [hne, openAfter] at hc
      exact ⟨cs, [], rfl, isBraced_iff.mpr hcs, List.not_mem_nil, List.not_mem_nil⟩
    | true =>
      obtain ⟨hopen, hclose⟩ : c ≠ '\x7b' ∧ c ≠ '\x7d' := by
        constructor <;> rintro rfl <;> simp [openAfter] at hc
      obtain ⟨before, front, rfl, hbefore, hfrontOpen, hfrontClose⟩ := ih hcs
      exact ⟨before, front ++ [c], by simp, hbefore, by simp [hfrontOpen, hopen.symm],
        by simp [hfrontClose, hclose.symm]⟩

/-- The brace that is open in front of a text is closed by the first of its braces. -/
theorem exists_of_openAfter_true (h : openAfter true cs = some false) :
    ∃ back after, cs = back ++ '\x7d' :: after ∧ IsBraced after ∧ '\x7b' ∉ back ∧
      '\x7d' ∉ back := by
  induction cs with
  | nil => exact absurd h (by decide)
  | cons c cs ih =>
    unfold openAfter at h
    by_cases hopen : c = '\x7b'
    · simp [hopen] at h
    · by_cases hclose : c = '\x7d'
      · subst hclose
        exact ⟨[], cs, rfl, isBraced_iff.mpr (by simpa using h), List.not_mem_nil, List.not_mem_nil⟩
      · obtain ⟨back, after, rfl, hafter, hbackOpen, hbackClose⟩ :=
          ih (by simpa [hopen, hclose] using h)
        exact ⟨c :: back, after, rfl, hafter, by simp [hbackOpen, Ne.symm hopen],
          by simp [hbackClose, Ne.symm hclose]⟩

/-- The end of a text keeps its braces. -/
theorem IsBraced.of_append (h : IsBraced (front ++ after)) : IsBraced after := by
  intro before' after' heq
  exact h (front ++ before') after' (by rw [heq, List.append_assoc])

/-! ## A cut through a placeholder -/

/-- The first separator of a text stands between the braces of a placeholder. -/
structure CutAt (cs before front : List Char) (separator : Char) (back after : List Char) :
    Prop where
  text_eq : cs = before ++ '\x7b' :: (front ++ separator :: (back ++ '\x7d' :: after))
  isSeparator : isSeparator separator = true
  isSeparator_of_mem : ∀ c ∈ before ++ front, Compact.isSeparator c = false
  front_braces : '\x7b' ∉ front ∧ '\x7d' ∉ front
  back_braces : '\x7b' ∉ back ∧ '\x7d' ∉ back

/-- A text that is cut inside a placeholder. -/
def IsCut (cs : List Char) : Prop :=
  ∃ before front separator back after, CutAt cs before front separator back after

variable {separator : Char}

theorem not_isSeparator_open : Compact.isSeparator '\x7b' = false := by decide

theorem CutAt.cutTail_eq (h : CutAt cs before front separator back after) :
    cutTail cs = (before ++ '\x7b' :: front, some (separator, back ++ '\x7d' :: after)) := by
  have hmain : ∀ c ∈ before ++ '\x7b' :: front, Compact.isSeparator c = false := by
    intro c hc
    rcases List.mem_append.mp hc with hc | hc
    · exact h.isSeparator_of_mem c (List.mem_append_left _ hc)
    · rcases List.mem_cons.mp hc with rfl | hc
      · exact not_isSeparator_open
      · exact h.isSeparator_of_mem c (List.mem_append_right _ hc)
  have hcs : cs = (before ++ '\x7b' :: front) ++ separator :: (back ++ '\x7d' :: after) := by
    rw [h.text_eq]
    simp
  rw [hcs, cutTail_append hmain h.isSeparator]

theorem CutAt.not_isBraced (h : CutAt cs before front separator back after) :
    ¬ IsBraced (before ++ '\x7b' :: front) := by
  intro hbraced
  obtain ⟨inner, rest, hfront, -⟩ := hbraced before front rfl
  exact h.front_braces.2 (by rw [hfront]; simp)

/-- Before the placeholder all braces are closed. -/
theorem CutAt.isBraced_before (h : CutAt cs before front separator back after)
    (hbraced : IsBraced cs) : IsBraced before := by
  rw [isBraced_iff, h.text_eq, openAfter_append] at hbraced
  obtain ⟨isOpen, hbefore, hopen⟩ := Option.bind_eq_some_iff.mp hbraced
  cases isOpen with
  | false => exact isBraced_iff.mpr hbefore
  | true => exact absurd hopen (by simp [openAfter])

/-- A brace that is open at the first separator belongs to the placeholder that is cut. -/
theorem isCut_of_openAfter {main extra : List Char} (hmain : openAfter false main = some true)
    (hextra : openAfter true extra = some false) (hseparator : Compact.isSeparator separator = true)
    (hfirst : ∀ c ∈ main, Compact.isSeparator c = false) : IsCut (main ++ separator :: extra) := by
  obtain ⟨before, front, rfl, -, hfront⟩ := exists_of_openAfter_false hmain
  obtain ⟨back, after, rfl, -, hback⟩ := exists_of_openAfter_true hextra
  refine ⟨before, front, separator, back, after, by simp, hseparator, ?_, hfront, hback⟩
  intro c hc
  refine hfirst c ?_
  rcases List.mem_append.mp hc with hc | hc
  · exact List.mem_append_left _ hc
  · exact List.mem_append_right _ (List.mem_cons_of_mem _ hc)

/-- **The main format** keeps its braces if and only if the cut goes through no placeholder. -/
theorem IsBraced.main_iff (h : IsBraced cs) : IsBraced (cutTail cs).1 ↔ ¬ IsCut cs := by
  constructor
  · rintro hmain ⟨before, front, separator, back, after, hcut⟩
    rw [hcut.cutTail_eq] at hmain
    exact hcut.not_isBraced hmain
  · intro hcut
    have hcs := cutTail_fst_append cs
    cases htail : (cutTail cs).2 with
    | none =>
      rw [htail] at hcs
      rwa [show (cutTail cs).1 = cs from (List.append_nil _).symm.trans hcs]
    | some tail =>
      obtain ⟨separator, extra⟩ := tail
      have hseparator : Compact.isSeparator separator = true := cutTail_snd_isSeparator htail
      have hne : separator ≠ '\x7b' ∧ separator ≠ '\x7d' := by
        constructor <;> rintro rfl <;> exact absurd hseparator (by decide)
      rw [htail, Option.elim_some] at hcs
      rw [isBraced_iff, ← hcs, openAfter_append] at h
      obtain ⟨isOpen, hmain, hextra⟩ := Option.bind_eq_some_iff.mp h
      cases isOpen with
      | false => exact isBraced_iff.mpr hmain
      | true =>
        have hextra : openAfter true extra = some false := by
          simpa [openAfter, hne.1, hne.2] using hextra
        refine absurd ?_ hcut
        rw [← hcs]
        exact isCut_of_openAfter hmain hextra hseparator fun c => cutTail_fst_isSeparator

/-- **The extra format** always keeps its braces. -/
theorem IsBraced.extra (h : IsBraced cs) : IsBraced (((cutTail cs).2.map (·.2)).getD []) := by
  have hcs := cutTail_fst_append cs
  cases htail : (cutTail cs).2 with
  | none => exact isBraced_nil
  | some tail =>
    obtain ⟨separator, extra⟩ := tail
    rw [htail, Option.elim_some, List.append_cons] at hcs
    rw [← hcs] at h
    exact h.of_append

end

/-- The formats of a text, behind the lead. -/
def bodyOf (cs : List Char) : List Char :=
  ((cutLead? cs).getD (none, cs)).2

theorem exists_append_bodyOf (cs : List Char) : ∃ front, cs = front ++ bodyOf cs := by
  unfold bodyOf
  cases hcut : cutLead? cs with
  | none => exact ⟨[], rfl⟩
  | some cut =>
    obtain ⟨listed, body⟩ := cut
    cases cutLead?_eq_some_iff.mp hcut with
    | bare => exact ⟨['t', 'a', 'g', ':'], rfl⟩
    | @listed names => exact ⟨'t' :: 'a' :: 'g' :: '(' :: (names ++ [')', ':']), by simp⟩

theorem IsBraced.bodyOf {cs : List Char} (h : IsBraced cs) : IsBraced (bodyOf cs) := by
  obtain ⟨front, hcs⟩ := exists_append_bodyOf cs
  rw [hcs] at h
  exact h.of_append

end Compact

/-! ## The parts of the formats -/

namespace Template

open TagVersion.Compact

theorem isClosed_of_isBraced {cs : List Char} (h : IsBraced cs) : IsClosed cs := by
  intro before after heq
  obtain ⟨inner, rest, rfl, -⟩ := h before after heq
  simp

theorem exists_append_unforced (cs : List Char) : ∃ front, cs = front ++ unforced cs := by
  unfold unforced
  split
  · exact ⟨['!'], rfl⟩
  · exact ⟨[], rfl⟩

theorem isBraced_unforced {cs : List Char} (h : IsBraced cs) : IsBraced (unforced cs) := by
  obtain ⟨front, hcs⟩ := exists_append_unforced cs
  rw [hcs] at h
  exact h.of_append

/-- Nothing of a template is lost whose braces are closed in time. -/
theorem source_parts_of_isBraced {template : String} (h : IsBraced template.toList) :
    source (parts template) = unforced template.toList := by
  unfold parts
  rw [source_partsFrom, closedFront_eq_self_iff]
  exact isClosed_of_isBraced (isBraced_unforced h)

/-- A placeholder that is cut off is lost with everything behind its brace. -/
theorem parts_append_open {before front : List Char} (hbefore : IsBraced before)
    (hfront : '\x7d' ∉ front) :
    parts (String.ofList (before ++ '\x7b' :: front)) = parts (String.ofList before) := by
  have hunforced : unforced (before ++ '\x7b' :: front) = unforced before ++ '\x7b' :: front :=
    unforced_append (by simp) before
  unfold parts
  rw [String.toList_ofList, String.toList_ofList, hunforced, ← partsFrom_closedFront,
    closedFront_append_open (isClosed_of_isBraced (isBraced_unforced hbefore)) hfront]

end Template

/-! ## Strategies -/

namespace Strategy

open TagVersion.Compact Template

theorem ofSplit_formats {cs : List Char} (hline : '\n' ∉ cs) :
    (ofSplit cs).main = .template (String.ofList (cutTail (bodyOf cs)).1) ∧
      (ofSplit cs).extra =
        .template (String.ofList (((cutTail (bodyOf cs)).2.map (·.2)).getD [])) := by
  have hbody : '\n' ∉ bodyOf cs := by
    obtain ⟨front, hcs⟩ := exists_append_bodyOf cs
    rw [hcs] at hline
    exact fun hmem => hline (List.mem_append_right front hmem)
  have hsplit : ofSplit cs =
      ofParts ((((cutLead? cs).getD (none, cs)).1.map Branches.names).getD [])
        (cutTail (bodyOf cs)).1 (cutTail (bodyOf cs)).2 := if_neg hbody
  rw [hsplit]
  exact ⟨rfl, rfl⟩

theorem Writable.eq_ofGiven {s : Strategy} {main extra : List Char} {separator : Char}
    (h : Writable s main separator extra) :
    s = ofGiven s.branches (String.ofList main) separator (String.ofList extra) := by
  have hparts := h.eq_ofParts
  unfold ofParts at hparts
  rw [if_neg h.branches_ne_nil] at hparts
  unfold ofGiven
  rw [String.singleton_eq_ofList]
  exact hparts

/-- The table of the parts of a strategy declares the same strategy. -/
theorem Writable.ofDeclaration?_givenTable {s : Strategy} {main extra : List Char}
    {separator : Char} (h : Writable s main separator extra) :
    ofDeclaration?
      (.table (givenTable s.branches (String.ofList main) separator (String.ofList extra) [])) =
      some s := by
  have hs := h.eq_ofGiven
  have hgiven : Writable (ofGiven s.branches (String.ofList main) separator (String.ofList extra))
      (String.ofList main).toList separator (String.ofList extra).toList := by
    rw [← hs, String.toList_ofList, String.toList_ofList]
    exact h
  rw [ofDeclaration?_table [] hgiven]
  exact congrArg some hs.symm

theorem not_isCut_of_not_mem {cs : List Char} (h : '\x7b' ∉ cs) : ¬ IsCut cs := by
  rintro ⟨before, front, separator, back, after, hcut⟩
  exact h (by rw [hcut.text_eq]; simp)

/-- The formats of a text, as the cut of its body leaves them. -/
theorem ofText_formats {text : String} (hline : '\n' ∉ text.toList)
    (hbraced : IsBraced text.toList) {main extra : String}
    (hmain : (ofText text).main = .template main) (hextra : (ofText text).extra = .template extra) :
    IsBraced extra.toList ∧ (IsBraced main.toList ↔ ¬ IsCut (bodyOf text.toList)) ∧
      ∀ before front separator back after,
        CutAt (bodyOf text.toList) before front separator back after →
          main.toList = before ++ '\x7b' :: front ∧ extra.toList = back ++ '\x7d' :: after := by
  by_cases hnamed : text = "tag" ∨ text = "changes"
  · -- the names of strategies hold no brace, and their formats close all of theirs
    have hcut : ¬ IsCut (bodyOf text.toList) := by
      rcases hnamed with rfl | rfl <;> exact not_isCut_of_not_mem (by decide)
    have hformats : IsBraced main.toList ∧ IsBraced extra.toList := by
      rcases hnamed with rfl | rfl <;>
        · obtain rfl := Format.template.inj hmain
          obtain rfl := Format.template.inj hextra
          exact ⟨by decide, by decide⟩
    exact ⟨hformats.2, iff_of_true hformats.1 hcut,
      fun before front separator back after h => absurd ⟨_, _, _, _, _, h⟩ hcut⟩
  · obtain ⟨htag, hchanges⟩ := not_or.mp hnamed
    obtain ⟨hmainEq, hextraEq⟩ := ofSplit_formats hline
    rw [← ofText_eq_ofSplit htag hchanges] at hmainEq hextraEq
    obtain rfl := Format.template.inj (hmain.symm.trans hmainEq)
    obtain rfl := Format.template.inj (hextra.symm.trans hextraEq)
    have hbody := hbraced.bodyOf
    rw [String.toList_ofList, String.toList_ofList]
    refine ⟨hbody.extra, hbody.main_iff, fun before front separator back after h => ?_⟩
    rw [h.cutTail_eq]
    exact ⟨rfl, rfl⟩

/-- **A text whose braces are closed in time** declares the same as the table of its parts. Its extra
format keeps all braces. Its main format keeps them, and every part with them, if and only if the
first separator stands in no placeholder. Otherwise it is shown as if it ended before that
placeholder, whose rest begins the extra format. -/
theorem ofDeclaration?_braced {text : String} (hne : text ≠ "") (hline : '\n' ∉ text.toList)
    (hbraced : IsBraced text.toList) :
    ∃ s main separator extra, ofDeclaration? (.compact text) = some s ∧
      s.main = .template main ∧ s.extra = .template extra ∧
      ofDeclaration? (.table (givenTable s.branches main separator extra [])) = some s ∧
      (IsBraced extra.toList ∧ source (parts extra) = unforced extra.toList) ∧
      (IsBraced main.toList ↔ ¬ IsCut (bodyOf text.toList)) ∧
      (IsBraced main.toList → source (parts main) = unforced main.toList) ∧
      ∀ before front separator back after,
        CutAt (bodyOf text.toList) before front separator back after →
          main.toList = before ++ '\x7b' :: front ∧ extra.toList = back ++ '\x7d' :: after ∧
            parts main = parts (String.ofList before) := by
  obtain ⟨main, separator, extra, hwritable⟩ := ofText_writable text
  have hmain : (ofText text).main = .template (String.ofList main) :=
    congrArg Strategy.main hwritable.eq_ofGiven
  have hextra : (ofText text).extra = .template (String.ofList extra) :=
    congrArg Strategy.extra hwritable.eq_ofGiven
  obtain ⟨hextraBraced, hmainIff, hcut⟩ := ofText_formats hline hbraced hmain hextra
  refine ⟨_, String.ofList main, separator, String.ofList extra, ofDeclaration?_of_ne_empty hne,
    hmain, hextra, hwritable.ofDeclaration?_givenTable,
    ⟨hextraBraced, source_parts_of_isBraced hextraBraced⟩, hmainIff, source_parts_of_isBraced, ?_⟩
  intro before front sep back after h
  obtain ⟨hmainEq, hextraEq⟩ := hcut before front sep back after h
  refine ⟨hmainEq, hextraEq, ?_⟩
  rw [← String.ofList_toList (s := String.ofList main), hmainEq]
  exact parts_append_open (h.isBraced_before hbraced.bodyOf) h.front_braces.2

/-- An alternative with a plus sign, which is cut there. -/
theorem ofDeclaration?_braced_alternative :
    let text := "\x7bmajor\x7d\x7b$B:a+b\x7d"
    let v := VersionFacts.ofTriplet ⟨1, 2, 3⟩
    text ≠ "" ∧ '\n' ∉ text.toList ∧ IsBraced text.toList ∧
      CutAt (bodyOf text.toList) "\x7bmajor\x7d".toList "$B:a".toList '+' "b".toList [] ∧
      (∃ s, ofDeclaration? (.compact text) = some s ∧
        s.main = .template "\x7bmajor\x7d\x7b$B:a" ∧ s.extra = .template "b\x7d" ∧
        s.render [] v true = "1") ∧
      (ofGiven ["master"] text '+' "").render [] v true = "1a+b" := by
  intro text v
  have hfirst : ("\x7bmajor\x7d".toList ++ "$B:a".toList).all (isSeparator · == false) = true := by
    decide
  have hcut :
      CutAt (bodyOf text.toList) "\x7bmajor\x7d".toList "$B:a".toList '+' "b".toList [] :=
    ⟨by decide, by decide, fun c hc => beq_iff_eq.mp (List.all_eq_true.mp hfirst c hc), by decide,
      by decide⟩
  have hbraced : IsBraced text.toList := by decide +kernel
  obtain ⟨s, main, separator, extra, hs, hmain, hextra, -, -, -, -, hparts⟩ :=
    ofDeclaration?_braced (by decide : text ≠ "") (by decide) hbraced
  obtain ⟨hmainEq, hextraEq, hrest⟩ := hparts _ _ _ _ _ hcut
  obtain rfl : main = "\x7bmajor\x7d\x7b$B:a" := String.toList_inj.mp hmainEq
  obtain rfl : extra = "b\x7d" := String.toList_inj.mp hextraEq
  refine ⟨by decide, by decide, hbraced, hcut, ⟨s, hs, hmain, hextra, ?_⟩, by decide +kernel⟩
  -- the number before the placeholder is all that is shown
  have hpieces : s.main.pieces [] v = ["1"] := by
    rw [hmain, Format.pieces, hrest]
    decide +kernel
  have hextraHidden : s.needsExtra v = false := by
    unfold needsExtra
    rw [hextra]
    decide
  unfold render
  rw [hpieces, hextraHidden]
  rfl

end Strategy

end TagVersion
