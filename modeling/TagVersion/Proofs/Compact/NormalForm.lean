import TagVersion.Proofs.Branches
import TagVersion.Proofs.Compact.Split

/-!
# Compact declarations in normal form

The strategy of a compact text is given by the split of the text, and writing a strategy gives a
text that splits into the same parts again.

* **`ofDeclaration?_compact`**: the strategy of a text, part by part.
* **`Writable`**: what every strategy of a compact text keeps to, so that no part of it can be
  mistaken for another once it is written.
* **`ofDeclaration?_display`**: a strategy with a main format is read back from its text.
-/

namespace TagVersion

namespace Strategy

open TagVersion.Compact

/-! ## The strategy of a text -/

/-- The strategy of the parts of a text; the defaults stand in for an empty list of branches and
for a missing separator. -/
def ofParts (names : List String) (main : List Char) (tail : Option (Char × List Char)) :
    Strategy where
  main := .template (String.ofList main)
  extra := .template (String.ofList ((tail.map (·.2)).getD []))
  separator := String.ofList [(tail.map (·.1)).getD '+']
  branches := if names = [] then ["master"] else names
  ignoredFields := []

/-- The strategy that the split of a text gives. Formats of several lines are none, and then the
branches do not count either. -/
def ofSplit (cs : List Char) : Strategy :=
  let (listed, body) := (cutLead? cs).getD (none, cs)
  if '\n' ∈ body then ofParts [] [] none
  else ofParts ((listed.map Branches.names).getD []) (cutTail body).1 (cutTail body).2

theorem parse_defaultBranches : Branches.parse defaultBranches = ["master"] := by decide

/-- The names of a branch list are those between its brackets. -/
theorem parseChars_of_lead {cs names body : List Char} (h : Lead cs (some names) body) :
    Branches.parseChars ('(' :: (names ++ [')'])) = Branches.names names := by
  cases h with
  | listed _ hne hnames =>
    refine Branches.parseChars_bracketed ?_ ?_
    · intro hopen
      exact absurd (hnames _ hopen) (by decide)
    · intro hclose
      exact absurd (hnames _ hclose) (by decide)

theorem ofCompact_eq_ofParts (c : Compact) :
    ofCompact c = ofParts ((c.branches.map Branches.parseChars).getD []) c.main c.tail := by
  obtain ⟨branches, main, tail⟩ := c
  unfold ofCompact ofParts
  cases tail with
  | none =>
    cases branches with
    | none => simp [make, defaultSeparator, parse_defaultBranches]
    | some cs => simp [make, defaultSeparator, parse_defaultBranches]
  | some tail =>
    cases branches with
    | none => simp [make, parse_defaultBranches]
    | some cs => simp [make, parse_defaultBranches]

theorem ofCompact_split (cs : List Char) : ofCompact (split cs) = ofSplit cs := by
  unfold split ofSplit
  cases hcut : cutLead? cs with
  | none =>
    show ofCompact (if '\n' ∈ cs then _ else _) = if '\n' ∈ cs then _ else _
    by_cases hline : '\n' ∈ cs
    · rw [if_pos hline, if_pos hline, ofCompact_eq_ofParts]
      rfl
    · rw [if_neg hline, if_neg hline, ofCompact_eq_ofParts]
      rfl
  | some cut =>
    obtain ⟨listed, body⟩ := cut
    show ofCompact (if '\n' ∈ body then _ else _) = if '\n' ∈ body then _ else _
    by_cases hline : '\n' ∈ body
    · rw [if_pos hline, if_pos hline, ofCompact_eq_ofParts]
      rfl
    · rw [if_neg hline, if_neg hline, ofCompact_eq_ofParts]
      cases listed with
      | none => rfl
      | some names =>
        have hnames := parseChars_of_lead (cutLead?_eq_some_iff.mp hcut)
        show ofParts (Branches.parseChars ('(' :: (names ++ [')']))) _ _ = _
        rw [hnames]
        rfl

theorem ofText_eq_ofSplit {text : String} (htag : text ≠ "tag") (hchanges : text ≠ "changes") :
    ofText text = ofSplit text.toList := by
  unfold ofText
  rw [if_neg hchanges, if_neg htag, ofChars_eq_split, ofCompact_split]

theorem ofDeclaration?_of_ne_empty {text : String} (hempty : text ≠ "") :
    ofDeclaration? (.compact text) = some (ofText text) := by
  have htruthy : (Declaration.compact text).isTruthy = true := bne_iff_ne.mpr hempty
  unfold ofDeclaration?
  rw [if_pos htruthy]

/-- **The strategy of a text**, unless the text is empty or names a strategy. -/
theorem ofDeclaration?_compact {text : String} (hempty : text ≠ "") (htag : text ≠ "tag")
    (hchanges : text ≠ "changes") :
    ofDeclaration? (.compact text) = some (ofSplit text.toList) := by
  rw [ofDeclaration?_of_ne_empty hempty, ofText_eq_ofSplit htag hchanges]

/-- A line end and a blank name in a list of branches, and a bracket that holds none. -/
theorem ofDeclaration?_compact_branches :
    let text := "tag(a\nb, ,c-d):(x)+!é y"
    text ≠ "" ∧ text ≠ "tag" ∧ text ≠ "changes" ∧
      ofDeclaration? (.compact text) =
        some
          { main := .template "(x)", extra := .template "!é y", separator := "+"
            branches := ["a\nb", "c-d"], ignoredFields := [] } := by
  refine ⟨by decide, by decide, by decide, ?_⟩
  rw [ofDeclaration?_compact (by decide) (by decide) (by decide)]
  rfl

/-! ## Strategies that can be written -/

/-- A strategy whose parts keep apart when it is written: the main format holds no separator, no
format holds a line end, and the branches are names made of the characters of a branch list. -/
structure Writable (s : Strategy) (main : List Char) (separator : Char) (extra : List Char) :
    Prop where
  eq_ofParts : s = ofParts s.branches main (some (separator, extra))
  separator_isSeparator : isSeparator separator = true
  main_separator : ∀ c ∈ main, isSeparator c = false
  main_line : '\n' ∉ main
  extra_line : '\n' ∉ extra
  branches_ne_nil : s.branches ≠ []
  branches_isName : ∀ name ∈ s.branches, Branches.IsName name
  branches_char : ∀ name ∈ s.branches, ∀ c ∈ name.toList, isBranchChar c = true

/-- The parts of a single line give a strategy that can be written. -/
theorem ofParts_writable {names : List String} {cs : List Char}
    (hnames : ∀ name ∈ names, Branches.IsName name ∧ ∀ c ∈ name.toList, isBranchChar c = true)
    (hline : '\n' ∉ cs) :
    Writable (ofParts names (cutTail cs).1 (cutTail cs).2) (cutTail cs).1
      (((cutTail cs).2.map (·.1)).getD '+') (((cutTail cs).2.map (·.2)).getD []) := by
  -- the default has the form of a name too
  have hbranches : ∀ name ∈ (if names = [] then ["master"] else names),
      Branches.IsName name ∧ ∀ c ∈ name.toList, isBranchChar c = true := by
    by_cases hnil : names = []
    · rw [if_pos hnil]
      intro name hname
      rw [List.mem_singleton.mp hname]
      have hchars : "master".toList.all isBranchChar = true := by decide
      exact ⟨⟨by decide, by decide, by decide⟩, List.all_eq_true.mp hchars⟩
    · rw [if_neg hnil]
      exact hnames
  have hne : (if names = [] then ["master"] else names) ≠ [] := by
    by_cases hnil : names = []
    · rw [if_pos hnil]
      exact List.cons_ne_nil _ _
    · rw [if_neg hnil]
      exact hnil
  have hcs := cutTail_fst_append cs
  refine ⟨?_, ?_, fun c hc => cutTail_fst_isSeparator hc, ?_, ?_, hne,
    fun name hname => (hbranches name hname).1, fun name hname => (hbranches name hname).2⟩
  · unfold ofParts
    simp only [Option.map_some, Option.getD_some, if_neg hne]
  · cases htail : (cutTail cs).2 with
    | none => decide
    | some tail => exact cutTail_snd_isSeparator htail
  · intro hmem
    rw [← hcs] at hline
    exact hline (List.mem_append_left _ hmem)
  · cases htail : (cutTail cs).2 with
    | none => exact List.not_mem_nil
    | some tail =>
      rw [htail] at hcs
      intro hmem
      rw [← hcs] at hline
      exact hline (List.mem_append_right _ (List.mem_cons_of_mem tail.1 hmem))

/-- The strategy of any text can be written. -/
theorem ofSplit_writable (cs : List Char) :
    ∃ main separator extra, Writable (ofSplit cs) main separator extra := by
  unfold ofSplit
  cases hcut : cutLead? cs with
  | none =>
    show ∃ main separator extra, Writable (if '\n' ∈ cs then _ else _) main separator extra
    by_cases hline : '\n' ∈ cs
    · rw [if_pos hline]
      exact ⟨_, _, _, @ofParts_writable _ [] (by simp) (by simp)⟩
    · rw [if_neg hline]
      exact ⟨_, _, _, ofParts_writable (by simp) hline⟩
  | some cut =>
    obtain ⟨listed, body⟩ := cut
    show ∃ main separator extra, Writable (if '\n' ∈ body then _ else _) main separator extra
    by_cases hline : '\n' ∈ body
    · rw [if_pos hline]
      exact ⟨_, _, _, @ofParts_writable _ [] (by simp) (by simp)⟩
    · rw [if_neg hline]
      refine ⟨_, _, _, ofParts_writable ?_ hline⟩
      intro name hname
      cases cutLead?_eq_some_iff.mp hcut with
      | bare => exact absurd hname (by simp)
      | listed _ _ hchars =>
        obtain ⟨hisName, hmem⟩ := Branches.of_mem_names hname
        exact ⟨hisName, fun c hc => hchars c (hmem c hc)⟩

/-- The two strategies with a name are those of a text as well. -/
theorem ofText_writable (text : String) :
    ∃ main separator extra, Writable (ofText text) main separator extra := by
  by_cases hchanges : text = "changes"
  · subst hchanges
    have h := ofSplit_writable (changesMain ++ "+" ++ defaultExtra).toList
    exact h
  · by_cases htag : text = "tag"
    · subst htag
      have h := ofSplit_writable (defaultMain ++ "+" ++ defaultExtra).toList
      exact h
    · rw [ofText_eq_ofSplit htag hchanges]
      exact ofSplit_writable text.toList

/-! ## Reading what was written -/

/-- The text of a list of branches, as it stands between the brackets. -/
theorem Writable.text_branches {s : Strategy} {main extra : List Char} {separator : Char}
    (h : Writable s main separator extra) :
    (Branches.text s.branches).toList ≠ [] ∧
      ∀ c ∈ (Branches.text s.branches).toList, isBranchChar c = true := by
  refine ⟨?_, ?_⟩
  · intro hnil
    have hnames := Branches.names_text h.branches_ne_nil h.branches_isName
    rw [hnil] at hnames
    exact h.branches_ne_nil hnames.symm
  · exact Branches.forall_mem_text (by decide) h.branches_char

theorem Writable.display_toList {s : Strategy} {main extra : List Char} {separator : Char}
    (h : Writable s main separator extra) (hmain : s.main.display ≠ "") :
    s.display.toList =
      't' :: 'a' :: 'g' :: '(' ::
        ((Branches.text s.branches).toList ++ ')' :: ':' :: (main ++ separator :: extra)) := by
  have hparts := h.eq_ofParts
  have hs : s.main = .template (String.ofList main) ∧ s.separator = String.ofList [separator] ∧
      s.extra = .template (String.ofList extra) := by
    rw [hparts]
    exact ⟨rfl, rfl, rfl⟩
  obtain ⟨hmainEq, hseparator, hextra⟩ := hs
  unfold display format
  rw [if_neg h.branches_ne_nil, if_neg (fun hnil => hmain hnil.1), hmainEq, hseparator, hextra]
  simp [Format.display]

/-- A written strategy is read back, part by part. -/
theorem Writable.ofSplit_display {s : Strategy} {main extra : List Char} {separator : Char}
    (h : Writable s main separator extra) (hmain : s.main.display ≠ "") :
    ofSplit s.display.toList = s := by
  obtain ⟨hne, hchars⟩ := h.text_branches
  have hlead : cutLead? s.display.toList =
      some (some (Branches.text s.branches).toList, main ++ separator :: extra) := by
    rw [cutLead?_eq_some_iff, h.display_toList hmain]
    exact .listed _ hne hchars
  -- a separator is no line end, so the formats still stand on one line
  have hline : '\n' ∉ main ++ separator :: extra := by
    intro hmem
    rcases List.mem_append.mp hmem with hmem | hmem
    · exact h.main_line hmem
    · rcases List.mem_cons.mp hmem with rfl | hmem
      · exact absurd h.separator_isSeparator (by decide)
      · exact h.extra_line hmem
  unfold ofSplit
  rw [hlead]
  show (if '\n' ∈ main ++ separator :: extra then _ else _) = s
  rw [if_neg hline, cutTail_append h.main_separator h.separator_isSeparator]
  show ofParts (Branches.names (Branches.text s.branches).toList) main _ = s
  rw [Branches.names_text h.branches_ne_nil h.branches_isName]
  exact h.eq_ofParts.symm

/-- **Normal form.** A strategy of a text or a switch with a main format is read back from the
text that is written for it. -/
theorem ofDeclaration?_display {d : Declaration} {s : Strategy}
    (hd : d = .switch true ∨ ∃ text, d = .compact text) (hs : ofDeclaration? d = some s)
    (hmain : s.main.display ≠ "") : ofDeclaration? (.compact s.display) = some s := by
  have hwritable : ∃ main separator extra, Writable s main separator extra := by
    unfold ofDeclaration? at hs
    split at hs
    · obtain rfl | ⟨text, rfl⟩ := hd
      · rw [← Option.some.inj hs]
        exact ofText_writable "tag"
      · rw [← Option.some.inj hs]
        exact ofText_writable text
    · exact absurd hs (by simp)
  obtain ⟨main, separator, extra, h⟩ := hwritable
  -- the bracket makes the text none of those with a meaning of their own
  have htext := h.display_toList hmain
  have hempty : s.display ≠ "" := by
    intro heq
    rw [heq] at htext
    exact absurd htext (by simp)
  have htag : s.display ≠ "tag" := by
    intro heq
    rw [heq] at htext
    exact absurd htext (by simp)
  have hchanges : s.display ≠ "changes" := by
    intro heq
    rw [heq] at htext
    exact absurd htext (by simp)
  rw [ofDeclaration?_of_ne_empty hempty, ofText_eq_ofSplit htag hchanges, h.ofSplit_display hmain]

/-- Blanks around a name and an empty name are gone from what is written; the rest stays. -/
theorem ofDeclaration?_display_branches :
    let d := Declaration.compact "tag( a b ,,é):x+!y"
    let s : Strategy :=
      { main := .template "x", extra := .template "!y", separator := "+"
        branches := ["a b", "é"], ignoredFields := [] }
    ofDeclaration? d = some s ∧ s.main.display ≠ "" ∧ s.display = "tag(a b,é):x+!y" ∧
      ofDeclaration? (.compact s.display) = some s := by
  intro d s
  have hs : ofDeclaration? d = some s := by
    rw [ofDeclaration?_of_ne_empty (by decide), ofText_eq_ofSplit (by decide) (by decide)]
    rfl
  refine ⟨hs, by decide, by decide, ?_⟩
  exact ofDeclaration?_display (.inr ⟨_, rfl⟩) hs (by decide)

end Strategy

end TagVersion
