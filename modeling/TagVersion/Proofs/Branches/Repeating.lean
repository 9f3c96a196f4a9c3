import TagVersion.Proofs.Branches.Literal
import TagVersion.Proofs.Compact.Tables

/-!
# Branch lists that are read twice

The brackets around a list of branches are dropped before the list is cut at its commas, and blanks
after that. So a bracket with a blank or a comma outside of it is left in a name, and is dropped
only when the names are put into a text and read again.

* **`solid_text_names`**: reading a list loses blanks and commas only.
* **`HidesOpen`**, **`HidesClose`**: lists with brackets that are left in a name.
* **`hidesOpen_iff`**, **`hidesClose_iff`**: where these brackets come to stand.
* **`parse_text_parseChars`**: the lists of which a second reading gives the same names.
* **`parse_text_parse_iff`**: the strategies that show the branches that they allow.
-/

namespace TagVersion

namespace Text

theorem dropEndWhile_append {p : Char → Bool} {before : List Char}
    (hbefore : ∀ c ∈ before, p c = false) (after : List Char) :
    dropEndWhile p (before ++ after) = before ++ dropEndWhile p after := by
  rcases List.eq_nil_or_concat' before with rfl | ⟨front, c, rfl⟩
  · rfl
  · have hc : p c = false := hbefore c (by simp)
    rw [List.append_assoc, List.singleton_append, dropEndWhile_append_cons hc, List.append_assoc,
      List.singleton_append]

theorem head?_append_eq_some_iff {c : Char} {front back : List Char} (hback : c ∉ back) :
    (front ++ back).head? = some c ↔ front.head? = some c := by
  cases front with
  | nil =>
    refine iff_of_false (fun h => ?_) nofun
    exact hback (List.mem_of_mem_head? h)
  | cons d front => rfl

theorem getLast?_append_eq_some_iff {c : Char} {front back : List Char} (hfront : c ∉ front) :
    (front ++ back).getLast? = some c ↔ back.getLast? = some c := by
  rw [← List.head?_reverse, ← List.head?_reverse, List.reverse_append]
  exact head?_append_eq_some_iff (by simpa using hfront)

end Text

namespace Branches

/-! ## What reading keeps -/

/-- A character that does not count around names. -/
def isGap (c : Char) : Bool :=
  c == ',' || Text.isBlank c

/-- The characters of a list that count everywhere. -/
def solid (cs : List Char) : List Char :=
  cs.filter (!isGap ·)

theorem solid_append (before after : List Char) :
    solid (before ++ after) = solid before ++ solid after :=
  List.filter_append ..

theorem solid_of_blank {cs : List Char} (h : ∀ c ∈ cs, Text.isBlank c = true) : solid cs = [] := by
  unfold solid
  rw [List.filter_eq_nil_iff]
  intro c hc
  simp [isGap, h c hc]

theorem solid_trim (cs : List Char) : solid (Text.trim cs) = solid cs := by
  obtain ⟨before, after, hcs, hbefore, hafter⟩ := Text.exists_blanks_around_trim cs
  have hsolid : solid cs = solid (before ++ Text.trim cs ++ after) := congrArg solid hcs
  rw [hsolid, solid_append, solid_append, solid_of_blank hbefore, solid_of_blank hafter,
    List.nil_append, List.append_nil]

theorem solid_intercalate (texts : List (List Char)) :
    solid ([','].intercalate texts) = texts.flatMap solid := by
  induction texts with
  | nil => rfl
  | cons first rest ih =>
    by_cases hrest : rest = []
    · subst hrest
      simp
    · have hcomma : solid (',' :: [','].intercalate rest) = solid ([','].intercalate rest) := rfl
      rw [intercalate_cons_of_ne_nil first hrest, solid_append, hcomma, ih, List.flatMap_cons]

/-- **Reading loses blanks and commas only.** -/
theorem solid_text_names (cs : List Char) : solid (text (names cs)).toList = solid cs := by
  -- a piece that is left out holds nothing that counts
  have hfilter : ∀ pieces : List (List Char),
      (pieces.filter (· != [])).flatMap solid = pieces.flatMap solid := by
    intro pieces
    induction pieces with
    | nil => rfl
    | cons piece pieces ih =>
      by_cases hpiece : piece = []
      · rw [List.filter_cons_of_neg (by simp [hpiece]), ih, List.flatMap_cons, hpiece]
        rfl
      · rw [List.filter_cons_of_pos (by simpa using hpiece), List.flatMap_cons, ih,
          List.flatMap_cons]
  calc solid (text (names cs)).toList
      = ((cs.splitOn ',').map Text.trim).flatMap solid := by
        rw [toList_text_names, solid_intercalate, hfilter]
    _ = (cs.splitOn ',').flatMap solid := by
        rw [List.flatMap_map]
        exact List.flatMap_congr fun piece _ => solid_trim piece
    _ = solid cs := by
        rw [← solid_intercalate, List.intercalate_splitOn]

theorem head?_solid {cs : List Char} (h : ∀ c ∈ cs.head?, isGap c = false) :
    (solid cs).head? = cs.head? := by
  cases cs with
  | nil => rfl
  | cons c cs =>
    unfold solid
    rw [List.filter_cons_of_pos (by rw [h c rfl]; rfl), List.head?_cons, List.head?_cons]

theorem getLast?_solid {cs : List Char} (h : ∀ c ∈ cs.getLast?, isGap c = false) :
    (solid cs).getLast? = cs.getLast? := by
  have hreverse : solid cs.reverse = (solid cs).reverse := List.filter_reverse ..
  rw [← List.head?_reverse, ← hreverse, ← List.head?_reverse]
  apply head?_solid
  rwa [List.head?_reverse]

/-- A name has neither a comma nor a blank at its ends. -/
theorem IsName.ends {name : String} (h : IsName name) :
    (∀ c ∈ name.toList.head?, isGap c = false) ∧ ∀ c ∈ name.toList.getLast?, isGap c = false := by
  have hgap : ∀ c ∈ name.toList, Text.isBlank c = false → isGap c = false := by
    intro c hc hblank
    have hcomma : (c == ',') = false :=
      beq_false_of_ne fun heq => h.not_mem_comma (heq ▸ hc)
    unfold isGap
    rw [hcomma, hblank]
    rfl
  constructor
  · intro c hc
    apply hgap c (List.mem_of_mem_head? hc)
    rw [← h.trim_eq] at hc
    exact Text.isBlank_of_mem_head?_trim c hc
  · intro c hc
    apply hgap c (List.mem_of_mem_getLast? hc)
    rw [← h.trim_eq] at hc
    exact Text.isBlank_of_mem_getLast?_trim c hc

/-- The ends of a list of names are the first and the last of its characters that count. -/
theorem ends_solid_text {branches : List String} (h : ∀ name ∈ branches, IsName name) :
    (solid (text branches).toList).head? = (text branches).toList.head? ∧
      (solid (text branches).toList).getLast? = (text branches).toList.getLast? := by
  rw [text_toList]
  constructor
  · apply head?_solid
    cases branches with
    | nil => simp
    | cons first rest =>
      have hfirst := h first List.mem_cons_self
      rw [List.map_cons, head?_intercalate hfirst.ne_nil]
      exact hfirst.ends.1
  · apply getLast?_solid
    rcases List.eq_nil_or_concat' branches with rfl | ⟨front, last, rfl⟩
    · simp
    · have hlast := h last (by simp)
      rw [List.map_append, List.map_singleton, getLast?_intercalate hlast.ne_nil]
      exact hlast.ends.2

/-! ## Brackets that are left in a name -/

/-- An opening bracket that does not come off a list: it follows the others with a blank or a comma
in between. -/
def HidesOpen (cs : List Char) : Prop :=
  (solid (cs.dropWhile (· == '('))).head? = some '('

/-- A closing bracket that does not come off a list: the others follow it with a blank or a comma in
between. -/
def HidesClose (cs : List Char) : Prop :=
  (solid (Text.dropEndWhile (· == ')') cs)).getLast? = some ')'

instance (cs : List Char) : Decidable (HidesOpen cs) :=
  inferInstanceAs (Decidable (_ = _))

instance (cs : List Char) : Decidable (HidesClose cs) :=
  inferInstanceAs (Decidable (_ = _))

theorem mem_of_mem_solid {c : Char} {cs : List Char} (h : c ∈ solid cs) : c ∈ cs :=
  (List.mem_filter.mp h).1

theorem isName_of_mem_parseChars (cs : List Char) : ∀ name ∈ parseChars cs, IsName name := by
  intro name hname
  rw [parseChars_eq_names_bare] at hname
  exact (of_mem_names hname).1

/-- What is read of a list, and the list without its brackets, have the same ends. -/
theorem ends_text_parseChars (cs : List Char) :
    (text (parseChars cs)).toList.head? = (solid (bare cs)).head? ∧
      (text (parseChars cs)).toList.getLast? = (solid (bare cs)).getLast? := by
  have hends := ends_solid_text (isName_of_mem_parseChars cs)
  rw [parseChars_eq_names_bare, solid_text_names] at hends
  exact ⟨hends.1.symm, hends.2.symm⟩

/-- **An opening bracket that does not come off** is where the first name starts. -/
theorem hidesOpen_iff (cs : List Char) :
    HidesOpen cs ↔ (text (parseChars cs)).toList.head? = some '(' := by
  -- the closing brackets that come off as well are no opening ones
  have hsplit : cs.dropWhile (· == '(') =
      bare cs ++ (cs.dropWhile (· == '(')).rtakeWhile (· == ')') :=
    List.rdropWhile_append_rtakeWhile.symm
  have hcloses : '(' ∉ solid ((cs.dropWhile (· == '(')).rtakeWhile (· == ')')) := by
    intro hmem
    have hclose := List.mem_rtakeWhile_imp (mem_of_mem_solid hmem)
    exact absurd hclose (by decide)
  rw [(ends_text_parseChars cs).1]
  unfold HidesOpen
  rw [hsplit, solid_append]
  exact Text.head?_append_eq_some_iff hcloses

/-- **A closing bracket that does not come off** is where the last name ends. -/
theorem hidesClose_iff (cs : List Char) :
    HidesClose cs ↔ (text (parseChars cs)).toList.getLast? = some ')' := by
  have hopen : ∀ c ∈ cs.takeWhile (· == '('), c = '(' := by
    intro c hc
    exact beq_iff_eq.mp (List.mem_takeWhile_imp (p := (· == '(')) hc)
  have hsplit : Text.dropEndWhile (· == ')') cs = cs.takeWhile (· == '(') ++ bare cs := by
    conv_lhs => rw [← List.takeWhile_append_dropWhile (p := (· == '(')) (l := cs)]
    apply Text.dropEndWhile_append
    intro c hc
    rw [hopen c hc]
    rfl
  have hopens : ')' ∉ solid (cs.takeWhile (· == '(')) := by
    intro hmem
    exact absurd (hopen _ (mem_of_mem_solid hmem)) (by decide)
  rw [(ends_text_parseChars cs).2]
  unfold HidesClose
  rw [hsplit, solid_append]
  exact Text.getLast?_append_eq_some_iff hopens

/-- **A second reading gives the same names** if and only if no bracket was left in one of them. -/
theorem parse_text_parseChars (cs : List Char) :
    parse (text (parseChars cs)) = parseChars cs ↔ ¬ HidesOpen cs ∧ ¬ HidesClose cs := by
  have hnames := isName_of_mem_parseChars cs
  have hends := ends_text fun name hname => (hnames name hname).ne_nil
  rw [parse_text_eq_self_iff fun name hname => ⟨(hnames name hname).ne_nil, (hnames name hname).trim_eq⟩,
    hidesOpen_iff, hidesClose_iff]
  constructor
  · intro hliteral
    exact ⟨hends.1.mpr hliteral.not_open, hends.2.mpr hliteral.not_close⟩
  · rintro ⟨hopen, hclose⟩
    exact ⟨fun name hname => (hnames name hname).not_mem_comma, hends.1.mp hopen, hends.2.mp hclose⟩

end Branches

/-! ## Strategies that show their branches -/

/-- The text from which the branches of a table are read. -/
def StrategyTable.branchText (t : StrategyTable) : String :=
  match t.branches with
  | some (.names names) => Branches.text names
  | some (.text text) => text
  | none => Strategy.defaultBranches

namespace Strategy

open Branches

theorem branches_ofTable (t : StrategyTable) :
    (ofTable t).branches =
      if parse t.branchText = [] then parse defaultBranches else parse t.branchText := by
  unfold ofTable make StrategyTable.branchText
  rfl

theorem branches_ofTable_ne_nil (t : StrategyTable) : (ofTable t).branches ≠ [] := by
  rw [branches_ofTable]
  split
  · decide
  · next hne => exact hne

/-- **The strategy of a table** shows the branches that it allows, unless a bracket is left in one of
them. -/
theorem parse_text_branches_ofTable (t : StrategyTable) :
    parse (text (ofTable t).branches) = (ofTable t).branches ↔
      ¬ HidesOpen t.branchText.toList ∧ ¬ HidesClose t.branchText.toList := by
  have hparse := parse_text_parseChars t.branchText.toList
  rw [branches_ofTable]
  split
  · next hnil =>
    -- the default is shown as it is, and a list without names has no place for a bracket
    have hnil : parseChars t.branchText.toList = [] := hnil
    rw [hnil] at hparse
    exact iff_of_true (by decide) (hparse.mp (by decide))
  · exact hparse

theorem exists_display (s : Strategy) (hne : s.branches ≠ []) :
    ∃ body, s.display = "tag(" ++ text s.branches ++ "):" ++ body := by
  unfold display format
  simp only [if_neg hne]
  exact ⟨_, rfl⟩

end Strategy

namespace Branches

open Strategy

/-- **Names of branches are read back from their list** if and only if no bracket is left in one of
them, behind a blank or a comma. Every strategy shows its branches in the text that is written for
it; those of a text or a switch are always the ones that it allows, and those of a table if the
same holds of the text from which they were read. -/
theorem parse_text_parse_iff (branches : String) :
    (parse (text (parse branches)) = parse branches ↔
      ¬ HidesOpen branches.toList ∧ ¬ HidesClose branches.toList) ∧
      ∀ d s, ofDeclaration? d = some s →
        (∃ body, s.display = "tag(" ++ text s.branches ++ "):" ++ body) ∧
        (parse (text s.branches) = s.branches ↔
          ∀ t, d = .table t →
            ¬ HidesOpen t.branchText.toList ∧ ¬ HidesClose t.branchText.toList) := by
  refine ⟨parse_text_parseChars branches.toList, fun d s hs => ?_⟩
  unfold ofDeclaration? at hs
  split at hs
  · obtain rfl := Option.some.inj hs
    have hwritable : ∀ given, (∃ main separator extra, Writable (ofText given) main separator extra) →
        (ofText given).branches ≠ [] ∧
          parse (text (ofText given).branches) = (ofText given).branches := by
      rintro given ⟨main, separator, extra, h⟩
      exact ⟨h.branches_ne_nil, h.parse_text⟩
    cases d with
    | switch on =>
      obtain ⟨hne, hparse⟩ := hwritable "tag" (ofText_writable "tag")
      exact ⟨exists_display _ hne, iff_of_true hparse nofun⟩
    | compact given =>
      obtain ⟨hne, hparse⟩ := hwritable given (ofText_writable given)
      exact ⟨exists_display _ hne, iff_of_true hparse nofun⟩
    | table t =>
      refine ⟨exists_display _ (branches_ofTable_ne_nil t), ?_⟩
      rw [parse_text_branches_ofTable]
      simp
  · exact absurd hs nofun

/-- A blank before the opening bracket leaves it in the first name. The strategy shows `(a,b`, which
lists other branches than those that it allows; without the blank it shows what it allows. -/
theorem parse_text_parse_iff_blank :
    let t : StrategyTable := ⟨none, none, none, some (.text " (a, b)"), []⟩
    let t' : StrategyTable := ⟨none, none, none, some (.text "((a, (b) , c)"), []⟩
    ∃ s s', ofDeclaration? (.table t) = some s ∧ s.branches = ["(a", "b"] ∧
      parse (text s.branches) = ["a", "b"] ∧ parse (text s.branches) ≠ s.branches ∧
      ofDeclaration? (.table t') = some s' ∧ s'.branches = ["a", "(b)", "c"] ∧
      parse (text s'.branches) = s'.branches := by
  intro t t'
  obtain ⟨-, hstrategy⟩ := parse_text_parse_iff " (a, b)"
  have hs : ofDeclaration? (.table t) = some (ofTable t) := rfl
  have hs' : ofDeclaration? (.table t') = some (ofTable t') := rfl
  have hiff := (hstrategy _ _ hs).2
  have hiff' := (hstrategy _ _ hs').2
  have hne : ¬ ∀ other, Declaration.table t = .table other →
      ¬ HidesOpen other.branchText.toList ∧ ¬ HidesClose other.branchText.toList := by
    intro h
    exact absurd (h t rfl).1 (by decide)
  have heq : ∀ other, Declaration.table t' = .table other →
      ¬ HidesOpen other.branchText.toList ∧ ¬ HidesClose other.branchText.toList := by
    intro other hother
    obtain rfl := Declaration.table.inj hother
    decide
  exact ⟨ofTable t, ofTable t', hs, by decide, by decide, fun h => hne (hiff.mp h), hs', by decide,
    hiff'.mpr heq⟩

end Branches

end TagVersion
