import Mathlib.Data.List.ModifyLast
import TagVersion.Proofs.Branches

/-!
# Branch lists that are read from their text

A list of branches that is turned into its text and read again comes back as the list only if none
of its names holds a character that means something in the text.

* **`parse_text`**: what is read of the text of a list.
* **`text_names_sublist`**: reading adds nothing to a text.
* **`parse_text_eq_self_iff`**: the lists that come back.
-/

namespace TagVersion

namespace Text

theorem trim_sublist (cs : List Char) : (trim cs).Sublist cs :=
  (List.rdropWhile_prefix isBlank _).sublist.trans (List.dropWhile_sublist isBlank)

/-- A run of characters that ends a text does not reach over one of another kind. -/
theorem dropEndWhile_append_cons {p : Char → Bool} {c : Char} (hc : p c = false)
    (before after : List Char) :
    dropEndWhile p (before ++ c :: after) = before ++ c :: dropEndWhile p after := by
  have hc : ¬ p c = true := Bool.eq_false_iff.mp hc
  unfold dropEndWhile
  rw [List.reverse_append, List.reverse_cons, List.append_assoc, List.dropWhile_append]
  split
  · next hall =>
    have hnil := List.isEmpty_iff.mp hall
    rw [hnil, List.singleton_append, List.dropWhile_cons_of_neg hc]
    simp
  · simp

theorem dropWhile_beq_eq_self_iff {d : Char} {cs : List Char} :
    cs.dropWhile (· == d) = cs ↔ cs.head? ≠ some d := by
  cases cs with
  | nil => simp
  | cons c cs =>
    rw [List.dropWhile_eq_self_iff]
    simp

theorem dropEndWhile_beq_eq_self_iff {d : Char} {cs : List Char} :
    dropEndWhile (· == d) cs = cs ↔ cs.getLast? ≠ some d := by
  unfold dropEndWhile
  rw [List.reverse_eq_iff, dropWhile_beq_eq_self_iff, List.head?_reverse]

end Text

namespace Branches

/-! ## Names between commas -/

theorem names_append_comma (before after : List Char) :
    names (before ++ ',' :: after) = names before ++ names after := by
  unfold names
  rw [List.splitOn_append_cons_self, List.map_append, List.filter_append, List.map_append]

theorem intercalate_cons_of_ne_nil (first : List Char) {rest : List (List Char)} (h : rest ≠ []) :
    [','].intercalate (first :: rest) = first ++ ',' :: [','].intercalate rest := by
  obtain ⟨second, rest, rfl⟩ := List.exists_cons_of_ne_nil h
  rw [List.intercalate_cons_cons, List.append_assoc, List.singleton_append]

/-- The names in texts with commas between them are those in each of the texts. -/
theorem names_intercalate (texts : List (List Char)) :
    names ([','].intercalate texts) = texts.flatMap names := by
  induction texts with
  | nil => rfl
  | cons first rest ih =>
    by_cases hrest : rest = []
    · subst hrest
      simp
    · rw [intercalate_cons_of_ne_nil first hrest, names_append_comma, ih, List.flatMap_cons]

/-! ## Brackets around a list -/

/-- A text without the brackets at its two ends. -/
def bare (cs : List Char) : List Char :=
  Text.dropEndWhile (· == ')') (cs.dropWhile (· == '('))

theorem parseChars_eq_names_bare (cs : List Char) : parseChars cs = names (bare cs) := rfl

theorem bare_sublist (cs : List Char) : (bare cs).Sublist cs :=
  (List.rdropWhile_prefix (· == ')') _).sublist.trans (List.dropWhile_sublist (· == '('))

theorem bare_eq_self_iff {cs : List Char} :
    bare cs = cs ↔ cs.head? ≠ some '(' ∧ cs.getLast? ≠ some ')' := by
  unfold bare
  constructor
  · intro h
    have hfront : cs.dropWhile (· == '(') = cs := by
      refine (List.dropWhile_sublist _).antisymm ?_
      have hprefix := (List.rdropWhile_prefix (· == ')') (cs.dropWhile (· == '('))).sublist
      rwa [← Text.dropEndWhile_eq_rdropWhile, h] at hprefix
    rw [hfront] at h
    exact ⟨Text.dropWhile_beq_eq_self_iff.mp hfront, Text.dropEndWhile_beq_eq_self_iff.mp h⟩
  · rintro ⟨hopen, hclose⟩
    rw [Text.dropWhile_beq_eq_self_iff.mpr hopen, Text.dropEndWhile_beq_eq_self_iff.mpr hclose]

theorem dropWhile_intercalate {p : Char → Bool} (hcomma : p ',' = false) (first : List Char)
    (rest : List (List Char)) :
    ([','].intercalate (first :: rest)).dropWhile p =
      [','].intercalate (first.dropWhile p :: rest) := by
  by_cases hrest : rest = []
  · subst hrest
    simp
  · rw [intercalate_cons_of_ne_nil first hrest, intercalate_cons_of_ne_nil _ hrest,
      List.dropWhile_append]
    split
    · next hall =>
      rw [List.isEmpty_iff.mp hall, List.dropWhile_cons_of_neg (Bool.eq_false_iff.mp hcomma)]
      rfl
    · rfl

theorem dropEndWhile_intercalate {p : Char → Bool} (hcomma : p ',' = false)
    (front : List (List Char)) (last : List Char) :
    Text.dropEndWhile p ([','].intercalate (front ++ [last])) =
      [','].intercalate (front ++ [Text.dropEndWhile p last]) := by
  induction front with
  | nil => simp
  | cons first front ih =>
    rw [List.cons_append, intercalate_cons_of_ne_nil first (by simp),
      Text.dropEndWhile_append_cons hcomma, ih, List.cons_append,
      intercalate_cons_of_ne_nil first (by simp)]

/-- The texts of branch names without the brackets at the two ends of their list. -/
def unbracketed (branches : List String) : List (List Char) :=
  ((branches.map String.toList).modifyHead (·.dropWhile (· == '('))).modifyLast
    (Text.dropEndWhile (· == ')'))

/-- **What is read of a list of names**: brackets at its ends are dropped, and each name falls apart
at its commas. -/
theorem parse_text (branches : List String) :
    parse (text branches) = (unbracketed branches).flatMap names := by
  unfold parse
  rw [parseChars_eq_names_bare, text_toList]
  unfold bare unbracketed
  cases htexts : branches.map String.toList with
  | nil => rfl
  | cons first rest =>
    rw [dropWhile_intercalate (by decide), List.modifyHead_cons]
    -- the first name has lost its brackets; the last one may be the same
    have hne : first.dropWhile (· == '(') :: rest ≠ [] := List.cons_ne_nil _ _
    rw [← List.dropLast_concat_getLast hne, dropEndWhile_intercalate (by decide),
      List.modifyLast_concat, names_intercalate]

/-! ## Reading adds nothing -/

theorem intercalate_trim_sublist (pieces : List (List Char)) :
    ([','].intercalate ((pieces.map Text.trim).filter (· != []))).Sublist
      ([','].intercalate pieces) := by
  induction pieces with
  | nil => exact List.Sublist.refl _
  | cons piece pieces ih =>
    -- a piece of which nothing remains is left out, and its comma with it
    rw [List.map_cons]
    by_cases hrest : pieces = []
    · subst hrest
      by_cases hpiece : Text.trim piece = []
      · rw [List.filter_cons_of_neg (by simp [hpiece])]
        exact List.nil_sublist _
      · rw [List.filter_cons_of_pos (by simpa using hpiece)]
        simpa using Text.trim_sublist piece
    · rw [intercalate_cons_of_ne_nil piece hrest]
      by_cases hpiece : Text.trim piece = []
      · rw [List.filter_cons_of_neg (by simp [hpiece])]
        exact ih.trans ((List.sublist_cons_self _ _).trans (List.sublist_append_right _ _))
      · rw [List.filter_cons_of_pos (by simpa using hpiece)]
        by_cases hkept : (pieces.map Text.trim).filter (· != []) = []
        · rw [hkept, List.intercalate_singleton]
          exact (Text.trim_sublist piece).trans (List.sublist_append_left _ _)
        · rw [intercalate_cons_of_ne_nil _ hkept]
          exact (Text.trim_sublist piece).append (ih.cons_cons ',')

theorem toList_text_names (cs : List Char) :
    (text (names cs)).toList = [','].intercalate (((cs.splitOn ',').map Text.trim).filter (· != [])) := by
  unfold names
  rw [text_toList, List.map_map]
  simp [Function.comp_def]

/-- **Reading adds nothing**: the text of the names that are read is what is left of the text. -/
theorem text_names_sublist (cs : List Char) : (text (names cs)).toList.Sublist cs := by
  have hpieces := intercalate_trim_sublist (cs.splitOn ',')
  rw [List.intercalate_splitOn] at hpieces
  rwa [toList_text_names]

/-! ## Lists that come back -/

/-- Names that are read from their text as they were given: none has a comma, the first one does not
open with a bracket and the last one does not close with one. -/
structure IsLiteral (branches : List String) : Prop where
  not_mem_comma : ∀ name ∈ branches, ',' ∉ name.toList
  not_open : ∀ name ∈ branches.head?, name.toList.head? ≠ some '('
  not_close : ∀ name ∈ branches.getLast?, name.toList.getLast? ≠ some ')'

theorem head?_intercalate {first : List Char} (hfirst : first ≠ []) (rest : List (List Char)) :
    ([','].intercalate (first :: rest)).head? = first.head? := by
  by_cases hrest : rest = []
  · subst hrest
    simp
  · rw [intercalate_cons_of_ne_nil first hrest]
    exact List.head?_append_of_ne_nil first hfirst

theorem getLast?_intercalate {last : List Char} (hlast : last ≠ []) (front : List (List Char)) :
    ([','].intercalate (front ++ [last])).getLast? = last.getLast? := by
  induction front with
  | nil => simp
  | cons first front ih =>
    have hne : [','].intercalate (front ++ [last]) ≠ [] := by
      rw [← List.getLast?_isSome, ih, List.getLast?_isSome]
      exact hlast
    rw [List.cons_append, intercalate_cons_of_ne_nil first (by simp), List.getLast?_append,
      List.getLast?_cons_of_ne_nil hne, ih]
    obtain ⟨c, hc⟩ := Option.isSome_iff_exists.mp (List.getLast?_isSome.mpr hlast)
    rw [hc]
    rfl

theorem ends_text {branches : List String} (h : ∀ name ∈ branches, name.toList ≠ []) :
    ((text branches).toList.head? ≠ some '(' ↔
        ∀ name ∈ branches.head?, name.toList.head? ≠ some '(') ∧
      ((text branches).toList.getLast? ≠ some ')' ↔
        ∀ name ∈ branches.getLast?, name.toList.getLast? ≠ some ')') := by
  rw [text_toList]
  constructor
  · cases branches with
    | nil => simp
    | cons first rest =>
      rw [List.map_cons, head?_intercalate (h first (List.mem_cons_self ..))]
      simp
  · rcases List.eq_nil_or_concat' branches with rfl | ⟨front, last, rfl⟩
    · simp
    · rw [List.map_append, List.map_singleton, getLast?_intercalate (h last (by simp))]
      simp

/-- **A list is read back from its text** where it is literal, and nowhere else. -/
theorem parse_text_eq_self_iff {branches : List String}
    (h : ∀ name ∈ branches, name.toList ≠ [] ∧ Text.trim name.toList = name.toList) :
    parse (text branches) = branches ↔ IsLiteral branches := by
  obtain ⟨hopen, hclose⟩ := ends_text fun name hname => (h name hname).1
  unfold parse
  rw [parseChars_eq_names_bare]
  constructor
  · intro hread
    -- the text that is left without the brackets has to hold the whole list
    have hsublist := text_names_sublist (bare (text branches).toList)
    rw [hread] at hsublist
    have hends := bare_eq_self_iff.mp ((bare_sublist _).antisymm hsublist)
    refine ⟨fun name hname => ?_, hopen.mp hends.1, hclose.mp hends.2⟩
    rw [← hread] at hname
    exact (of_mem_names hname).1.not_mem_comma
  · intro hliteral
    rw [bare_eq_self_iff.mpr ⟨hopen.mpr hliteral.not_open, hclose.mpr hliteral.not_close⟩]
    by_cases hne : branches = []
    · subst hne
      rfl
    · exact names_text hne fun name hname =>
        ⟨(h name hname).1, hliteral.not_mem_comma name hname, (h name hname).2⟩

end Branches

end TagVersion
