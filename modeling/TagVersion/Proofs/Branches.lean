import Mathlib.Data.List.DropRight
import TagVersion.Strategy.Branches

/-!
# Names in branch lists

The names read from a list of branches contain no comma and have no blank at either end, and a
list of such names is read back from its text.
-/

namespace TagVersion

namespace Text

/-! ## Trimming -/

theorem dropEndWhile_eq_rdropWhile (p : Char → Bool) (cs : List Char) :
    dropEndWhile p cs = cs.rdropWhile p := rfl

theorem mem_of_mem_trim {c : Char} {cs : List Char} (h : c ∈ trim cs) : c ∈ cs := by
  unfold trim at h
  rw [dropEndWhile_eq_rdropWhile] at h
  have hdrop : c ∈ cs.dropWhile isBlank := (List.rdropWhile_prefix isBlank _).subset h
  exact (List.dropWhile_sublist isBlank).subset hdrop

theorem dropWhile_trim (cs : List Char) : (trim cs).dropWhile isBlank = trim cs := by
  unfold trim
  rw [dropEndWhile_eq_rdropWhile, List.dropWhile_eq_self_iff]
  intro hlen
  -- the first character is that of the text without its leading blanks
  obtain ⟨after, hafter⟩ := List.rdropWhile_prefix isBlank (cs.dropWhile isBlank)
  have hne : cs.dropWhile isBlank ≠ [] := by
    intro hnil
    rw [hnil, List.rdropWhile_nil] at hlen
    exact absurd hlen (by simp)
  have hhead : ((cs.dropWhile isBlank).rdropWhile isBlank)[0] = (cs.dropWhile isBlank).head hne := by
    rw [← List.getElem_zero_eq_head (List.length_pos_of_ne_nil hne)]
    exact List.IsPrefix.getElem ⟨after, hafter⟩ hlen
  rw [hhead, Bool.not_eq_true]
  exact List.head_dropWhile_not isBlank hne

theorem isBlank_of_mem_head?_trim {cs : List Char} : ∀ c ∈ (trim cs).head?, isBlank c = false := by
  have hfront := dropWhile_trim cs
  cases htrim : trim cs with
  | nil => exact nofun
  | cons c rest =>
    intro d hd
    obtain rfl := Option.some.inj (Option.mem_def.mp hd)
    rw [htrim, List.dropWhile_eq_self_iff] at hfront
    exact eq_false_of_ne_true (hfront (List.length_pos_of_ne_nil (List.cons_ne_nil c rest)))

theorem isBlank_of_mem_getLast?_trim {cs : List Char} :
    ∀ c ∈ (trim cs).getLast?, isBlank c = false := by
  intro c hc
  obtain ⟨hne, rfl⟩ := List.mem_getLast?_eq_getLast hc
  exact Bool.eq_false_iff.mpr (List.rdropWhile_last_not isBlank (cs.dropWhile isBlank) hne)

/-- A trimmed text has nothing left to trim. -/
theorem trim_trim (cs : List Char) : trim (trim cs) = trim cs := by
  show dropEndWhile isBlank ((trim cs).dropWhile isBlank) = trim cs
  rw [dropWhile_trim]
  exact List.rdropWhile_idempotent isBlank (cs.dropWhile isBlank)

/-- Only blanks are lost by trimming. -/
theorem exists_blanks_around_trim (cs : List Char) :
    ∃ before after, cs = before ++ trim cs ++ after ∧
      (∀ c ∈ before, isBlank c = true) ∧ ∀ c ∈ after, isBlank c = true := by
  have hbefore : ∀ c ∈ cs.takeWhile isBlank, isBlank c = true := fun c hc => List.mem_takeWhile_imp hc
  have hafter : ∀ c ∈ (cs.dropWhile isBlank).rtakeWhile isBlank, isBlank c = true :=
    fun c hc => List.mem_rtakeWhile_imp hc
  have hend : trim cs ++ (cs.dropWhile isBlank).rtakeWhile isBlank = cs.dropWhile isBlank :=
    List.rdropWhile_append_rtakeWhile
  refine ⟨_, _, ?_, hbefore, hafter⟩
  rw [List.append_assoc, hend, List.takeWhile_append_dropWhile]

/-! ## Pieces -/

theorem of_mem_splitOn {sep : Char} {cs piece : List Char} (h : piece ∈ cs.splitOn sep) :
    sep ∉ piece ∧ ∀ c ∈ piece, c ∈ cs := by
  induction cs generalizing piece with
  | nil =>
    rw [List.splitOn_nil, List.mem_singleton] at h
    subst h
    simp
  | cons d ds ih =>
    rw [List.splitOn_cons_eq_if_modifyHead] at h
    by_cases hd : (d == sep) = true
    · rw [if_pos hd] at h
      rcases List.mem_cons.mp h with rfl | h
      · simp
      · exact ⟨(ih h).1, fun c hc => List.mem_cons_of_mem d ((ih h).2 c hc)⟩
    · -- the character belongs to the first of the pieces behind it
      rw [if_neg hd] at h
      have hne : d ≠ sep := fun heq => hd (beq_iff_eq.mpr heq)
      cases hpieces : ds.splitOn sep with
      | nil => exact absurd hpieces (List.splitOn_ne_nil sep ds)
      | cons first later =>
        rw [hpieces] at h ih
        rcases List.mem_cons.mp h with rfl | h
        · obtain ⟨hfirst, hmem⟩ := ih (List.mem_cons_self ..)
          refine ⟨?_, ?_⟩
          · intro hsep
            rcases List.mem_cons.mp hsep with heq | hsep
            · exact hne heq.symm
            · exact hfirst hsep
          · intro c hc
            rcases List.mem_cons.mp hc with rfl | hc
            · exact List.mem_cons_self ..
            · exact List.mem_cons_of_mem d (hmem c hc)
        · obtain ⟨hlater, hmem⟩ := ih (List.mem_cons_of_mem first h)
          exact ⟨hlater, fun c hc => List.mem_cons_of_mem d (hmem c hc)⟩

end Text

namespace Branches

/-! ## Names -/

/-- A name that can stand in a list of branches. -/
structure IsName (name : String) : Prop where
  ne_nil : name.toList ≠ []
  not_mem_comma : ',' ∉ name.toList
  trim_eq : Text.trim name.toList = name.toList

/-- What is read between commas is a name, and nothing is added to it. -/
theorem of_mem_names {cs : List Char} {name : String} (h : name ∈ names cs) :
    IsName name ∧ ∀ c ∈ name.toList, c ∈ cs := by
  unfold names at h
  obtain ⟨text, htext, rfl⟩ := List.mem_map.mp h
  obtain ⟨hmem, hne⟩ := List.mem_filter.mp htext
  obtain ⟨piece, hpiece, rfl⟩ := List.mem_map.mp hmem
  obtain ⟨hcomma, hchars⟩ := Text.of_mem_splitOn hpiece
  rw [String.toList_ofList]
  refine ⟨⟨?_, ?_, ?_⟩, ?_⟩
  · rw [String.toList_ofList]
    exact bne_iff_ne.mp hne
  · rw [String.toList_ofList]
    exact fun hmem => hcomma (Text.mem_of_mem_trim hmem)
  · rw [String.toList_ofList]
    exact Text.trim_trim piece
  · exact fun c hc => hchars c (Text.mem_of_mem_trim hc)

theorem text_toList (branches : List String) :
    (text branches).toList = [','].intercalate (branches.map String.toList) := by
  unfold text
  rw [String.toList_intercalate]
  rfl

/-- The characters of a list are those of its names, and commas. -/
theorem forall_mem_text {p : Char → Prop} {branches : List String} (hcomma : p ',')
    (h : ∀ name ∈ branches, ∀ c ∈ name.toList, p c) : ∀ c ∈ (text branches).toList, p c := by
  rw [text_toList]
  induction branches with
  | nil => simp
  | cons name names ih =>
    have hnames := ih fun other hother => h other (List.mem_cons_of_mem name hother)
    have hname := h name (List.mem_cons_self ..)
    cases names with
    | nil => simpa using hname
    | cons other names =>
      rw [List.map_cons, List.map_cons, List.intercalate_cons_cons, ← List.map_cons]
      intro c hc
      rcases List.mem_append.mp hc with hc | hc
      · rcases List.mem_append.mp hc with hc | hc
        · exact hname c hc
        · rw [List.mem_singleton.mp hc]
          exact hcomma
      · exact hnames c hc

/-- **Names are read back** from their list. -/
theorem names_text {branches : List String} (hne : branches ≠ [])
    (h : ∀ name ∈ branches, IsName name) : names (text branches).toList = branches := by
  have hpieces : ∀ piece ∈ branches.map String.toList, ',' ∉ piece := by
    intro piece hpiece
    obtain ⟨name, hname, rfl⟩ := List.mem_map.mp hpiece
    exact (h name hname).not_mem_comma
  have htrim : (branches.map String.toList).map Text.trim = branches.map String.toList := by
    rw [List.map_map]
    exact List.map_congr_left fun name hname => (h name hname).trim_eq
  have hfilter : (branches.map String.toList).filter (· != []) = branches.map String.toList := by
    rw [List.filter_eq_self]
    intro piece hpiece
    obtain ⟨name, hname, rfl⟩ := List.mem_map.mp hpiece
    exact bne_iff_ne.mpr (h name hname).ne_nil
  -- the pieces are the names again, and neither trimming nor filtering takes anything away
  unfold names
  rw [text_toList, List.splitOn_intercalate ',' hpieces (by simpa using hne), htrim, hfilter,
    List.map_map]
  show branches.map (fun name => String.ofList name.toList) = branches
  simp

/-- Without brackets the whole text is the list. -/
theorem parseChars_of_not_mem {cs : List Char} (hopen : '(' ∉ cs) (hclose : ')' ∉ cs) :
    parseChars cs = names cs := by
  have hfront : cs.dropWhile (· == '(') = cs := by
    rw [List.dropWhile_eq_self_iff]
    intro hlen h
    exact hopen (beq_iff_eq.mp h ▸ List.getElem_mem hlen)
  have hend : cs.rdropWhile (· == ')') = cs := by
    rw [List.rdropWhile_eq_self_iff]
    intro hne h
    exact hclose (beq_iff_eq.mp h ▸ List.getLast_mem hne)
  unfold parseChars
  rw [hfront, Text.dropEndWhile_eq_rdropWhile, hend]

/-- Brackets around a list do not belong to its names. -/
theorem parseChars_bracketed {cs : List Char} (hopen : '(' ∉ cs) (hclose : ')' ∉ cs) :
    parseChars ('(' :: (cs ++ [')'])) = names cs := by
  have hfront : (cs ++ [')']).dropWhile (· == '(') = cs ++ [')'] := by
    cases cs with
    | nil => rfl
    | cons c cs =>
      have hc : (c == '(') ≠ true := fun h => hopen (by rw [beq_iff_eq.mp h]; simp)
      rw [List.cons_append]
      exact List.dropWhile_cons_of_neg hc
  have hend : cs.rdropWhile (· == ')') = cs := by
    rw [List.rdropWhile_eq_self_iff]
    intro hne h
    have hlast : cs.getLast hne = ')' := beq_iff_eq.mp h
    exact hclose (hlast ▸ List.getLast_mem hne)
  unfold parseChars
  rw [List.dropWhile_cons_of_pos (by decide), hfront, Text.dropEndWhile_eq_rdropWhile,
    List.rdropWhile_concat_pos _ _ _ (by decide), hend]

end Branches

end TagVersion
