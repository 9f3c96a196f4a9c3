import TagVersion.Proofs.Sources.Outcome

/-!
# Lines that are rewritten

A text is cut into lines anew for every source that points into it. This module shows that the
lines stay where they are: a line with a sign is rewritten to a single line again, and the other
lines are cut as before.

* **`Lines`**: how a text is cut, with at most the last line lacking its end.
* **`lines_flatten`**: such lines are cut where they were put together.
* **`exists_updated_eq`**: a line that has a sign, or no end, is rewritten to one line.
* **`lines_rewriteLine`**: a rewritten text has the same lines but one.
-/

namespace TagVersion

namespace Text

/-! ## How texts are cut -/

/-- Lines that each hold one line end, as their last character. The last line may lack it, but is
not empty then. -/
inductive Lines : List (List Char) → Prop where
  | nil : Lines []
  | last (body : List Char) (hne : body ≠ []) (hbody : '\n' ∉ body) : Lines [body]
  | cons (body : List Char) (rest : List (List Char)) (hbody : '\n' ∉ body)
      (hrest : Lines rest) : Lines ((body ++ ['\n']) :: rest)

theorem lines_append_newline {body : List Char} (h : '\n' ∉ body) (rest : List Char) :
    lines (body ++ '\n' :: rest) = (body ++ ['\n']) :: lines rest := by
  induction body with
  | nil => rw [List.nil_append, List.nil_append, lines, if_pos rfl]
  | cons c body ih =>
    obtain ⟨hc, hbody⟩ := List.ne_and_not_mem_of_not_mem_cons h
    rw [List.cons_append, lines, if_neg hc.symm, ih hbody, List.cons_append]

theorem lines_of_not_mem {body : List Char} (hne : body ≠ []) (h : '\n' ∉ body) :
    lines body = [body] := by
  induction body with
  | nil => exact absurd rfl hne
  | cons c body ih =>
    obtain ⟨hc, hbody⟩ := List.ne_and_not_mem_of_not_mem_cons h
    rw [lines, if_neg hc.symm]
    cases body with
    | nil => rfl
    | cons d body => rw [ih (List.cons_ne_nil d body) hbody]

/-- **Lines** are cut where they were put together. -/
theorem lines_flatten {ls : List (List Char)} (h : Lines ls) : lines ls.flatten = ls := by
  induction h with
  | nil => rfl
  | last body hne hbody => rw [List.flatten_singleton, lines_of_not_mem hne hbody]
  | cons body rest hbody _ ih =>
    rw [List.flatten_cons, List.append_assoc, List.singleton_append,
      lines_append_newline hbody, ih]

/-- A character in front of a line becomes its first one. -/
theorem Lines.cons_head {c : Char} {l : List Char} {ls : List (List Char)} (hc : c ≠ '\n')
    (h : Lines (l :: ls)) : Lines ((c :: l) :: ls) := by
  cases h with
  | last _ _ hbody =>
    exact .last (c :: l) (List.cons_ne_nil c l) (List.not_mem_cons_of_ne_of_not_mem hc.symm hbody)
  | cons body _ hbody hrest =>
    exact .cons (c :: body) ls (List.not_mem_cons_of_ne_of_not_mem hc.symm hbody) hrest

/-- Every text is cut into such lines. -/
theorem lines_lines (cs : List Char) : Lines (lines cs) := by
  induction cs with
  | nil => exact .nil
  | cons c rest ih =>
    rw [lines]
    by_cases hc : c = '\n'
    · rw [if_pos hc, hc]
      exact .cons [] _ List.not_mem_nil ih
    · rw [if_neg hc]
      cases hrest : lines rest with
      | nil => exact .last [c] (List.cons_ne_nil c []) (by simpa using Ne.symm hc)
      | cons l ls =>
        rw [hrest] at ih
        exact ih.cons_head hc

/-- A line may be changed to any other that has its end. -/
theorem Lines.modify {ls : List (List Char)} (h : Lines ls) {i : Nat}
    {f : List Char → List Char}
    (hf : ∀ l, ls[i]? = some l → ∃ body, f l = body ++ ['\n'] ∧ '\n' ∉ body) :
    Lines (ls.modify i f) := by
  induction h generalizing i with
  | nil =>
    rw [List.modify_nil]
    exact .nil
  | last body hne hbody =>
    cases i with
    | zero =>
      obtain ⟨new, hnew, hmem⟩ := hf body rfl
      rw [List.modify_zero_cons, hnew]
      exact .cons new [] hmem .nil
    | succ i =>
      rw [List.modify_succ_cons, List.modify_nil]
      exact .last body hne hbody
  | cons body rest hbody hrest ih =>
    cases i with
    | zero =>
      obtain ⟨new, hnew, hmem⟩ := hf _ rfl
      rw [List.modify_zero_cons, hnew]
      exact .cons new rest hmem hrest
    | succ i =>
      rw [List.modify_succ_cons]
      exact .cons body _ hbody (ih hf)

/-- In a line, no end comes before another character. -/
theorem Lines.not_mem_of_mem {ls : List (List Char)} (h : Lines ls) {before after : List Char}
    {c : Char} (hmem : before ++ c :: after ∈ ls) : '\n' ∉ before := by
  induction h with
  | nil => exact absurd hmem List.not_mem_nil
  | last body _ hbody =>
    rw [← List.mem_singleton.mp hmem] at hbody
    exact fun h => hbody (List.mem_append_left _ h)
  | cons body rest hbody _ ih =>
    rcases List.mem_cons.mp hmem with heq | hmem
    · -- what comes before a character of a line comes before its end
      rcases List.append_eq_append_iff.mp heq with ⟨as, hbefore, -⟩ | ⟨bs, hbefore, hlast⟩
      · rw [hbefore] at hbody
        exact fun h => hbody (List.mem_append_left _ h)
      · cases bs with
        | nil =>
          rw [hbefore, List.append_nil]
          exact hbody
        | cons b bs => exact absurd (congrArg List.length hlast) (by simp)
    · exact ih hmem

end Text

/-! ## Rewriting a line -/

namespace SourceLine

/-- A line that stays a single one when it is rewritten. Where there is no sign, the value is put behind
the end of the line, if the line has an end. -/
def StaysSingle (line : List Char) : Prop :=
  '\n' ∈ line → '=' ∈ line ∨ ':' ∈ line

instance (line : List Char) : Decidable (StaysSingle line) :=
  inferInstanceAs (Decidable ('\n' ∈ line → _))

/-- Neither the sign of a line nor its value ends a line. -/
theorem not_mem_form {version : List Char} (hversion : '\n' ∉ version) (line : List Char) :
    (form line version).1 ≠ '\n' ∧ '\n' ∉ (form line version).2 := by
  unfold form
  split
  · exact ⟨(by decide : '=' ≠ '\n'), by simpa using hversion⟩
  · exact ⟨(by decide : ':' ≠ '\n'), hversion⟩

/-- The sign that decides is in the line if any is. -/
theorem form_mem {line : List Char} (hsign : '=' ∈ line ∨ ':' ∈ line) (version : List Char) :
    (form line version).1 ∈ line := by
  unfold form
  by_cases heq : '=' ∈ line
  · rw [if_pos (List.contains_iff_mem.mpr heq)]
    exact heq
  · rw [if_neg (mt List.contains_iff_mem.mp heq)]
    exact hsign.resolve_left heq

/-- **A line that stays single** is rewritten to one line, whatever stood after its sign. -/
theorem exists_updated_eq {ls : List (List Char)} (hls : Text.Lines ls) {line version : List Char}
    (hline : line ∈ ls) (hsingle : StaysSingle line) (hversion : '\n' ∉ version) :
    ∃ body, updated line version = body ++ ['\n'] ∧ '\n' ∉ body := by
  obtain ⟨hne, hvalue⟩ := not_mem_form hversion line
  cases hcut : Text.cutFirst (form line version).1 line with
  | none =>
    -- without a sign the line has no end, and all of it is kept
    have hsign : (form line version).1 ∉ line := Text.cutFirst_eq_none_iff.mp hcut
    have hkey : '\n' ∉ line := fun hmem => hsign (form_mem (hsingle hmem) version)
    refine ⟨line ++ (form line version).1 :: (form line version).2, ?_, ?_⟩
    · unfold updated
      simp [hcut]
    · simp [hkey, hne.symm, hvalue]
  | some parts =>
    obtain ⟨key, rest⟩ := parts
    obtain ⟨hparts, -⟩ := Text.cutFirst_eq_some_iff.mp hcut
    have hkey : '\n' ∉ key := by
      rw [hparts] at hline
      exact hls.not_mem_of_mem hline
    let blank := if rest.head? = some ' ' then [' '] else []
    refine ⟨key ++ (form line version).1 :: blank ++ (form line version).2, ?_, ?_⟩
    · unfold updated
      simp only [hcut, Option.getD_some]
      rfl
    · have hblank : '\n' ∉ blank := by
        by_cases hhead : rest.head? = some ' '
        · simp [blank, hhead]
        · simp [blank, hhead]
      simp [hkey, hne.symm, hblank, hvalue]

end SourceLine

namespace Sources

theorem rewriteLine_eq (version text : List Char) (line : UInt64) :
    rewriteLine version text line =
      ((Text.lines text).modify (line.toNat - 1) (SourceLine.updated · version)).flatten := by
  unfold rewriteLine revised?
  rw [List.modify_eq_set_getElem?]
  cases hold : (Text.lines text)[line.toNat - 1]? with
  | none => simp [hold, Text.flatten_lines]
  | some old =>
    simp only [hold]
    by_cases hnew : SourceLine.updated old version = old
    · -- a line that is already right is put back where it was
      have hset : (Text.lines text).set (line.toNat - 1) old = Text.lines text := by
        obtain ⟨hlt, hget⟩ := List.getElem?_eq_some_iff.mp hold
        rw [← hget, List.set_getElem_self]
      rw [if_pos hnew]
      simp [hnew, hset, Text.flatten_lines]
    · rw [if_neg hnew]
      simp

/-- **A rewritten text** has the lines of the old one, but for the line of the number. -/
theorem lines_rewriteLine {version text : List Char} {line : UInt64}
    (hversion : '\n' ∉ version)
    (hsingle : ∀ old, (Text.lines text)[line.toNat - 1]? = some old → SourceLine.StaysSingle old) :
    Text.lines (rewriteLine version text line) =
      (Text.lines text).modify (line.toNat - 1) (SourceLine.updated · version) := by
  rw [rewriteLine_eq]
  have hlines := Text.lines_lines text
  refine Text.lines_flatten (hlines.modify fun old hold => ?_)
  exact SourceLine.exists_updated_eq hlines (List.mem_of_getElem? hold) (hsingle old hold) hversion

end Sources

end TagVersion
