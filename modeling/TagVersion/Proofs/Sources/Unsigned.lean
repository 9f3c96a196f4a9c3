import TagVersion.Proofs.Sources.Lines

/-!
# Lines without a sign

A line that has a sign is rewritten to one line, and so is one that lacks its end. A line that has an
end but no sign keeps its end in the middle: the value is put on a line of its own behind it, and all
lines further down move by one.

* **`SourceLine.IsLine`**: one line with its end.
* **`SourceLine.isLine_updated`**, **`SourceLine.updated_of_not_staysSingle`**: the two kinds of lines.
* **`Text.Lines.insertIdx`**: where a line that was put in is cut.
* **`Sources.lines_rewriteLine_of_not_staysSingle`**: a text with a line more.
* **`SourceLine.isLine_updated_iff`**: which lines stay one line, and what becomes of the text.
-/

namespace TagVersion

/-! ## Putting a line in -/

namespace Text

variable {ls : List (List Char)} {i : Nat} {line body : List Char}

/-- A line may be put in behind any other that has its end. -/
theorem Lines.insertIdx (h : Lines ls) (hline : ls[i]? = some line) (hend : '\n' ∈ line)
    (hbody : '\n' ∉ body) : Lines (ls.insertIdx (i + 1) (body ++ ['\n'])) := by
  induction h generalizing i with
  | nil => exact absurd hline (by simp)
  | last last hne hlast =>
    -- the only line is the one without an end
    have hi : i = 0 := by
      have hlt : i < [last].length := (List.getElem?_eq_some_iff.mp hline).1
      simpa using hlt
    subst hi
    obtain rfl : last = line := by simpa using hline
    exact absurd hend hlast
  | cons first rest hfirst hrest ih =>
    cases i with
    | zero => exact .cons first _ hfirst (.cons body rest hbody hrest)
    | succ i => exact .cons first _ hfirst (ih (by simpa using hline))

/-- Text that is added to a line may be told as a line of its own. -/
theorem flatten_insertIdx {f : List Char → List Char} {new : List Char}
    (hline : ls[i]? = some line) (hf : f line = line ++ new) :
    (ls.insertIdx (i + 1) new).flatten = (ls.modify i f).flatten := by
  induction ls generalizing i with
  | nil => exact absurd hline (by simp)
  | cons first rest ih =>
    cases i with
    | zero =>
      obtain rfl : first = line := by simpa using hline
      simp [hf]
    | succ i =>
      have hrest := ih (i := i) (by simpa using hline)
      simp [hrest]

end Text

/-! ## Which lines stay one line -/

namespace SourceLine

variable {line version : List Char}

/-- A text that ends with a line end and holds no other. -/
def IsLine (cs : List Char) : Prop :=
  ∃ body, cs = body ++ ['\n'] ∧ '\n' ∉ body

theorem isLine_append_iff {body : List Char} : IsLine (body ++ ['\n']) ↔ '\n' ∉ body := by
  constructor
  · rintro ⟨other, heq, hother⟩
    rwa [List.append_cancel_right heq]
  · exact fun h => ⟨body, rfl, h⟩

/-- A line with an end at most stands by itself among the lines of a text. -/
theorem lines_singleton (hne : line ≠ []) (hline : '\n' ∉ line.dropLast) : Text.Lines [line] := by
  have hsplit : line = line.dropLast ++ [line.getLast hne] := (List.dropLast_append_getLast hne).symm
  by_cases hlast : line.getLast hne = '\n'
  · rw [hsplit, hlast]
    exact .cons line.dropLast [] hline .nil
  · refine .last line hne ?_
    rw [hsplit]
    simp [hline, Ne.symm hlast]

/-- **A line that has a sign**, or no end, is rewritten to one line. -/
theorem isLine_updated (hline : '\n' ∉ line.dropLast) (hversion : '\n' ∉ version)
    (hsingle : StaysSingle line) : IsLine (updated line version) := by
  cases line with
  | nil =>
    -- the sign and the value are all there is
    show IsLine (':' :: version ++ ['\n'])
    rw [isLine_append_iff]
    simp [hversion]
  | cons c cs =>
    have hlines := lines_singleton (List.cons_ne_nil c cs) hline
    exact exists_updated_eq hlines List.mem_cons_self hsingle hversion

/-- **A line without a sign** that has its end is kept as it is, with the value behind it. -/
theorem updated_of_not_staysSingle (h : ¬ StaysSingle line) (version : List Char) :
    updated line version = line ++ (':' :: version ++ ['\n']) := by
  obtain ⟨-, hsigns⟩ := Classical.not_imp.mp h
  obtain ⟨hequals, hcolon⟩ := not_or.mp hsigns
  have hform : form line version = (':', version) :=
    if_neg (mt List.contains_iff_mem.mp hequals)
  have hcut : Text.cutFirst ':' line = none := Text.cutFirst_eq_none_iff.mpr hcolon
  unfold updated
  simp [hform, hcut]

end SourceLine

namespace Sources

/-- **A text with a line more**: behind the line without a sign comes one with the value. -/
theorem lines_rewriteLine_of_not_staysSingle {version text line : List Char} {number : UInt64}
    (hversion : '\n' ∉ version) (hline : (Text.lines text)[number.toNat - 1]? = some line)
    (h : ¬ SourceLine.StaysSingle line) :
    Text.lines (rewriteLine version text number) =
      (Text.lines text).insertIdx (number.toNat - 1 + 1) (':' :: version ++ ['\n']) := by
  obtain ⟨hend, -⟩ := Classical.not_imp.mp h
  have hvalue : '\n' ∉ ':' :: version := by simp [hversion]
  rw [rewriteLine_eq, ← Text.flatten_insertIdx hline (SourceLine.updated_of_not_staysSingle h version)]
  exact Text.lines_flatten ((Text.lines_lines text).insertIdx hline hend hvalue)

end Sources

namespace SourceLine

/-- **A line stays a line** if and only if it has a sign or lacks its end. Then the text that it
stands in has the lines that it had, but for this one. Otherwise the value goes on a line of its own,
and every line that follows moves by one. -/
theorem isLine_updated_iff {line version : List Char} (hline : '\n' ∉ line.dropLast)
    (hversion : '\n' ∉ version) :
    (IsLine (updated line version) ↔ StaysSingle line) ∧
      ∀ (text : List Char) (number : UInt64), 0 < number →
        (Text.lines text)[number.toNat - 1]? = some line →
        Text.lines (Sources.rewriteLine version text number) =
          if StaysSingle line then
            (Text.lines text).set (number.toNat - 1) (updated line version)
          else (Text.lines text).insertIdx number.toNat (':' :: version ++ ['\n']) := by
  refine ⟨⟨fun hupdated => ?_, isLine_updated hline hversion⟩, ?_⟩
  · -- without a sign the end of the line comes before the value
    by_contra hsingle
    rw [updated_of_not_staysSingle hsingle, ← List.append_assoc, isLine_append_iff] at hupdated
    exact hupdated (List.mem_append_left _ (Classical.not_imp.mp hsingle).1)
  · intro text number hnumber hget
    by_cases hsingle : StaysSingle line
    · have hone : ∀ old, (Text.lines text)[number.toNat - 1]? = some old → StaysSingle old := by
        intro old hold
        rwa [← Option.some.inj (hget.symm.trans hold)]
      have hlines := Sources.lines_rewriteLine hversion hone
      rw [if_pos hsingle, hlines, List.modify_eq_set_getElem?, hget]
      rfl
    · have hbehind : number.toNat - 1 + 1 = number.toNat := by
        have hpos : 0 < number.toNat := UInt64.lt_iff_toNat_lt.mp hnumber
        omega
      rw [if_neg hsingle, Sources.lines_rewriteLine_of_not_staysSingle hversion hget hsingle, hbehind]

/-- A version that is put on a line without a sign, in front of another line. -/
theorem isLine_updated_iff_unsigned :
    let line := "version 1.2.3\n".toList
    let version := "1.3.0".toList
    '\n' ∉ line.dropLast ∧ '\n' ∉ version ∧ ¬ IsLine (updated line version) ∧
      Text.lines (Sources.rewriteLine version "version 1.2.3\nname\n".toList 1) =
        ["version 1.2.3\n".toList, ":1.3.0\n".toList, "name\n".toList] := by
  intro line version
  have hline : '\n' ∉ line.dropLast := by decide
  have hversion : '\n' ∉ version := by decide
  have hunsigned : ¬ StaysSingle line := by decide
  obtain ⟨hisLine, hlines⟩ := isLine_updated_iff hline hversion
  refine ⟨hline, hversion, mt hisLine.mp hunsigned, ?_⟩
  have hcut := hlines "version 1.2.3\nname\n".toList 1 (by decide) (by decide)
  rw [hcut, if_neg hunsigned]
  decide

end SourceLine

end TagVersion
