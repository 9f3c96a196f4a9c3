/-!
# Regular expressions

A regular expression is matched at the front of a text. Where there is a choice, the preferred
way is tried first and is given up only when what follows does not match; the first way that
succeeds decides what the groups hold.
-/

namespace TagVersion.Text

/-- A regular expression. -/
inductive Regex where
  /-- One character with a property. -/
  | one (p : Char → Bool)
  /-- A run of characters with a property, preferably a long one if it is greedy and a short one
  if it is not. -/
  | run (isGreedy : Bool) (p : Char → Bool)
  | both (first second : Regex)
  /-- Preferably the body, otherwise nothing. -/
  | optional (body : Regex)
  | group (number : Nat) (body : Regex)
  /-- The end of the text. -/
  | stop

namespace Regex

/-- Expressions are appended to match one after the other. -/
instance : Append Regex := ⟨both⟩

/-- A given character. -/
def char (c : Char) : Regex := one (· == c)

/-- What the groups hold, the latest first: for each the text from its start on and the text
from its end on. -/
abbrev Groups := List (Nat × List Char × List Char)

/-- What a group holds, if it took part in the match. -/
def Groups.text? (found : Groups) (number : Nat) : Option (List Char) :=
  (found.lookup number).map fun (start, rest) => start.take (start.length - rest.length)

theorem Groups.text?_cons_self (number : Nat) (held rest : List Char) (found : Groups) :
    Groups.text? ((number, held ++ rest, rest) :: found) number = some held := by
  unfold Groups.text?
  rw [List.lookup_cons_self, Option.map_some]
  simp

theorem Groups.text?_nil (number : Nat) : Groups.text? [] number = none := rfl

/-- Goes on after a run of characters, one length after the other. -/
def afterRun {α : Type} (isGreedy : Bool) (p : Char → Bool) (next : List Char → Option α) :
    List Char → Option α
  | [] => next []
  | c :: cs =>
    if p c then
      if isGreedy then (afterRun isGreedy p next cs).or (next (c :: cs))
      else (next (c :: cs)).or (afterRun isGreedy p next cs)
    else next (c :: cs)

/-- Nothing is found after a run when nothing is found after any of its lengths. -/
theorem afterRun_eq_none {α : Type} {isGreedy : Bool} {p : Char → Bool}
    {next : List Char → Option α} {cs : List Char}
    (h : ∀ before rest, cs = before ++ rest → (∀ c ∈ before, p c = true) → next rest = none) :
    afterRun isGreedy p next cs = none := by
  induction cs with
  | nil => exact h [] [] rfl (by simp)
  | cons c cs ih =>
    -- the run may end here, or it takes a character and is searched further on
    have hhere : next (c :: cs) = none := h [] (c :: cs) rfl (by simp)
    unfold afterRun
    by_cases hc : p c = true
    · have hlater : afterRun isGreedy p next cs = none := by
        refine ih fun before rest hcs hbefore => ?_
        refine h (c :: before) rest (by rw [hcs, List.cons_append]) ?_
        intro d hd
        rcases List.mem_cons.mp hd with rfl | hd
        · exact hc
        · exact hbefore d hd
      rw [if_pos hc, hlater, hhere]
      cases isGreedy <;> rfl
    · rw [if_neg hc]
      exact hhere

/-- A greedy run goes to its end when nothing is found after a shorter one. -/
theorem afterRun_greedy {α : Type} {p : Char → Bool} {next : List Char → Option α}
    (h : ∀ c cs, p c = true → next (c :: cs) = none) (cs : List Char) :
    afterRun true p next cs = next (cs.dropWhile p) := by
  induction cs with
  | nil => rfl
  | cons c cs ih =>
    unfold afterRun
    by_cases hc : p c = true
    · rw [if_pos hc, if_pos rfl, ih, h c cs hc, Option.or_none, List.dropWhile_cons_of_pos hc]
    · rw [if_neg hc, List.dropWhile_cons_of_neg hc]

/-- A run that is not greedy ends at the first place after which something is found. -/
theorem afterRun_reluctant {α : Type} {p : Char → Bool} {next : List Char → Option α}
    {before rest : List Char} {a : α} (hp : ∀ c ∈ before, p c = true)
    (hfail : ∀ c cs, c ∈ before → next (c :: cs) = none) (hrest : next rest = some a) :
    afterRun false p next (before ++ rest) = some a := by
  induction before with
  | nil =>
    -- what follows matches at once, whether the run could go on or not
    rw [List.nil_append]
    cases rest with
    | nil => exact hrest
    | cons c cs =>
      unfold afterRun
      rw [hrest]
      cases p c <;> rfl
  | cons c before ih =>
    have hc : p c = true := hp c (List.mem_cons_self ..)
    have hhere : next (c :: (before ++ rest)) = none := hfail c _ (List.mem_cons_self ..)
    have hlater : afterRun false p next (before ++ rest) = some a :=
      ih (fun d hd => hp d (List.mem_cons_of_mem c hd))
        fun d cs hd => hfail d cs (List.mem_cons_of_mem c hd)
    rw [List.cons_append, afterRun, if_pos hc, hhere, hlater]
    rfl

/-- Goes on after a match, one way of matching after the other. -/
def after {α : Type} : Regex → (List Char → Groups → Option α) → List Char → Groups → Option α
  | one _, _, [], _ => none
  | one p, next, c :: cs, found => if p c then next cs found else none
  | run isGreedy p, next, cs, found => afterRun isGreedy p (next · found) cs
  | both first second, next, cs, found => first.after (second.after next) cs found
  | optional body, next, cs, found => (body.after next cs found).or (next cs found)
  | group number body, next, cs, found =>
    body.after (fun rest found => next rest ((number, cs, rest) :: found)) cs found
  | stop, next, [], found => next [] found
  | stop, _, _ :: _, _ => none

section

variable {α : Type} (next : List Char → Groups → Option α) (cs : List Char) (found : Groups)

@[simp] theorem after_append (first second : Regex) :
    (first ++ second).after next cs found = first.after (second.after next) cs found := rfl

@[simp] theorem after_optional (body : Regex) :
    (optional body).after next cs found = (body.after next cs found).or (next cs found) := by
  rw [after]

@[simp] theorem after_run (isGreedy : Bool) (p : Char → Bool) :
    (run isGreedy p).after next cs found = afterRun isGreedy p (next · found) cs := by
  rw [after]

@[simp] theorem after_group (number : Nat) (body : Regex) :
    (group number body).after next cs found =
      body.after (fun rest found => next rest ((number, cs, rest) :: found)) cs found := by
  rw [after]

@[simp] theorem after_one_nil (p : Char → Bool) : (one p).after next [] found = none := rfl

@[simp] theorem after_one_cons (p : Char → Bool) (c : Char) :
    (one p).after next (c :: cs) found = if p c then next cs found else none := rfl

@[simp] theorem after_char_cons (c d : Char) :
    (char c).after next (d :: cs) found = if d = c then next cs found else none := by
  unfold char
  rw [after_one_cons]
  simp only [beq_iff_eq]

theorem after_one_eq_some {p : Char → Bool} {a : α} :
    (one p).after next cs found = some a ↔
      ∃ c rest, cs = c :: rest ∧ p c = true ∧ next rest found = some a := by
  cases cs with
  | nil => simp
  | cons c rest =>
    rw [after_one_cons]
    by_cases hc : p c = true
    · rw [if_pos hc]
      constructor
      · intro h
        exact ⟨c, rest, rfl, hc, h⟩
      · rintro ⟨c', rest', heq, -, h⟩
        rw [(List.cons.inj heq).2]
        exact h
    · rw [if_neg hc]
      constructor
      · intro h
        exact absurd h (by simp)
      · rintro ⟨c', rest', heq, hc', -⟩
        rw [(List.cons.inj heq).1] at hc
        exact absurd hc' hc

theorem after_char_eq_some {c : Char} {a : α} :
    (char c).after next cs found = some a ↔
      ∃ rest, cs = c :: rest ∧ next rest found = some a := by
  unfold char
  rw [after_one_eq_some]
  constructor
  · rintro ⟨d, rest, hcs, hd, h⟩
    rw [beq_iff_eq] at hd
    subst hd
    exact ⟨rest, hcs, h⟩
  · rintro ⟨rest, hcs, h⟩
    exact ⟨c, rest, hcs, by rw [beq_iff_eq], h⟩

@[simp] theorem after_stop_cons (c : Char) : stop.after next (c :: cs) found = none := rfl

end

/-- Ends a match with what the groups hold. -/
def accept (_ : List Char) (found : Groups) : Option Groups := some found

/-- What the groups hold after the first way of matching. -/
def match? (r : Regex) (cs : List Char) : Option Groups :=
  r.after accept cs []

end Regex

end TagVersion.Text
