import TagVersion.Proofs.Template.Parts
import TagVersion.Template.Format

/-!
# Templates and their parts

A template is taken apart without loss: its parts, written one after the other, give it back up to
the first opening brace that nothing closes, where it ends. They are the only parts that do so and
stay apart from each other. Two templates that follow one another render as each of them does, unless
a placeholder runs from one into the other.

* **`Template.closedFront`**: a template up to the brace that nothing closes.
* **`partsFrom_induction`**: a text is taken apart one placeholder at a time.
* **`source_partsFrom`**, **`spelled_partsFrom`**: nothing is lost, and the parts stay apart.
* **`rendering_append`**: what a closed template and a text behind it render.
* **`eq_parts_iff`**: all of this for templates, with their mark.
-/

namespace TagVersion

namespace Template

open TemplatePart

/-! ## Braces that are closed -/

/-- Every opening brace has a closing one somewhere behind it. -/
def IsClosed (cs : List Char) : Prop :=
  ∀ before after, cs = before ++ '\x7b' :: after → '\x7d' ∈ after

/-- A text up to the first opening brace that has no closing one behind it. -/
def closedFront : List Char → List Char
  | [] => []
  | c :: cs => if c = '\x7b' ∧ '\x7d' ∉ cs then [] else c :: closedFront cs

section

variable {cs before after : List Char} {c : Char}

theorem IsClosed.nil : IsClosed [] := by
  intro before after h
  exact absurd h (by simp)

/-- What is said of the text behind every opening brace is said of one more character, and of the
others. -/
theorem forall_open_cons_iff {p : List Char → Prop} :
    (∀ before after, c :: cs = before ++ '\x7b' :: after → p after) ↔
      (c = '\x7b' → p cs) ∧ ∀ before after, cs = before ++ '\x7b' :: after → p after := by
  constructor
  · intro h
    refine ⟨?_, fun before after heq => h (c :: before) after (by rw [heq, List.cons_append])⟩
    rintro rfl
    exact h [] cs rfl
  · rintro ⟨hc, hcs⟩ before after heq
    cases before with
    | nil =>
      obtain ⟨rfl, rfl⟩ := List.cons.inj heq
      exact hc rfl
    | cons d before =>
      obtain ⟨-, rfl⟩ := List.cons.inj heq
      exact hcs before after rfl

theorem isClosed_cons_iff : IsClosed (c :: cs) ↔ (c = '\x7b' → '\x7d' ∈ cs) ∧ IsClosed cs :=
  forall_open_cons_iff

theorem closedFront_cons_of_closed (h : c = '\x7b' → '\x7d' ∈ cs) :
    closedFront (c :: cs) = c :: closedFront cs := by
  rw [closedFront, if_neg]
  rintro ⟨hc, hcs⟩
  exact hcs (h hc)

theorem closedFront_eq_self_iff : closedFront cs = cs ↔ IsClosed cs := by
  induction cs with
  | nil => exact iff_of_true rfl .nil
  | cons c cs ih =>
    rw [isClosed_cons_iff, ← ih]
    by_cases hc : c = '\x7b' → '\x7d' ∈ cs
    · rw [closedFront_cons_of_closed hc, List.cons.injEq, and_iff_right rfl, and_iff_right hc]
    · rw [closedFront, if_pos (by simpa using hc)]
      simp [hc]

/-- A closing brace closes everything before it. -/
theorem closedFront_append_close (front rest : List Char) :
    closedFront (front ++ '\x7d' :: rest) = front ++ '\x7d' :: closedFront rest := by
  induction front with
  | nil => exact closedFront_cons_of_closed (fun h => absurd h (by decide))
  | cons c front ih =>
    rw [List.cons_append, closedFront_cons_of_closed (fun _ => by simp), ih, List.cons_append]

theorem isClosed_append_close_iff {front rest : List Char} :
    IsClosed (front ++ '\x7d' :: rest) ↔ IsClosed rest := by
  rw [← closedFront_eq_self_iff, ← closedFront_eq_self_iff, closedFront_append_close]
  simp

theorem closedFront_of_not_mem (h : '\x7b' ∉ cs) : closedFront cs = cs := by
  rw [closedFront_eq_self_iff]
  intro before after heq
  exact absurd (by rw [heq]; simp) h

/-- The text ends at a brace that nothing closes. -/
theorem closedFront_append_open (hbefore : IsClosed before) (hafter : '\x7d' ∉ after) :
    closedFront (before ++ '\x7b' :: after) = before := by
  induction before with
  | nil => exact if_pos ⟨rfl, hafter⟩
  | cons c before ih =>
    obtain ⟨hc, hbefore⟩ := isClosed_cons_iff.mp hbefore
    rw [List.cons_append, closedFront_cons_of_closed (fun h => List.mem_append_left _ (hc h)),
      ih hbefore]

end

/-! ## One turn of the reading -/

section

variable {before after braced : List Char}

theorem source_append (ps qs : List TemplatePart) : source (ps ++ qs) = source ps ++ source qs :=
  List.flatMap_append

theorem source_ofConstant (cs : List Char) : source (ofConstant cs) = cs := by
  cases cs with
  | nil => rfl
  | cons c cs => simp [ofConstant, source, TemplatePart.source]

/-- A placeholder is written as it was found between the braces. -/
theorem toList_source_ofBraced (cs : List Char) :
    (ofBraced cs).source.toList = '\x7b' :: (cs ++ ['\x7d']) := by
  unfold ofBraced
  cases hcut : Text.cutFirst ':' cs with
  | none => simp [TemplatePart.source]
  | some cut =>
    obtain ⟨name, alternative⟩ := cut
    obtain ⟨rfl, -⟩ := Text.cutFirst_eq_some_iff.mp hcut
    simp [TemplatePart.source]

theorem isSpelled_ofBraced (h : '\x7d' ∉ braced) : (ofBraced braced).IsSpelled := by
  unfold ofBraced
  cases hcut : Text.cutFirst ':' braced with
  | none => exact ⟨by simpa using h, by simpa using Text.cutFirst_eq_none_iff.mp hcut, nofun⟩
  | some cut =>
    obtain ⟨name, alternative⟩ := cut
    obtain ⟨rfl, hname⟩ := Text.cutFirst_eq_some_iff.mp hcut
    refine ⟨?_, by simpa using hname, ?_⟩
    · rw [String.toList_ofList]
      exact fun hmem => h (List.mem_append_left _ hmem)
    · intro text htext
      rw [← Option.some.inj (Option.mem_def.mp htext), String.toList_ofList]
      exact fun hmem => h (List.mem_append_right _ (List.mem_cons_of_mem _ hmem))

theorem isConstant_ofBraced (cs : List Char) : (ofBraced cs).isConstant = false := by
  unfold ofBraced
  split <;> rfl

theorem partsFrom_open (hbefore : '\x7b' ∉ before) (hafter : '\x7d' ∉ after) :
    partsFrom (before ++ '\x7b' :: after) = ofConstant before := by
  rw [partsFrom_of_cutFirst (Text.cutFirst_eq_some_iff.mpr ⟨rfl, hbefore⟩)]
  unfold bracedFrom
  rw [Text.cutFirst_eq_none_iff.mpr hafter]
  exact List.append_nil _

theorem partsFrom_close (hbefore : '\x7b' ∉ before) (hbraced : '\x7d' ∉ braced)
    (rest : List Char) :
    partsFrom (before ++ '\x7b' :: (braced ++ '\x7d' :: rest)) =
      ofConstant before ++ ofBraced braced :: partsFrom rest := by
  rw [partsFrom_of_cutFirst (Text.cutFirst_eq_some_iff.mpr ⟨rfl, hbefore⟩)]
  unfold bracedFrom
  rw [Text.cutFirst_eq_some_iff.mpr ⟨rfl, hbraced⟩]
  rfl

/-- **A text is taken apart** one placeholder at a time, up to its end or to a brace that nothing
closes. -/
theorem partsFrom_induction {motive : List Char → Prop}
    (constant : ∀ cs, '\x7b' ∉ cs → motive cs)
    (unclosed : ∀ before after, '\x7b' ∉ before → '\x7d' ∉ after →
      motive (before ++ '\x7b' :: after))
    (placeholder : ∀ before braced rest, '\x7b' ∉ before → '\x7d' ∉ braced → motive rest →
      motive (before ++ '\x7b' :: (braced ++ '\x7d' :: rest))) (cs : List Char) : motive cs := by
  induction h : cs.length using Nat.strong_induction_on generalizing cs with
  | _ n ih =>
    cases hopen : Text.cutFirst '\x7b' cs with
    | none => exact constant cs (Text.cutFirst_eq_none_iff.mp hopen)
    | some cut =>
      obtain ⟨before, after⟩ := cut
      obtain ⟨rfl, hbefore⟩ := Text.cutFirst_eq_some_iff.mp hopen
      cases hclose : Text.cutFirst '\x7d' after with
      | none => exact unclosed before after hbefore (Text.cutFirst_eq_none_iff.mp hclose)
      | some cut =>
        obtain ⟨braced, rest⟩ := cut
        obtain ⟨rfl, hbraced⟩ := Text.cutFirst_eq_some_iff.mp hclose
        refine placeholder before braced rest hbefore hbraced (ih rest.length ?_ rest rfl)
        rw [← h]
        simp only [List.length_append, List.length_cons]
        omega

end

/-! ## All parts -/

/-- **Nothing is lost** before a brace that nothing closes. -/
theorem source_partsFrom (cs : List Char) : source (partsFrom cs) = closedFront cs := by
  induction cs using partsFrom_induction with
  | constant cs h => rw [partsFrom_of_not_mem h, source_ofConstant, closedFront_of_not_mem h]
  | unclosed before after hbefore hafter =>
    have hclosed : IsClosed before := closedFront_eq_self_iff.mp (closedFront_of_not_mem hbefore)
    rw [partsFrom_open hbefore hafter, source_ofConstant, closedFront_append_open hclosed hafter]
  | placeholder before braced rest hbefore hbraced ih =>
    have hfront : closedFront (before ++ '\x7b' :: (braced ++ '\x7d' :: rest)) =
        before ++ '\x7b' :: (braced ++ '\x7d' :: closedFront rest) := by
      have happend := closedFront_append_close (before ++ '\x7b' :: braced) rest
      simpa only [List.append_assoc, List.cons_append] using happend
    rw [partsFrom_close hbefore hbraced, source_append, source_ofConstant, source_cons,
      toList_source_ofBraced, ih, hfront]
    simp

theorem Spelled.nil : Spelled [] := ⟨nofun, .nil⟩

theorem Spelled.cons {p : TemplatePart} {ps : List TemplatePart} (hp : p.IsSpelled)
    (hps : Spelled ps) (hapart : ∀ q ∈ ps.head?, p.isConstant = true → q.isConstant = false) :
    Spelled (p :: ps) := by
  refine ⟨fun q hq => ?_, hps.apart.cons hapart⟩
  rcases List.mem_cons.mp hq with rfl | hq
  · exact hp
  · exact hps.spelled q hq

theorem Spelled.ofConstant_append {before : List Char} {ps : List TemplatePart}
    (hbefore : '\x7b' ∉ before) (hps : Spelled ps)
    (hapart : ∀ q ∈ ps.head?, q.isConstant = false) : Spelled (ofConstant before ++ ps) := by
  cases before with
  | nil => exact hps
  | cons c cs => exact .cons ⟨by simp, by simpa using hbefore⟩ hps fun q hq _ => hapart q hq

theorem spelled_ofConstant {cs : List Char} (h : '\x7b' ∉ cs) : Spelled (ofConstant cs) := by
  have hconstant := Spelled.ofConstant_append h .nil nofun
  rwa [List.append_nil] at hconstant

/-- **The parts stay apart**: none of them holds what would end it early, and no two constants
meet. -/
theorem spelled_partsFrom (cs : List Char) : Spelled (partsFrom cs) := by
  induction cs using partsFrom_induction with
  | constant cs h =>
    rw [partsFrom_of_not_mem h]
    exact spelled_ofConstant h
  | unclosed before after hbefore hafter =>
    rw [partsFrom_open hbefore hafter]
    exact spelled_ofConstant hbefore
  | placeholder before braced rest hbefore hbraced ih =>
    rw [partsFrom_close hbefore hbraced]
    refine .ofConstant_append hbefore (.cons (isSpelled_ofBraced hbraced) ih ?_) ?_
    · intro _ _ hconstant
      rw [isConstant_ofBraced] at hconstant
      exact absurd hconstant Bool.false_ne_true
    · intro q hq
      rw [← Option.some.inj (Option.mem_def.mp hq)]
      exact isConstant_ofBraced braced

/-- What stands behind a brace that nothing closes does not count. -/
theorem partsFrom_closedFront (cs : List Char) : partsFrom (closedFront cs) = partsFrom cs := by
  rw [← source_partsFrom, partsFrom_source (spelled_partsFrom cs)]

/-! ## What the parts render -/

section

variable (env : Environment) (v : VersionFacts)

/-- What parts render, one after the other. -/
def joined (ps : List TemplatePart) : String :=
  String.join (ps.filterMap fun p => p.render env v)

theorem joined_cons (p : TemplatePart) (ps : List TemplatePart) :
    joined env v (p :: ps) = (p.render env v).getD "" ++ joined env v ps := by
  unfold joined
  cases hrender : p.render env v with
  | none => simp [hrender]
  | some text => simp [hrender]

theorem joined_append (ps qs : List TemplatePart) :
    joined env v (ps ++ qs) = joined env v ps ++ joined env v qs := by
  unfold joined
  rw [List.filterMap_append, String.join_append]

theorem joined_ofConstant (cs : List Char) : joined env v (ofConstant cs) = String.ofList cs := by
  cases cs with
  | nil => rfl
  | cons c cs => exact (joined_cons env v _ []).trans String.append_empty

/-- The text that the parts of a text render. -/
def rendering (cs : List Char) : String :=
  joined env v (partsFrom cs)

theorem rendering_of_not_mem {cs : List Char} (h : '\x7b' ∉ cs) :
    rendering env v cs = String.ofList cs := by
  unfold rendering
  rw [partsFrom_of_not_mem h, joined_ofConstant]

theorem rendering_open {before after : List Char} (hbefore : '\x7b' ∉ before)
    (hafter : '\x7d' ∉ after) :
    rendering env v (before ++ '\x7b' :: after) = String.ofList before := by
  unfold rendering
  rw [partsFrom_open hbefore hafter, joined_ofConstant]

theorem rendering_close {before braced : List Char} (hbefore : '\x7b' ∉ before)
    (hbraced : '\x7d' ∉ braced) (rest : List Char) :
    rendering env v (before ++ '\x7b' :: (braced ++ '\x7d' :: rest)) =
      String.ofList before ++ ((ofBraced braced).render env v).getD "" ++
        rendering env v rest := by
  unfold rendering
  rw [partsFrom_close hbefore hbraced, joined_append, joined_ofConstant, joined_cons,
    String.append_assoc]

/-- A constant may run into another one without a trace. -/
theorem rendering_constant_append {front : List Char} (h : '\x7b' ∉ front) (cs : List Char) :
    rendering env v (front ++ cs) = String.ofList front ++ rendering env v cs := by
  have hmem : ∀ {before : List Char}, '\x7b' ∉ before → '\x7b' ∉ front ++ before := by
    intro before hbefore hmem
    rcases List.mem_append.mp hmem with hmem | hmem
    · exact h hmem
    · exact hbefore hmem
  cases cs using partsFrom_induction with
  | constant cs hcs =>
    rw [rendering_of_not_mem env v (hmem hcs), rendering_of_not_mem env v hcs, String.ofList_append]
  | unclosed before after hbefore hafter =>
    rw [← List.append_assoc, rendering_open env v (hmem hbefore) hafter,
      rendering_open env v hbefore hafter, String.ofList_append]
  | placeholder before braced rest hbefore hbraced _ =>
    rw [← List.append_assoc, rendering_close env v (hmem hbefore) hbraced,
      rendering_close env v hbefore hbraced, String.ofList_append]
    simp only [String.append_assoc]

/-- **A closed text** renders the same whatever stands behind it. -/
theorem rendering_append {front : List Char} (h : IsClosed front) (cs : List Char) :
    rendering env v (front ++ cs) = rendering env v front ++ rendering env v cs := by
  induction front using partsFrom_induction with
  | constant front hfront =>
    rw [rendering_constant_append env v hfront, rendering_of_not_mem env v hfront]
  | unclosed before after _ hafter => exact absurd (h before after rfl) hafter
  | placeholder before braced rest hbefore hbraced ih =>
    have hrest : IsClosed rest := by
      have hsplit : IsClosed (before ++ '\x7b' :: braced ++ '\x7d' :: rest) := by
        simpa only [List.append_assoc, List.cons_append] using h
      exact isClosed_append_close_iff.mp hsplit
    have hfront : before ++ '\x7b' :: (braced ++ '\x7d' :: rest) ++ cs =
        before ++ '\x7b' :: (braced ++ '\x7d' :: (rest ++ cs)) := by simp
    rw [hfront, rendering_close env v hbefore hbraced, rendering_close env v hbefore hbraced,
      ih hrest]
    simp only [String.append_assoc]

end

/-! ## Templates -/

/-- Only the mark at the very start of a template is dropped. -/
theorem unforced_append {cs : List Char} (h : cs.head? ≠ some '!') (front : List Char) :
    unforced (front ++ cs) = unforced front ++ unforced cs := by
  have hcs : unforced cs = cs := by
    unfold unforced
    split
    · exact absurd rfl h
    · rfl
  rw [hcs]
  cases front with
  | nil => exact hcs
  | cons c front =>
    unfold unforced
    rw [List.cons_append]
    by_cases hc : c = '!'
    · subst hc
      rfl
    · split
      · next heq => exact absurd (List.cons.inj heq).1 hc
      · split
        · next heq => exact absurd (List.cons.inj heq).1 hc
        · rfl

/-- **A template is made of its parts.** They give it back up to a brace that nothing closes, and
are the only parts that do so and stay apart. A closed template renders by itself what it renders
with another one behind it, unless that one begins with the mark, which only counts at the start. -/
theorem eq_parts_iff (template : String) :
    let text := unforced template.toList
    (∀ ps, ps = parts template ↔ Spelled ps ∧ source ps = closedFront text) ∧
      (closedFront text = text ↔ IsClosed text) ∧
      (IsClosed text → ∀ later : String, later.toList.head? ≠ some '!' →
        ∀ (env : Environment) (v : VersionFacts),
          String.join ((Format.template (template ++ later)).pieces env v) =
            String.join ((Format.template template).pieces env v) ++
              String.join ((Format.template later).pieces env v)) := by
  intro text
  refine ⟨fun ps => ⟨?_, ?_⟩, closedFront_eq_self_iff, ?_⟩
  · rintro rfl
    exact ⟨spelled_partsFrom text, source_partsFrom text⟩
  · rintro ⟨hps, hsource⟩
    rw [← partsFrom_source hps, hsource]
    exact partsFrom_closedFront text
  · intro hclosed later hlater env v
    have happend : unforced (template ++ later).toList = text ++ unforced later.toList := by
      rw [String.toList_append, unforced_append hlater]
    show rendering env v (unforced (template ++ later).toList) = _
    rw [happend]
    exact rendering_append env v hclosed _

/-- A closing brace in a constant, colons in an alternative, and a brace in the name of a
placeholder; behind it a closing brace without an opening one, and an opening one without a closing
one. -/
theorem eq_parts_iff_stray :
    let template := "!a\x7d\x7b$B:y:z\x7d\x7bb\x7bc\x7d"
    let v := VersionFacts.ofTriplet ⟨1, 2, 3⟩
    IsClosed (unforced template.toList) ∧
      parts template = [constant "a\x7d", placeholder "$B" (some "y:z"), placeholder "b\x7bc" none] ∧
      String.join ((Format.template template).pieces [] v) = "a\x7dy:zinvalid" ∧
      String.join ((Format.template (template ++ "\x7d!\x7b")).pieces [] v) =
        "a\x7dy:zinvalid\x7d!" := by
  intro template v
  obtain ⟨hparts, hclosed, hrender⟩ := eq_parts_iff template
  have htext : IsClosed (unforced template.toList) := hclosed.mp (by decide)
  refine ⟨htext, Eq.symm ((hparts _).mpr ⟨⟨?_, ?_⟩, by decide⟩), by decide +kernel, ?_⟩
  · simp [IsSpelled]
  · simp [isConstant]
  · rw [hrender htext _ (by decide)]
    decide +kernel

end Template

end TagVersion
