import TagVersion.Template.Part

/-!
# Reading templates

Text outside braces is constant, text between an opening and the next closing brace is a
placeholder. An opening brace without a closing one ends the template.
-/

namespace TagVersion

namespace TemplatePart

/-- The constant of a text, nothing if it is empty. -/
def ofConstant : List Char → List TemplatePart
  | [] => []
  | cs => [constant (String.ofList cs)]

/-- The placeholder of a text between braces; its name ends at the first colon. -/
def ofBraced (cs : List Char) : TemplatePart :=
  match Text.cutFirst ':' cs with
  | some (name, alternative) =>
    placeholder (String.ofList name) (some (String.ofList alternative))
  | none => placeholder (String.ofList cs) none

end TemplatePart

namespace Template

/-- The parts of a text from here on. -/
def partsFrom (cs : List Char) : List TemplatePart :=
  match _h : Text.cutFirst '\x7b' cs with
  | none => TemplatePart.ofConstant cs
  | some (before, after) =>
    TemplatePart.ofConstant before ++
      match _h₂ : Text.cutFirst '\x7d' after with
      | none => []
      | some (braced, rest) => TemplatePart.ofBraced braced :: partsFrom rest
  termination_by cs.length
  decreasing_by
    have h₁ := (Text.cutFirst_eq_some_iff.1 _h).1
    have h₂ := (Text.cutFirst_eq_some_iff.1 _h₂).1
    simp [h₁, h₂]
    omega

/-- A template without the mark that forces it to be shown. -/
def unforced : List Char → List Char
  | '!' :: cs => cs
  | cs => cs

/-- The parts of a template; one mark that forces it does not belong to them. -/
def parts (template : String) : List TemplatePart :=
  partsFrom (unforced template.toList)

end Template

end TagVersion
