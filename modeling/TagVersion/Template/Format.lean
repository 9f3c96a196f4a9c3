import TagVersion.Template.Parser

/-!
# Formats

A format is declared as a template or supplied as a function of the version facts.
-/

namespace TagVersion

/-- How a version text, or the part after its separator, is made. -/
inductive Format where
  | template (text : String)
  | custom (render : VersionFacts → Option String)

namespace Format

/-- The parts of a template; a custom format has none. -/
def parts? : Format → Option (List TemplatePart)
  | template text => some (Template.parts text)
  | custom _ => none

/-- Whether the format was declared at all; a custom one always is. -/
def isDeclared : Format → Bool
  | template text => text != ""
  | custom _ => true

/-- Whether the format is shown for clean checkouts too: a template with its mark, and every
custom format. -/
def isForced : Format → Bool
  | template text => text.toList.head? == some '!'
  | custom _ => true

/-- The pieces of text that the format yields for the given facts. A template keeps empty
pieces, a custom format drops an empty text. -/
def pieces (f : Format) (env : Environment) (v : VersionFacts) : List String :=
  match f with
  | template text => (Template.parts text).filterMap (·.render env v)
  | custom render => (render v).toList.filter (· != "")

/-- The complaints about a format, in the order of its parts. -/
def problems : Format → List String
  | template text => (Template.parts text).filterMap (·.problem?)
  | custom _ => []

/-- The template, or a stand-in for a custom format. -/
def display : Format → String
  | template text => text
  | custom _ => "<custom>"

end Format

end TagVersion
