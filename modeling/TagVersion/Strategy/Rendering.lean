import TagVersion.Error
import TagVersion.Strategy.Basic

/-!
# Rendering and bumping

A strategy turns the facts of a checkout into a version text, and the facts of the present
version into the text of the next one.
-/

namespace TagVersion

namespace Component

/-- Reads a component, or says what was expected. -/
def parse (s : String) : Except Error Component :=
  match ofName? s with
  | some c => .ok c
  | none => .error (.invalidComponent s)

end Component

namespace Triplet

/-- Increments one component, or says which one overflows. -/
def bump (t : Triplet) (c : Component) : Except Error Triplet :=
  match t.bump? c with
  | some next => .ok next
  | none => .error (.versionOverflow c.name t.text)

end Triplet

namespace Strategy

/-- Whether the extra format belongs to the version text of the given facts. -/
def needsExtra (s : Strategy) (v : VersionFacts) : Bool :=
  s.extra.isDeclared && (s.extra.isForced || v.dirty)

/-- The pieces after the main format. The separator stands before them if there are any, except
that a blank separates in the declaration only. -/
def extraPieces (s : Strategy) (env : Environment) (v : VersionFacts) : List String :=
  match s.extra.pieces env v with
  | [] => []
  | pieces => if s.separator = " " then pieces else s.separator :: pieces

/-- The version text of the given facts, with or without the extra format. -/
def render (s : Strategy) (env : Environment) (v : VersionFacts) (withExtra : Bool) : String :=
  String.join <|
    s.main.pieces env v ++ (if withExtra && s.needsExtra v then s.extraPieces env v else [])

/-- Whether the main format shows a component, so that bumping it would be seen. -/
def inScope (parts : List TemplatePart) (c : Component) : Bool :=
  parts.any fun p => (p.field?.bind (·.component?)) == some c

/-- The text of the next version, without the extra format. -/
def bump (s : Strategy) (env : Environment) (c : Component) (current : VersionFacts) :
    Except Error String := do
  match s.main.parts? with
  | none => throw (.customMainFormat s.main.display)
  | some parts =>
    unless inScope parts c do
      throw (.outOfScope c.name s.main.display)
    let next ← current.triplet.bump c
    return s.render env (.ofTriplet next) false

end Strategy

end TagVersion
