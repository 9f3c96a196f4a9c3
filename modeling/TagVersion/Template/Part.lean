import TagVersion.Environment.Lookup
import TagVersion.Version.Field

/-!
# Template parts

A template is a row of constants and placeholders. A placeholder whose name contains a dollar
sign looks up an environment variable, one that names a version field takes that field, and any
other is invalid.
-/

namespace TagVersion

/-- A part of a template. -/
inductive TemplatePart where
  | constant (text : String)
  /-- The name between the braces, and the alternative after the first colon. -/
  | placeholder (name : String) (alternative : Option String)
deriving DecidableEq, Repr

/-- What a part takes its text from. -/
inductive PartMeaning where
  | constant (text : String)
  | field (f : VersionField)
  | lookup (l : EnvLookup)
  | invalid
deriving DecidableEq, Repr

namespace TemplatePart

/-- A dollar sign decides for a lookup before the name is compared with the fields. -/
def meaning : TemplatePart → PartMeaning
  | constant text => .constant text
  | placeholder name alternative =>
    match EnvLookup.ofString? name alternative with
    | some l => .lookup l
    | none =>
      match VersionField.ofName? name with
      | some f => .field f
      | none => .invalid

/-- The constant text, or the name of the placeholder. -/
def text : TemplatePart → String
  | constant text => text
  | placeholder name _ => name

/-- The field of a plain placeholder. -/
def field? (p : TemplatePart) : Option VersionField :=
  match p.meaning with
  | .field f => some f
  | _ => none

/-- The complaint about a placeholder that means nothing. -/
def problem? (p : TemplatePart) : Option String :=
  match p.meaning with
  | .invalid => some ("invalid versioning part '" ++ p.text ++ "'")
  | _ => none

/-- The text of a part for the given facts; an invalid placeholder stands out as such. -/
def render (p : TemplatePart) (env : Environment) (v : VersionFacts) : Option String :=
  match p.meaning with
  | .constant text => some text
  | .field f => v.field? f
  | .lookup l => l.resolve env
  | .invalid => some "invalid"

/-- The part as written in a template. -/
def source : TemplatePart → String
  | constant text => text
  | placeholder name (some alternative) => "\x7b" ++ name ++ ":" ++ alternative ++ "\x7d"
  | placeholder name none => "\x7b" ++ name ++ "\x7d"

/-- The part for display: constants in quotes, complaints after the placeholder. -/
def display (p : TemplatePart) : String :=
  let written :=
    match p with
    | constant text => "'" ++ text ++ "'"
    | p => p.source
  match p.problem? with
  | some problem => written ++ " [" ++ problem ++ "]"
  | none => written

end TemplatePart

end TagVersion
