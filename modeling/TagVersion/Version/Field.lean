import TagVersion.Version.Facts

/-!
# Version fields

The named texts that a format can take from the version facts.
-/

namespace TagVersion

/-- The fields that a placeholder may name. -/
inductive VersionField where
  | major
  | minor
  | patch
  | changes
  | distance
  | post
  | dev
  | devcommit
  | commitid
  | dirty
  | main
  | text
deriving DecidableEq, Repr

namespace VersionField

/-- All fields. -/
def all : List VersionField :=
  [major, minor, patch, changes, distance, post, dev, devcommit, commitid, dirty, main, text]

def name : VersionField → String
  | major => "major"
  | minor => "minor"
  | patch => "patch"
  | changes => "changes"
  | distance => "distance"
  | post => "post"
  | dev => "dev"
  | devcommit => "devcommit"
  | commitid => "commitid"
  | dirty => "dirty"
  | main => "main"
  | text => "text"

/-- The field of a name, which is matched exactly. -/
def ofName? (s : String) : Option VersionField :=
  all.find? (·.name == s)

theorem mem_all (f : VersionField) : f ∈ all := by
  cases f <;> decide

theorem ofName?_name (f : VersionField) : ofName? f.name = some f := by
  cases f <;> decide

/-- The component that a field stands for in a bump. -/
def component? : VersionField → Option Component
  | major => some .major
  | minor => some .minor
  | patch => some .patch
  | _ => none

end VersionField

namespace VersionFacts

/-- A labelled count of the commits since the tag; nothing on the tag itself. -/
def suffix (v : VersionFacts) (label : String) : String :=
  if v.distance = 0 then "" else "." ++ label ++ Text.numeralText v.distance

/-- The text of a field, if it has one. -/
def field? (v : VersionFacts) : VersionField → Option String
  | .major => some (Text.numeralText v.triplet.major)
  | .minor => some (Text.numeralText v.triplet.minor)
  | .patch => some (Text.numeralText v.triplet.patch)
  | .changes => some (Text.numeralText v.distance)
  | .distance => some (Text.numeralText v.distance)
  | .post => some (v.suffix "post")
  | .dev => some (v.suffix "dev")
  | .devcommit =>
    match v.commitId with
    | some id => some (if v.distance = 0 then v.suffix "dev" else v.suffix "dev" ++ "+" ++ id)
    | none => some (v.suffix "dev")
  | .commitid => v.commitId
  | .dirty => some (if v.dirty then "true" else "false")
  | .main => some v.main
  | .text => v.described

end VersionFacts

end TagVersion
