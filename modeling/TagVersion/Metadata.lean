import TagVersion.Config
import TagVersion.Diagnostic
import TagVersion.Text.Blank
import TagVersion.Text.Cut

/-!
# Project metadata

The fields of a project with everywhere they were defined. A field keeps every definition in
order; its value is that of the first one until a later one overrides it.
-/

namespace TagVersion

/-- One place where a value was defined. -/
structure SourceEntry where
  /-- A line of a file as `path:line`, otherwise a word for where the value came from. -/
  source : String
  value : String
deriving DecidableEq, Repr, Inhabited

namespace SourceEntry

/-- The path and the line number, counted from one, if the source is a line of a file. The path
ends at the last colon. -/
def filePointer? (e : SourceEntry) : Option (String × UInt64) := do
  let (path, line) ← Text.cutLast ':' e.source.toList
  let line ← Text.signedWord? (Text.trim line)
  if path = [] ∨ line = 0 then none else some (String.ofList path, line)

end SourceEntry

/-- A field and everywhere it was defined. -/
structure Definition where
  key : String
  value : String
  /-- Where the value stems from. -/
  source : String
  sources : List SourceEntry
deriving DecidableEq, Repr, Inhabited

namespace Definition

/-- The definition of a field by one entry. -/
def ofEntry (key : String) (e : SourceEntry) : Definition where
  key
  value := e.value
  source := e.source
  sources := [e]

/-- The value of the first entry. -/
def declared? (d : Definition) : Option String :=
  d.sources.head?.map (·.value)

/-- Records one more entry, which leaves the value alone. -/
def declare (d : Definition) (e : SourceEntry) : Definition :=
  { d with sources := d.sources ++ [e] }

/-- Records one more entry and takes the value from it. -/
def override (d : Definition) (e : SourceEntry) : Definition :=
  { d with value := e.value, source := e.source, sources := d.sources ++ [e] }

end Definition

/-- The versioning declaration of a project and the definitions of its fields. -/
structure Metadata where
  versioning : Option Declaration
  definitions : List Definition

namespace Metadata

/-- Metadata in which no field is defined. -/
def ofDeclaration (versioning : Option Declaration) : Metadata where
  versioning
  definitions := []

def definition? (m : Metadata) (key : String) : Option Definition :=
  m.definitions.find? (·.key == key)

def value? (m : Metadata) (key : String) : Option String :=
  (m.definition? key).map (·.value)

/-- Changes the definition of a key, or makes one of the entry. -/
def update (m : Metadata) (key : String) (e : SourceEntry) (change : Definition → Definition) :
    Metadata :=
  { m with
    definitions :=
      if (m.definition? key).isSome then
        m.definitions.map fun d => if d.key == key then change d else d
      else m.definitions ++ [Definition.ofEntry key e] }

/-- Records a declaration of a field. -/
def declare (m : Metadata) (key : String) (e : SourceEntry) : Metadata :=
  m.update key e (·.declare e)

/-- Fills in a field. A definition that is already there is changed only if it may be
overridden. -/
def autoFill (m : Metadata) (key : String) (e : SourceEntry) (mayOverride : Bool) : Metadata :=
  m.update key e fun d => if mayOverride then d.override e else d

/-- The records of a field that was not filled in. -/
def autoFillLog (m : Metadata) (key : String) (mayOverride : Bool) : List LogRecord :=
  if (m.definition? key).isSome && !mayOverride then
    [.trace ("not auto-filling '" ++ key ++ "', already defined")]
  else []

/-- The field that holds the version. -/
def versionKey : String := "version"

/-- The entries of a declared version: one for each source, or the configuration file if there
is a value without sources. -/
def configEntries (v : VersionDeclaration) : List SourceEntry :=
  let value := v.value.getD ""
  if v.sources = [] then
    if value = "" then [] else [⟨configFile, value⟩]
  else
    v.sources.map (⟨·, value⟩)

/-- The metadata that a configuration declares. -/
def ofConfig (c : ProjectConfig) : Metadata :=
  ((c.version.map configEntries).getD []).foldl (fun m e => m.declare versionKey e)
    (ofDeclaration c.versioning)

end Metadata

end TagVersion
