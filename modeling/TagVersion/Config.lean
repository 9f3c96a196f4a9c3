import TagVersion.Declaration
import TagVersion.Error
import TagVersion.Toml.Document
import TagVersion.Toml.Kept

/-!
# Project configuration

A project is configured by a table with two keys: `versioning` declares the strategy, `version`
the present version and the lines of files in which it is written. Other keys are left to other
tools. A value of the wrong kind under either key refuses the whole file.
-/

namespace TagVersion

/-- The file that configures a project. -/
def configFile : String := "versioning.toml"

/-- The declared version, and where it is written down. -/
structure VersionDeclaration where
  value : Option String
  sources : List String
deriving DecidableEq, Repr, Inhabited

/-- What a project declares about its version. -/
structure ProjectConfig where
  versioning : Option Declaration
  version : Option VersionDeclaration

namespace ProjectConfig

/-- The configuration of a project without a configuration file. -/
def unconfigured : ProjectConfig := ⟨none, none⟩

/-! ### Reading values

Each reader gives nothing for a value of the wrong kind. -/

def string? : Toml.Value → Option String
  | .string s => some s
  | _ => none

/-- A list of strings. -/
def strings? : Toml.Value → Option (List String)
  | .array items => items.mapM string?
  | _ => none

/-- The entries of a table; a point in time has one. -/
def table? : Toml.Value → Option Toml.Table
  | .table entries => some entries
  | .datetime text => some [(Toml.datetimeKey, .string text)]
  | _ => none

/-- Reads a key that may be missing. -/
def optional? {α : Type} (read : Toml.Value → Option α) (t : Toml.Table) (key : String) :
    Option (Option α) :=
  match t.get? key with
  | none => some none
  | some v => (read v).map some

/-- A list of branches, or a text that holds one. -/
def branchList? (v : Toml.Value) : Option BranchList :=
  ((strings? v).map .names) <|> ((string? v).map .text)

/-- The keys of a table that mean something to a strategy. -/
def strategyKeys : List String := ["main", "extra", "separator", "branches"]

/-- A strategy table; all other keys are kept with their values. -/
def strategyTable? (t : Toml.Table) : Option StrategyTable := do
  let main ← optional? string? t "main"
  let extra ← optional? string? t "extra"
  let separator ← optional? string? t "separator"
  let branches ← optional? branchList? t "branches"
  let other ← Toml.Value.keptEntries? (t.filter fun (key, _) => !strategyKeys.contains key)
  return { main, extra, separator, branches, other }

/-- A declaration: a switch, a text or a table. -/
def declaration? : Toml.Value → Option Declaration
  | .boolean on => some (.switch on)
  | .string text => some (.compact text)
  | v => do
    let entries ← table? v
    (strategyTable? entries).map .table

/-- The declared version, as a table or as a list of the value and the sources. -/
def versionDeclaration? : Toml.Value → Option VersionDeclaration
  | .array [] => some ⟨none, []⟩
  | .array [value] => do
    return ⟨some (← string? value), []⟩
  | .array (value :: sources :: _) => do
    return ⟨some (← string? value), ← strings? sources⟩
  | v => do
    let entries ← table? v
    let value ← optional? string? entries "value"
    let sources ← optional? strings? entries "sources"
    return ⟨value, sources.getD []⟩

/-- The configuration that a table holds. -/
def ofTable? (t : Toml.Table) : Option ProjectConfig := do
  let versioning ← optional? declaration? t "versioning"
  let version ← optional? versionDeclaration? t "version"
  return { versioning, version }

/-- Reads the text of a configuration file. -/
def parse (text : String) : Except Error ProjectConfig :=
  match Toml.parse text >>= ofTable? with
  | some config => .ok config
  | none => .error (.config "the file is not a valid configuration")

end ProjectConfig

end TagVersion
