import TagVersion.Declaration
import TagVersion.Strategy.Branches
import TagVersion.Strategy.Compact
import TagVersion.Template.Format

/-!
# Strategies

A strategy says how a version text is made from the facts of a checkout and from which branches
the project may be released. The main format is always shown; the extra format follows the
separator when the checkout is dirty or the format is forced.
-/

namespace TagVersion

/-- How version texts are made, and from where releases are allowed. -/
structure Strategy where
  main : Format
  extra : Format
  separator : String
  branches : List String
  /-- Keys of the declaration that mean nothing to a strategy. -/
  ignoredFields : List String

namespace Strategy

def defaultSeparator : String := "+"

def defaultMain : String := "\x7bmajor\x7d.\x7bminor\x7d.\x7bpatch\x7d\x7bpost\x7d"

/-- The main format that counts changes in place of the patch number. -/
def changesMain : String := "\x7bmajor\x7d.\x7bminor\x7d.\x7bchanges\x7d"

def defaultExtra : String := "\x7bcommitid\x7d"

def defaultBranches : String := "master"

/-- The strategy of the given parts; the default stands in for an empty separator and for an
empty list of branches. -/
def make (main extra : Format) (separator : String) (branches : List String) : Strategy where
  main
  extra
  separator := if separator = "" then defaultSeparator else separator
  branches := if branches = [] then Branches.parse defaultBranches else branches
  ignoredFields := []

/-- What is wrong with a strategy: a template without any part, or else each invalid
placeholder on a line of its own, those of the main format first. -/
def problem? (s : Strategy) : Option String :=
  if s.main.parts? = some [] then some "No versioning format specified"
  else
    match s.main.problems ++ s.extra.problems with
    | [] => none
    | problems => some ("\n".intercalate problems)

/-! ### Reading declarations -/

/-- The strategy of a table: each key that is there, the default for each that is not. -/
def ofTable (t : StrategyTable) : Strategy :=
  let branches :=
    match t.branches with
    | some (.names names) => Branches.text names
    | some (.text text) => text
    | none => defaultBranches
  { make (.template (t.main.getD defaultMain)) (.template (t.extra.getD defaultExtra))
      (t.separator.getD defaultSeparator) (Branches.parse branches) with
    ignoredFields := t.other.keys }

/-- The strategy of a compact declaration that is none of the named ones. -/
def ofCompact (c : Compact) : Strategy :=
  let branches :=
    match c.branches with
    | some cs => Branches.parseChars cs
    | none => Branches.parse defaultBranches
  match c.tail with
  | some (separator, extra) =>
    make (.template (String.ofList c.main)) (.template (String.ofList extra))
      (String.ofList [separator]) branches
  | none =>
    make (.template (String.ofList c.main)) (.template "") defaultSeparator branches

/-- The strategy of a compact text; two texts name a predefined strategy. -/
def ofText (text : String) : Strategy :=
  if text = "changes" then
    make (.template changesMain) (.template defaultExtra) defaultSeparator
      (Branches.parse defaultBranches)
  else if text = "tag" then
    make (.template defaultMain) (.template defaultExtra) defaultSeparator
      (Branches.parse defaultBranches)
  else
    ofCompact (Compact.ofChars text.toList)

/-- The strategy of a declaration, none if it asks for no versioning. -/
def ofDeclaration? (d : Declaration) : Option Strategy :=
  if d.isTruthy then
    some <|
      match d with
      | .switch _ => ofText "tag"
      | .compact text => ofText text
      | .table t => ofTable t
  else
    none

/-! ### Writing strategies -/

/-- The compact form of the given parts. The separator is written whenever either format is. -/
def format (branches : List String) (main separator extra : String) : String :=
  let body := main ++ (if main = "" ∧ extra = "" then "" else separator) ++ extra
  if branches = [] then body else "tag(" ++ Branches.text branches ++ "):" ++ body

/-- The compact form of a strategy. -/
def display (s : Strategy) : String :=
  format s.branches s.main.display s.separator s.extra.display

end Strategy

end TagVersion
