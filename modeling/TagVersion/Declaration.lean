import TagVersion.Toml.Value

/-!
# Versioning declarations

How a project declares its versioning: as a switch, as one line of text, or as a table. A
declaration can be there and still ask for nothing.
-/

namespace TagVersion

/-- The branches of a table: a list of names, or one text. -/
inductive BranchList where
  | names (branches : List String)
  | text (branches : String)
deriving DecidableEq, Repr

/-- A strategy declared as a table; keys that mean nothing to a strategy are kept. -/
structure StrategyTable where
  main : Option String
  extra : Option String
  separator : Option String
  branches : Option BranchList
  other : Toml.Table
deriving Repr, Inhabited

/-- How versioning was declared. -/
inductive Declaration where
  | switch (on : Bool)
  | compact (text : String)
  | table (t : StrategyTable)
deriving Repr

namespace StrategyTable

/-- Whether the table declares nothing at all. -/
def isEmpty (t : StrategyTable) : Bool :=
  t.main.isNone && t.extra.isNone && t.separator.isNone && t.branches.isNone && t.other.isEmpty

/-- An optional text, quoted if it is there. -/
def displayOption : Option String → String
  | some s => "Some(" ++ Text.quoted s ++ ")"
  | none => "None"

/-- An optional list of branches, quoted if it is there. -/
def displayBranches : Option BranchList → String
  | some (.names branches) => "Some(List(" ++ Text.quotedList branches ++ "))"
  | some (.text branches) => "Some(Text(" ++ Text.quoted branches ++ "))"
  | none => "None"

/-- The table written out field by field. -/
def display (t : StrategyTable) : String :=
  "StrategyTable \x7b main: " ++ displayOption t.main ++
    ", extra: " ++ displayOption t.extra ++
    ", separator: " ++ displayOption t.separator ++
    ", branches: " ++ displayBranches t.branches ++
    ", other: \x7b" ++ ", ".intercalate (Toml.Value.displayEntries t.other) ++ "\x7d \x7d"

end StrategyTable

namespace Declaration

/-- Whether a declaration asks for versioning at all. -/
def isTruthy : Declaration → Bool
  | switch on => on
  | compact text => text != ""
  | table t => !t.isEmpty

/-- A declaration as text. -/
def display : Declaration → String
  | switch on => if on then "true" else "false"
  | compact text => text
  | table t => t.display

end Declaration

end TagVersion
