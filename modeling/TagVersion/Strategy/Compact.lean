import TagVersion.Text.Blank
import TagVersion.Text.Regex
import TagVersion.Text.WordChar

/-!
# Compact declarations

A strategy in one line: an optional `tag:` or `tag(branches):`, the main format, and after the
first separator character the extra format. The branch list holds word characters, blanks,
commas and hyphens only; a bracket with anything else in it, or with nothing, belongs to the
main format.
-/

namespace TagVersion

/-- The parts of a compact declaration. -/
structure Compact where
  /-- The branch list with its brackets, if there is one. -/
  branches : Option (List Char)
  main : List Char
  /-- The separator and what follows it, if there is a separator. -/
  tail : Option (Char × List Char)
deriving DecidableEq, Repr

namespace Compact

/-- The characters that can separate the extra format. -/
def separators : List Char :=
  [' ', '+', '@', '#', '%', '^', ';', '/', ',']

def isSeparator (c : Char) : Bool :=
  separators.contains c

/-- The characters of a branch list. -/
def isBranchChar (c : Char) : Bool :=
  Text.isWordChar c || Text.isBlank c || c == ',' || c == '-'

/-- The characters of a format. -/
def isFormatChar (c : Char) : Bool :=
  c != '\n'

open Text.Regex in
/-- A branch list in brackets, as the second group. -/
def branchList : Text.Regex :=
  group 2 (char '(' ++ one isBranchChar ++ run true isBranchChar ++ char ')')

open Text.Regex in
/-- The declaration of branches before the formats. -/
def lead : Text.Regex :=
  group 1 (char 't' ++ char 'a' ++ char 'g' ++ optional branchList ++ char ':')

open Text.Regex in
/-- The separator and the extra format, which may have the mark that forces it to be shown. -/
def extraTail : Text.Regex :=
  group 4 (one isSeparator ++ optional (char '!') ++ group 5 (run true isFormatChar))

open Text.Regex in
/-- The main format as the third group, as short as possible, and what follows it up to the end. -/
def formats : Text.Regex :=
  group 3 (run false isFormatChar) ++ optional extraTail ++ stop

/-- The form of a compact declaration. -/
def form : Text.Regex :=
  .optional lead ++ formats

/-- The parts of a declaration in what the groups of its form hold. -/
def ofGroups (found : Text.Regex.Groups) : Compact where
  branches := found.text? 2
  main := (found.text? 3).getD []
  tail :=
    match found.text? 4 with
    | some (separator :: extra) => some (separator, extra)
    | _ => none

/-- Reads a compact declaration. One that does not have the form has no parts. -/
def ofChars (cs : List Char) : Compact :=
  match form.match? cs with
  | some found => ofGroups found
  | none => { branches := none, main := [], tail := none }

end Compact

end TagVersion
