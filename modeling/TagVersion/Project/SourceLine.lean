import TagVersion.Text.Cut

/-!
# Source lines

A version is written down in lines of files, either as an assignment with an equals sign, where
it stands in quotes, or after a colon, where it stands bare.
-/

namespace TagVersion.SourceLine

/-- The sign before the value of a line, and the value as it is written after that sign. An
equals sign decides, wherever it stands. -/
def form (line : List Char) (version : List Char) : Char × List Char :=
  if line.contains '=' then ('=', '\'' :: version ++ ['\'']) else (':', version)

/-- The line with its value replaced. What stands before the sign is kept, and so is one blank
after it; a line without the sign gets it at its end. -/
def updated (line version : List Char) : List Char :=
  let (sign, value) := form line version
  let (key, rest) := (Text.cutFirst sign line).getD (line, [])
  let blank := if rest.head? = some ' ' then [' '] else []
  key ++ sign :: blank ++ value ++ ['\n']

/-- The line with its value replaced. -/
def updatedText (line version : String) : String :=
  String.ofList (updated line.toList version.toList)

end TagVersion.SourceLine
