import TagVersion.Text.Blank

/-!
# Branch lists

The branches from which a project may be released, as a text with commas, optionally between
parentheses. Blanks around a name and empty names do not count.
-/

namespace TagVersion.Branches

/-- The names between commas. -/
def names (cs : List Char) : List String :=
  (((cs.splitOn ',').map Text.trim).filter (· != [])).map String.ofList

/-- The names in a list of branches. -/
def parseChars (cs : List Char) : List String :=
  names (Text.dropEndWhile (· == ')') (cs.dropWhile (· == '(')))

/-- The names in a list of branches. -/
def parse (s : String) : List String :=
  parseChars s.toList

/-- The branch names as a text. -/
def text (branches : List String) : String :=
  ",".intercalate branches

end TagVersion.Branches
