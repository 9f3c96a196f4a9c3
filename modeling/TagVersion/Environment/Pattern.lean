import TagVersion.Text.Cut

/-!
# Patterns of variable names

A pattern is a name with an optional star at either end; a star stands for any text, and a star
elsewhere for itself. A lone star stands for any name.
-/

namespace TagVersion

/-- Which names of environment variables a lookup matches. -/
inductive NamePattern where
  | exact (name : String)
  | endsWith (part : String)
  | startsWith (part : String)
  | contains (part : String)
deriving DecidableEq, Repr

namespace NamePattern

/-- The pattern that a text stands for. -/
def ofString (s : String) : NamePattern :=
  let cs := s.toList
  match cs.head? == some '*', cs.getLast? == some '*' with
  | true, true => contains (String.ofList cs.tail.dropLast)
  | true, false => endsWith (String.ofList cs.tail)
  | false, true => startsWith (String.ofList cs.dropLast)
  | false, false => exact s

/-- Whether a name has the form of the pattern. -/
def accepts (p : NamePattern) (name : String) : Bool :=
  match p with
  | exact s => name == s
  | endsWith s => s.toList.isSuffixOf name.toList
  | startsWith s => s.toList.isPrefixOf name.toList
  | contains s => Text.hasInfix s.toList name.toList

/-- The pattern as written; the two stars of `contains` are written even around nothing. -/
def text : NamePattern → String
  | exact s => s
  | endsWith s => "*" ++ s
  | startsWith s => s ++ "*"
  | contains s => "*" ++ s ++ "*"

end NamePattern

end TagVersion
