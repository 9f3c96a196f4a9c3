import TagVersion.Environment.Pattern

/-!
# Environment lookups

A lookup takes the value of the environment variable with the least matching name and puts a
fixed text before it. An environment has no order of its own, so the least name decides.
-/

namespace TagVersion

/-- Environment variables with their values. -/
abbrev Environment := List (String × String)

namespace Environment

/-- Of two variables the one with the smaller name, the first if the names are equal. -/
def lesser (a b : String × String) : String × String :=
  if b.1 < a.1 then b else a

/-- The variable with the least name, the first of those with that name. -/
def least? : Environment → Option (String × String)
  | [] => none
  | v :: vs => some (vs.foldl lesser v)

/-- Sets a variable, in place of an earlier value. -/
def set (env : Environment) (name value : String) : Environment :=
  env.filter (·.1 != name) ++ [(name, value)]

end Environment

/-- The text before the dollar sign of a placeholder, the pattern after it, and the text that
stands in when no variable matches. -/
structure EnvLookup where
  lead : String
  pattern : NamePattern
  alternative : Option String
deriving DecidableEq, Repr

namespace EnvLookup

/-- Cuts a placeholder at its first dollar sign; without one it is no lookup. -/
def ofString? (s : String) (alternative : Option String) : Option EnvLookup :=
  (Text.cutFirst '$' s.toList).map fun (lead, pattern) =>
    { lead := String.ofList lead
      pattern := NamePattern.ofString (String.ofList pattern)
      alternative }

/-- The value found in an environment, or the alternative. -/
def value? (l : EnvLookup) (env : Environment) : Option String :=
  match Environment.least? (env.filter (l.pattern.accepts ·.1)) with
  | some (_, value) => some value
  | none => l.alternative

/-- The text that a lookup yields. With neither a value nor an alternative, a lookup with a lead
yields the empty text and a bare one nothing. -/
def resolve (l : EnvLookup) (env : Environment) : Option String :=
  match l.value? env with
  | some value => some (l.lead ++ value)
  | none => if l.lead = "" then none else some ""

/-- The lookup as written, without its alternative. -/
def text (l : EnvLookup) : String :=
  l.lead ++ "$" ++ l.pattern.text

end EnvLookup

end TagVersion
