import TagVersion.Toml.Scalar

/-!
# Values that are kept

A value that is kept for later has the keys of its tables in ascending order. A point in time is
handed around as a table with one special key; so a table that begins with this key has to be
one.
-/

namespace TagVersion.Toml

/-- The one key that a point in time has when it is read as a table. -/
def datetimeKey : String := "$__toml_private_datetime"

/-- The point in time of a table that begins with the special key, given what follows. -/
def datetimeOf? : Value → List (String × Value) → Option Value
  | .string text, [] => Scalar.timestamp? text.toList
  | _, _ => none

namespace Value

mutual

/-- A value as it is kept, unless it contains a wrong point in time. -/
def kept? : Value → Option Value
  | .array items => (keptItems? items).map .array
  | .table [] => some (.table [])
  | .table ((key, v) :: rest) =>
    if key = datetimeKey then datetimeOf? v rest
    else do
      let v ← kept? v
      let rest ← keptEntries? rest
      return .table (Table.insert rest key v)
  | v => some v

/-- The values of an array as they are kept. -/
def keptItems? : List Value → Option (List Value)
  | [] => some []
  | v :: vs => do
    let v ← kept? v
    let vs ← keptItems? vs
    return v :: vs

/-- The entries of a table as they are kept. -/
def keptEntries? : List (String × Value) → Option Table
  | [] => some []
  | (key, v) :: rest => do
    let v ← kept? v
    let rest ← keptEntries? rest
    return Table.insert rest key v

end

end Value

end TagVersion.Toml
