import TagVersion.Toml.Value

/-!
# Tables under construction

While a file is read, its tables remember how they came about, because each may be defined only
once: by a header of its own, by the header of a table below it, or by a dotted key.
-/

namespace TagVersion.Toml

/-- How a table came about. -/
inductive TableOrigin where
  /-- By a header of its own, or by braces. -/
  | header
  /-- By the header of a table below it. -/
  | implied
  /-- By a dotted key. -/
  | dotted
deriving DecidableEq, Repr

/-- An entry of a table under construction. -/
inductive Node where
  | value (v : Value)
  | table (origin : TableOrigin) (entries : List (String × Node))
  /-- Tables defined by repeated headers, the last one being the current one. -/
  | tables (items : List (List (String × Node)))
deriving Repr, Inhabited

/-- The entries of a table under construction. -/
abbrev Entries := List (String × Node)

namespace Entries

/-- Puts a node under a key, in place of the one that is there. -/
def put (es : Entries) (key : String) (node : Node) : Entries :=
  match es with
  | [] => [(key, node)]
  | (k, n) :: rest => if k = key then (key, node) :: rest else (k, n) :: put rest key node

/-- Takes a key away. -/
def erase (es : Entries) (key : String) : Entries :=
  es.filter fun (k, _) => k != key

/-- Changes the table at the end of a path. Tables that are missing on the way come about as the
flag says; dotted keys do not reach into tables that have a header. -/
def descend (dotted : Bool) (path : List String)
    (change : TableOrigin → Entries → Option Entries) (origin : TableOrigin) (es : Entries) :
    Option Entries :=
  match path with
  | [] => change origin es
  | key :: rest =>
    match es.lookup key with
    | none => do
      let made := if dotted then TableOrigin.dotted else .implied
      let sub ← descend dotted rest change made []
      return es.put key (.table made sub)
    | some (.value _) => none
    | some (.table made sub) =>
      if dotted && made == .header then none
      else do
        let sub ← descend dotted rest change made sub
        return es.put key (.table made sub)
    | some (.tables items) => do
      let last ← items.getLast?
      let last ← descend dotted rest change .header last
      return es.put key (.tables (items.dropLast ++ [last]))

/-- Adds a key with its value below a dotted path. The table at the end of the path has to stem
from a dotted key itself, and the key has to be new. -/
def define (path : List String) (key : String) (v : Value) (es : Entries) : Option Entries :=
  descend true path
    (fun origin es =>
      if path != [] && origin != .dotted then none
      else if (es.lookup key).isSome then none
      else some (es.put key (.value v)))
    .header es

/-- Opens the table of a header. One that was implied before moves to the end of its table. -/
def openTable (path : List String) (key : String) (es : Entries) : Option Entries :=
  descend false path
    (fun _ es =>
      match es.lookup key with
      | none => some (es.put key (.table .header []))
      | some (.table .implied sub) => some (es.erase key ++ [(key, .table .header sub)])
      | some _ => none)
    .header es

/-- Opens the next table of a repeated header. -/
def openItem (path : List String) (key : String) (es : Entries) : Option Entries :=
  descend false path
    (fun _ es =>
      match es.lookup key with
      | none => some (es.put key (.tables [[]]))
      | some (.tables items) => some (es.put key (.tables (items ++ [[]])))
      | some _ => none)
    .header es

end Entries

mutual

/-- The value of a finished node. -/
def Node.toValue : Node → Value
  | .value v => v
  | .table _ entries => .table (tableOf entries)
  | .tables items => .array (tablesOf items)

/-- The table of finished entries, in the order in which they were written. -/
def tableOf : List (String × Node) → Table
  | [] => []
  | (key, node) :: rest => (key, node.toValue) :: tableOf rest

/-- The tables of a repeated header. -/
def tablesOf : List (List (String × Node)) → List Value
  | [] => []
  | entries :: rest => .table (tableOf entries) :: tablesOf rest

end

end TagVersion.Toml
