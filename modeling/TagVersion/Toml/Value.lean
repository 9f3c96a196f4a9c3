import TagVersion.Text.Quoted

/-!
# Configuration values

The values of a configuration file. The keys of a table are distinct; in a file they have the
order in which they are written, in a table that is kept they ascend.
-/

namespace TagVersion.Toml

/-- A value; a number with a fraction and a point in time are kept as text. -/
inductive Value where
  | string (s : String)
  | integer (i : Int)
  | float (text : String)
  | boolean (b : Bool)
  | datetime (text : String)
  | array (items : List Value)
  | table (entries : List (String × Value))
deriving Repr, Inhabited

/-- The entries of a table. -/
abbrev Table := List (String × Value)

namespace Table

/-- The value of a key. -/
def get? (t : Table) (key : String) : Option Value :=
  t.lookup key

/-- Adds a key in its place in the order, or replaces its value. -/
def insert (t : Table) (key : String) (value : Value) : Table :=
  match t with
  | [] => [(key, value)]
  | (k, v) :: rest =>
    if key < k then (key, value) :: (k, v) :: rest
    else if key = k then (key, value) :: rest
    else (k, v) :: insert rest key value

/-- The table of a list of entries in ascending order of the keys; the last one of a key
stands. -/
def ofList (entries : List (String × Value)) : Table :=
  entries.foldl (fun t (k, v) => insert t k v) []

/-- The keys in the order of the table. -/
def keys (t : Table) : List String :=
  t.map (·.1)

end Table

namespace Value

mutual

/-- A value written out with the name of its kind. -/
def display : Value → String
  | string s => "String(" ++ Text.quoted s ++ ")"
  | integer i => "Integer(" ++ toString i ++ ")"
  | float text => "Float(" ++ text ++ ")"
  | boolean b => "Boolean(" ++ (if b then "true" else "false") ++ ")"
  | datetime text => "Datetime(" ++ text ++ ")"
  | array items => "Array([" ++ ", ".intercalate (displayItems items) ++ "])"
  | table entries => "Table(\x7b" ++ ", ".intercalate (displayEntries entries) ++ "\x7d)"

/-- The values of an array, each written out. -/
def displayItems : List Value → List String
  | [] => []
  | v :: vs => v.display :: displayItems vs

/-- The entries of a table, each key quoted before its value. -/
def displayEntries : List (String × Value) → List String
  | [] => []
  | (k, v) :: rest => (Text.quoted k ++ ": " ++ v.display) :: displayEntries rest

end

end Value

end TagVersion.Toml
