import TagVersion.Toml.Quotation
import TagVersion.Toml.Tree

/-!
# Reading configuration files

A file is a sequence of lines: keys with values, headers that name the table for the keys after
them, and comments. A file with any fault is refused as a whole.
-/

namespace TagVersion.Toml

/-- A reader takes a value off the front of a text or refuses it. -/
abbrev Reader := StateT (List Char) Option

namespace Reader

def refuse {α : Type} : Reader α := fun _ => none

/-- The next character, which stays. -/
def peek? : Reader (Option Char) := fun cs => some (cs.head?, cs)

/-- The longest run of characters with property `p`. -/
def takeRun (p : Char → Bool) : Reader (List Char) := fun cs => some (cs.span p)

/-- Takes exactly the given characters. -/
def exactly (expected : List Char) : Reader Unit := fun cs =>
  if expected.isPrefixOf cs then some ((), cs.drop expected.length) else none

/-- Takes the given characters if they are next. -/
def accept (expected : List Char) : Reader Bool := fun cs =>
  if expected.isPrefixOf cs then some (true, cs.drop expected.length) else some (false, cs)

def blanks : Reader Unit := do
  let _ ← takeRun Quotation.isLineBlank

/-- Takes a comment, if there is one, up to the end of its line. -/
def comment : Reader Unit := do
  if ← accept ['#'] then
    let _ ← takeRun Quotation.isLineChar

/-- Takes one line end, if it is next. -/
def lineEnd : Reader Bool := do
  if ← accept ['\n'] then return true
  accept ['\r', '\n']

/-- Takes blanks and a comment up to the end of the line or of the file. -/
def endOfLine : Reader Unit := do
  blanks
  comment
  unless ← lineEnd do
    if (← peek?).isSome then refuse

/-- Takes blanks, comments and line ends. -/
def gap : Nat → Reader Unit
  | 0 => pure ()
  | fuel + 1 => do
    blanks
    comment
    if ← lineEnd then gap fuel

/-! ### Keys -/

/-- The characters of a key without quotes. -/
def isBareKeyChar (c : Char) : Bool :=
  c.isAlphanum || c == '_' || c == '-'

/-- One key, bare or quoted. -/
def simpleKey : Reader String := do
  match ← peek? with
  | some c =>
    if c = '"' ∨ c = '\'' then
      return String.ofList (← Quotation.line?)
    else
      match ← takeRun isBareKeyChar with
      | [] => refuse
      | key => return String.ofList key
  | none => refuse

/-- The keys after the first of a dotted key. -/
def moreKeys : Nat → Reader (List String)
  | 0 => refuse
  | fuel + 1 => do
    blanks
    if ← accept ['.'] then
      blanks
      let key ← simpleKey
      return key :: (← moreKeys fuel)
    else
      return []

/-- The greatest number of steps into a value, by the keys of a dotted key or by brackets and
braces around it. -/
def maxDepth : Nat := 79

/-- A dotted key, as the path before its last key and that key. -/
def dottedKey : Reader (List String × String) := do
  blanks
  let first ← simpleKey
  let rest ← moreKeys ((← get).length + 1)
  let keys := first :: rest
  if maxDepth < keys.length then refuse
  return (keys.dropLast, rest.getLastD first)

/-! ### Values -/

/-- A scalar. A blank may stand between a date and a time of day. -/
def scalar : Reader Value := do
  let cs ← takeRun Scalar.isScalarChar
  match Scalar.value? cs with
  | some (.datetime date) =>
    let rest ← get
    match rest with
    | ' ' :: c :: _ =>
      if c.isDigit && (Scalar.cutDate cs == some (cs, [])) then
        blanks
        let time ← takeRun Scalar.isScalarChar
        match Scalar.dateTime? cs time with
        | some v => return v
        | none => refuse
      else return .datetime date
    | _ => return .datetime date
  | some v => return v
  | none => refuse

mutual

/-- A value within the given number of brackets. -/
def value (depth : Nat) : Nat → Reader Value
  | 0 => refuse
  | fuel + 1 => do
    match ← peek? with
    | some '"' => return .string (String.ofList (← Quotation.text?))
    | some '\'' => return .string (String.ofList (← Quotation.text?))
    | some '[' =>
      if depth ≥ maxDepth then refuse
      exactly ['[']
      return .array (← items (depth + 1) fuel)
    | some '\x7b' =>
      if depth ≥ maxDepth then refuse
      exactly ['\x7b']
      blanks
      if ← accept ['\x7d'] then return .table []
      return .table (tableOf (← pairs (depth + 1) [] fuel))
    | _ => scalar

/-- The values of an array up to its closing bracket; a comma may follow the last one. -/
def items (depth : Nat) : Nat → Reader (List Value)
  | 0 => refuse
  | fuel + 1 => do
    gap ((← get).length + 1)
    if ← accept [']'] then return []
    let v ← value depth fuel
    gap ((← get).length + 1)
    if ← accept [','] then return v :: (← items depth fuel)
    exactly [']']
    return [v]

/-- The pairs of a table in braces up to the closing brace. -/
def pairs (depth : Nat) (es : Entries) : Nat → Reader Entries
  | 0 => refuse
  | fuel + 1 => do
    let (path, key) ← dottedKey
    exactly ['=']
    blanks
    let v ← value depth fuel
    blanks
    match es.define path key v with
    | none => refuse
    | some es =>
      if ← accept [','] then pairs depth es fuel
      else
        exactly ['\x7d']
        return es

end

/-! ### Lines -/

/-- A file under construction: its entries, and the path of the table that keys go to. -/
structure Draft where
  entries : Entries
  current : List String

/-- Adds a key to the current table. -/
def Draft.define (d : Draft) (path : List String) (key : String) (v : Value) : Option Draft :=
  (d.entries.descend false d.current (fun _ es => es.define path key v) .header).map
    ({ d with entries := · })

/-- A key with its value. -/
def pair (d : Draft) : Reader Draft := do
  let (path, key) ← dottedKey
  exactly ['=']
  blanks
  let v ← value 0 (2 * (← get).length + 2)
  match d.define path key v with
  | some d => return d
  | none => refuse

/-- A header in single or double brackets. -/
def header (d : Draft) : Reader Draft := do
  exactly ['[']
  let repeated ← accept ['[']
  let (path, key) ← dottedKey
  exactly (if repeated then [']', ']'] else [']'])
  let opened := if repeated then d.entries.openItem path key else d.entries.openTable path key
  match opened with
  | some entries => return { entries, current := path ++ [key] }
  | none => refuse

/-- The lines of a file. -/
def fileLines (d : Draft) : Nat → Reader Draft
  | 0 => refuse
  | fuel + 1 => do
    blanks
    match ← peek? with
    | none => return d
    | some c =>
      let d ←
        if c = '[' then header d
        else if c = '#' ∨ c = '\n' ∨ c = '\r' then pure d
        else pair d
      endOfLine
      fileLines d fuel

end Reader

/-- Drops the mark that some editors put at the front of a file. -/
def dropByteOrderMark : List Char → List Char
  | '\uFEFF' :: cs => cs
  | cs => cs

/-- The table that a configuration file describes. -/
def parse (text : String) : Option Table :=
  let cs := dropByteOrderMark text.toList
  match Reader.fileLines ⟨[], []⟩ (cs.length + 1) cs with
  | some (draft, _) => some (tableOf draft.entries)
  | none => none

end TagVersion.Toml
