import TagVersion.Text.Numeral
import TagVersion.Toml.Scalar

/-!
# Quoted texts of the configuration format

Texts stand between double quotes, where a backslash starts an escape, or between single quotes,
where every character stands for itself. Tripled quotes allow several lines; a line end right
after the opening quotes does not count, and up to two quotes may stand before the closing ones.
-/

namespace TagVersion.Toml.Quotation

/-- Characters that may stand in a line: the tab and everything but controls. -/
def isLineChar (c : Char) : Bool :=
  c == '\t' || (' ' ≤ c && c != '\x7f')

/-- Blanks within a line. -/
def isLineBlank (c : Char) : Bool :=
  c == ' ' || c == '\t'

/-- The character of an escape by letter. -/
def escape? : Char → Option Char
  | 'b' => some '\x08'
  | 't' => some '\t'
  | 'n' => some '\n'
  | 'f' => some '\x0c'
  | 'r' => some '\r'
  | '"' => some '"'
  | '\\' => some '\\'
  | _ => none

/-- The character of an escape by hexadecimal code point. -/
def codePoint? (digits : List Char) : Option Char := do
  let values ← digits.mapM (Scalar.digitValue? 16)
  let n := values.foldl (fun n d => 16 * n + d) 0
  if n.isValidChar then some (Char.ofNat n) else none

/-- Takes the rest of an escape, after its backslash. -/
def cutEscape : List Char → Option (Char × List Char)
  | [] => none
  | c :: rest =>
    let hex (count : Nat) : Option (Char × List Char) :=
      if rest.length < count then none
      else (codePoint? (rest.take count)).map (·, rest.drop count)
    if c = 'u' then hex 4
    else if c = 'U' then hex 8
    else (escape? c).map (·, rest)

/-- Whether the rest of the line is blank, so that a backslash before it joins lines. -/
def endsLine (cs : List Char) : Bool :=
  match cs.dropWhile isLineBlank with
  | '\n' :: _ => true
  | '\r' :: '\n' :: _ => true
  | _ => false

/-- Drops blanks and line ends at the front. -/
def dropBlankLines : List Char → List Char
  | [] => []
  | '\r' :: '\n' :: cs => dropBlankLines cs
  | c :: cs => if isLineBlank c || c == '\n' then dropBlankLines cs else c :: cs

/-- The body of a text in double quotes, up to its closing quote. -/
def basic : Nat → List Char → Option (List Char × List Char)
  | 0, _ => none
  | fuel + 1, cs =>
    match cs with
    | [] => none
    | '"' :: rest => some ([], rest)
    | '\\' :: rest => do
      let (c, rest) ← cutEscape rest
      let (text, rest) ← basic fuel rest
      return (c :: text, rest)
    | c :: rest =>
      if isLineChar c then do
        let (text, rest) ← basic fuel rest
        return (c :: text, rest)
      else none

/-- The body of a text in single quotes, up to its closing quote. -/
def literal : List Char → Option (List Char × List Char)
  | [] => none
  | c :: rest =>
    if c = '\'' then some ([], rest)
    else if isLineChar c then (literal rest).map fun (text, rest) => (c :: text, rest)
    else none

/-- The quotes that a run of three or more closing quotes leaves to the text, and the rest. -/
def closing? (quote : Char) (cs : List Char) : Option (List Char × List Char) :=
  let run := cs.takeWhile (· == quote)
  if run.length < 3 then none
  else
    let kept := min (run.length - 3) 2
    some (List.replicate kept quote, cs.drop (kept + 3))

/-- The body of a text in tripled quotes, up to its closing quotes. -/
def block (quote : Char) : Nat → List Char → Option (List Char × List Char)
  | 0, _ => none
  | fuel + 1, cs =>
    match closing? quote cs with
    | some result => some result
    | none =>
      match cs with
      | [] => none
      | '\r' :: '\n' :: rest => do
        let (text, rest) ← block quote fuel rest
        return ('\n' :: text, rest)
      | c :: rest =>
        if quote = '"' ∧ c = '\\' then
          if endsLine rest then
            block quote fuel (dropBlankLines rest)
          else do
            let (c, rest) ← cutEscape rest
            let (text, rest) ← block quote fuel rest
            return (c :: text, rest)
        else if isLineChar c || c == '\n' then do
          let (text, rest) ← block quote fuel rest
          return (c :: text, rest)
        else none

/-- Drops one line end at the front. -/
def dropLineEnd : List Char → List Char
  | '\n' :: cs => cs
  | '\r' :: '\n' :: cs => cs
  | cs => cs

/-- A text of one line, from its opening quote on. -/
def line? : List Char → Option (List Char × List Char)
  | '"' :: cs => basic (cs.length + 1) cs
  | '\'' :: cs => literal cs
  | _ => none

/-- A text of one or several lines, from its opening quotes on. -/
def text? (cs : List Char) : Option (List Char × List Char) :=
  match cs with
  | '"' :: '"' :: '"' :: rest => block '"' (rest.length + 1) (dropLineEnd rest)
  | '\'' :: '\'' :: '\'' :: rest => block '\'' (rest.length + 1) (dropLineEnd rest)
  | cs => line? cs

end TagVersion.Toml.Quotation
