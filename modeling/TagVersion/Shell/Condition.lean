import TagVersion.Shell.Machine
import TagVersion.Shell.Arithmetic

/-!
# Conditions in scripts

A condition is a list of words: properties of files and texts, comparisons, and what the signs
for negation, conjunction, disjunction and grouping make of these. Words that are no condition
have no truth value.
-/

namespace TagVersion.Shell

namespace Condition

/-- The operators for files, by their letters. -/
def fileLetters : List Char :=
  ['b', 'c', 'd', 'e', 'f', 'g', 'h', 'k', 'p', 'r', 's', 'u', 'w', 'x', 'G', 'L', 'O', 'S']

/-- The operators between two operands. -/
def binaryOperators : List String :=
  ["=", "!=", "<", ">", "-eq", "-ne", "-ge", "-gt", "-le", "-lt", "-nt", "-ot", "-ef"]

/-- What a word can be in a condition. -/
inductive Token where
  | unary (letter : Char)
  | binary (operator : String)
  | conjunction
  | disjunction
  | negation
  | opening
  | closing
  | operand
  | nothing
deriving DecidableEq, Repr

/-- What a word is by itself. -/
def Token.ofWord (w : Bytes) : Token :=
  match String.ofList w with
  | "-a" => .conjunction
  | "-o" => .disjunction
  | "!" => .negation
  | "(" => .opening
  | ")" => .closing
  | text =>
    if binaryOperators.contains text then .binary text
    else
      match w with
      | ['-', c] => if fileLetters.contains c || ['n', 'z', 't'].contains c then .unary c else .operand
      | _ => .operand

/-- Whether a word that could be an operator before one operand is an operand itself. -/
def isOperand (after : List Bytes) : Bool :=
  match after with
  | [] => true
  | [_] => false
  | w :: _ =>
    match Token.ofWord w with
    | .binary _ => true
    | _ => false

/-- What the first of some words is. -/
def token (words : List Bytes) : Token :=
  match words with
  | [] => .nothing
  | w :: after =>
    match Token.ofWord w with
    | .unary c => if isOperand after then .operand else .unary c
    | .opening => if after.isEmpty then .operand else .opening
    | t => t

/-- Whether what a path leads to has a property. -/
def holdsOfFile (m : Machine) (letter : Char) (path : Bytes) : Bool :=
  let isNull := path = Machine.nullFile
  let node := m.nodeAt? path
  match letter with
  | 'f' => node.any fun | .file .. => true | _ => false
  | 'd' => node == some .directory
  | 's' => node.any fun | .file content _ => content.size != 0 | _ => true
  | 'x' => node.any fun | .file _ mode => mode &&& 0o111 != 0 | _ => true
  | 'c' => isNull
  | letter => (isNull || node.isSome) && ['e', 'r', 'w', 'G', 'O'].contains letter

/-- The integer of an operand, which blanks may surround. -/
def integer? (cs : Bytes) : Option Int :=
  match Arithmetic.cutInteger? cs with
  | some (_, rest) =>
    if rest.all fun c => c == ' ' || ('\t' ≤ c && c ≤ '\r') then
      let ds := cs.filter Char.isDigit
      let n : Int := Nat.ofDigitChars 10 ds 0
      some (Arithmetic.clamp (if cs.contains '-' then -n else n))
    else none
  | none => none

/-- Whether two operands compare as an operator says. -/
def compares? (m : Machine) (operator : String) (a b : Bytes) : Option Bool :=
  let numbers (test : Int → Int → Bool) : Option Bool := do
    return test (← integer? a) (← integer? b)
  match operator with
  | "=" => some (a == b)
  | "!=" => some (a != b)
  | "<" => some (decide (a < b))
  | ">" => some (decide (b < a))
  | "-eq" => numbers (· == ·)
  | "-ne" => numbers (· != ·)
  | "-ge" => numbers fun x y => decide (y ≤ x)
  | "-gt" => numbers fun x y => decide (y < x)
  | "-le" => numbers fun x y => decide (x ≤ y)
  | "-lt" => numbers fun x y => decide (x < y)
  | "-ef" => some ((m.nodeAt? a).isSome && (m.nodeAt? b).isSome && m.locate? a == m.locate? b)
  | _ => some false

mutual

/-- A condition at the front, and the words after it. -/
def disjunction (m : Machine) : Nat → List Bytes → Option (Bool × List Bytes)
  | 0, _ => none
  | fuel + 1, words => do
    let (a, rest) ← conjunction m fuel words
    match token rest with
    | .disjunction =>
      let (b, rest) ← disjunction m fuel rest.tail
      return (a || b, rest)
    | _ => return (a, rest)

/-- Conditions that have to hold together. -/
def conjunction (m : Machine) : Nat → List Bytes → Option (Bool × List Bytes)
  | 0, _ => none
  | fuel + 1, words => do
    let (a, rest) ← negation m fuel words
    match token rest with
    | .conjunction =>
      let (b, rest) ← conjunction m fuel rest.tail
      return (a && b, rest)
    | _ => return (a, rest)

/-- A condition that may be negated. -/
def negation (m : Machine) : Nat → List Bytes → Option (Bool × List Bytes)
  | 0, _ => none
  | fuel + 1, words =>
    match token words with
    | .negation => (negation m fuel words.tail).map fun (b, rest) => (!b, rest)
    | _ => primary m fuel words

/-- A condition that is not made of others. -/
def primary (m : Machine) : Nat → List Bytes → Option (Bool × List Bytes)
  | 0, _ => none
  | fuel + 1, words =>
    match token words, words with
    | .nothing, _ => some (false, [])
    | .opening, _ :: inner =>
      match token inner with
      | .closing => some (false, inner.tail)
      | _ => do
        let (b, rest) ← disjunction m fuel inner
        match token rest with
        | .closing => return (b, rest.tail)
        | _ => none
    | .unary 'n', _ :: w :: rest => some (w != [], rest)
    | .unary 'z', _ :: w :: rest => some (w == [], rest)
    | .unary 't', _ :: _ :: rest => some (false, rest)
    | .unary c, _ :: w :: rest => some (holdsOfFile m c w, rest)
    | .unary _, _ => none
    | _, w :: rest =>
      match token rest, rest with
      | .binary operator, _ :: v :: rest => (compares? m operator w v).map (·, rest)
      | .binary _, _ => none
      | _, rest => some (w != [], rest)
    | _, [] => none

end

/-- The truth value of words that are not to be looked at in another way first. -/
def plain? (m : Machine) (words : List Bytes) : Option Bool :=
  match disjunction m (4 * words.length + 4) words with
  | some (b, rest) => if rest.isEmpty then some b else none
  | none => none

/-- The truth value of words. Three words with an operator between two others are a comparison;
with three or four words, outer parentheses and a negation in front are seen first. -/
def holds? (m : Machine) (words : List Bytes) : Option Bool :=
  match words with
  | [] => some false
  | words =>
    let inner (words : List Bytes) : Option Bool :=
      match words with
      | [] => some false
      | [a, o, b] =>
        match Token.ofWord o with
        | .binary operator => compares? m operator a b
        | _ => grouped words
      | words => grouped words
    match words with
    | [_, o, _] =>
      match Token.ofWord o with
      | .binary _ => inner words
      | _ => negated inner words
    | [_, _, _, _] => negated inner words
    | words => plain? m words
where
  grouped (words : List Bytes) : Option Bool :=
    if words.head? = some ['('] && words.getLast? = some [')'] && (words.length = 3 || words.length = 4)
    then plain? m words.tail.dropLast
    else plain? m words
  negated (inner : List Bytes → Option Bool) (words : List Bytes) : Option Bool :=
    match words with
    | ['!'] :: rest => (inner rest).map (!·)
    | words => grouped words

end Condition

end TagVersion.Shell
