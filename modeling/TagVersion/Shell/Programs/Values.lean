import TagVersion.Shell.Arithmetic
import TagVersion.Shell.Programs.FileOperations
import TagVersion.Shell.Regex

/-!
# Programs that compute values

Programs that write something made of their arguments: parts of paths, sequences of numbers, and
the values of expressions.
-/

namespace TagVersion.Shell

namespace Utility

open Machine

/-! ### Parts of paths -/

/-- A path without the slashes at its end. -/
def withoutLastSlashes (path : Bytes) : Bytes :=
  (path.reverse.dropWhile (· == '/')).reverse

/-- The last name of a path, without an ending that is not all of it. -/
def baseName (path ending : Bytes) : Bytes :=
  if path != [] && path.all (· == '/') then ['/']
  else
    let name := lastName path
    if ending != [] && ending.isSuffixOf name && name != ending then
      name.take (name.length - ending.length)
    else name

/-- A path without its last name. -/
def directoryName (path : Bytes) : Bytes :=
  if path != [] && path.all (· == '/') then ['/']
  else
    let above := ((withoutLastSlashes path).reverse.dropWhile (· != '/')).reverse
    if above = [] then ['.']
    else if above.all (· == '/') then ['/']
    else withoutLastSlashes above

/-- Writes the last names of paths. -/
def writeBaseNames : Utility :=
  withOptions "basename" 1
    { flags := ['a', 'z'], valued := ['s'], names := [("multiple", 'a'), ("suffix", 's')]
      endsAtOperand := true } fun a => do
    let isMultiple := a.has 'a' || a.has 's'
    if isMultiple then
      if a.operands = [] then missingOperand "basename" 1
      for path in a.operands do emit 1 (baseName path ((a.value? 's').getD []) ++ ['\n'])
    else
      expectOperands "basename" 1 2 a.operands do
        emit 1 (baseName (a.operands.headD []) (a.operands.getD 1 []) ++ ['\n'])

/-- Writes the directories of paths. -/
def writeDirectoryNames : Utility :=
  withOptions "dirname" 1 (.ofLetters "z" "" []) fun a => do
    if a.operands = [] then missingOperand "dirname" 1
    for path in a.operands do emit 1 (directoryName path ++ ['\n'])

/-! ### Sequences of numbers -/

/-- An integer in decimal. -/
def decimal? (cs : Bytes) : Option Int :=
  match cs with
  | '-' :: ds => (count? ds).map fun n => -(n : Int)
  | '+' :: ds => (count? ds).map fun n => (n : Int)
  | ds => (count? ds).map fun n => (n : Int)

/-- The numbers from one to another by a step. -/
def numbersBetween (first step last : Int) : List Int :=
  if step = 0 || (last - first) * step < 0 then []
  else
    let count := ((last - first).tdiv step).toNat
    (List.range (count + 1)).map fun (n : Nat) => first + step * (n : Int)

/-- Writes the numbers of a sequence. -/
def writeSequence : Utility := fun words =>
  -- A negative number is no option.
  let isNumber (w : Bytes) : Bool := (decimal? w).isSome
  let (options, numbers) := words.span (!isNumber ·)
  let (options, numbers) :=
    match options.getLast?, numbers with
    | some ['-', 's'], value :: rest => (options ++ [value], rest)
    | _, _ => (options, numbers)
  withOptions "seq" 1 (.ofLetters "w" "sf" [("separator", 's'), ("equal-width", 'w')])
    (fun a => do
      let operands := a.operands ++ numbers
      match operands.find? (!isNumber ·) with
      | some operand =>
        misuse "seq" 1 ("invalid floating point argument: ".toList ++ QuotedName.always operand)
      | none =>
        expectOperands "seq" 1 3 operands do
          let values := operands.filterMap decimal?
          let (first, step, last) :=
            match values with
            | [last] => (1, 1, last)
            | [first, last] => (first, 1, last)
            | first :: step :: last :: _ => (first, step, last)
            | [] => (1, 1, 0)
          if step = 0 then
            misuse "seq" 1
              ("invalid Zero increment value: ".toList ++ QuotedName.always (operands.getD 1 []))
          else
            let shown := (numbersBetween first step last).map signedNumeral
            let width := (shown.map List.length).foldl max 0
            let even (cs : Bytes) : Bytes :=
              if a.has 'w' then
                let (sign, ds) := cs.span (· == '-')
                sign ++ List.replicate (width - cs.length) '0' ++ ds
              else cs
            if shown != [] then
              emit 1 (((a.value? 's').getD ['\n']).intercalate (shown.map even) ++ ['\n']))
    options

/-! ### Expressions -/

/-- Why an expression has no value. -/
inductive Mistake where
  | misplaced (message : Bytes)
  /-- The words end where one is expected. -/
  | missing
  | notInteger
  | divisionByZero

/-- What is left of the words of an expression after a value. -/
abbrev Calculation := StateT (List Bytes) (Except Mistake) Bytes

namespace Calculation

/-- Whether a value counts as false. -/
def isNull (cs : Bytes) : Bool :=
  cs = [] || (decimal? cs) == some 0

/-- The text of a truth value. -/
def truth (b : Bool) : Bytes := if b then ['1'] else ['0']

/-- The operators by how strongly they bind. -/
def operators : List (List String) :=
  [["|"], ["&"], ["=", "==", "!=", "<", "<=", ">", ">="], ["+", "-"], ["*", "/", "%"], [":"]]

/-- What a text begins with that matches a pattern: the first group of it, or else its length. -/
def matched (cs pattern : Bytes) : Bytes :=
  let hasGroup := (pattern.zip pattern.tail).contains ('\\', '(')
  let none := if hasGroup then [] else ['0']
  match Regex.parse false pattern with
  | .none => none
  | some r =>
    match r.matchAt? Regex.fitsAnywhere false .none [] cs with
    | .none => none
    | some found =>
      if hasGroup then (found.groups.lookup 1).getD [] else numeral found.found.length

/-- The value of an operator. -/
def apply (operator : String) (a b : Bytes) : Except Mistake Bytes :=
  let integers (f : Int → Int → Except Mistake Int) : Except Mistake Bytes :=
    match decimal? a, decimal? b with
    | some x, some y => (f x y).map signedNumeral
    | _, _ => .error .notInteger
  let compared : Ordering :=
    match decimal? a, decimal? b with
    | some x, some y => compare x y
    | _, _ => compare a b
  match operator with
  | "|" => .ok (if !isNull a then a else if isNull b then ['0'] else b)
  | "&" => .ok (if isNull a || isNull b then ['0'] else a)
  | "=" => .ok (truth (compared == .eq))
  | "==" => .ok (truth (compared == .eq))
  | "!=" => .ok (truth (compared != .eq))
  | "<" => .ok (truth (compared == .lt))
  | "<=" => .ok (truth (compared != .gt))
  | ">" => .ok (truth (compared == .gt))
  | ">=" => .ok (truth (compared != .lt))
  | "+" => integers fun x y => .ok (x + y)
  | "-" => integers fun x y => .ok (x - y)
  | "*" => integers fun x y => .ok (x * y)
  | "/" => integers fun x y => if y = 0 then .error .divisionByZero else .ok (x.tdiv y)
  | "%" => integers fun x y => if y = 0 then .error .divisionByZero else .ok (x.tmod y)
  | _ => .ok (matched a b)

mutual

/-- An expression whose operators are those of the given levels. -/
def level : Nat → List (List String) → Calculation
  | 0, _ => throw (.misplaced "syntax error".toList)
  | fuel + 1, [] => operand fuel
  | fuel + 1, here :: tighter => do
    let a ← level fuel tighter
    further fuel here tighter a

/-- What follows an operand of a level. -/
def further : Nat → List String → List (List String) → Bytes → Calculation
  | 0, _, _, _ => throw (.misplaced "syntax error".toList)
  | fuel + 1, here, tighter, a => do
    match ← get with
    | w :: rest =>
      if here.contains (String.ofList w) then
        set rest
        let b ← level fuel tighter
        further fuel here tighter (← apply (String.ofList w) a b)
      else return a
    | [] => return a

/-- A word, an expression between parentheses, or a function. -/
def operand : Nat → Calculation
  | 0 => throw (.misplaced "syntax error".toList)
  | fuel + 1 => do
    match ← get with
    | [] => throw .missing
    | w :: rest =>
      set rest
      match String.ofList w with
      | "(" =>
        let a ← level fuel operators
        match ← get with
        | [')'] :: rest =>
          set rest
          return a
        | next :: _ =>
          throw (.misplaced ("expecting ')' instead of ".toList ++ QuotedName.always next))
        | [] => throw (.misplaced "expecting ')'".toList)
      | ")" => throw (.misplaced "unexpected ')'".toList)
      | "length" => return numeral (← operand fuel).length
      | "match" =>
        let cs ← operand fuel
        return matched cs (← operand fuel)
      | "index" =>
        let cs ← operand fuel
        let wanted ← operand fuel
        return numeral ((cs.findIdx? wanted.contains).elim 0 (· + 1))
      | "substr" =>
        let cs ← operand fuel
        let start ← operand fuel
        let count ← operand fuel
        match decimal? start, decimal? count with
        | some start, some count =>
          return if start ≤ 0 || count ≤ 0 then [] else (cs.drop (start.toNat - 1)).take count.toNat
        | _, _ => return []
      | "+" =>
        match rest with
        | w :: rest =>
          set rest
          return w
        | [] => throw (.misplaced "missing argument after '+'".toList)
      | _ => return w

end

end Calculation

/-- Writes the value of an expression. -/
def evaluateWords : Utility := fun words => do
  let wrong (message : Bytes) : Run Unit := complain "expr" 2 message
  let words := if words.head? = some ['-', '-'] then words.tail else words
  if words = [] then missingOperand "expr" 2
  else
    match (Calculation.level (64 * words.length + 64) Calculation.operators).run words with
    | .ok (cs, []) =>
      emit 1 (cs ++ ['\n'])
      finish (if Calculation.isNull cs then 1 else 0)
    | .ok (_, next :: _) =>
      wrong ("syntax error: unexpected argument ".toList ++ QuotedName.always next)
    | .error .missing =>
      wrong ("syntax error: missing argument after ".toList ++ QuotedName.always (words.getLastD []))
    | .error (.misplaced message) => wrong ("syntax error: ".toList ++ message)
    | .error .notInteger => wrong "non-integer argument".toList
    | .error .divisionByZero => wrong "division by zero".toList

end Utility

end TagVersion.Shell
