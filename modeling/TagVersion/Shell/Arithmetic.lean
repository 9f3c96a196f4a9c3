import TagVersion.Shell.Syntax

/-!
# Sums in scripts

Expressions over integers of 64 bits with a sign, which wrap around. Names stand for variables;
an assignment changes them. What a short circuit passes over is read but not done.
-/

namespace TagVersion.Shell

namespace Arithmetic

/-- The number of integers of 64 bits. -/
def modulus : Nat := 18446744073709551616

/-- The integer of 64 bits that is left of a result. -/
def wrap (n : Int) : Int := Int.bmod n modulus

/-- The least and the greatest integer, to which numerals are limited. -/
def clamp (n : Int) : Int :=
  max (-9223372036854775808) (min n 9223372036854775807)

/-- The value of a digit in bases up to sixteen. -/
def digit? (base : Nat) (c : Char) : Option Nat :=
  let value :=
    if c.isDigit then c.toNat - '0'.toNat
    else if 'a' ≤ c ∧ c ≤ 'f' then c.toNat - 'a'.toNat + 10
    else if 'A' ≤ c ∧ c ≤ 'F' then c.toNat - 'A'.toNat + 10
    else base
  if value < base then some value else none

/-- The number that a text begins with, in the base that its own start names, and the rest. -/
def cutNumber (cs : Bytes) : Nat × Bytes :=
  let (base, ds) :=
    match cs with
    | '0' :: 'x' :: c :: rest => if (digit? 16 c).isSome then (16, c :: rest) else (8, cs)
    | '0' :: 'X' :: c :: rest => if (digit? 16 c).isSome then (16, c :: rest) else (8, cs)
    | '0' :: _ => (8, cs)
    | _ => (10, cs)
  let (ds, rest) := ds.span fun c => (digit? base c).isSome
  (ds.foldl (fun n c => base * n + (digit? base c).getD 0) 0, rest)

/-- The integer of a text with an optional sign, and what follows it. -/
def cutInteger? (cs : Bytes) : Option (Int × Bytes) :=
  let cs := cs.dropWhile fun c => c == ' ' || ('\t' ≤ c && c ≤ '\r')
  let (isNegative, ds) :=
    match cs with
    | '-' :: ds => (true, ds)
    | '+' :: ds => (false, ds)
    | ds => (false, ds)
  if ds.head?.any Char.isDigit then
    let (n, rest) := cutNumber ds
    some (clamp (if isNegative then -(n : Int) else n), rest)
  else none

/-! ### Reading -/

/-- An expression. -/
inductive Expression where
  | number (n : Int)
  | parameter (name : Bytes)
  | unary (operator : Char) (operand : Expression)
  | binary (operator : String) (left right : Expression)
  | choice (condition left right : Expression)
  | assign (name : Bytes) (operator : String) (value : Expression)
deriving Repr, Inhabited

/-- A reader takes something off an expression or refuses it. -/
abbrev Reader := StateT Bytes Option

def skip : Reader Unit :=
  modify fun cs => cs.dropWhile fun c => c == ' ' || c == '\t' || c == '\n'

/-- The operators between two operands by their rank, the weakest first. Where one begins with
another, the longer one comes first. -/
def ranks : List (List String) :=
  [["||"], ["&&"], ["|"], ["^"], ["&"], ["==", "!="], ["<=", ">=", "<", ">"], ["<<", ">>"],
    ["+", "-"], ["*", "/", "%"]]

/-- What must not follow an operator, because it would be another one. -/
def clashes (operator : String) (next : Option Char) : Bool :=
  match operator with
  | "|" => next = some '|' || next = some '='
  | "&" => next = some '&' || next = some '='
  | "<" => next = some '<'
  | ">" => next = some '>'
  | "==" => false
  | "!=" => false
  | "<=" => false
  | ">=" => false
  | "||" => false
  | "&&" => false
  | _ => next = some '='

/-- Takes one of the operators, if it is next. -/
def operator? (candidates : List String) : Reader (Option String) := do
  skip
  let cs ← get
  match candidates.find? fun o =>
      o.toList.isPrefixOf cs && !clashes o (cs.drop o.length).head? with
  | some o =>
    set (cs.drop o.length)
    return some o
  | none => return none

/-- The operators that an assignment may hold. -/
def assigning : List String := ["+", "-", "*", "/", "%", "<<", ">>", "&", "^", "|"]

/-- Takes the sign of an assignment, if it is next: the operator in it, if there is one. -/
def assignment? : Reader (Option String) := do
  skip
  let cs ← get
  match cs with
  | '=' :: rest =>
    if rest.head? = some '=' then return none
    set rest
    return some ""
  | cs =>
    match assigning.find? fun o => (o ++ "=").toList.isPrefixOf cs with
    | some o =>
      set (cs.drop (o.length + 1))
      return some o
    | none => return none

mutual

/-- An expression: an assignment, or a choice. -/
def expression : Nat → Reader Expression
  | 0 => fun _ => none
  | fuel + 1 => do
    skip
    let cs ← get
    let (name, rest) := cs.span isNameChar
    if isName name then
      set rest
      match ← assignment? with
      | some operator => return .assign name operator (← expression fuel)
      | none =>
        set cs
        choice fuel
    else choice fuel

/-- A choice between two expressions, or one of the operators. -/
def choice : Nat → Reader Expression
  | 0 => fun _ => none
  | fuel + 1 => do
    let condition ← operation ranks fuel
    skip
    match ← get with
    | '?' :: rest =>
      set rest
      let left ← expression fuel
      skip
      match ← get with
      | ':' :: rest =>
        set rest
        return .choice condition left (← choice fuel)
      | _ => fun _ => none
    | _ => return condition

/-- Operands joined by the operators of the given ranks. -/
def operation (rs : List (List String)) : Nat → Reader Expression
  | 0 => fun _ => none
  | fuel + 1 =>
    match rs with
    | [] => operand fuel
    | r :: rs => do
      let left ← operation rs fuel
      operations r rs left fuel

/-- The operands after the first one. -/
def operations (r : List String) (rs : List (List String)) (left : Expression) :
    Nat → Reader Expression
  | 0 => fun _ => none
  | fuel + 1 => do
    match ← operator? r with
    | some o =>
      let right ← operation rs fuel
      operations r rs (.binary o left right) fuel
    | none => return left

/-- An operand with the signs before it. -/
def operand : Nat → Reader Expression
  | 0 => fun _ => none
  | fuel + 1 => do
    skip
    let cs ← get
    match cs with
    | '(' :: rest =>
      set rest
      let e ← expression fuel
      skip
      match ← get with
      | ')' :: rest =>
        set rest
        return e
      | _ => fun _ => none
    | c :: rest =>
      if c = '-' ∨ c = '+' ∨ c = '!' ∨ c = '~' then
        set rest
        return .unary c (← operand fuel)
      else if c.isDigit then
        let (n, rest) := cutNumber cs
        if rest.head?.any isNameChar then fun _ => none
        else
          set rest
          return .number (clamp n)
      else if isNameStart c then
        let (name, rest) := cs.span isNameChar
        set rest
        return .parameter name
      else fun _ => none
    | [] => fun _ => none

end

/-- The expression of a text; blanks alone are zero. -/
def parse (cs : Bytes) : Option Expression :=
  match skip cs with
  | some (_, []) => some (.number 0)
  | _ =>
    match (do let e ← expression (32 * cs.length + 64); skip; return e : Reader Expression) cs with
    | some (e, []) => some e
    | _ => none

/-! ### Values -/

/-- The variables that an expression reads and assigns. -/
abbrev Scope := List (Bytes × Bytes)

/-- The value of an operator without short circuit; none for a division by zero. -/
def combine? (operator : String) (a b : Int) : Option Int :=
  let flag (b : Bool) : Int := if b then 1 else 0
  match operator with
  | "|" => some (Int.ofNat ((a % modulus).toNat ||| (b % modulus).toNat))
  | "^" => some (Int.ofNat ((a % modulus).toNat ^^^ (b % modulus).toNat))
  | "&" => some (Int.ofNat ((a % modulus).toNat &&& (b % modulus).toNat))
  | "==" => some (flag (a == b))
  | "!=" => some (flag (a != b))
  | "<=" => some (flag (a ≤ b))
  | ">=" => some (flag (b ≤ a))
  | "<" => some (flag (a < b))
  | ">" => some (flag (b < a))
  | "<<" => some (a * (1 <<< (b % 64).toNat : Nat))
  | ">>" => some (a / (1 <<< (b % 64).toNat : Nat))
  | "+" => some (a + b)
  | "-" => some (a - b)
  | "*" => some (a * b)
  | "/" => if b = 0 then none else some (a.tdiv b)
  | "%" => if b = 0 then none else some (a.tmod b)
  | _ => none

/-- The value of a variable, which has to hold a number. -/
def valueOf? (scope : Scope) (name : Bytes) : Option Int :=
  match scope.lookup name with
  | none => some 0
  | some [] => some 0
  | some text =>
    match cutInteger? text with
    | some (n, rest) => if rest.all (· == ' ') then some n else none
    | none => none

/-- The value of an expression, and the variables after it. -/
def evaluate (scope : Scope) : Expression → Option (Int × Scope)
  | .number n => some (n, scope)
  | .parameter name => (valueOf? scope name).map (·, scope)
  | .unary operator e => do
    let (n, scope) ← evaluate scope e
    let n :=
      if operator = '-' then -n
      else if operator = '!' then (if n = 0 then 1 else 0)
      else if operator = '~' then -n - 1
      else n
    return (wrap n, scope)
  | .binary operator a b => do
    let (x, scope) ← evaluate scope a
    if operator = "||" then
      if x ≠ 0 then return (1, scope)
      let (y, scope) ← evaluate scope b
      return (if y ≠ 0 then 1 else 0, scope)
    else if operator = "&&" then
      if x = 0 then return (0, scope)
      let (y, scope) ← evaluate scope b
      return (if y ≠ 0 then 1 else 0, scope)
    else
      let (y, scope) ← evaluate scope b
      let n ← combine? operator x y
      return (wrap n, scope)
  | .choice c a b => do
    let (x, scope) ← evaluate scope c
    if x ≠ 0 then evaluate scope a else evaluate scope b
  | .assign name operator e => do
    let (y, scope) ← evaluate scope e
    let n ←
      if operator = "" then some y
      else do
        let x ← valueOf? scope name
        combine? operator x y
    let n := wrap n
    return (n, (name, signedNumeral n) :: scope)

end Arithmetic

end TagVersion.Shell
