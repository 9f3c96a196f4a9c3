import TagVersion.Text.Numeral
import TagVersion.Toml.Value

/-!
# Scalars of the configuration format

Numbers, points in time and the words for truth values are runs of letters, digits and a few
signs; each run is one value or none. Integers are 64-bit and signed. A point in time is kept in
a normal form: date, a capital `T`, time with as few digits after the second as needed, and the
offset.
-/

namespace TagVersion.Toml

namespace Scalar

/-- The digits of a run in which single underscores may stand between digits. -/
def digits? (isDigit : Char → Bool) : List Char → Option (List Char)
  | [] => none
  | [c] => if isDigit c then some [c] else none
  | c :: '_' :: rest => if isDigit c then (digits? isDigit rest).map (c :: ·) else none
  | c :: rest => if isDigit c then (digits? isDigit rest).map (c :: ·) else none

/-- Takes a sign off the front; the flag tells whether it is a minus. -/
def cutSign : List Char → Bool × List Char
  | '+' :: cs => (false, cs)
  | '-' :: cs => (true, cs)
  | cs => (false, cs)

/-- The digits of a decimal numeral without needless zeros at its front. -/
def decimal? (cs : List Char) : Option (List Char) :=
  match digits? Char.isDigit cs with
  | some ('0' :: _ :: _) => none
  | ds => ds

/-- The value of a digit in a base of up to sixteen. -/
def digitValue? (base : Nat) (c : Char) : Option Nat :=
  let value :=
    if c.isDigit then c.toNat - '0'.toNat
    else if 'a' ≤ c ∧ c ≤ 'f' then c.toNat - 'a'.toNat + 10
    else if 'A' ≤ c ∧ c ≤ 'F' then c.toNat - 'A'.toNat + 10
    else base
  if value < base then some value else none

/-- The value of a run of digits of the given base. -/
def radix? (base : Nat) (cs : List Char) : Option Nat :=
  (digits? (fun c => (digitValue? base c).isSome) cs).map fun ds =>
    ds.foldl (fun n c => base * n + (digitValue? base c).getD 0) 0

/-- One more than the greatest integer of 64 bits with a sign. -/
def integerBound : Int := 0x8000000000000000

/-- An integer of 64 bits with its sign. -/
def int64? (negative : Bool) (n : Nat) : Option Value :=
  let i : Int := if negative then -(n : Int) else n
  if -integerBound ≤ i ∧ i < integerBound then some (.integer i) else none

/-- Reads an integer: signed decimal, or unsigned in a base named by its prefix. -/
def integer? (cs : List Char) : Option Value :=
  match cs with
  | '0' :: 'x' :: ds => radix? 16 ds >>= int64? false
  | '0' :: 'o' :: ds => radix? 8 ds >>= int64? false
  | '0' :: 'b' :: ds => radix? 2 ds >>= int64? false
  | cs =>
    let (negative, ds) := cutSign cs
    decimal? ds >>= Text.natural? >>= int64? negative

/-- The least number that rounds beyond the finite doubles: half a unit of the last place above
the greatest of them. -/
def doubleBound : Nat := ((1 <<< 54) - 1) <<< 970

/-- Whether the number with these digits and this exponent rounds beyond the finite doubles. -/
def overflows (ds : List Char) (exponent : Int) : Bool :=
  let m := Nat.ofDigitChars 10 ds 0
  let magnitude := (Nat.toDigits 10 m).length + exponent
  m != 0 && (magnitude > 310 ||
    (magnitude > 300 &&
      doubleBound * Nat.pow 10 (-exponent).toNat ≤ m * Nat.pow 10 exponent.toNat))

/-- Reads the exponent of a number with a fraction, none standing for zero. -/
def exponent? : List Char → Option Int
  | [] => some 0
  | _ :: cs =>
    let (negative, ds) := cutSign cs
    (digits? Char.isDigit ds).map fun ds =>
      let n := Nat.ofDigitChars 10 ds 0
      if negative then -(n : Int) else n

/-- Reads a number with a fraction or an exponent, or one of the words for infinity and for no
number. -/
def float? (cs : List Char) : Option Value := do
  let (negative, body) := cutSign cs
  if body = ['i', 'n', 'f'] ∨ body = ['n', 'a', 'n'] then
    return .float (String.ofList cs)
  let (mantissa, power) := body.span fun c => c != 'e' && c != 'E'
  let exponent ← exponent? power
  let (whole, fraction) := mantissa.span (· != '.')
  let ds ← decimal? whole
  let fs ←
    match fraction with
    | [] => if power = [] then none else some []
    | _ :: fs => digits? Char.isDigit fs
  if !negative && overflows (ds ++ fs) (exponent - fs.length) then none
  else return .float (String.ofList cs)

/-! ### Points in time -/

/-- The value of exactly two digits within bounds. -/
def pair? (low high : Nat) (a b : Char) : Option Nat := do
  let n ← Text.natural? [a, b]
  if low ≤ n ∧ n ≤ high then some n else none

/-- The number of days of a month. -/
def daysOfMonth (year month : Nat) : Nat :=
  if month = 2 then
    if year % 4 = 0 ∧ (year % 100 ≠ 0 ∨ year % 400 = 0) then 29 else 28
  else if [4, 6, 9, 11].contains month then 30
  else 31

/-- Takes a date off the front. -/
def cutDate : List Char → Option (List Char × List Char)
  | a :: b :: c :: d :: '-' :: m :: n :: '-' :: x :: y :: rest => do
    let year ← Text.natural? [a, b, c, d]
    let month ← pair? 1 12 m n
    let _ ← pair? 1 (daysOfMonth year month) x y
    some ([a, b, c, d, '-', m, n, '-', x, y], rest)
  | _ => none

/-- The digits after the second as they are kept: at most nine, no zeros at the end. -/
def secondFraction (ds : List Char) : List Char :=
  match ((ds.take 9).reverse.dropWhile (· == '0')).reverse with
  | [] => []
  | kept => '.' :: kept

/-- Takes a time of day off the front; `maxHour` is the last hour that counts. -/
def cutTime (maxHour : Nat) : List Char → Option (List Char × List Char)
  | a :: b :: ':' :: c :: d :: ':' :: e :: f :: rest => do
    let _ ← pair? 0 maxHour a b
    let _ ← pair? 0 59 c d
    let _ ← pair? 0 60 e f
    let time := [a, b, ':', c, d, ':', e, f]
    match rest with
    | '.' :: rest =>
      match rest.span Char.isDigit with
      | ([], _) => none
      | (ds, rest) => some (time ++ secondFraction ds, rest)
    | rest => some (time, rest)
  | _ => none

/-- Reads the offset of a point in time from world time. -/
def offset? : List Char → Option (List Char)
  | [] => some []
  | ['Z'] => some ['Z']
  | ['z'] => some ['Z']
  | [sign, a, b, ':', c, d] => do
    let hours ← pair? 0 23 a b
    let minutes ← pair? 0 59 c d
    if sign = '+' then some ['+', a, b, ':', c, d]
    else if sign = '-' then
      some [if hours = 0 ∧ minutes = 0 then '+' else '-', a, b, ':', c, d]
    else none
  | _ => none

/-- Reads the time of day and offset after a date. -/
def dateTime? (date cs : List Char) : Option Value := do
  let (time, rest) ← cutTime 23 cs
  let offset ← offset? rest
  return .datetime (String.ofList (date ++ 'T' :: time ++ offset))

/-- Reads a date, a time of day, or both joined by a letter. -/
def datetime? (cs : List Char) : Option Value :=
  match cutDate cs with
  | some (date, []) => some (.datetime (String.ofList date))
  | some (date, c :: rest) => if c = 'T' ∨ c = 't' then dateTime? date rest else none
  | none =>
    match cutTime 23 cs with
    | some (time, []) => some (.datetime (String.ofList time))
    | _ => none

/-! ### Points in time as text

A point in time that is given as a text has a wider form: a blank may stand for the letter, the
hour 24 counts, and an offset is any number of hours and minutes up to a day. -/

/-- The number of minutes of a day. -/
def dayMinutes : Nat := 1440

/-- A number of minutes as hours and minutes of two digits each. -/
def clockText (minutes : Nat) : List Char :=
  let two (n : Nat) : List Char := [Nat.digitChar (n / 10), Nat.digitChar (n % 10)]
  two (minutes / 60) ++ ':' :: two (minutes % 60)

/-- Reads an offset of up to a day. -/
def wideOffset? : List Char → Option (List Char)
  | [] => some []
  | ['Z'] => some ['Z']
  | ['z'] => some ['Z']
  | [sign, a, b, ':', c, d] => do
    let hours ← pair? 0 99 a b
    let minutes ← pair? 0 99 c d
    let total := 60 * hours + minutes
    if dayMinutes < total then none
    else if sign = '+' then some ('+' :: clockText total)
    else if sign = '-' then some ((if total = 0 then '+' else '-') :: clockText total)
    else none
  | _ => none

/-- Reads a point in time that is given as a text. -/
def timestamp? (cs : List Char) : Option Value :=
  match cutDate cs with
  | some (date, []) => some (.datetime (String.ofList date))
  | some (date, c :: rest) =>
    if c = 'T' ∨ c = 't' ∨ c = ' ' then do
      let (time, rest) ← cutTime 24 rest
      let offset ← wideOffset? rest
      return .datetime (String.ofList (date ++ 'T' :: time ++ offset))
    else none
  | none =>
    match cutTime 24 cs with
    | some (time, []) => some (.datetime (String.ofList time))
    | _ => none

/-- The characters of a scalar without quotes. -/
def isScalarChar (c : Char) : Bool :=
  c.isAlphanum || ['+', '-', '_', '.', ':'].contains c

/-- The value of a run of scalar characters. -/
def value? (cs : List Char) : Option Value :=
  if cs = ['t', 'r', 'u', 'e'] then some (.boolean true)
  else if cs = ['f', 'a', 'l', 's', 'e'] then some (.boolean false)
  else integer? cs <|> datetime? cs <|> float? cs

end Scalar

end TagVersion.Toml
