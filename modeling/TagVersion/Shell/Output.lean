import TagVersion.Shell.Arithmetic

/-!
# Output of shell commands

What the commands that write text make of their arguments. In both a backslash starts an escape;
the second one also fills arguments into a format.
-/

namespace TagVersion.Shell

def isOctalDigit (c : Char) : Bool :=
  '0' ≤ c && c ≤ '7'

/-- The byte of an octal escape, its high bits dropped. -/
def octalByte (ds : Bytes) : Char :=
  Char.ofNat (Nat.ofDigitChars 8 ds 0 % 256)

/-- The byte of an escape by letter. -/
def letterEscape? : Char → Option Char
  | 'a' => some '\x07'
  | 'b' => some '\x08'
  | 'f' => some '\x0c'
  | 'n' => some '\n'
  | 'r' => some '\r'
  | 't' => some '\t'
  | 'v' => some '\x0b'
  | '\\' => some '\\'
  | _ => none

/-- Takes an escape, after its backslash. What is no escape leaves the backslash. -/
def cutEscape (cs : Bytes) : Char × Bytes :=
  match cs with
  | [] => ('\\', [])
  | c :: rest =>
    if isOctalDigit c then
      let ds := (cs.take 3).takeWhile isOctalDigit
      (octalByte ds, cs.drop ds.length)
    else
      match letterEscape? c with
      | some b => (b, rest)
      | none => ('\\', cs)

/-- The bytes of an argument with escapes. A zero before the digits of an octal one does not
count. The flag tells whether an escape ended all output. -/
def unescape : Nat → Bytes → Bytes × Bool
  | 0, _ => ([], false)
  | fuel + 1, cs =>
    match cs with
    | [] => ([], false)
    | '\\' :: 'c' :: _ => ([], true)
    | '\\' :: rest =>
      let rest :=
        match rest with
        | '0' :: c :: more => if isOctalDigit c then c :: more else rest
        | rest => rest
      let (c, rest) := cutEscape rest
      let (more, stop) := unescape fuel rest
      (c :: more, stop)
    | c :: rest =>
      let (more, stop) := unescape fuel rest
      (c :: more, stop)

/-- The bytes of an argument with escapes. -/
def unescaped (cs : Bytes) : Bytes × Bool :=
  unescape (cs.length + 1) cs

/-- The words of a command that writes them out, with blanks between. -/
def echoText (words : List Bytes) : Bytes :=
  let (newline, words) :=
    match words with
    | ['-', 'n'] :: rest => (false, rest)
    | words => (true, words)
  let (cs, stop) := unescaped ([' '].intercalate words)
  if newline && !stop then cs ++ ['\n'] else cs

/-! ### Formats -/

/-- How a value is filled in. -/
structure Directive where
  flags : List Char
  width : Nat
  precision : Option Nat
deriving DecidableEq, Repr

namespace Directive

def isLeft (d : Directive) : Bool :=
  d.flags.contains '-'

/-- Fills a text up to the width. -/
def fill (d : Directive) (cs : Bytes) : Bytes :=
  let blanks := List.replicate (d.width - cs.length) ' '
  if d.isLeft then cs ++ blanks else blanks ++ cs

/-- A text with at most as many bytes as the precision says. -/
def text (d : Directive) (cs : Bytes) : Bytes :=
  d.fill (match d.precision with
    | some n => cs.take n
    | none => cs)

/-- Digits with a sign or lead before them. Zeros fill up to the precision, or to the width where
a flag asks for it. -/
def digits (d : Directive) (lead ds : Bytes) : Bytes :=
  match d.precision with
  | some n =>
    let ds := if n = 0 && ds = ['0'] then [] else ds
    d.fill (lead ++ List.replicate (n - ds.length) '0' ++ ds)
  | none =>
    if d.flags.contains '0' && !d.isLeft then
      lead ++ List.replicate (d.width - lead.length - ds.length) '0' ++ ds
    else d.fill (lead ++ ds)

/-- A signed number. -/
def signed (d : Directive) (n : Int) : Bytes :=
  let lead :=
    if n < 0 then ['-']
    else if d.flags.contains '+' then ['+']
    else if d.flags.contains ' ' then [' ']
    else []
  d.digits lead (numeral n.natAbs)

/-- A number without sign in a base. -/
def unsigned (d : Directive) (conversion : Char) (n : Nat) : Bytes :=
  let base := if conversion = 'o' then 8 else if conversion = 'u' then 10 else 16
  let ds := Nat.toDigits base n
  let ds := if conversion = 'X' then ds.map Char.toUpper else ds
  let isAlternate := d.flags.contains '#' && n != 0
  if isAlternate && conversion = 'o' then d.digits [] ('0' :: ds)
  else if isAlternate && base = 16 then d.digits ['0', conversion] ds
  else d.digits [] ds

end Directive

/-- What a format made so far. -/
structure Filling where
  written : Bytes
  arguments : List Bytes
  complaints : List Bytes
  /-- Whether an escape ended all output. -/
  hasEnded : Bool

namespace Filling

def put (f : Filling) (cs : Bytes) : Filling :=
  { f with written := f.written ++ cs }

/-- The next argument; there is an empty one when all are used up. -/
def next (f : Filling) : Bytes × Filling :=
  (f.arguments.headD [], { f with arguments := f.arguments.tail })

/-- The next argument as an integer. One that is none counts as far as it is one. -/
def nextInteger (f : Filling) : Int × Filling :=
  let (cs, f) := f.next
  match cs with
  | '\'' :: rest => ((rest.headD '\x00').toNat, f)
  | '"' :: rest => ((rest.headD '\x00').toNat, f)
  | [] => (0, f)
  | cs =>
    match Arithmetic.cutInteger? cs with
    | some (n, []) => (n, f)
    | some (n, _) =>
      (n, { f with complaints := f.complaints ++ [cs ++ ": not completely converted".toList] })
    | none =>
      (0, { f with complaints := f.complaints ++ [cs ++ ": expected numeric value".toList] })

/-- Fills the next argument in as a conversion says, if there is such a conversion. -/
def convert? (f : Filling) (d : Directive) (conversion : Char) : Option Filling :=
  if conversion = 's' then
    let (cs, f) := f.next
    some (f.put (d.text cs))
  else if conversion = 'b' then
    let (cs, f) := f.next
    let (cs, stop) := unescaped cs
    some { f.put (d.text cs) with hasEnded := stop }
  else if conversion = 'c' then
    let (cs, f) := f.next
    some (f.put (d.fill [cs.headD '\x00']))
  else if conversion = 'd' ∨ conversion = 'i' then
    let (n, f) := f.nextInteger
    some (f.put (d.signed n))
  else if ['o', 'u', 'x', 'X'].contains conversion then
    let (n, f) := f.nextInteger
    some (f.put (d.unsigned conversion (n % Arithmetic.modulus).toNat))
  else none

/-- A number that a format gives itself or takes from the arguments. -/
def measure (f : Filling) (cs : Bytes) : Int × Bytes × Filling :=
  match cs with
  | '*' :: rest =>
    let (n, f) := f.nextInteger
    (n, rest, f)
  | cs =>
    let (ds, rest) := cs.span Char.isDigit
    (Nat.ofDigitChars 10 ds 0, rest, f)

/-- Goes through a format once. A conversion that is unknown ends this with a complaint. -/
def pass (f : Filling) : Nat → Bytes → Filling × Bool
  | 0, _ => (f, true)
  | fuel + 1, cs =>
    if f.hasEnded then (f, true)
    else
      match cs with
      | [] => (f, true)
      | '\\' :: rest =>
        let (c, rest) := cutEscape rest
        pass (f.put [c]) fuel rest
      | '%' :: '%' :: rest => pass (f.put ['%']) fuel rest
      | '%' :: rest =>
        let (flags, rest) := rest.span fun c => ['#', '-', '+', ' ', '0'].contains c
        let (width, rest, f) := f.measure rest
        let (precision, rest, f) :=
          match rest with
          | '.' :: rest =>
            let (n, rest, f) := f.measure rest
            ((if n < 0 then none else some n.toNat : Option Nat), rest, f)
          | rest => (none, rest, f)
        let flags := if width < 0 then '-' :: flags else flags
        match rest with
        | [] => (f, false)
        | conversion :: rest =>
          match f.convert? { flags, width := width.natAbs, precision } conversion with
          | some f => pass f fuel rest
          | none => (f, false)
      | c :: rest => pass (f.put [c]) fuel rest

/-- Uses a format again until the arguments are used up. -/
def passes (format : Bytes) (f : Filling) : Nat → Filling × Bool
  | 0 => (f, true)
  | fuel + 1 =>
    match f.pass (format.length + 1) format with
    | (after, true) =>
      if after.hasEnded || after.arguments = [] || after.arguments.length = f.arguments.length then
        (after, true)
      else passes format after fuel
    | result => result

end Filling

/-- What a format makes of arguments, the complaints about them, and whether it is a format. -/
def formatted (format : Bytes) (arguments : List Bytes) : Filling × Bool :=
  Filling.passes format ⟨[], arguments, [], false⟩ (arguments.length + 1)

end TagVersion.Shell
