import TagVersion.Text.Cut

/-!
# Patterns of paths

A pattern of a path is a text in which a question mark stands for a byte, a star for any bytes,
and brackets for one byte of a set. Where a pattern is for whole paths, none of these stands for
a slash; only two stars between slashes stand for any number of directories.

A pattern is read into parts. While the parts are gone through one after the other, all places
of the path that the parts so far can reach are kept.
-/

namespace TagVersion

/-- Some bytes between brackets. -/
inductive ByteClass where
  | range (low high : UInt8)
  | alnum
  | alpha
  | blank
  | control
  | digit
  | graphic
  | lower
  | printable
  | punctuation
  | space
  | upper
  | hexDigit
deriving DecidableEq, Repr

namespace ByteClass

/-- The class that a pattern calls by name. -/
def ofName? (name : List Char) : Option ByteClass :=
  [("alnum", alnum), ("alpha", alpha), ("blank", blank), ("cntrl", control), ("digit", digit),
    ("graph", graphic), ("lower", lower), ("print", printable), ("punct", punctuation),
    ("space", space), ("upper", upper), ("xdigit", hexDigit)].lookup (String.ofList name)

/-- Whether a byte is in a class. Only single-byte characters are in a named class. -/
def contains (c : ByteClass) (b : UInt8) : Bool :=
  let isDigit := 0x30 ≤ b && b ≤ 0x39
  let isLower := 0x61 ≤ b && b ≤ 0x7A
  let isUpper := 0x41 ≤ b && b ≤ 0x5A
  let isGraphic := 0x21 ≤ b && b ≤ 0x7E
  match c with
  | range low high => low ≤ b && b ≤ high
  | alnum => isDigit || isLower || isUpper
  | alpha => isLower || isUpper
  | blank => b == 0x20 || b == 0x09
  | control => b < 0x20 || b == 0x7F
  | digit => isDigit
  | graphic => isGraphic
  | lower => isLower
  | printable => isGraphic || b == 0x20
  | punctuation => isGraphic && !(isDigit || isLower || isUpper)
  | space => b == 0x20 || (0x09 ≤ b && b ≤ 0x0D)
  | upper => isUpper
  | hexDigit => isDigit || (0x61 ≤ b && b ≤ 0x66) || (0x41 ≤ b && b ≤ 0x46)

end ByteClass

/-- A part of a pattern. -/
inductive GlobPart where
  | byte (b : UInt8)
  | anyByte
  | set (isNegated : Bool) (classes : List ByteClass)
  /-- Any bytes but slashes. -/
  | nameRun
  /-- Any bytes. -/
  | pathRun
  /-- Nothing, or any bytes up to and with a slash. -/
  | directories
  /-- What can never be found. -/
  | never
deriving DecidableEq, Repr

namespace NameGlob

def slash : UInt8 := 0x2F

def backslash : UInt8 := 0x5C

def star : UInt8 := 0x2A

def questionMark : UInt8 := 0x3F

def openBracket : UInt8 := 0x5B

def closeBracket : UInt8 := 0x5D

def colon : UInt8 := 0x3A

def hyphen : UInt8 := 0x2D

/-- The name of a class and what follows it, from its opening colon on. -/
def cutClassName? (bytes : List UInt8) : Option (Option (List UInt8) × List UInt8) :=
  match bytes.span (· != closeBracket) with
  | (_, []) => none
  | (name, _ :: rest) => some (if name.getLast? = some colon then some name.dropLast else none, rest)

/-- Takes the classes of a set off a pattern, up to the closing bracket. `previous` is the byte
with which a hyphen would begin a range, if there is one; a bracket that stands first is in the
set. -/
def cutSet (previous : Option UInt8) (isFirst : Bool) :
    Nat → List UInt8 → Option (List ByteClass × List UInt8)
  | 0, _ => none
  | fuel + 1, bytes =>
    let also (c : ByteClass) (previous : Option UInt8) (rest : List UInt8) :
        Option (List ByteClass × List UInt8) :=
      (cutSet previous false fuel rest).map fun (classes, rest) => (c :: classes, rest)
    match bytes with
    | [] => none
    | b :: rest =>
      if b = closeBracket && !isFirst then some ([], rest)
      else if b = backslash then
        match rest with
        | [] => none
        | c :: rest => also (.range c c) (some c) rest
      else
        let isRange := b = hyphen && rest.head?.any (· != closeBracket)
        match (if isRange then previous else none), rest with
        | some low, high :: rest =>
          if high = backslash then
            match rest with
            | [] => none
            | high :: rest => also (.range low high) none rest
          else also (.range low high) none rest
        | _, _ =>
          if b = openBracket && rest.head? = some colon then
            match cutClassName? rest.tail with
            | none => none
            | some (none, _) => also (.range b b) (some b) rest
            | some (some name, rest) =>
              match ByteClass.ofName? (name.map fun b => Char.ofNat b.toNat) with
              | some c => also c none rest
              | none => none
          else also (.range b b) (some b) rest

/-- Takes a set off a pattern, after its opening bracket. -/
def cutBrackets (bytes : List UInt8) : Option (GlobPart × List UInt8) :=
  let isNegated := bytes.head? = some 0x21 || bytes.head? = some 0x5E
  let bytes := if isNegated then bytes.tail else bytes
  (cutSet none true (bytes.length + 1) bytes).map fun (classes, rest) =>
    (.set isNegated classes, rest)

/-- Whether stars are followed by the end or by a slash. -/
def endsName (bytes : List UInt8) : Bool :=
  match bytes with
  | [] => true
  | [b] => b == slash
  | b :: c :: _ => b == slash || (b == backslash && c == slash)

/-- The parts of a pattern. `previous` is the byte before the rest of the pattern. -/
def partsFrom (forPaths : Bool) (previous : Option UInt8) : Nat → List UInt8 → List GlobPart
  | 0, _ => []
  | fuel + 1, bytes =>
    match bytes with
    | [] => []
    | b :: rest =>
      if b = backslash then
        match rest with
        | [] => [.never]
        | c :: rest => .byte c :: partsFrom forPaths (some c) fuel rest
      else if b = questionMark then .anyByte :: partsFrom forPaths (some b) fuel rest
      else if b = openBracket then
        match cutBrackets rest with
        | some (part, rest) => part :: partsFrom forPaths (some closeBracket) fuel rest
        | none => [.never]
      else if b = star then
        let (more, rest) := rest.span (· == star)
        if !forPaths then .pathRun :: partsFrom forPaths (some b) fuel rest
        else if more != [] && previous.all (· == slash) && endsName rest then
          if rest.head? = some slash then
            .directories :: partsFrom forPaths (some slash) fuel rest.tail
          else .pathRun :: partsFrom forPaths (some b) fuel rest
        else .nameRun :: partsFrom forPaths (some b) fuel rest
      else .byte b :: partsFrom forPaths (some b) fuel rest

/-- The parts of a pattern, which is for whole paths or not. -/
def parts (forPaths : Bool) (pattern : List UInt8) : List GlobPart :=
  partsFrom forPaths none (pattern.length + 1) pattern

/-! ### Matching

The places of a path are the start and what follows each byte. A list of flags has one for each
place, telling whether it is reached. -/

/-- The places after one byte with property `p`. -/
def afterByte (p : UInt8 → Bool) (reached : List Bool) (path : List UInt8) : List Bool :=
  false :: List.zipWith (fun isReached b => isReached && p b) reached path

/-- The places after any number of bytes with property `p`; `comes` tells whether such a run
can come from the place before. -/
def afterRun (p : UInt8 → Bool) (comes : Bool) : List Bool → List UInt8 → List Bool
  | [], _ => []
  | isReached :: reached, path =>
    let isReached := isReached || comes
    isReached ::
      match path with
      | [] => []
      | b :: path => afterRun p (isReached && p b) reached path

/-- The places after any number of directories; `since` tells whether a place before was
reached, and `comes` whether a directory ends here. -/
def afterDirectories (since comes : Bool) : List Bool → List UInt8 → List Bool
  | [], _ => []
  | isReached :: reached, path =>
    let since := since || isReached
    (isReached || comes) ::
      match path with
      | [] => []
      | b :: path => afterDirectories since (since && b == slash) reached path

/-- The places after a part. -/
def after (forPaths : Bool) (part : GlobPart) (reached : List Bool) (path : List UInt8) :
    List Bool :=
  let isAllowed (b : UInt8) : Bool := !(forPaths && b == slash)
  match part with
  | .byte c => afterByte (· == c) reached path
  | .anyByte => afterByte isAllowed reached path
  | .set isNegated classes =>
    afterByte (fun b => isAllowed b && classes.any (·.contains b) != isNegated) reached path
  | .nameRun => afterRun (· != slash) false reached path
  | .pathRun => afterRun (fun _ => true) false reached path
  | .directories => afterDirectories false false reached path
  | .never => reached.map fun _ => false

/-- Whether a path matches the parts of a pattern. -/
def accepts (forPaths : Bool) (pattern : List GlobPart) (path : List UInt8) : Bool :=
  let start := true :: path.map fun _ => false
  ((pattern.foldl (fun reached part => after forPaths part reached path) start).getLast?).getD false

end NameGlob

end TagVersion
