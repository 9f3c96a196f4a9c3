import TagVersion.Shell.Pattern

/-!
# Search patterns

Patterns by which programs search lines of text, in the basic and in the extended form. A match
is the leftmost one; repetitions take as much as they can.
-/

namespace TagVersion.Shell

/-- A search pattern. -/
inductive Regex where
  | nothing
  | byte (c : Char)
  | anyByte
  | set (isNegated : Bool) (classes : List ByteClass)
  | both (first second : Regex)
  | either (first second : Regex)
  | repeated (body : Regex) (least : Nat) (most : Option Nat)
  | group (number : Nat) (body : Regex)
  /-- What a group has matched. -/
  | again (number : Nat)
  | lineStart
  | lineEnd
  | wordEdge (isStart isEnd : Bool)
deriving Inhabited, Repr

namespace Regex

/-! ### Reading -/

/-- The state of reading: what is left, and the number of groups so far. -/
structure Source where
  rest : Bytes
  groups : Nat

/-- A reader takes a pattern off a text or refuses it. -/
abbrev Reader := StateT Source Option

def refuse {α : Type} : Reader α := fun _ => none

def rest : Reader Bytes := do return (← get).rest

def setRest (cs : Bytes) : Reader Unit := modify ({ · with rest := cs })

/-- Takes the given characters if they are next. -/
def accept (expected : Bytes) : Reader Bool := do
  let cs ← rest
  if expected.isPrefixOf cs then
    setRest (cs.drop expected.length)
    return true
  else return false

/-- The sign for opening a group, closing it, or the like: in the basic form it has a backslash
before it. -/
def sign (isExtended : Bool) (c : Char) : Bytes :=
  if isExtended then [c] else ['\\', c]

/-- A set after its opening bracket. -/
def brackets : Reader Regex := do
  match Pattern.cutBrackets? ((← rest).map fun c => (c, c == '\\')) with
  | some (.set isNegated classes, after) =>
    setRest (after.map (·.1))
    return .set isNegated classes
  | _ => refuse

/-- The bounds of a repetition after its opening brace. -/
def bounds (isExtended : Bool) : Reader (Nat × Option Nat) := do
  let (low, after) := (← rest).span Char.isDigit
  setRest after
  let least := Nat.ofDigitChars 10 low 0
  if ← accept (sign isExtended '\x7d') then
    if low.isEmpty then refuse else return (least, some least)
  unless ← accept [','] do refuse
  let (high, after) := (← rest).span Char.isDigit
  setRest after
  unless ← accept (sign isExtended '\x7d') do refuse
  return (least, if high.isEmpty then none else some (Nat.ofDigitChars 10 high 0))

mutual

/-- Alternatives. -/
def alternatives (isExtended : Bool) : Nat → Reader Regex
  | 0 => refuse
  | fuel + 1 => do
    let first ← pieces isExtended true fuel
    if ← accept (sign isExtended '|') then
      return .either first (← alternatives isExtended fuel)
    else return first

/-- Patterns that follow each other. -/
def pieces (isExtended isFirst : Bool) : Nat → Reader Regex
  | 0 => refuse
  | fuel + 1 => do
    let cs ← rest
    if cs.isEmpty || (sign isExtended '|').isPrefixOf cs ||
        ((sign isExtended ')').isPrefixOf cs && !(isExtended && (← get).groups = 0)) then
      return .nothing
    else
      let a ← atom isExtended isFirst fuel
      let a ← repetitions isExtended a fuel
      let isAnchor :=
        match a with
        | .lineStart => true
        | _ => false
      return .both a (← pieces isExtended isAnchor fuel)

/-- A pattern for one place. -/
def atom (isExtended isFirst : Bool) : Nat → Reader Regex
  | 0 => refuse
  | fuel + 1 => do
    if ← accept (sign isExtended '(') then
      let number := (← get).groups + 1
      modify ({ · with groups := number })
      let body ← alternatives isExtended fuel
      unless ← accept (sign isExtended ')') do refuse
      return .group number body
    let cs ← rest
    match cs with
    | [] => refuse
    | '\\' :: c :: more =>
      setRest more
      if c.isDigit && c != '0' then return .again (c.toNat - '0'.toNat)
      else if c = 'n' then return .byte '\n'
      else if c = 't' then return .byte '\t'
      else if c = 'w' then return .set false [.alnum, .range 0x5F 0x5F]
      else if c = 'W' then return .set true [.alnum, .range 0x5F 0x5F]
      else if c = 's' then return .set false [.space]
      else if c = 'S' then return .set true [.space]
      else if c = 'b' then return .wordEdge true true
      else if c = '<' then return .wordEdge true false
      else if c = '>' then return .wordEdge false true
      else return .byte c
    | '\\' :: [] => refuse
    | '.' :: more =>
      setRest more
      return .anyByte
    | '[' :: more =>
      setRest more
      brackets
    | '^' :: more =>
      setRest more
      return if isExtended || isFirst then .lineStart else .byte '^'
    | '$' :: more =>
      setRest more
      let closes := more.isEmpty || (sign isExtended '|').isPrefixOf more ||
        (sign isExtended ')').isPrefixOf more
      return if isExtended || closes then .lineEnd else .byte '$'
    | c :: more =>
      if isExtended && isFirst && ['*', '+', '?'].contains c then refuse
      setRest more
      return .byte c

/-- The repetitions of a pattern. -/
def repetitions (isExtended : Bool) (a : Regex) : Nat → Reader Regex
  | 0 => refuse
  | fuel + 1 => do
    let isAnchor :=
      match a with
      | .lineStart => !isExtended
      | _ => false
    if isAnchor then return a
    else if ← accept ['*'] then repetitions isExtended (.repeated a 0 none) fuel
    else if ← accept (sign isExtended '+') then repetitions isExtended (.repeated a 1 none) fuel
    else if ← accept (sign isExtended '?') then
      repetitions isExtended (.repeated a 0 (some 1)) fuel
    else if ← accept (sign isExtended '\x7b') then
      let (least, most) ← bounds isExtended
      repetitions isExtended (.repeated a least most) fuel
    else return a

end

/-- The pattern of a text. -/
def parse (isExtended : Bool) (cs : Bytes) : Option Regex :=
  match alternatives isExtended (4 * cs.length + 8) ⟨cs, 0⟩ with
  | some (r, ⟨[], _⟩) => some r
  | _ => none

/-! ### Matching -/

/-- A place in a line: the character before it, what follows, and what the groups have matched
so far. -/
structure Spot where
  before : Option Char
  rest : Bytes
  groups : List (Nat × Bytes)

def isWordChar (c : Char) : Bool :=
  c.isAlphanum || c == '_'

/-- Whether two characters are the same, with case counting or not. -/
def same (ignoresCase : Bool) (a b : Char) : Bool :=
  a == b || (ignoresCase && a.toLower == b.toLower)

/-- The place after a text that is next. -/
def Spot.after? (ignoresCase : Bool) (s : Spot) : Bytes → Option Spot
  | [] => some s
  | c :: cs =>
    match s.rest with
    | d :: rest => if same ignoresCase c d then after? ignoresCase { s with before := some d, rest } cs else none
    | [] => none

/-- The place after one character of a set. -/
def Spot.afterSet? (ignoresCase : Bool) (s : Spot) (isNegated : Bool) (classes : List ByteClass) :
    Option Spot :=
  match s.rest with
  | c :: rest =>
    let isIn (c : Char) : Bool := classes.any (·.contains (Pattern.byte c))
    let found := isIn c || (ignoresCase && (isIn c.toLower || isIn c.toUpper))
    if found != isNegated then some { s with before := some c, rest } else none
  | [] => none

/-- The end of the first match of a pattern that `next` can go on from. -/
def matchFrom (ignoresCase : Bool) :
    Nat → Regex → Spot → (Spot → Option Spot) → Option Spot
  | 0, _, _, _ => none
  | fuel + 1, r, s, next =>
    match r with
    | .nothing => next s
    | .byte c => (s.after? ignoresCase [c]).bind next
    | .anyByte =>
      match s.rest with
      | c :: rest => next { s with before := some c, rest }
      | [] => none
    | .set isNegated classes => (s.afterSet? ignoresCase isNegated classes).bind next
    | .both a b => matchFrom ignoresCase fuel a s fun s => matchFrom ignoresCase fuel b s next
    | .either a b =>
      matchFrom ignoresCase fuel a s next <|> matchFrom ignoresCase fuel b s next
    | .repeated a least most =>
      let stop := if least = 0 then next s else none
      if most = some 0 then stop
      else
        let again := matchFrom ignoresCase fuel a s fun t =>
          if t.rest.length < s.rest.length || least > 0 then
            matchFrom ignoresCase fuel (.repeated a (least - 1) (most.map (· - 1))) t next
          else none
        again <|> stop
    | .group number a =>
      matchFrom ignoresCase fuel a s fun t =>
        let found := s.rest.take (s.rest.length - t.rest.length)
        next { t with groups := (number, found) :: t.groups }
    | .again number => ((s.groups.lookup number).bind (s.after? ignoresCase)).bind next
    | .lineStart => if s.before.isNone then next s else none
    | .lineEnd => if s.rest.isEmpty then next s else none
    | .wordEdge isStart isEnd =>
      let isAfter := s.before.any isWordChar
      let isBefore := s.rest.head?.any isWordChar
      if (isStart && !isAfter && isBefore) || (isEnd && isAfter && !isBefore) then next s else none

/-- A match in a line. -/
structure Match where
  before : Bytes
  found : Bytes
  after : Bytes
  groups : List (Nat × Bytes)

/-- Whether a match may begin after a character and end at a place. -/
abbrev Fit := Option Char → Spot → Bool

def fitsAnywhere : Fit := fun _ _ => true

/-- Whether a match is a whole line. -/
def fitsLine : Fit := fun before s => before.isNone && s.rest.isEmpty

/-- Whether no word goes on beyond the ends of a match. -/
def fitsWord : Fit := fun before s => !before.any isWordChar && !s.rest.head?.any isWordChar

/-- The match that begins at a place. -/
def matchAt? (r : Regex) (fits : Fit) (ignoresCase : Bool) (before : Option Char)
    (passed cs : Bytes) : Option Match :=
  let found :=
    matchFrom ignoresCase (64 * cs.length + 4096) r ⟨before, cs, []⟩ fun s =>
      if fits before s then some s else none
  found.map fun s =>
    { before := passed.reverse
      found := cs.take (cs.length - s.rest.length)
      after := s.rest
      groups := s.groups }

/-- The leftmost match in what follows a place. -/
def findFrom? (r : Regex) (fits : Fit) (ignoresCase : Bool) (before : Option Char)
    (passed : Bytes) : Bytes → Option Match
  | [] => r.matchAt? fits ignoresCase before passed []
  | c :: rest =>
    r.matchAt? fits ignoresCase before passed (c :: rest) <|>
      findFrom? r fits ignoresCase (some c) (c :: passed) rest

/-- The leftmost match in a line. -/
def find? (r : Regex) (fits : Fit) (ignoresCase : Bool) (line : Bytes) : Option Match :=
  r.findFrom? fits ignoresCase none [] line

/-- The leftmost matches in a line that follow each other. An empty one may not stand where the
one before ends. -/
def matchesFrom (r : Regex) (fits : Fit) (ignoresCase : Bool) :
    Nat → Option Char → Bool → Bytes → List Match
  | 0, _, _, _ => []
  | fuel + 1, before, afterMatch, cs =>
    match r.findFrom? fits ignoresCase before [] cs with
    | none => []
    | some m =>
      if m.found = [] && afterMatch && m.before = [] then
        match cs with
        | [] => []
        | c :: rest =>
          (matchesFrom r fits ignoresCase fuel (some c) false rest).modifyHead fun next =>
            { next with before := c :: next.before }
      else if m.found = [] then
        match m.after with
        | [] => [m]
        | c :: rest =>
          m :: (matchesFrom r fits ignoresCase fuel (some c) false rest).modifyHead fun next =>
            { next with before := c :: next.before }
      else
        let last := m.found.getLast?
        m :: matchesFrom r fits ignoresCase fuel last true m.after

/-- The leftmost matches in a line that follow each other. The text before each begins at the end
of the one before. -/
def allMatches (r : Regex) (fits : Fit) (ignoresCase : Bool) (line : Bytes) : List Match :=
  r.matchesFrom fits ignoresCase (line.length + 2) none false line

end Regex

end TagVersion.Shell
