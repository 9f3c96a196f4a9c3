import TagVersion.Shell.Syntax

/-!
# Reading scripts

Scripts are read line by line: a command that goes over several lines is read as a whole, and
what is wrong further down does not keep the lines before from being run. Quotes, backslashes
and dollar signs have their usual meaning.
-/

namespace TagVersion.Shell

/-- Takes something off the front of a script, or refuses it. -/
abbrev Reader := StateT Bytes Option

namespace Reader

def refuse {α : Type} : Reader α := fun _ => none

/-- Takes what a function takes off the front. -/
def taking {α : Type} (f : Bytes → α × Bytes) : Reader α := fun cs => some (f cs)

def takeWhile (p : Char → Bool) : Reader Bytes := taking fun cs => cs.span p

/-- Takes the given characters if they are next. -/
def accept (expected : Bytes) : Reader Bool := fun cs =>
  if expected.isPrefixOf cs then some (true, cs.drop expected.length) else some (false, cs)

/-- Takes exactly the given characters. -/
def expect (expected : Bytes) : Reader Unit := do
  unless ← accept expected do refuse

/-- Drops blanks, joined lines and a comment. -/
def dropBlanks : Bytes → Bytes
  | ' ' :: cs => dropBlanks cs
  | '\t' :: cs => dropBlanks cs
  | '\\' :: '\n' :: cs => dropBlanks cs
  | '#' :: cs => cs.dropWhile (· != '\n')
  | cs => cs

def blanks : Reader Unit := modify dropBlanks

/-- Drops line ends along with blanks and comments. -/
def dropLineEnds : Nat → Bytes → Bytes
  | 0, cs => cs
  | fuel + 1, cs =>
    match dropBlanks cs with
    | '\n' :: rest => dropLineEnds fuel rest
    | rest => rest

def lineEnds : Reader Unit := modify fun cs => dropLineEnds (cs.length + 1) cs

/-- The word that is next, if it is a reserved one. -/
def reserved? : Reader (Option String) := fun cs =>
  let word := String.ofList ((dropBlanks cs).takeWhile (!isMeta ·))
  some (if reservedWords.contains word then some word else none, cs)

/-- Takes a reserved word if it is next. -/
def acceptWord (word : String) : Reader Bool := do
  if (← reserved?) = some word then
    blanks
    modify (·.drop word.length)
    return true
  else return false

def expectWord (word : String) : Reader Unit := do
  unless ← acceptWord word do refuse

/-! ### Bodies of texts that follow their line -/

/-- Splits the lines of a text at the one that ends it. -/
def cutBody (dropsTabs : Bool) (delimiter : Bytes) : Nat → Bytes → Bytes × Bytes
  | 0, _ => ([], [])
  | _, [] => ([], [])
  | fuel + 1, cs =>
    let (line, rest) := cs.span (· != '\n')
    let line := if dropsTabs then line.dropWhile (· == '\t') else line
    if line = delimiter then ([], rest.tail)
    else
      let (body, after) := cutBody dropsTabs delimiter fuel rest.tail
      (line ++ '\n' :: body, after)

/-- Takes the body of a text out of the lines after the present one. -/
def body (dropsTabs : Bool) (delimiter : Bytes) : Reader Bytes :=
  taking fun cs =>
    let (line, rest) := cs.span (· != '\n')
    let (body, after) := cutBody dropsTabs delimiter (rest.length + 1) rest.tail
    (body, line ++ '\n' :: after)

/-! ### Words -/

/-- Where a word stands, which decides how it ends and what quotes mean in it. -/
inductive Place where
  /-- Among the words of a command. -/
  | command
  /-- Between double quotes. -/
  | quotes
  /-- In the braces of a parameter. -/
  | braces
  /-- In the braces of a parameter between double quotes. -/
  | quotedBraces
  /-- In a text of its own, whose quotes mean nothing. -/
  | document
deriving DecidableEq, Repr

namespace Place

def isQuoted : Place → Bool
  | command => false
  | braces => false
  | _ => true

/-- Whether a character ends the word. -/
def endsAt (p : Place) (c : Char) : Bool :=
  match p with
  | command => isMeta c
  | quotes => c == '"'
  | braces => c == '\x7d'
  | quotedBraces => c == '\x7d'
  | document => false

/-- Whether a backslash takes the meaning from a character. -/
def escapes (p : Place) (c : Char) : Bool :=
  match p with
  | command => true
  | braces => true
  | quotes => ['$', '"', '\\', '\x60'].contains c
  | quotedBraces => ['$', '"', '\\', '\x60', '\x7d'].contains c
  | document => ['$', '\\', '\x60'].contains c

end Place

/-- Whether a character has a meaning of its own in words. -/
def isActive (c : Char) : Bool :=
  ['\\', '\'', '"', '$', '\x60', '\x7d', '~'].contains c || isMeta c

/-- The body of an expression, up to the two parentheses that close it. -/
def expressionBody (depth : Nat) : Bytes → Option (Bytes × Bytes)
  | [] => none
  | '(' :: rest => (expressionBody (depth + 1) rest).map fun (b, r) => ('(' :: b, r)
  | ')' :: rest =>
    if depth = 0 then
      match rest with
      | ')' :: rest => some ([], rest)
      | _ => none
    else (expressionBody (depth - 1) rest).map fun (b, r) => (')' :: b, r)
  | c :: rest => (expressionBody depth rest).map fun (b, r) => (c :: b, r)

/-- The commands between backquotes, up to the closing one. -/
def backquoted (isQuoted : Bool) : Bytes → Option (Bytes × Bytes)
  | [] => none
  | '\x60' :: rest => some ([], rest)
  | '\\' :: c :: rest =>
    (backquoted isQuoted rest).map fun (b, r) =>
      if c = '$' ∨ c = '\\' ∨ c = '\x60' ∨ (isQuoted ∧ c = '"') then (c :: b, r)
      else ('\\' :: c :: b, r)
  | c :: rest => (backquoted isQuoted rest).map fun (b, r) => (c :: b, r)

/-- Whether a word has quotes of any kind. -/
def hasQuotes (word : Word) : Bool :=
  word.any fun
    | .text _ isQuoted => isQuoted
    | _ => false

/-- The text of a word that consists of texts. -/
def plainText (word : Word) : Bytes :=
  word.flatMap fun
    | .text cs _ => cs
    | _ => []

/-- The text of a word that consists of one text without quotes. -/
def bareText? : Word → Option Bytes
  | [.text cs false] => some cs
  | _ => none

/-- The number of the stream that a redirection without a number is for. -/
def usualStream (isInput : Bool) : Nat :=
  if isInput then 0 else 1

/-- Takes the number of a stream and the sign of a redirection, if they are next. The flag tells
whether the sign is that of input. -/
def redirectionSign : Reader (Option (Nat × Bool)) := do
  blanks
  match ← get with
  | '<' :: rest => set rest; return some (0, true)
  | '>' :: rest => set rest; return some (1, false)
  | c :: '<' :: rest =>
    if c.isDigit then set rest; return some (c.toNat - '0'.toNat, true) else return none
  | c :: '>' :: rest =>
    if c.isDigit then set rest; return some (c.toNat - '0'.toNat, false) else return none
  | _ => return none

/-- The change of a parameter whose sign follows its name, with the place of its text. -/
def standIn? : Char → Option StandIn
  | '-' => some .default
  | '=' => some .assign
  | '+' => some .alternative
  | '?' => some .demand
  | _ => none

/-- Splits off the name and value of a word that is an assignment. -/
def assignment? (word : Word) : Option (Bytes × Word) :=
  match word with
  | .text cs false :: rest =>
    match cs.span (· != '=') with
    | (name, _ :: value) =>
      if isName name then some (name, if value = [] then rest else .text value false :: rest)
      else none
    | _ => none
  | _ => none

/-- Joins texts that follow each other with the same quoting. -/
def joinTexts : Word → Word
  | .text a p :: rest =>
    match joinTexts rest with
    | .text b q :: more => if p == q then .text (a ++ b) p :: more else .text a p :: .text b q :: more
    | more => .text a p :: more
  | f :: rest => f :: joinTexts rest
  | [] => []

mutual

/-- The fragments of a word up to its end. -/
def fragments (place : Place) : Nat → Reader Word
  | 0 => refuse
  | fuel + 1 => do
    let q := place.isQuoted
    match ← get with
    | [] => if place = .command ∨ place = .document then return [] else refuse
    | c :: rest =>
      if place.endsAt c then
        if place != .command then set rest
        return []
      else if c = '\\' then
        match rest with
        | '\n' :: rest =>
          set rest
          fragments place fuel
        | c :: rest =>
          set rest
          let more ← fragments place fuel
          return .text (if place.escapes c then [c] else ['\\', c]) true :: more
        | [] =>
          set rest
          return [.text ['\\'] true]
      else if c = '"' ∧ place != .document then
        set rest
        if place = .quotedBraces then fragments place fuel
        else
          let inner ← fragments .quotes fuel
          let inner := if inner.isEmpty then [.text [] true] else inner
          return inner ++ (← fragments place fuel)
      else if c = '\'' ∧ !q then
        match rest.span (· != '\'') with
        | (text, _ :: rest) =>
          set rest
          let more ← fragments place fuel
          return .text text true :: more
        | _ => refuse
      else if c = '$' then
        set rest
        let fragment ← dollar q fuel
        let more ← fragments place fuel
        return fragment :: more
      else if c = '\x60' then
        match backquoted q rest with
        | none => refuse
        | some (text, rest) =>
          let body ← nested text fuel
          set rest
          let more ← fragments place fuel
          return .output body q :: more
      else
        let (run, rest) := rest.span fun c => !isActive c
        set rest
        let more ← fragments place fuel
        return .text (c :: run) q :: more

/-- What follows a dollar sign. -/
def dollar (isQuoted : Bool) : Nat → Reader Fragment
  | 0 => refuse
  | fuel + 1 => do
    match ← get with
    | '(' :: '(' :: rest =>
      match expressionBody 0 rest with
      | some (text, rest) =>
        set text
        let word ← fragments .document fuel
        set rest
        return .value word isQuoted
      | none =>
        set ('(' :: rest)
        return .output (← outputBody fuel) isQuoted
    | '(' :: rest =>
      set rest
      return .output (← outputBody fuel) isQuoted
    | '\x7b' :: rest =>
      set rest
      braced isQuoted fuel
    | c :: rest =>
      if isNameStart c then
        let name ← takeWhile isNameChar
        return .parameter name .asIs isQuoted
      else if c.isDigit || isSign c then
        set rest
        return .parameter [c] .asIs isQuoted
      else return .text ['$'] isQuoted
    | [] => return .text ['$'] isQuoted

/-- The commands up to the parenthesis that closes them. -/
def outputBody : Nat → Reader Command
  | 0 => refuse
  | fuel + 1 => do
    let body ← commands true fuel
    lineEnds
    expect [')']
    return body

/-- What stands between braces after a dollar sign. -/
def braced (isQuoted : Bool) : Nat → Reader Fragment
  | 0 => refuse
  | fuel + 1 => do
    let place := if isQuoted then Place.quotedBraces else .braces
    let wantsLength ← fun cs =>
      match cs with
      | '#' :: '\x7d' :: _ => some (false, cs)
      | '#' :: c :: rest =>
        if isNameChar c || (isSign c && rest.head? = some '\x7d') then some (true, c :: rest)
        else some (false, cs)
      | cs => some (false, cs)
    let name ←
      match ← get with
      | c :: rest =>
        if isNameStart c then takeWhile isNameChar
        else if c.isDigit then takeWhile Char.isDigit
        else if isSign c then set rest; pure [c]
        else refuse
      | [] => refuse
    if wantsLength then
      expect ['\x7d']
      return .parameter name .length isQuoted
    match ← get with
    | '\x7d' :: rest =>
      set rest
      return .parameter name .asIs isQuoted
    | '%' :: '%' :: rest =>
      set rest
      return .parameter name (.trim true true (← fragments .braces fuel)) isQuoted
    | '%' :: rest =>
      set rest
      return .parameter name (.trim true false (← fragments .braces fuel)) isQuoted
    | '#' :: '#' :: rest =>
      set rest
      return .parameter name (.trim false true (← fragments .braces fuel)) isQuoted
    | '#' :: rest =>
      set rest
      return .parameter name (.trim false false (← fragments .braces fuel)) isQuoted
    | ':' :: c :: rest =>
      match standIn? c with
      | some kind =>
        set rest
        return .parameter name (.standIn kind true (← fragments place fuel)) isQuoted
      | none =>
        let _ ← fragments place fuel
        return .parameter name .unknown isQuoted
    | c :: rest =>
      match standIn? c with
      | some kind =>
        set rest
        return .parameter name (.standIn kind false (← fragments place fuel)) isQuoted
      | none =>
        let _ ← fragments place fuel
        return .parameter name .unknown isQuoted
    | [] => refuse

/-- The commands of a text of its own. -/
def nested (text : Bytes) : Nat → Reader Command
  | 0 => refuse
  | fuel + 1 => do
    set text
    let body ← commands true fuel
    lineEnds
    if (← get) = [] then return body else refuse

/-- A word of a command. -/
def word : Nat → Reader Word
  | 0 => refuse
  | fuel + 1 => do
    blanks
    match ← get with
    | [] => refuse
    | c :: _ => if isMeta c then refuse else return joinTexts (← fragments .command fuel)

/-- A redirection, if one is next. -/
def redirection? : Nat → Reader (Option Redirection)
  | 0 => refuse
  | fuel + 1 => do
    match ← redirectionSign with
    | none => return none
    | some (number, true) =>
      match ← get with
      | '<' :: rest =>
        let dropsTabs := rest.head? = some '-'
        set (if dropsTabs then rest.tail else rest)
        let delimiter ← word fuel
        let text ← body dropsTabs (plainText delimiter)
        if hasQuotes delimiter then return some (.given number [.text text true])
        else
          let rest ← get
          set text
          let inner ← fragments .document fuel
          set rest
          return some (.given number inner)
      | '&' :: rest =>
        set rest
        return some (.copied number (← word fuel))
      | '>' :: rest =>
        set rest
        return some (.opened number .update (← word fuel))
      | _ => return some (.opened number .read (← word fuel))
    | some (number, false) =>
      match ← get with
      | '>' :: rest =>
        set rest
        return some (.opened number .append (← word fuel))
      | '&' :: rest =>
        set rest
        return some (.copied number (← word fuel))
      | '|' :: rest =>
        set rest
        return some (.opened number .write (← word fuel))
      | _ => return some (.opened number .write (← word fuel))

/-- The redirections after a command. -/
def redirections : Nat → Reader (List Redirection)
  | 0 => refuse
  | fuel + 1 => do
    match ← redirection? fuel with
    | some r => return r :: (← redirections fuel)
    | none => return []

/-- The words up to the end of a list of words. -/
def words : Nat → Reader (List Word)
  | 0 => refuse
  | fuel + 1 => do
    blanks
    match ← get with
    | [] => return []
    | c :: _ =>
      if isMeta c then return []
      else
        let w ← word fuel
        return w :: (← words fuel)

/-- The parts of a simple command. -/
def simpleParts : Nat → List (Bytes × Word) → List Word → List Redirection → Reader Command
  | 0, _, _, _ => refuse
  | fuel + 1, as, ws, rs => do
    match ← redirection? fuel with
    | some r => simpleParts fuel as ws (rs ++ [r])
    | none =>
      match ← get with
      | [] => return .simple as ws rs
      | c :: _ =>
        if isMeta c then return .simple as ws rs
        else
          let w ← word fuel
          match (if ws.isEmpty then assignment? w else none) with
          | some a => simpleParts fuel (as ++ [a]) ws rs
          | none => simpleParts fuel as (ws ++ [w]) rs

/-- A simple command or the definition of a function. -/
def simple : Nat → Reader Command
  | 0 => refuse
  | fuel + 1 => do
    let command ← simpleParts fuel [] [] []
    match command with
    | .simple [] [] [] => refuse
    | .simple [] [w] [] =>
      match bareText? w, ← get with
      | some name, '(' :: rest =>
        set rest
        blanks
        expect [')']
        unless isName name do refuse
        lineEnds
        return .define name (← command1 fuel)
      | _, _ => return command
    | command => return command

/-- The branches of a choice. -/
def branches : Nat → Reader (List (List Word × Command))
  | 0 => refuse
  | fuel + 1 => do
    lineEnds
    if ← acceptWord "esac" then return []
    let _ ← accept ['(']
    let first ← word fuel
    let more ← alternatives fuel
    blanks
    expect [')']
    let body ← commands true fuel
    lineEnds
    if ← accept [';', ';'] then return (first :: more, body) :: (← branches fuel)
    expectWord "esac"
    return [(first :: more, body)]

/-- The patterns of a branch after the first one. -/
def alternatives : Nat → Reader (List Word)
  | 0 => refuse
  | fuel + 1 => do
    blanks
    if ← accept ['|'] then
      let w ← word fuel
      return w :: (← alternatives fuel)
    else return []

/-- What follows the first condition of a conditional. -/
def otherwise : Nat → Reader (Option Command)
  | 0 => refuse
  | fuel + 1 => do
    lineEnds
    if ← acceptWord "elif" then
      let condition ← commands false fuel
      lineEnds
      expectWord "then"
      let body ← commands false fuel
      return some (.conditional condition body (← otherwise fuel))
    else if ← acceptWord "else" then
      let body ← commands false fuel
      lineEnds
      expectWord "fi"
      return some body
    else
      expectWord "fi"
      return none

/-- The body of a loop. -/
def loopBody : Nat → Reader Command
  | 0 => refuse
  | fuel + 1 => do
    lineEnds
    expectWord "do"
    let body ← commands false fuel
    lineEnds
    expectWord "done"
    return body

/-- A command that is made of others, if one is next. -/
def compound? : Nat → Reader (Option Command)
  | 0 => refuse
  | fuel + 1 => do
    if ← acceptWord "\x7b" then
      let body ← commands false fuel
      lineEnds
      expectWord "\x7d"
      return some body
    else if ← acceptWord "if" then
      let condition ← commands false fuel
      lineEnds
      expectWord "then"
      let body ← commands false fuel
      return some (.conditional condition body (← otherwise fuel))
    else if ← acceptWord "while" then
      let condition ← commands false fuel
      return some (.loop false condition (← loopBody fuel))
    else if ← acceptWord "until" then
      let condition ← commands false fuel
      return some (.loop true condition (← loopBody fuel))
    else if ← acceptWord "for" then
      blanks
      let name ← takeWhile isNameChar
      unless isName name do refuse
      lineEnds
      if ← acceptWord "in" then
        let ws ← words fuel
        blanks
        let _ ← accept [';']
        return some (.forEach name (some ws) (← loopBody fuel))
      else
        let _ ← accept [';']
        return some (.forEach name none (← loopBody fuel))
    else if ← acceptWord "case" then
      let w ← word fuel
      lineEnds
      expectWord "in"
      return some (.choice w (← branches fuel))
    else
      blanks
      if ← accept ['('] then
        let body ← commands false fuel
        lineEnds
        expect [')']
        return some (.enclosed body)
      else return none

/-- A command with its redirections. -/
def command1 : Nat → Reader Command
  | 0 => refuse
  | fuel + 1 => do
    match ← compound? fuel with
    | some body =>
      match ← redirections fuel with
      | [] => return body
      | rs => return .redirected body rs
    | none =>
      match ← reserved? with
      | some _ => refuse
      | none => simple fuel

/-- The commands of a pipeline after the first one. -/
def piped : Nat → Reader (List Command)
  | 0 => refuse
  | fuel + 1 => do
    blanks
    match ← get with
    | '|' :: '|' :: _ => return []
    | '|' :: rest =>
      set rest
      lineEnds
      let c ← command1 fuel
      return c :: (← piped fuel)
    | _ => return []

/-- Commands joined by pipes. -/
def pipeline : Nat → Reader Command
  | 0 => refuse
  | fuel + 1 => do
    let isNegated ← acceptWord "!"
    let first ← command1 fuel
    let more ← piped fuel
    let c := if more.isEmpty then first else Command.pipeline (first :: more)
    return if isNegated then .negated c else c

/-- Pipelines joined by the two short-circuit signs. -/
def chain (first : Command) : Nat → Reader Command
  | 0 => refuse
  | fuel + 1 => do
    blanks
    if ← accept ['&', '&'] then
      lineEnds
      chain (.both first (← pipeline fuel)) fuel
    else if ← accept ['|', '|'] then
      lineEnds
      chain (.either first (← pipeline fuel)) fuel
    else return first

/-- What ends a command in a sequence; the flags tell whether there is anything and whether the
command runs in the background. -/
def separator : Nat → Reader (Bool × Bool)
  | 0 => refuse
  | _ + 1 => do
    blanks
    match ← get with
    | ';' :: ';' :: _ => return (false, false)
    | ';' :: rest => set rest; return (true, false)
    | '&' :: rest => set rest; return (true, true)
    | '\n' :: rest => set rest; return (true, false)
    | _ => return (false, false)

/-- The commands up to a word or sign that closes them. -/
def items : Nat → Reader (List Command)
  | 0 => refuse
  | fuel + 1 => do
    lineEnds
    let isEnd ← fun cs =>
      some (cs = [] || cs.head? = some ')' || (['\x3b', '\x3b']).isPrefixOf cs, cs)
    if isEnd then return []
    if (← reserved?).any closingWords.contains then return []
    let first ← pipeline fuel
    let c ← chain first fuel
    let (isSeparated, isBackground) ← separator fuel
    let c := if isBackground then Command.background c else c
    if isSeparated then return c :: (← items fuel) else return [c]

/-- A sequence of commands, which may be empty only where the flag says so. -/
def commands (mayBeEmpty : Bool) : Nat → Reader Command
  | 0 => refuse
  | fuel + 1 => do
    match ← items fuel with
    | [] => if mayBeEmpty then return .nothing else refuse
    | [c] => return c
    | cs => return .sequence cs

end

/-- The commands of a line. -/
def lineItems : Nat → Reader (List Command)
  | 0 => refuse
  | fuel + 1 => do
    let size := 16 * (← get).length + 64
    let first ← pipeline size
    let c ← chain first size
    blanks
    match ← get with
    | [] => return [c]
    | '\n' :: rest => set rest; return [c]
    | ';' :: rest =>
      set rest
      more c fuel
    | '&' :: rest =>
      set rest
      more (.background c) fuel
    | _ => refuse
where
  more (c : Command) (fuel : Nat) : Reader (List Command) := do
    blanks
    match ← get with
    | [] => return [c]
    | '\n' :: rest => set rest; return [c]
    | _ => return c :: (← lineItems fuel)

/-- The next line of a script that holds commands, with all lines that belong to it. -/
def line : Reader (Option Command) := do
  lineEnds
  let cs ← get
  if cs = [] then return none
  match ← lineItems (cs.length + 1) with
  | [c] => return some c
  | commands => return some (.sequence commands)

end Reader

end TagVersion.Shell
