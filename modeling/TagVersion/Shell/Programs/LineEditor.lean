import TagVersion.Shell.Programs.Lines
import TagVersion.Shell.Regex

/-!
# Editing lines

The program that edits lines by a script. Each line goes through the commands of the script that
select it, and is written out at the end. A second text, at first empty, is kept from line to
line.
-/

namespace TagVersion.Shell

namespace LineEditor

/-- A pattern, or the one used last. -/
abbrev Pattern := Option (Regex × Bool)

/-- A line that commands select. -/
inductive Address where
  | number (n : Nat)
  /-- Each line so many lines after the first one. -/
  | every (first step : Nat)
  | last
  | found (pattern : Pattern)

/-- Where a range of lines ends. -/
inductive RangeEnd where
  | at (address : Address)
  /-- So many lines after its start. -/
  | after (count : Nat)
  /-- At the next line whose number is a multiple. -/
  | multiple (n : Nat)

/-- The lines that a command is for. -/
structure Selection where
  start : Option Address
  stop : Option RangeEnd
  isNegated : Bool

/-- How letters are changed that follow in a replacement. -/
inductive CaseChange where
  | upper
  | lower
  | keep
  | upperNext
  | lowerNext
deriving DecidableEq

/-- A part of a replacement. -/
inductive Piece where
  | text (c : Char)
  | group (n : Nat)
  | change (c : CaseChange)

/-- What is done about the matches of a pattern. -/
structure Substitution where
  pattern : Pattern
  replacement : List Piece
  /-- The number of the first match that is replaced. -/
  first : Nat
  isGlobal : Bool
  prints : Bool

/-- A command of a script. -/
inductive Edit where
  | substitute (s : Substitution)
  | exchange (sources targets : Bytes)
  | delete
  | deleteLine
  | print
  | printLine
  | quit (status : Nat) (isSilent : Bool)
  | append (text : Bytes)
  | insert (text : Bytes)
  | replace (text : Bytes)
  | number
  | next
  | join
  | keep (isAdded : Bool)
  | recall (isAdded : Bool)
  | swap
  | opening
  | closing
  | label (name : Bytes)
  | branch (name : Bytes)
  | branchIfChanged (name : Bytes)
  | read (path : Bytes)

abbrev Script := List (Selection × Edit)

/-! ### Reading scripts -/

abbrev Reader := StateT Bytes Option

def refuse {α : Type} : Reader α := fun _ => none

def skipBlanks : Reader Unit :=
  modify (·.dropWhile fun c => c == ' ' || c == '\t')

/-- What stands before a delimiter. A backslash takes the meaning from the delimiter; before
other characters it stays. Brackets of a pattern keep a delimiter. -/
def upTo (delimiter : Char) (isPattern : Bool) (inSet : Bool) : Bytes → Option (Bytes × Bytes)
  | [] => none
  | '\\' :: c :: rest =>
    (upTo delimiter isPattern inSet rest).map fun (cs, rest) =>
      if c = delimiter then (c :: cs, rest)
      else if c = 'n' && isPattern then ('\n' :: cs, rest)
      else ('\\' :: c :: cs, rest)
  | c :: rest =>
    if c = delimiter && !inSet then some ([], rest)
    else
      let inSet := if !isPattern then false else if inSet then c != ']' else c == '['
      (upTo delimiter isPattern inSet rest).map fun (cs, rest) => (c :: cs, rest)

def delimited (delimiter : Char) (isPattern : Bool) : Reader Bytes := fun cs =>
  upTo delimiter isPattern false cs

/-- A decimal number, if one is next. -/
def number? : Reader (Option Nat) := fun cs =>
  let (ds, rest) := cs.span Char.isDigit
  if ds = [] then some (none, cs) else some (some (Nat.ofDigitChars 10 ds 0), rest)

/-- The pattern of a text. An empty one is the one used last. -/
def pattern (isExtended ignoresCase : Bool) (cs : Bytes) : Reader Pattern :=
  if cs = [] then return none
  else
    match Regex.parse isExtended cs with
    | some r => return some (r, ignoresCase)
    | none => refuse

/-- An address, if one is next. -/
def address? (isExtended : Bool) : Reader (Option Address) := do
  match ← get with
  | '$' :: rest =>
    set rest
    return some .last
  | '/' :: rest =>
    set rest
    return some (.found (← found '/'))
  | '\\' :: c :: rest =>
    set rest
    return some (.found (← found c))
  | _ =>
    match ← number? with
    | none => return none
    | some n =>
      match ← get with
      | '~' :: rest =>
        set rest
        return some (.every n ((← number?).getD 0))
      | _ => return some (.number n)
where
  found (delimiter : Char) : Reader Pattern := do
    let cs ← delimited delimiter true
    match ← get with
    | 'I' :: rest =>
      set rest
      pattern isExtended true cs
    | _ => pattern isExtended false cs

/-- The lines that a command is for. -/
def selection (isExtended : Bool) : Reader Selection := do
  let start ← address? isExtended
  skipBlanks
  let stop ←
    match start, ← get with
    | some _, ',' :: rest =>
      set rest
      skipBlanks
      match ← get with
      | '+' :: rest =>
        set rest
        pure (some (RangeEnd.after ((← number?).getD 0)))
      | '~' :: rest =>
        set rest
        pure (some (RangeEnd.multiple ((← number?).getD 0)))
      | _ =>
        match ← address? isExtended with
        | some a => pure (some (RangeEnd.at a))
        | none => refuse
    | _, _ => pure none
  skipBlanks
  match ← get with
  | '!' :: rest =>
    set (rest.dropWhile fun c => c == ' ' || c == '!')
    return ⟨start, stop, true⟩
  | _ => return ⟨start, stop, false⟩

/-- The parts of a replacement. -/
def pieces : Bytes → List Piece
  | [] => []
  | '\\' :: c :: rest =>
    (if c.isDigit then .group (c.toNat - '0'.toNat)
      else
        match c with
        | 'n' => .text '\n'
        | 't' => .text '\t'
        | 'U' => .change .upper
        | 'L' => .change .lower
        | 'E' => .change .keep
        | 'u' => .change .upperNext
        | 'l' => .change .lowerNext
        | c => .text c) :: pieces rest
  | '&' :: rest => .group 0 :: pieces rest
  | c :: rest => .text c :: pieces rest

/-- The letters after a substitution. -/
def substitutionFlags (s : Substitution) (ignoresCase : Bool) :
    Nat → Bytes → Option ((Substitution × Bool) × Bytes)
  | 0, _ => none
  | fuel + 1, cs =>
    match cs with
    | 'g' :: rest => substitutionFlags { s with isGlobal := true } ignoresCase fuel rest
    | 'p' :: rest => substitutionFlags { s with prints := true } ignoresCase fuel rest
    | 'i' :: rest => substitutionFlags s true fuel rest
    | 'I' :: rest => substitutionFlags s true fuel rest
    | c :: rest =>
      if c.isDigit then
        let (ds, rest) := (c :: rest).span Char.isDigit
        substitutionFlags { s with first := Nat.ofDigitChars 10 ds 0 } ignoresCase fuel rest
      else some ((s, ignoresCase), cs)
    | [] => some ((s, ignoresCase), [])

/-- The text of a command that takes one: what follows on its line, or the next line after a
backslash. Backslashes join lines and take the meaning from what follows them. -/
def givenText : Reader Bytes := do
  skipBlanks
  match ← get with
  | '\\' :: '\n' :: rest => set rest
  | '\\' :: c :: rest => set (c :: rest)
  | _ => pure ()
  let (cs, rest) := cut (← get)
  set rest
  return cs ++ ['\n']
where
  cut : Bytes → Bytes × Bytes
    | [] => ([], [])
    | '\n' :: rest => ([], rest)
    | '\\' :: c :: rest =>
      let (cs, rest) := cut rest
      (c :: cs, rest)
    | c :: rest =>
      let (cs, rest) := cut rest
      (c :: cs, rest)

/-- The name of a label. -/
def labelName : Reader Bytes := do
  skipBlanks
  let (name, rest) := (← get).span fun c => c != '\n' && c != ';' && c != '\x7d'
  set rest
  return (name.reverse.dropWhile (· == ' ')).reverse

/-- Unescapes the delimiter and backslashes of a list of characters. -/
def exchanged : Bytes → Bytes
  | '\\' :: 'n' :: rest => '\n' :: exchanged rest
  | '\\' :: '\\' :: rest => '\\' :: exchanged rest
  | c :: rest => c :: exchanged rest
  | [] => []

/-- What a command does. -/
def edit (isExtended : Bool) : Reader Edit := do
  match ← get with
  | [] => refuse
  | c :: rest =>
    set rest
    match c with
    | 's' =>
      match ← get with
      | [] => refuse
      | delimiter :: rest =>
        set rest
        let text ← delimited delimiter true
        let replacement ← delimited delimiter false
        let start : Substitution :=
          { pattern := none, replacement := pieces replacement, first := 1, isGlobal := false
            prints := false }
        let cs ← get
        match substitutionFlags start false (cs.length + 1) cs with
        | none => refuse
        | some ((s, ignoresCase), rest) =>
          set rest
          return .substitute { s with pattern := ← pattern isExtended ignoresCase text }
    | 'y' =>
      match ← get with
      | [] => refuse
      | delimiter :: rest =>
        set rest
        let sources := exchanged (← delimited delimiter false)
        let targets := exchanged (← delimited delimiter false)
        if sources.length = targets.length then return .exchange sources targets else refuse
    | 'd' => return .delete
    | 'D' => return .deleteLine
    | 'p' => return .print
    | 'P' => return .printLine
    | 'q' =>
      skipBlanks
      return .quit ((← number?).getD 0) false
    | 'Q' =>
      skipBlanks
      return .quit ((← number?).getD 0) true
    | 'a' => return .append (← givenText)
    | 'i' => return .insert (← givenText)
    | 'c' => return .replace (← givenText)
    | '=' => return .number
    | 'n' => return .next
    | 'N' => return .join
    | 'h' => return .keep false
    | 'H' => return .keep true
    | 'g' => return .recall false
    | 'G' => return .recall true
    | 'x' => return .swap
    | '\x7b' => return .opening
    | '\x7d' => return .closing
    | ':' => return .label (← labelName)
    | 'b' => return .branch (← labelName)
    | 't' => return .branchIfChanged (← labelName)
    | 'r' =>
      skipBlanks
      let (path, rest) := (← get).span (· != '\n')
      set rest
      return .read path
    | _ => refuse

/-- Whether another command may follow this one at once. -/
def Edit.isOpen : Edit → Bool
  | .opening => true
  | .closing => true
  | .append _ => true
  | .insert _ => true
  | .replace _ => true
  | _ => false

/-- The commands of a script. -/
def commands (isExtended : Bool) : Nat → Reader Script
  | 0 => refuse
  | fuel + 1 => do
    modify (·.dropWhile fun c => c == ' ' || c == '\t' || c == '\n' || c == ';')
    match ← get with
    | [] => return []
    | '#' :: rest =>
      set (rest.dropWhile (· != '\n'))
      commands isExtended fuel
    | _ =>
      let selection ← selection isExtended
      let edit ← edit isExtended
      skipBlanks
      match ← get with
      | [] => pure ()
      | c :: _ =>
        unless edit.isOpen || [';', '\n', '#', '\x7d'].contains c do refuse
      return (selection, edit) :: (← commands isExtended fuel)

/-- The script of a text. -/
def parse? (isExtended : Bool) (cs : Bytes) : Option Script :=
  ((commands isExtended (cs.length + 2)).run cs).map (·.1)

/-! ### Running scripts -/

/-- The state between two commands. -/
structure Editing where
  /-- The line at work, and whether it has an end. -/
  space : Bytes
  hasEnd : Bool
  kept : Bytes
  lineNumber : Nat
  /-- The lines that follow. -/
  rest : List Bytes
  /-- The ends of the ranges that commands are in, by the numbers of the commands. -/
  ranges : List (Nat × Option Nat)
  /-- What is written after the line. -/
  queue : List Bytes
  isChanged : Bool
  lastPattern : Option (Regex × Bool)
  written : Bytes
  prints : Bool

/-- How the commands for a line end. -/
inductive Ending where
  | done
  | deleted
  /-- The rest of the text at work goes through the commands again. -/
  | again
  | quit (status : Nat) (isSilent : Bool)

namespace Editing

/-- Writes a text. An end that is missing from what was written before is added. -/
def put (e : Editing) (cs : Bytes) : Editing :=
  let lead := if e.written = [] || e.written.getLast? = some '\n' || cs = [] then [] else ['\n']
  { e with written := e.written ++ lead ++ cs }

/-- Writes a line, with an end if the line at work has one. -/
def putLine (e : Editing) (cs : Bytes) : Editing :=
  e.put (cs ++ (if e.hasEnd then ['\n'] else []))

/-- Writes out what was to come after the line. -/
def flush (e : Editing) : Editing :=
  { e.queue.foldl put e with queue := [] }

/-- Writes the line unless that is switched off, and what comes after it. -/
def finishLine (e : Editing) : Editing :=
  (if e.prints then e.putLine e.space else e).flush

/-- The line that a text with its end is. -/
def load (e : Editing) (line : Bytes) (rest : List Bytes) : Editing :=
  let hasEnd := line.getLast? = some '\n'
  { e with
    space := if hasEnd then line.dropLast else line
    hasEnd, rest, lineNumber := e.lineNumber + 1 }

/-- The pattern that is meant, which is then the one used last. -/
def meant (e : Editing) (p : Pattern) : Editing × Option (Regex × Bool) :=
  let p := p <|> e.lastPattern
  ({ e with lastPattern := p }, p)

/-- Whether an address is that of the line. -/
def isAt (e : Editing) : Address → Editing × Bool
  | .number n => (e, e.lineNumber == n)
  | .every first step =>
    (e, if step = 0 then e.lineNumber == first
      else first ≤ e.lineNumber && (e.lineNumber - first) % step == 0)
  | .last => (e, e.rest.isEmpty)
  | .found p =>
    match e.meant p with
    | (e, some (r, ignoresCase)) => (e, (r.find? Regex.fitsAnywhere ignoresCase e.space).isSome)
    | (e, none) => (e, false)

/-- Whether the command of a number is for the line. -/
def isSelected (e : Editing) (index : Nat) (s : Selection) : Editing × Bool :=
  let (e, b) :=
    match s.start, s.stop with
    | none, _ => (e, true)
    | some a, none => e.isAt a
    | some a, some stop =>
      let close (e : Editing) : Editing := { e with ranges := e.ranges.filter (·.1 != index) }
      match e.ranges.lookup index with
      | some (some n) =>
        if e.lineNumber ≥ n then (close e, e.lineNumber == n) else (e, true)
      | some none =>
        match stop with
        | .at b =>
          let (e, isLast) := e.isAt b
          (if isLast then close e else e, true)
        | _ => (e, true)
      | none =>
        let (e, b) := e.isAt a
        if !b then (e, false)
        else
          let n := e.lineNumber
          let until_ (stop : Option Nat) : Editing := { e with ranges := (index, stop) :: e.ranges }
          match stop with
          | .at (.number m) => (if m > n then until_ (some m) else e, true)
          | .at _ => (until_ none, true)
          | .after count => (if count > 0 then until_ (some (n + count)) else e, true)
          | .multiple k =>
            let m := if k = 0 then n else (n + k - 1) / k * k
            (if m > n then until_ (some m) else e, true)
  (e, b != s.isNegated)

/-- The text of a replacement for a match. -/
def replacement (m : Regex.Match) (parts : List Piece) : Bytes :=
  (parts.foldl
    (fun (cs, lasting, next) part =>
      match part with
      | .change .upperNext => (cs, lasting, CaseChange.upper)
      | .change .lowerNext => (cs, lasting, CaseChange.lower)
      | .change c => (cs, c, CaseChange.keep)
      | .text c => (cs ++ changed lasting next [c], lasting, CaseChange.keep)
      | .group n =>
        let found := if n = 0 then m.found else (m.groups.lookup n).getD []
        (cs ++ changed lasting next found, lasting, if found = [] then next else .keep))
    (([] : Bytes), CaseChange.keep, CaseChange.keep)).1
where
  cased (c : CaseChange) (cs : Bytes) : Bytes :=
    match c with
    | .upper => cs.map Char.toUpper
    | .lower => cs.map Char.toLower
    | _ => cs
  changed (lasting next : CaseChange) (cs : Bytes) : Bytes :=
    match cased lasting cs, next with
    | cs, .keep => cs
    | cs, next => cased next (cs.take 1) ++ cs.drop 1

/-- The line with matches replaced, if there are any to be replaced. -/
def substituted? (s : Substitution) (r : Regex) (ignoresCase : Bool) (space : Bytes) :
    Option Bytes :=
  let found := r.allMatches Regex.fitsAnywhere ignoresCase space
  if found.length < s.first then none
  else
    let parts := found.zipIdx 1 |>.map fun (m, n) =>
      m.before ++
        (if n = s.first || (s.isGlobal && n > s.first) then replacement m s.replacement else m.found)
    some (parts.flatten ++ (found.getLast?.map (·.after)).getD [])

/-- The number of the command after the one that closes what is open. -/
def afterClosing : Nat → Nat → List (Selection × Edit) → Nat
  | _, n, [] => n
  | depth, n, (_, .opening) :: rest => afterClosing (depth + 1) (n + 1) rest
  | depth, n, (_, .closing) :: rest => if depth = 0 then n + 1 else afterClosing (depth - 1) (n + 1) rest
  | depth, n, _ :: rest => afterClosing depth (n + 1) rest

/-- The number of the command at a label; without a name it is the end of the script. -/
def placeOf (script : Script) (name : Bytes) : Nat :=
  (script.findIdx? fun (_, edit) =>
    match edit with
    | .label l => name != [] && l == name
    | _ => false).getD script.length

/-- Runs the commands of a script on the line, from the one of a number on. -/
def run (m : Machine) (script : Script) : Nat → Nat → Editing → Editing × Ending
  | 0, _, e => (e, .quit 1 true)
  | fuel + 1, index, e =>
    match script[index]? with
    | none => (e, .done)
    | some (selection, edit) =>
      let (e, isSelected) := e.isSelected index selection
      if !isSelected then
        match edit with
        | .opening => run m script fuel (afterClosing 0 (index + 1) (script.drop (index + 1))) e
        | _ => run m script fuel (index + 1) e
      else
        let goOn (e : Editing) : Editing × Ending := run m script fuel (index + 1) e
        match edit with
        | .substitute s =>
          match e.meant s.pattern with
          | (e, none) => goOn e
          | (e, some (r, ignoresCase)) =>
            match substituted? s r (ignoresCase || (s.pattern.any (·.2))) e.space with
            | none => goOn e
            | some space =>
              let e := { e with space, isChanged := true }
              goOn (if s.prints then e.putLine space else e)
        | .exchange sources targets =>
          let table := sources.zip targets
          goOn { e with space := e.space.map fun c => (table.lookup c).getD c }
        | .delete => (e, .deleted)
        | .deleteLine =>
          match e.space.span (· != '\n') with
          | (_, _ :: rest) => ({ e with space := rest }, .again)
          | _ => (e, .deleted)
        | .print => goOn (e.putLine e.space)
        | .printLine => goOn (e.put (e.space.takeWhile (· != '\n') ++ ['\n']))
        | .quit status isSilent => (e, .quit status isSilent)
        | .append text => goOn { e with queue := e.queue ++ [text] }
        | .insert text => goOn (e.put text)
        | .replace text =>
          let isInside := selection.stop.isSome && (e.ranges.lookup index).isSome && !selection.isNegated
          (if isInside then e else e.put text, .deleted)
        | .number => goOn (e.put (numeral e.lineNumber ++ ['\n']))
        | .next =>
          match e.rest with
          | [] => (e, .quit 0 false)
          | line :: rest => goOn (e.finishLine.load line rest)
        | .join =>
          match e.rest with
          | [] => (e, .quit 0 false)
          | line :: rest =>
            let old := e.space
            let e := e.flush.load line rest
            goOn { e with space := old ++ '\n' :: e.space }
        | .keep isAdded =>
          goOn { e with kept := if isAdded then e.kept ++ '\n' :: e.space else e.space }
        | .recall isAdded =>
          goOn { e with space := if isAdded then e.space ++ '\n' :: e.kept else e.kept }
        | .swap => goOn { e with space := e.kept, kept := e.space }
        | .opening => goOn e
        | .closing => goOn e
        | .label _ => goOn e
        | .branch name => run m script fuel (placeOf script name) e
        | .branchIfChanged name =>
          if e.isChanged then run m script fuel (placeOf script name) { e with isChanged := false }
          else goOn e
        | .read path =>
          goOn { e with queue := e.queue ++ ((m.contentAt path).toOption).toList }

/-- The greatest number of commands that are run for a line. -/
def maxSteps : Nat := 1000000

/-- Edits the lines that are left, and tells with what status that ended, if it ended early. -/
def runAll (m : Machine) (script : Script) : Nat → Bool → Editing → Editing × Option Nat
  | 0, _, e => (e, none)
  | fuel + 1, isAgain, e =>
    let start (e : Editing) : Editing × Option Nat :=
      match run m script maxSteps 0 e with
      | (e, .done) => runAll m script fuel false e.finishLine
      | (e, .deleted) => runAll m script fuel false e.flush
      | (e, .again) => runAll m script fuel true e.flush
      | (e, .quit status isSilent) =>
        (if isSilent then e.flush else e.finishLine, some status)
    if isAgain then start e
    else
      match e.rest with
      | [] => (e, none)
      | line :: rest => start { e.load line rest with isChanged := false }

end Editing

/-- What a script makes of a text: what is written, and the status if it ended early. -/
def edited (m : Machine) (script : Script) (prints : Bool) (cs : Bytes) : Bytes × Option Nat :=
  let begun : List (Nat × Option Nat) :=
    script.zipIdx.filterMap fun ((s, _), n) =>
      match s.start, s.stop with
      | some (.number 0), some (.at (.found _)) => some (n, none)
      | _, _ => none
  let e : Editing :=
    { space := [], hasEnd := true, kept := [], lineNumber := 0, rest := Utility.wholeLines cs
      ranges := begun, queue := [], isChanged := false, lastPattern := none, written := [], prints }
  let (e, status) := e.runAll m script (2 * cs.length + 2) false
  (e.written, status)

end LineEditor

namespace Utility

open Machine

/-- The option for editing files in place: the letters that share its word, and the ending that
the names of copies get. -/
def placeOption? (word : Bytes) : Option (Bytes × Bytes) :=
  match word with
  | '-' :: '-' :: name =>
    let (name, ending) := name.span (· != '=')
    if name = "in-place".toList then some ([], ending.tail) else none
  | '-' :: cs =>
    match cs.span fun c => ['n', 'E', 'r', 's', 'u', 'z'].contains c with
    | (letters, 'i' :: ending) => some (letters, ending)
    | _ => none
  | _ => none

/-- Edits the lines of files, which are written out or replace what was in the files. -/
def editLines : Utility := fun words => do
  let place := words.findSome? placeOption?
  let words := words.filterMap fun w =>
    match placeOption? w with
    | none => some w
    | some ([], _) => none
    | some (letters, _) => some ('-' :: letters)
  let options : Options :=
    .ofLetters "nErsuz" "ef"
      [("quiet", 'n'), ("silent", 'n'), ("regexp-extended", 'E'), ("expression", 'e'),
        ("separate", 's')]
  withOptions "sed" 1 options
    (fun a => do
      let given := (a.options.filter (·.1 == 'e')).map (·.2)
      let (texts, names) :=
        if given != [] then (given, a.operands) else (a.operands.take 1, a.operands.drop 1)
      let prints := !a.has 'n'
      let unreadable (name : Bytes) (e : SystemError) : Run Unit :=
        match e, place with
        | .isADirectory, some _ =>
          complain "sed" 4 ("couldn't edit ".toList ++ name ++ ": not a regular file".toList)
        | .isADirectory, none =>
          complain "sed" 2 ("read error on ".toList ++ name ++ ": Is a directory".toList)
        | e, _ => complain "sed" 2 ("can't read ".toList ++ name ++ ':' :: ' ' :: e.reason.toList)
      match LineEditor.parse? (a.has 'E' || a.has 'r') (['\n'].intercalate texts) with
      | none => complain "sed" 1 "-e expression #1, char 1: unknown command".toList
      | some script =>
        if texts = [] then
          emit 2 "Usage: sed [OPTION]... \x7bscript-only-if-no-other-script\x7d [input-file]...\n".toList
          finish 1
        else
          match place with
          | some (_, ending) =>
            let mut hasEnded := false
            for name in names do
              unless hasEnded do
                match ← content name with
                | .error e => unreadable name e
                | .ok cs =>
                  let (text, status) := LineEditor.edited (← get) script prints cs
                  if ending != [] then
                    let _ ← store .write (name ++ ending) cs
                  let _ ← store .write name text
                  match status with
                  | some n =>
                    hasEnded := true
                    finish n
                  | none => pure ()
          | none =>
            let mut all : Bytes := []
            for name in (if names = [] then [inputName] else names) do
              match ← content name with
              | .error e => unreadable name e
              | .ok cs =>
                let joint := if all = [] || all.getLast? = some '\n' then [] else ['\n']
                all := all ++ joint ++ cs
            let (text, status) := LineEditor.edited (← get) script prints all
            emit 1 text
            match status with
            | some n => finish n
            | none => pure ())
    words

end Utility

end TagVersion.Shell
