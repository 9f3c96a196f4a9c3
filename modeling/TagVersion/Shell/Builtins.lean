import TagVersion.Shell.Expansion
import TagVersion.Shell.Programs.Table

/-!
# Commands of the shell

The commands that are part of the shell, since they change its state, apart from those that run
others. Some are special: a mistake in one of them ends the script.
-/

namespace TagVersion.Shell

namespace Builtin

open Machine

/-- The commands that end a script when something is wrong with them, and after which
assignments remain. -/
def specialNames : List String :=
  [".", ":", "break", "continue", "eval", "exec", "exit", "export", "local", "readonly", "return",
    "set", "shift", "times", "trap", "unset"]

/-- The commands whose words may be assignments. -/
def assigningNames : List String := ["export", "local", "readonly"]

/-- Ends the command because of a mistake. -/
def refuse (name message : String) : Run Unit :=
  abort (name.toList ++ ": ".toList ++ message.toList)

/-- A number in decimal, or the complaint that there is none. -/
def withNumber (name : String) (cs : Bytes) (act : Nat → Run Unit) : Run Unit :=
  match Utility.count? cs with
  | some n => act n
  | none => refuse name ("Illegal number: " ++ String.ofList cs)

/-! ### Flow -/

def exitCommand (arguments : List Bytes) : Run Unit := do
  match arguments with
  | [] => exit (← get).status
  | cs :: _ => withNumber "exit" cs exit

def returnCommand (arguments : List Bytes) : Run Unit := do
  let leave (status : Nat) : Run Unit := modify ({ · with status, flow := .returning })
  match arguments with
  | [] => leave (← get).status
  | cs :: _ => withNumber "return" cs leave

/-- Leaves loops or goes on with the next round of one. -/
def leaveLoops (name : String) (flow : Nat → Flow) (arguments : List Bytes) : Run Unit := do
  let leave (cs : Bytes) (n : Nat) : Run Unit := do
    if n = 0 then refuse name ("Illegal number: " ++ String.ofList cs)
    else
      succeed
      let levels := min n (← get).loops
      if levels > 0 then modify ({ · with flow := flow levels })
  match arguments with
  | [] => leave [] 1
  | cs :: _ => withNumber name cs (leave cs)

def shiftCommand (arguments : List Bytes) : Run Unit := do
  let drop (n : Nat) : Run Unit := do
    let m ← get
    if n > m.positional.length then refuse "shift" "can't shift that many"
    else
      set { m with positional := m.positional.drop n }
      succeed
  match arguments with
  | [] => drop 1
  | cs :: _ => withNumber "shift" cs drop

/-! ### Options -/

/-- Switches an option. -/
def switch (isOn : Bool) (letter : Char) : Run Unit :=
  modify fun m =>
    let others := m.flags.filter (· != letter)
    { m with flags := if isOn then letter :: others else others }

/-- Reads options off the front of words. The answer is what follows them, and whether that is to
be the new positional parameters even if there is nothing. -/
def readOptions (complaint : String) : Nat → List Bytes → Run (List Bytes × Bool)
  | 0, words => pure (words, false)
  | fuel + 1, words => do
    match words with
    | ['-', '-'] :: rest => return (rest, true)
    | ['-'] :: rest =>
      switch false 'x'
      switch false 'v'
      return (rest, false)
    | (sign :: letters) :: rest =>
      if (sign = '-' || sign = '+') && letters != [] then
        let isOn := sign == '-'
        let mut rest := rest
        for letter in letters do
          if letter = 'o' then
            match rest with
            | name :: more =>
              match optionNames.find? fun (_, n) => n.toList == name with
              | some (letter, _) => switch isOn letter
              | none => abort (complaint.toList ++ "Illegal option -o ".toList ++ name)
              rest := more
            | [] =>
              let m ← get
              emit 1 "Current option settings\n".toList
              for (letter, name) in optionNames do
                emit 1 (name.toList ++ List.replicate (16 - name.length) ' ' ++
                  (if m.hasFlag letter then "on\n" else "off\n").toList)
          else if optionNames.any (·.1 == letter) then switch isOn letter
          else abort (complaint.toList ++ "Illegal option ".toList ++ [sign, letter])
        if ← isGoing then readOptions complaint fuel rest else return ([], false)
      else return (words, false)
    | words => return (words, false)

/-- A text between quotes that can be given to the shell. -/
def quoted (cs : Bytes) : Bytes :=
  piece (cs.length + 1) cs
where
  piece : Nat → Bytes → Bytes
    | 0, _ => []
    | fuel + 1, cs =>
      let (plain, rest) := cs.span (· != '\'')
      let (quotes, rest) := rest.span (· == '\'')
      '\'' :: plain ++ ['\''] ++
        (if quotes = [] then []
          else '"' :: quotes ++ '"' :: (if rest = [] then [] else piece fuel rest))

/-- Writes variables so that the lines could be run. -/
def writeVariables (lead : String) (isMeant : Variable → Bool) : Run Unit := do
  let meant := (← get).bindings.filter fun (_, v) => isMeant v
  for (name, v) in meant.mergeSort fun a b => notAfter a.1 b.1 do
    let value :=
      match v.value with
      | some value => '=' :: quoted value
      | none => []
    emit 1 (lead.toList ++ name ++ value ++ ['\n'])

def setCommand (arguments : List Bytes) : Run Unit := do
  succeed
  if arguments = [] then writeVariables "" fun v => v.value.isSome
  else
    let (rest, isReplaced) ← readOptions "set: " (arguments.length + 1) arguments
    if isReplaced || rest != [] then modify ({ · with positional := rest })

/-! ### Variables -/

/-- The letters of options before the other words, or none if one is not known. -/
def leadingLetters (name : String) (known : List Char) :
    List Bytes → Run (Option (List Char × List Bytes))
  | ['-', '-'] :: rest => pure (some ([], rest))
  | ('-' :: c :: cs) :: rest => do
    match (c :: cs).find? (!known.contains ·) with
    | some letter =>
      refuse name ("Illegal option -" ++ String.ofList [letter])
      return none
    | none => return (← leadingLetters name known rest).map fun (letters, rest) => (c :: cs ++ letters, rest)
  | words => pure (some ([], words))

/-- Marks variables, which may be assigned to along with that. -/
def markVariables (name : String) (mark : Variable → Variable) (isMarked : Variable → Bool)
    (arguments : List Bytes) : Run Unit := do
  match ← leadingLetters name ['p'] arguments with
  | none => pure ()
  | some (letters, words) =>
    succeed
    if letters != [] || words = [] then writeVariables (name ++ " ") isMarked
    else
      for word in words do
        if ← isGoing then
          let (variableName, value) := word.span (· != '=')
          if !isName variableName then
            abort (name.toList ++ ": ".toList ++ variableName ++ ": bad variable name".toList)
          else
            unless value = [] do assign variableName value.tail
            if ← isGoing then
              modify fun m =>
                let v := (m.bindings.lookup variableName).getD ⟨none, false, false⟩
                { m with bindings := putEntry m.bindings variableName (mark v) }

def exportCommand : List Bytes → Run Unit :=
  markVariables "export" (fun v => { v with isExported := true }) (·.isExported)

def readonlyCommand : List Bytes → Run Unit :=
  markVariables "readonly" (fun v => { v with isReadOnly := true }) (·.isReadOnly)

def unsetCommand (arguments : List Bytes) : Run Unit := do
  match ← leadingLetters "unset" ['v', 'f'] arguments with
  | none => pure ()
  | some (letters, names) =>
    succeed
    for name in names do
      if ← isGoing then
        let m ← get
        if letters.getLast? = some 'f' then
          set { m with functions := m.functions.filter (·.1 != name) }
        else if !isName name then abort ("unset: ".toList ++ name ++ ": bad variable name".toList)
        else if m.mayChange name then set { m with bindings := m.bindings.filter (·.1 != name) }
        else abort ("unset: ".toList ++ name ++ ": is read only".toList)

/-- Keeps variables to be put back at the end of the function. -/
def localCommand (arguments : List Bytes) : Run Unit := do
  let m ← get
  if m.functionDepth = 0 then refuse "local" "not in a function"
  else
    succeed
    for word in arguments do
      if ← isGoing then
        let (name, value) := word.span (· != '=')
        if !isName name then abort ("local: ".toList ++ name ++ ": bad variable name".toList)
        else
          modify fun m => { m with hidden := (name, m.bindings.lookup name) :: m.hidden }
          unless value = [] do assign name value.tail

/-! ### Reading -/

/-- The parts of a line for the given number of variables. A quoted character separates
nothing; the last variable gets all that is left. -/
def readParts (separators : Bytes) : Nat → List MarkedChar → List Bytes
  | 0, _ => []
  | 1, cs =>
    let cs := (dropBlanks cs.reverse).reverse
    match takeField cs with
    | (field, (c, false) :: rest) =>
      if !isBlankSeparator c && rest = [] then [field.map (·.1)] else [cs.map (·.1)]
    | _ => [cs.map (·.1)]
  | n + 1, cs =>
    let (field, rest) := takeField cs
    let rest := dropBlanks rest
    let rest :=
      match rest with
      | (c, false) :: more =>
        if separators.contains c && !isBlankSeparator c then dropBlanks more else rest
      | rest => rest
    field.map (·.1) :: readParts separators n rest
where
  isBlankSeparator (c : Char) : Bool := separators.contains c && usualSeparators.contains c
  dropBlanks (cs : List MarkedChar) : List MarkedChar :=
    cs.dropWhile fun (c, isQuoted) => !isQuoted && isBlankSeparator c
  takeField (cs : List MarkedChar) : List MarkedChar × List MarkedChar :=
    cs.span fun (c, isQuoted) => isQuoted || !separators.contains c

/-- The characters of a line in which a backslash takes the meaning from what follows it. -/
def unescapeLine : Bytes → List MarkedChar
  | '\\' :: c :: rest => (c, true) :: unescapeLine rest
  | ['\\'] => []
  | c :: rest => (c, false) :: unescapeLine rest
  | [] => []

/-- Reads a line, which goes on in the next one after a backslash unless that is switched off. -/
def readJoined (isRaw : Bool) : Nat → Run (Bytes × Bool)
  | 0 => pure ([], false)
  | fuel + 1 => do
    let (cs, hasEnd) ← readLine 0
    let slashes := (cs.reverse.takeWhile (· == '\\')).length
    if !isRaw && hasEnd && slashes % 2 = 1 then
      let (more, hasEnd) ← readJoined isRaw fuel
      return (cs.dropLast ++ more, hasEnd)
    else return (cs, hasEnd)

def readCommand (arguments : List Bytes) : Run Unit := do
  let (isRaw, names) :=
    match arguments with
    | ['-', 'r'] :: rest => (true, rest)
    | ['-', 'p'] :: _ :: rest => (false, rest)
    | ['-', 'r', 'p'] :: _ :: rest => (true, rest)
    | ['-', '-'] :: rest => (false, rest)
    | names => (false, names)
  if names = [] then refuse "read" "arg count"
  else
    match names.find? (!isName ·) with
    | some name => refuse "read" (String.ofList name ++ ": bad variable name")
    | none =>
      let m ← get
      let (line, hasEnd) ← readJoined isRaw ((m.unread 0).length + 2)
      let cs := if isRaw then line.map (·, false) else unescapeLine line
      let separators := m.separators
      let parts := readParts separators names.length (readParts.dropBlanks separators cs)
      finish (if hasEnd then 0 else 1)
      for (name, n) in names.zipIdx do
        assign name (parts.getD n [])

/-! ### Directories -/

def cdCommand (arguments : List Bytes) : Run Unit := do
  match ← leadingLetters "cd" ['L', 'P'] arguments with
  | none => pure ()
  | some (_, words) =>
    let m ← get
    let home := (m.valueOf? "HOME".toList).getD []
    let last := (m.valueOf? "OLDPWD".toList).getD []
    let isBack := words.head? = some ['-']
    let path := if isBack then last else words.headD home
    let path := if path = [] then ['.'] else path
    match m.locate? path with
    | some loc =>
      if m.files.node? loc = some .directory then
        let bindExported (m : Machine) (name value : Bytes) : Machine :=
          { m with bindings := putEntry m.bindings name ⟨some value, true, false⟩ }
        let m := bindExported m "OLDPWD".toList (pathOf m.directory)
        let m := bindExported m "PWD".toList (pathOf loc)
        set { m with directory := loc }
        succeed
        if isBack then emit 1 (pathOf loc ++ ['\n'])
      else refuse "cd" ("can't cd to " ++ String.ofList path)
    | none => refuse "cd" ("can't cd to " ++ String.ofList path)

def pwdCommand : Run Unit := do
  emit 1 (pathOf (← get).directory ++ ['\n'])
  succeed

/-! ### Signals -/

/-- The signals by their numbers and names. -/
def signals : List (Nat × String) :=
  [(0, "EXIT"), (1, "HUP"), (2, "INT"), (3, "QUIT"), (4, "ILL"), (5, "TRAP"), (6, "ABRT"),
    (7, "BUS"), (8, "FPE"), (9, "KILL"), (10, "USR1"), (11, "SEGV"), (12, "USR2"), (13, "PIPE"),
    (14, "ALRM"), (15, "TERM"), (16, "STKFLT"), (17, "CHLD"), (18, "CONT"), (19, "STOP"),
    (20, "TSTP"), (21, "TTIN"), (22, "TTOU"), (23, "URG"), (24, "XCPU"), (25, "XFSZ"),
    (26, "VTALRM"), (27, "PROF"), (28, "WINCH"), (29, "POLL"), (30, "PWR"), (31, "SYS")]

/-- The signals that end no process. -/
def harmlessSignals : List Nat := [0, 17, 18, 23, 28]

/-- The signal that cannot be caught. -/
def killSignal : Nat := 9

def terminationSignal : Nat := 15

/-- The signal of a number or name. -/
def signal? (cs : Bytes) : Option Nat :=
  match Utility.count? cs with
  | some n => if n < 65 then some n else none
  | none =>
    (signals.find? fun (_, name) => name.toList == cs.map Char.toUpper).map (·.1)

def trapCommand (arguments : List Bytes) : Run Unit := do
  let arguments := if arguments.head? = some ['-', '-'] then arguments.tail else arguments
  succeed
  match arguments with
  | [] =>
    for (number, action) in (← get).traps.mergeSort fun a b => decide (a.1 ≤ b.1) do
      emit 1 ("trap -- ".toList ++ quoted action ++ ' ' ::
        ((signals.lookup number).getD "").toList ++ ['\n'])
  | first :: rest =>
    let isReset := rest = [] || (Utility.count? first).isSome || first = ['-']
    let names := if rest = [] || (Utility.count? first).isSome then first :: rest else rest
    for name in names do
      match signal? name with
      | none =>
        if (← get).status = 0 then
          complain 1 ("trap: ".toList ++ name ++ ": bad trap".toList)
      | some number =>
        if (← get).status = 0 then
          modify fun m =>
            let others := m.traps.filter (·.1 != number)
            { m with traps := if isReset then others else (number, first) :: others }

/-- Sends a signal to the script itself, which ends it unless it is caught. What is to be done
then is left for later. -/
def sendSignal (signal : Nat) (targets : List Bytes) : Run Unit := do
  if targets = [] then refuse "kill" "Usage: kill [-s sigspec | -signum | -sigspec] [pid | job]..."
  else
    succeed
    for target in targets do
      let m ← get
      if target = numeral processNumber then
        match m.traps.lookup signal with
        | some action =>
          if signal = killSignal then set { m with killedBy := some signal, flow := .exiting }
          else if action != [] then set { m with pending := m.pending ++ [action] }
        | none =>
          unless harmlessSignals.contains signal do
            set { m with killedBy := some signal, flow := if m.isApart then m.flow else .exiting }
      else complain 1 "kill: No such process".toList

def killCommand (arguments : List Bytes) : Run Unit :=
  let named (name : Bytes) (targets : List Bytes) : Run Unit :=
    let targets := if targets.head? = some ['-', '-'] then targets.tail else targets
    match signal? name with
    | some signal => sendSignal signal targets
    | none => refuse "kill" ("invalid signal number or name: " ++ String.ofList name)
  match arguments with
  | ['-', 's'] :: name :: targets => named name targets
  | ['-', 'l'] :: _ => do
    for (number, name) in signals.drop 1 do
      if number > 0 then emit 1 (name.toList ++ ['\n'])
    succeed
  | ['-', '-'] :: targets => sendSignal terminationSignal targets
  | ('-' :: name) :: targets => named name targets
  | targets => sendSignal terminationSignal targets

def waitCommand (arguments : List Bytes) : Run Unit := do
  match arguments with
  | [] => succeed
  | _ =>
    match (← get).background with
    | some status => finish status
    | none => finish 127

/-! ### All of them -/

/-- The commands of the shell that run no others, by their names. -/
def all : List (String × (List Bytes → Run Unit)) :=
  [(":", fun _ => succeed), ("true", fun _ => succeed), ("false", fun _ => finish 1),
    ("echo", Utility.echo), ("printf", Utility.writeFormatted),
    ("test", Utility.evaluateCondition), ("[", Utility.evaluateBracketed), ("exit", exitCommand),
    ("return", returnCommand), ("break", leaveLoops "break" .breaking),
    ("continue", leaveLoops "continue" .continuing), ("shift", shiftCommand), ("set", setCommand),
    ("export", exportCommand), ("readonly", readonlyCommand), ("unset", unsetCommand),
    ("local", localCommand), ("read", readCommand), ("cd", cdCommand), ("chdir", cdCommand),
    ("pwd", fun _ => pwdCommand), ("trap", trapCommand), ("kill", killCommand),
    ("wait", waitCommand), ("hash", fun _ => succeed), ("jobs", fun _ => succeed),
    ("ulimit", fun _ => succeed),
    ("umask", fun arguments => do
      if arguments = [] then emit 1 "0022\n".toList
      succeed),
    ("times", fun _ => do
      emit 1 "0m0.000000s 0m0.000000s\n0m0.000000s 0m0.000000s\n".toList
      succeed)]

/-- The commands of the shell that run others. -/
def runningNames : List String := [".", "command", "eval", "exec", "type"]

end Builtin

end TagVersion.Shell
