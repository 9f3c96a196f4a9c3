import TagVersion.Shell.Child
import TagVersion.Shell.Meaning
import TagVersion.Shell.Preparation

/-!
# Running scripts

Commands are run one after the other, as their words come out when it is their turn. Programs
run apart from the script, with files, streams and exported variables in common. A script ends
with its last command, with a command that ends it, with an error, or with a signal.

The recursion goes down in a number of steps that no script in earnest uses up.
-/

namespace TagVersion.Shell

namespace Machine

/-! ### Errors and signals -/

/-- Ends the script if it is to end on a failure. -/
def checkFailure (isTested : Bool) : Run Unit := do
  let m ← get
  if m.flow = .going && m.hasFlag 'e' && m.status != 0 && !isTested then exit m.status

/-- Keeps a mistake in a command that is not special from ending the script. -/
def tolerate (act : Run Unit) : Run Unit := do
  act
  modify fun m => if m.flow = .exiting && m.killedBy.isNone then { m with flow := .going } else m

/-- Writes what has been read of a script, if that is wanted. -/
def echoRead (text rest : Bytes) : Run Unit := do
  if (← get).hasFlag 'v' then emit 2 (text.take (text.length - rest.length))

/-- Whether the next part of a loop is to be run. Loops that are left are counted. -/
def goesOn : Run Bool := do
  match (← get).flow with
  | .going => return true
  | .breaking n =>
    modify ({ · with flow := if n ≤ 1 then .going else .breaking (n - 1) })
    return false
  | .continuing n =>
    modify ({ · with flow := if n ≤ 1 then .going else .continuing (n - 1) })
    return n ≤ 1
  | _ => return false

/-! ### Commands -/

mutual

/-- Runs a command. The flag tells whether its failure is looked at and does not end the
script. -/
def exec : Nat → Bool → Command → Run Unit
  | 0, _, _ => exit 2
  | fuel + 1, isTested, c => do
    if (← get).hasFlag 'n' then return
    match c with
    | .simple assignments words redirections =>
      execSimple fuel isTested assignments words redirections
      runPending fuel
      checkFailure isTested
    | .redirected body redirections =>
      withRedirections (exec fuel false) redirections false (exec fuel isTested body) (pure ())
    | .enclosed body =>
      apartFrom do
        exec fuel isTested body
        finishScript fuel
      checkFailure isTested
    | .background body =>
      let m ← get
      apartFrom do
        modify ({ · with descriptors := putEntry m.descriptors 0 m.streams.length })
        connect 0 .nothing
        exec fuel false body
        finishScript fuel
      modify fun n => { n with background := some n.status }
      succeed
    | .sequence commands => execAll fuel isTested commands
    | .both first second =>
      exec fuel true first
      if (← isGoing) && (← get).status = 0 then exec fuel isTested second
    | .either first second =>
      exec fuel true first
      if (← isGoing) && (← get).status != 0 then exec fuel isTested second
    | .negated body =>
      exec fuel true body
      if ← isGoing then finish (if (← get).status = 0 then 1 else 0)
    | .pipeline commands =>
      let m ← get
      execPiped fuel isTested commands
      modify ({ · with descriptors := m.descriptors })
      checkFailure isTested
    | .conditional condition body otherwise =>
      exec fuel true condition
      if ← isGoing then
        if (← get).status = 0 then exec fuel isTested body
        else
          match otherwise with
          | some c => exec fuel isTested c
          | none => succeed
    | .loop isUntil condition body =>
      modify fun m => { m with loops := m.loops + 1 }
      execLoop fuel isTested isUntil condition body 0
      modify fun m => { m with loops := m.loops - 1 }
    | .forEach name words body =>
      let items ←
        match words with
        | some words => expandWords (exec fuel false) words
        | none => do pure (← get).positional
      if ← isGoing then
        modify fun m => { m with loops := m.loops + 1 }
        if items = [] then succeed
        execEach fuel isTested name body items
        modify fun m => { m with loops := m.loops - 1 }
    | .choice word branches =>
      let text ← expandText (exec fuel false) word
      if ← isGoing then execChoice fuel isTested text branches
    | .define name body =>
      modify fun m => { m with functions := putEntry m.functions name body }
      succeed

/-- Runs commands one after the other. -/
def execAll : Nat → Bool → List Command → Run Unit
  | 0, _, _ => exit 2
  | _, _, [] => pure ()
  | fuel + 1, isTested, c :: rest => do
    exec fuel isTested c
    if ← isGoing then execAll fuel isTested rest

/-- Runs commands of which each reads what the one before writes. -/
def execPiped : Nat → Bool → List Command → Run Unit
  | 0, _, _ => exit 2
  | _, _, [] => pure ()
  | fuel + 1, isTested, [c] =>
    apartFrom do
      exec fuel isTested c
      finishScript fuel
  | fuel + 1, isTested, c :: rest => do
    let m ← get
    connect 1 (.pipe [] 0)
    apartFrom do
      exec fuel isTested c
      finishScript fuel
    modify ({ · with descriptors := putEntry m.descriptors 0 m.streams.length })
    if ← isGoing then execPiped fuel isTested rest

/-- Runs a loop, whose last round ended with the given status. -/
def execLoop : Nat → Bool → Bool → Command → Command → Nat → Run Unit
  | 0, _, _, _, _, _ => exit 2
  | fuel + 1, isTested, isUntil, condition, body, last => do
    exec fuel true condition
    if ← goesOn then
      if ((← get).status = 0) = isUntil then finish last
      else
        exec fuel isTested body
        if ← goesOn then
          execLoop fuel isTested isUntil condition body (← get).status

/-- Runs a command for each of some words. -/
def execEach : Nat → Bool → Bytes → Command → List Bytes → Run Unit
  | 0, _, _, _, _ => exit 2
  | _, _, _, _, [] => pure ()
  | fuel + 1, isTested, name, body, item :: rest => do
    assign name item
    if ← isGoing then
      exec fuel isTested body
      if ← goesOn then execEach fuel isTested name body rest

/-- Runs the first branch of a choice that has a pattern for the text. -/
def execChoice : Nat → Bool → Bytes → List (List Word × Command) → Run Unit
  | 0, _, _, _ => exit 2
  | _, _, _, [] => succeed
  | fuel + 1, isTested, text, (patterns, body) :: rest => do
    if ← acceptsAny fuel text patterns then
      match body with
      | .sequence [] => succeed
      | body => exec fuel isTested body
    else if ← isGoing then execChoice fuel isTested text rest

/-- Whether one of some patterns is for a text. -/
def acceptsAny : Nat → Bytes → List Word → Run Bool
  | 0, _, _ => pure false
  | _, _, [] => pure false
  | fuel + 1, text, word :: rest => do
    let pattern ← expandPattern (exec fuel false) word
    if !(← isGoing) then return false
    else if Pattern.accepts pattern text then return true
    else acceptsAny fuel text rest

/-- Runs a simple command. -/
def execSimple : Nat → Bool → List (Bytes × Word) → List Word → List Redirection → Run Unit
  | 0, _, _, _, _ => exit 2
  | fuel + 1, isTested, assignments, words, redirections => do
    let run := exec fuel false
    modify ({ · with outputStatus := none })
    let fields ← expandArguments run words
    if ← isGoing then
      let errorStream := (← get).descriptors.lookup 2
      let (isPlain, fields) := withoutLead false fields
      match fields with
      | [] =>
        withRedirections run redirections false
          (do
            let values ← assignEach run false assignments
            if ← isGoing then
              trace errorStream values (if isPlain then ["command".toList] else [])
              finish ((← get).outputStatus.getD 0))
          (pure ())
      | name :: arguments =>
        let m ← get
        let meaning := m.meaning (!isPlain) name
        let isSpecial := !isPlain && Builtin.specialNames.contains (String.ofList name)
        let stays :=
          match meaning, arguments with
          | .running "exec", [] => true
          | _, _ => false
        withRedirections run redirections stays
          (do
            let values ← assignEach run (!isSpecial) assignments
            if ← isGoing then
              trace errorStream values (if isPlain then "command".toList :: fields else fields)
              invoke fuel isTested meaning name arguments
            unless isSpecial do restoreAll m (assignments.map (·.1)))
          (if isSpecial then exit 2 else pure ())

/-- Runs what a word means with arguments. -/
def invoke : Nat → Bool → Meaning → Bytes → List Bytes → Run Unit
  | 0, _, _, _, _ => exit 2
  | fuel + 1, isTested, meaning, name, arguments =>
    match meaning with
    | .builtin act =>
      if Builtin.specialNames.contains (String.ofList name) then act arguments
      else tolerate (act arguments)
    | .running "eval" => do
      let text := [' '].intercalate arguments
      succeed
      runText fuel isTested text
    | .running "." =>
      match arguments with
      | [] => pure ()
      | path :: _ => do
        let m ← get
        let found :=
          if path.contains '/' then (m.contentAt path).toOption
          else
            (((m.valueOf? "PATH".toList).getD []).splitOn ':').findSome? fun directory =>
              (m.contentAt (if directory = [] then path else directory ++ '/' :: path)).toOption
        match found with
        | none => abort (".: ".toList ++ path ++ ": not found".toList)
        | some text =>
          succeed
          runText fuel isTested text
          modify fun n => if n.flow = .returning then { n with flow := .going } else n
    | .running "exec" =>
      match arguments with
      | [] => succeed
      | name :: arguments => do
        match (← get).program name with
        | .missing => complain 127 ("exec: ".toList ++ name ++ ": not found".toList)
        | .forbidden => complain 126 ("exec: ".toList ++ name ++ ": Permission denied".toList)
        | meaning => invoke fuel isTested meaning name arguments
        exit (← get).status
    | .running "command" => describe (arguments.head? = some ['-', 'V']) (arguments.tail.take 1)
    | .running _ => describe true arguments
    | .function body => do
      let m ← get
      set
        { m with
          positional := arguments
          loops := 0
          functionDepth := m.functionDepth + 1
          hidden := [] }
      exec fuel isTested body
      modify fun n =>
        let n := n.hidden.foldl (fun n (name, old) => n.restore name old) n
        { n with
          positional := m.positional
          loops := m.loops
          functionDepth := m.functionDepth
          hidden := m.hidden
          flow := if n.flow = .returning then .going else n.flow }
    | .utility act => asChild name arguments (act arguments)
    | .wrapper program => asChild name arguments (runWrapper fuel program arguments)
    | .script path content => asChild path arguments (runFile fuel path content arguments)
    | .forbidden => complain 126 (name ++ ": Permission denied".toList)
    | .missing => complain 127 (name ++ ": not found".toList)

/-- Runs a file with the interpreter that its first line names, or as a script. -/
def runFile : Nat → Bytes → Bytes → List Bytes → Run Unit
  | 0, _, _, _ => exit 2
  | fuel + 1, path, content, arguments => do
    match interpreterLine? content with
    | none =>
      modify fun m => { m with bindings := m.initialBindings }
      runScript fuel content
    | some ([], _) =>
      modify fun m => { m with bindings := m.initialBindings }
      runScript fuel content
    | some (interpreter, argument) =>
      let words := (if argument = [] then [] else [argument]) ++ path :: arguments
      match (← get).programAt interpreter with
      | .utility act => act words
      | .wrapper program => runWrapper fuel program words
      | .script _ content => runFile fuel interpreter content words
      | .forbidden => complain 126 (path ++ ": Permission denied".toList)
      | _ => complain 127 (path ++ ": not found".toList)

/-- Runs a program that runs others. -/
def runWrapper : Nat → String → List Bytes → Run Unit
  | 0, _, _ => exit 2
  | fuel + 1, program, words =>
    if program = "env" then do
      let s := Surroundings.read (words.length + 1) words
      let (assignments, command) := s.words.span fun w => w.contains '='
      let m ← get
      let kept := if s.isEmpty then [] else m.environment.filter (!s.removed.contains ·.1)
      let changed := assignments.foldl
        (fun bindings w =>
          let (name, value) := w.span (· != '=')
          if bindings.any (·.1 == name) then
            bindings.map fun (n, v) => if n = name then (n, value.tail) else (n, v)
          else bindings ++ [(name, value.tail)])
        kept
      match command with
      | [] =>
        Utility.writeEnvironment changed
        succeed
      | name :: arguments =>
        set { m with bindings := given changed }
        match (← get).program name with
        | .missing =>
          Utility.complain "env" 127 (QuotedName.always name ++ ": No such file or directory".toList)
          if name.contains ' ' then
            Utility.complain "env" 127 "use -[v]S to pass options in shebang lines".toList
        | .forbidden =>
          Utility.complain "env" 126 (QuotedName.always name ++ ": Permission denied".toList)
        | meaning => invoke fuel false meaning name arguments
    else if program = "xargs" then do
      let (size, words) :=
        match words with
        | ['-', 'n'] :: n :: rest => (Utility.count? n, rest)
        | ('-' :: 'n' :: n) :: rest => (Utility.count? n, rest)
        | ['-', 'r'] :: rest => (none, rest)
        | words => (none, words)
      let items := (((← readAll 0).splitOnP fun c => c == ' ' || c == '\t' || c == '\n').filter (· != []))
      let command := if words = [] then ["echo".toList] else words
      let groups :=
        match size with
        | some n => groupsOf (max n 1) items.length items
        | none => [items]
      succeed
      runGroups fuel command groups
    else runShell fuel words

/-- Runs a command once for each of some groups of further arguments. -/
def runGroups : Nat → List Bytes → List (List Bytes) → Run Unit
  | 0, _, _ => exit 2
  | _, _, [] => pure ()
  | fuel + 1, command, group :: rest => do
    match command ++ group with
    | [] => pure ()
    | name :: arguments =>
      match (← get).program name with
      | .missing =>
        Utility.complain "xargs" 127 (name ++ ": No such file or directory".toList)
      | meaning =>
        let status := (← get).status
        invoke fuel false meaning name arguments
        let m ← get
        finish (if m.status != 0 then 123 else status)
        runGroups fuel command rest

/-- Runs a shell: on a text, on a file, or on what comes in. -/
def runShell : Nat → List Bytes → Run Unit
  | 0, _ => exit 2
  | fuel + 1, words => do
    modify fun m => { m with bindings := m.initialBindings, positional := [] }
    let isOption (w : Bytes) : Bool := w.length > 1 && (w.head? = some '-' || w.head? = some '+')
    let (options, others) := words.span isOption
    let isText := options.any fun w => w.contains 'c'
    let isInput := options.any fun w => w.contains 's'
    let options := options.map (·.filter (· != 'c')) |>.filter (·.length > 1)
    let words := options ++ others
    let (rest, _) ← Builtin.readOptions "" (words.length + 1) words
    if ← isGoing then
      if isText then
        match rest with
        | [] => abort "sh: 0: -c requires an argument".toList
        | text :: more =>
          modify fun m => { m with name := more.headD m.name, positional := more.tail }
          runScript fuel text
      else
        match rest, isInput with
        | [], _ => runScript fuel (← readAll 0)
        | arguments, true =>
          modify ({ · with positional := arguments })
          runScript fuel (← readAll 0)
        | path :: arguments, false =>
          match (← get).contentAt path with
          | .ok text =>
            modify ({ · with name := path, positional := arguments })
            runScript fuel text
          | .error e => abort ("sh: 0: cannot open ".toList ++ path ++ ": ".toList ++
              (if e = .notFound then "No such file" else e.reason).toList)

/-- Runs a script to its end. -/
def runScript : Nat → Bytes → Run Unit
  | 0, _ => exit 2
  | fuel + 1, text => do
    runText fuel false text
    finishScript fuel

/-- Runs the command that is to be run at the end of a script. -/
def finishScript : Nat → Run Unit
  | 0 => exit 2
  | fuel + 1 => do
    let m ← get
    match m.traps.lookup 0 with
    | some action =>
      if m.killedBy.isNone && action != [] then
        set { m with traps := m.traps.filter (·.1 != 0), flow := .going }
        runText fuel false action
        if (← get).flow != .exiting then finish m.status
    | none => pure ()

/-- Runs the commands for signals that have come. -/
def runPending : Nat → Run Unit
  | 0 => exit 2
  | fuel + 1 => do
    let m ← get
    match m.pending with
    | [] => pure ()
    | action :: rest =>
      set { m with pending := rest }
      runText fuel false action
      if ← isGoing then
        finish m.status
        runPending fuel

/-- Runs the commands of a text, line by line. -/
def runText : Nat → Bool → Bytes → Run Unit
  | 0, _, _ => exit 2
  | fuel + 1, isTested, text => do
    match Reader.line text with
    | none =>
      echoRead text []
      abort "Syntax error".toList
    | some (none, rest) => echoRead text rest
    | some (some c, rest) =>
      echoRead text rest
      exec fuel isTested c
      if ← isGoing then runText fuel isTested rest

end

end Machine

end TagVersion.Shell
