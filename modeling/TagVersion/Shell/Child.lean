import TagVersion.Shell.Programs.Table

/-!
# Programs that run apart

A program starts with the variables that programs get to see, and leaves nothing behind but what
it did to files and streams.
-/

namespace TagVersion.Shell

/-- The arguments of the program that changes variables for another one. -/
structure Surroundings where
  isEmpty : Bool
  removed : List Bytes
  words : List Bytes

/-- Reads the options of the program that changes variables for another one. -/
def Surroundings.read : Nat → List Bytes → Surroundings
  | 0, words => ⟨false, [], words⟩
  | fuel + 1, words =>
    match words with
    | ['-', 'i'] :: rest => { read fuel rest with isEmpty := true }
    | ['-'] :: rest => { read fuel rest with isEmpty := true }
    | ['-', '-'] :: rest => ⟨false, [], rest⟩
    | ['-', 'u'] :: name :: rest =>
      let s := read fuel rest
      { s with removed := name :: s.removed }
    | ('-' :: 'S' :: text) :: rest =>
      read fuel ((text.splitOn ' ').filter (· != []) ++ rest)
    | words => ⟨false, [], words⟩

/-- Cuts words into groups of a size, as far as the given number of groups goes. -/
def groupsOf (size : Nat) : Nat → List Bytes → List (List Bytes)
  | 0, _ => []
  | _, [] => []
  | count + 1, words => words.take size :: groupsOf size count (words.drop size)

namespace Machine

/-- The state in which a program starts: with the variables that programs get to see, and
without what only a running script has. -/
def childOf (m : Machine) (name : Bytes) (arguments : List Bytes) : Machine :=
  { m with
    name
    positional := arguments
    bindings := given m.environment
    functions := []
    flags := []
    traps := m.traps.filter (·.2 = [])
    pending := []
    status := 0
    outputStatus := none
    background := none
    flow := .going
    loops := 0
    isApart := false
    functionDepth := 0
    hidden := [] }

/-- What the shell says about a program that a signal ended. -/
def obituary (signal : Nat) : Bytes :=
  ((([(2, ""), (13, ""), (1, "Hangup"), (3, "Quit"), (6, "Aborted"), (9, "Killed"),
    (10, "User defined signal 1"), (12, "User defined signal 2"), (14, "Alarm clock"),
    (15, "Terminated")] : List (Nat × String)).lookup signal).getD "").toList

/-- Runs a program apart from the script, as its child. -/
def asChild (name : Bytes) (arguments : List Bytes) (act : Run Unit) : Run Unit := do
  let m ← get
  let (_, n) := act (m.childOf name arguments)
  set
    { m with
      files := n.files
      streams := n.streams
      output := n.output
      errors := n.errors
      status := n.status % 256 }
  match n.killedBy with
  | none => pure ()
  | some signal =>
    unless obituary signal = [] do emit 2 (obituary signal ++ ['\n'])
    finish (128 + signal)

/-- The interpreter that the first line of a script names, with its argument. -/
def interpreterLine? (content : Bytes) : Option (Bytes × Bytes) :=
  match content with
  | '#' :: '!' :: rest =>
    let isBlank (c : Char) : Bool := c == ' ' || c == '\t'
    let line := (rest.takeWhile (· != '\n')).dropWhile isBlank
    let (path, argument) := line.span (!isBlank ·)
    some (path, ((argument.dropWhile isBlank).reverse.dropWhile isBlank).reverse)
  | _ => none

end Machine

end TagVersion.Shell
