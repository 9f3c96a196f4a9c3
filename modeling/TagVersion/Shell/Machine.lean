import TagVersion.Files.Tree
import TagVersion.Shell.Syntax

/-!
# The state of a running script

A script runs over a file tree from a directory in it, with variables, functions and numbered
streams. Streams with different numbers may be one and the same, so the numbers point into a
table of streams, which only grows; commands that run apart from the others have numbers of
their own, but share the table.
-/

namespace TagVersion.Shell

/-- A variable; one that is only marked for export has no value. -/
structure Variable where
  value : Option Bytes
  isExported : Bool
  isReadOnly : Bool
deriving DecidableEq, Repr

/-- Where what is written to a stream goes, and where what is read from it comes from. -/
inductive Stream where
  | output
  | errors
  | nothing
  /-- A file from a place in it on; what is appended goes to its end. -/
  | file (loc : Location) (offset : Nat) (appends : Bool)
  /-- What was written to a pipe, the first bytes of which have been read. -/
  | pipe (content : Bytes) (taken : Nat)
deriving DecidableEq, Repr

/-- What is to be done after a command. -/
inductive Flow where
  | going
  /-- To leave this many loops. -/
  | breaking (levels : Nat)
  /-- To begin the next round of a loop after leaving this many loops within it. -/
  | continuing (levels : Nat)
  | returning
  | exiting
deriving DecidableEq, Repr

/-- A script between two commands. -/
structure Machine where
  files : FileTree
  directory : Location
  /-- The name by which the script was started. -/
  name : Bytes
  bindings : List (Bytes × Variable)
  positional : List Bytes
  functions : List (Bytes × Command)
  /-- The options that are on, by their letters. -/
  flags : List Char
  /-- The commands for signals, by their numbers; zero is the end of the script. -/
  traps : List (Nat × Bytes)
  /-- The commands for signals that have come and that are still to be run. -/
  pending : List Bytes
  streams : List Stream
  /-- The streams by their numbers. -/
  descriptors : List (Nat × Nat)
  output : Bytes
  errors : Bytes
  status : Nat
  /-- The status of the last command whose output was put into a word. -/
  outputStatus : Option Nat
  flow : Flow
  /-- The status of the last command that ran in the background. -/
  background : Option Nat
  /-- The signal that ended the script. -/
  killedBy : Option Nat
  /-- The number of loops around the present command. -/
  loops : Nat
  /-- Whether commands run apart from the script, which a signal to it does not end. -/
  isApart : Bool
  /-- The number of functions that are being run. -/
  functionDepth : Nat
  /-- The variables to be put back at the end of the present function. -/
  hidden : List (Bytes × Option Variable)

/-- A step of a script. -/
abbrev Run := StateM Machine

/-- The number of the process that runs a script. -/
def processNumber : Nat := 2

/-- The number of a process that ran in the background. -/
def backgroundNumber : Nat := 3

namespace Machine

/-- Puts an entry in place of the one of the same key, or before all others. -/
def putEntry {α : Type} {β : Type} [BEq α] (entries : List (α × β)) (key : α) (value : β) :
    List (α × β) :=
  if entries.any fun (k, _) => k == key then
    entries.map fun (k, v) => if k == key then (k, value) else (k, v)
  else (key, value) :: entries

def hasFlag (m : Machine) (flag : Char) : Bool :=
  m.flags.contains flag

/-! ### Options -/

/-- The options by their letters and names, in the order in which they are listed. -/
def optionNames : List (Char × String) :=
  [('e', "errexit"), ('f', "noglob"), ('I', "ignoreeof"), ('i', "interactive"), ('m', "monitor"),
    ('n', "noexec"), ('s', "stdin"), ('x', "xtrace"), ('v', "verbose"), ('V', "vi"), ('E', "emacs"),
    ('C', "noclobber"), ('a', "allexport"), ('b', "notify"), ('u', "nounset")]

/-- The letters of the options that are on, the ones listed last first. -/
def lettersOn (m : Machine) : Bytes :=
  (optionNames.map (·.1)).reverse.filter m.hasFlag

/-! ### Status -/

def finish (status : Nat) : Run Unit :=
  modify ({ · with status })

def succeed : Run Unit := finish 0

def isGoing : Run Bool := do
  return (← get).flow = .going

/-- Ends the script. -/
def exit (status : Nat) : Run Unit :=
  modify ({ · with status, flow := .exiting })

/-! ### Streams -/

/-- What is written at a place of a file. -/
def overwrite (content : Bytes) (offset : Nat) (cs : Bytes) : Bytes :=
  let before := content.take offset
  before ++ List.replicate (offset - before.length) '\x00' ++ cs ++
    content.drop (offset + cs.length)

/-- Appends to a stream in the table. -/
def write (m : Machine) (index : Nat) (cs : Bytes) : Machine :=
  match m.streams[index]? with
  | some .output => { m with output := m.output ++ cs }
  | some .errors => { m with errors := m.errors ++ cs }
  | some (.pipe content taken) =>
    { m with streams := m.streams.set index (.pipe (content ++ cs) taken) }
  | some (.file loc offset appends) =>
    match m.files.node? loc with
    | some (.file content mode) =>
      let content := ofBytes content.toList
      let offset := if appends then content.length else offset
      let content := toBytes (overwrite content offset cs)
      { m with
        files := m.files.put loc (.file ⟨content.toArray⟩ mode)
        streams := m.streams.set index (.file loc (offset + cs.length) appends) }
    | _ => m
  | _ => m

/-- Writes to a stream. -/
def emit (number : Nat) (cs : Bytes) : Run Unit :=
  modify fun m =>
    match m.descriptors.lookup number with
    | some index => if cs = [] then m else m.write index cs
    | none => m

/-- Writes a line about a failure and fails. -/
def complain (status : Nat) (message : Bytes) : Run Unit := do
  emit 2 (message ++ ['\n'])
  finish status

/-- Writes a line about an error and ends the script. -/
def abort (message : Bytes) : Run Unit := do
  emit 2 (message ++ ['\n'])
  exit 2

/-- What is left to be read of a stream. -/
def unread (m : Machine) (number : Nat) : Bytes :=
  match (m.descriptors.lookup number).bind fun index => m.streams[index]? with
  | some (.pipe content taken) => content.drop taken
  | some (.file loc offset _) =>
    match m.files.node? loc with
    | some (.file content _) => (ofBytes content.toList).drop offset
    | _ => []
  | _ => []

/-- Passes over what was read of a stream. -/
def skip (m : Machine) (number count : Nat) : Machine :=
  match m.descriptors.lookup number with
  | none => m
  | some index =>
    match m.streams[index]? with
    | some (.pipe content taken) =>
      { m with streams := m.streams.set index (.pipe content (taken + count)) }
    | some (.file loc offset appends) =>
      { m with streams := m.streams.set index (.file loc (offset + count) appends) }
    | _ => m

/-- Reads all that is left of a stream. -/
def readAll (number : Nat) : Run Bytes := do
  let m ← get
  let cs := m.unread number
  set (m.skip number cs.length)
  return cs

/-- Reads a line of a stream without its end. The flag tells whether the line has one. -/
def readLine (number : Nat) : Run (Bytes × Bool) := do
  let m ← get
  match (m.unread number).span (· != '\n') with
  | (cs, rest) =>
    set (m.skip number (cs.length + (if rest = [] then 0 else 1)))
    return (cs, rest != [])

/-- Adds a stream to the table and gives it a number. -/
def connect (number : Nat) (stream : Stream) : Run Unit :=
  modify fun m =>
    { m with
      streams := m.streams ++ [stream]
      descriptors := putEntry m.descriptors number m.streams.length }

/-! ### Variables -/

/-- What separates fields unless another choice is made. -/
def usualSeparators : Bytes := [' ', '\t', '\n']

def separatorName : Bytes := "IFS".toList

/-- The value of a variable. -/
def valueOf? (m : Machine) (name : Bytes) : Option Bytes :=
  (m.bindings.lookup name).bind (·.value)

/-- The characters that separate fields. -/
def separators (m : Machine) : Bytes :=
  (m.valueOf? separatorName).getD usualSeparators

/-- Gives a variable a value. -/
def bind (m : Machine) (name value : Bytes) : Machine :=
  let old := m.bindings.lookup name
  { m with
    bindings := putEntry m.bindings name
      { value := some value
        isExported := old.any (·.isExported) || m.hasFlag 'a'
        isReadOnly := false } }

/-- Whether a variable may be changed. -/
def mayChange (m : Machine) (name : Bytes) : Bool :=
  !(m.bindings.lookup name).any (·.isReadOnly)

/-- Assigns to a variable; it is an error if that may not be changed. -/
def assign (name value : Bytes) : Run Unit := do
  let m ← get
  if m.mayChange name then set (m.bind name value)
  else abort (name ++ ": is read only".toList)

/-- The number by which the shell keeps variables in groups. -/
def groupOf (name : Bytes) : Nat :=
  ((name.headD '\x00').toNat * 16 + name.foldl (fun sum c => sum + c.toNat) 0) % 39

/-- The variables that programs get to see: group by group, and the oldest of a group first. -/
def environment (m : Machine) : List (Bytes × Bytes) :=
  let visible := m.bindings.reverse.filterMap fun (name, v) =>
    match v.value with
    | some value => if v.isExported then some (name, value) else none
    | none => none
  visible.mergeSort fun (a, _) (b, _) => decide (groupOf a ≤ groupOf b)

/-- The variables that a program starts with, the newest first. -/
def given (environment : List (Bytes × Bytes)) : List (Bytes × Variable) :=
  (environment.map fun (name, value) =>
    (name, { value := some value, isExported := true, isReadOnly := false })).reverse

/-- The path of the working directory, as scripts get to see it. -/
def basePath : String := "/work"

/-- The path of a location, as scripts get to see it. -/
def pathOf (loc : Location) : Bytes :=
  ofText basePath ++ loc.flatMap fun name => '/' :: ofText name

/-- The variables that a script starts with: those that the program was given, and some that the
shell sets before or after them. -/
def initialBindings (m : Machine) : List (Bytes × Variable) :=
  let hidden (value : Bytes) : Variable :=
    { value := some value, isExported := false, isReadOnly := false }
  let imported := m.bindings.filter fun (name, _) => name != separatorName && isName name
  let isImported (name : Bytes) : Bool := imported.any (·.1 == name)
  let missing (entries : List (Bytes × Variable)) : List (Bytes × Variable) :=
    entries.filter (!isImported ·.1)
  missing
      [("PWD".toList, { hidden (pathOf m.directory) with isExported := true }),
        ("PPID".toList, hidden ['1'])] ++
    imported ++
    missing
      [("OPTIND".toList, hidden ['1']),
        ("PS1".toList, hidden "# ".toList),
        ("PS2".toList, hidden "> ".toList),
        ("PS4".toList, hidden "+ ".toList),
        ("PATH".toList, hidden "/usr/local/sbin:/usr/local/bin:/usr/sbin:/usr/bin:/sbin:/bin".toList),
        (separatorName, hidden usualSeparators)]

/-! ### Files -/

/-- The location that a path leads to. An absolute path has to lead into the working
directory. -/
def locate (m : Machine) (path : Bytes) : Except SystemError Location :=
  let text := toText path
  if Path.isAbsolute text then
    let names := Path.names text
    let above := Path.names basePath
    if above.isPrefixOf names then m.files.walk FileTree.maxLinks [] (names.drop above.length)
    else .error .notFound
  else m.files.resolveFrom m.directory text

def locate? (m : Machine) (path : Bytes) : Option Location :=
  (m.locate path).toOption

/-- The file of the system that takes all and gives nothing. -/
def nullFile : Bytes := "/dev/null".toList

/-- The directories of the system, of whose contents nothing is known. -/
def systemDirectories : List String :=
  ["/", "/bin", "/dev", "/etc", "/lib", "/tmp", "/usr", "/usr/bin", "/usr/lib", "/var"]

/-- The directories in which the programs of the system lie. -/
def programDirectories : List String := ["/bin/", "/usr/bin/"]

/-- The names of the programs of the system. -/
def programNames : List String :=
  ["[", "basename", "bash", "cat", "chmod", "cp", "cut", "dash", "dirname", "echo", "egrep", "env",
    "expr", "false", "fgrep", "grep", "head", "ls", "mkdir", "mv", "printenv", "printf", "rev", "rm",
    "rmdir", "sed", "seq", "sh", "sleep", "sort", "sync", "tac", "tail", "tee", "test", "touch", "tr",
    "true", "uniq", "wc", "xargs"]

/-- The name of the program of the system that a path leads to. -/
def programName? (path : Bytes) : Option String :=
  programDirectories.findSome? fun directory =>
    if directory.toList.isPrefixOf path then
      let name := String.ofList (path.drop directory.length)
      if programNames.contains name then some name else none
    else none

/-- What a path leads to. Of the programs of the system only their permissions are known. -/
def nodeAt? (m : Machine) (path : Bytes) : Option FileNode :=
  if systemDirectories.contains (toText path) then some .directory
  else if (programName? path).isSome then some (.file ByteArray.empty 0o755)
  else (m.locate? path).bind m.files.node?

/-- What lies in the file that a path leads to. -/
def contentAt (m : Machine) (path : Bytes) : Except SystemError Bytes :=
  if path = nullFile then .ok []
  else
    match m.locate path with
    | .error e => .error e
    | .ok loc =>
      match m.files.node? loc with
      | some (.file content _) => .ok (ofBytes content.toList)
      | some .directory => .error .isADirectory
      | some (.link _) => .error .tooManyLinks
      | none => .error .notFound

/-- Opens a file. Where it is written to, it is made if it is missing, and what it held is
dropped unless the mode says otherwise. -/
def openFile? (m : Machine) (mode : OpenMode) (path : Bytes) : Option (Machine × Stream) := do
  if path = nullFile then return (m, .nothing)
  let loc ← m.locate? path
  match m.files.node? loc, mode with
  | some .directory, .read => return (m, .nothing)
  | some .directory, _ => none
  | some (.link _), _ => none
  | some (.file ..), .write =>
    let files ← (m.files.writeAt loc ByteArray.empty).toOption
    return ({ m with files }, .file loc 0 false)
  | some (.file ..), mode => return (m, .file loc 0 (mode = .append))
  | none, .read => none
  | none, mode =>
    let files ← (m.files.writeAt loc ByteArray.empty).toOption
    return ({ m with files }, .file loc 0 (mode = .append))

/-- The names of what lies in a directory. -/
def namesIn (m : Machine) (loc : Location) : List Bytes :=
  m.files.nodes.filterMap fun (l, _) =>
    if l != [] && l.dropLast = loc then l.getLast?.map ofText else none

end Machine

end TagVersion.Shell
