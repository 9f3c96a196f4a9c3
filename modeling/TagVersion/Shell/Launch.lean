import TagVersion.Environment.Lookup
import TagVersion.Shell.Interpreter

/-!
# Starting programs

A file is started as a program if somebody may execute it and its first line names an
interpreter. What a program does to the files, and how it ends, is all that is known of it.

The hook of a release is such a program. A release takes it as its `Host` has it, and what is
proved of releases holds for every host. One host is built here, so that hooks can be run at all:
the other modules of the shell are there for it alone. They stand in for `/bin/sh` and for the
programs that scripts call to write messages and to read, search and change files. What such
scripts do not call is left out: networks, other users, real time, terminals. Of a symbolic link
they see only where it leads.
-/

namespace TagVersion

/-- A program to be started. -/
structure Program where
  /-- Where the program lies. -/
  location : Location
  /-- The path of the directory to start it in. -/
  directory : String
  /-- The variables it is given besides those of the surroundings. -/
  extra : Environment

/-- How a program ended. -/
structure Outcome where
  /-- The status with which it ended; none if a signal ended it. -/
  status : Option Nat
  output : ByteArray
  errors : ByteArray

/-- The surroundings in which projects are worked on: the variables, and what starting a program
does to the files. -/
structure Host where
  environment : Environment
  start : Program → FileTree → FileTree × Except SystemError Outcome

namespace Shell

/-- The state in which a program is started that is nobody's child. Its variables are in the
order of their names, and nothing comes in. -/
def firstMachine (environment : Environment) (directory : Location) (files : FileTree) : Machine :=
  let sorted := (environment.map fun (name, value) => (ofText name, ofText value)).mergeSort
    fun a b => notAfter a.1 b.1
  { files, directory
    name := [], bindings := Machine.given sorted, positional := [], functions := [], flags := []
    traps := [], pending := [], streams := [.nothing, .output, .errors]
    descriptors := [(0, 0), (1, 1), (2, 2)], output := [], errors := [], status := 0
    outputStatus := none, flow := .going, background := none, killedBy := none, loops := 0
    isApart := false, functionDepth := 0, hidden := [] }

/-- The greatest number of scripts that can be interpreters of each other. -/
def maxInterpreters : Nat := 5

/-- Why a file cannot be started: its first line names no interpreter, or none that can be
started. -/
def obstacle? (m : Machine) (content : Bytes) : Nat → Option SystemError
  | 0 => some .notExecutableFormat
  | fuel + 1 =>
    match Machine.interpreterLine? content with
    | none => some .notExecutableFormat
    | some ([], _) => some .notExecutableFormat
    | some (path, _) =>
      match m.programAt path with
      | .missing => some .notFound
      | .forbidden => some .permissionDenied
      | .script _ content => obstacle? m content fuel
      | _ => none

/-- The greatest number of nested steps in which a script runs. -/
def maxSteps : Nat := 100000000

/-- Runs a file at a location. -/
def runAt (m : Machine) (location : Location) (content : Bytes) : FileTree × Outcome :=
  let path := Machine.pathOf location
  let (_, m) := Machine.runFile maxSteps path content [] { m with name := path }
  (m.files,
    { status := if m.killedBy.isSome then none else some (m.status % 256)
      output := ⟨(toBytes m.output).toArray⟩
      errors := ⟨(toBytes m.errors).toArray⟩ })

/-- Whether a text can be handed to a program. -/
def isPassable (s : String) : Bool :=
  !s.toList.contains '\x00'

/-- Starts a program. What is wrong with its arguments is found first, then what is wrong with
its directory, then what is wrong with the program. -/
def start (environment : Environment) (p : Program) (files : FileTree) :
    FileTree × Except SystemError Outcome :=
  if !(isPassable p.directory && p.extra.all fun (n, v) => isPassable n && isPassable v) then
    (files, .error .nulInArgument)
  else
    match files.resolve p.directory with
    | .error e => (files, .error e)
    | .ok directory =>
      match files.node? directory, files.node? p.location with
      | none, _ => (files, .error .notFound)
      | some .directory, some (.file content mode) =>
        if mode &&& 0o111 = 0 then (files, .error .permissionDenied)
        else
          let env := p.extra.foldl (fun env (n, v) => env.set n v) environment
          let m := firstMachine env directory files
          let content := ofBytes content.toList
          match obstacle? m content maxInterpreters with
          | some e => (files, .error e)
          | none =>
            let (files, outcome) := runAt m p.location content
            (files, .ok outcome)
      | some .directory, _ => (files, .error .notFound)
      | some _, _ => (files, .error .notADirectory)

/-- Surroundings in which shell scripts can be run. -/
def host (environment : Environment) : Host where
  environment
  start := start environment

end Shell

end TagVersion
