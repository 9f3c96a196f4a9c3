import TagVersion.Shell.Builtins

/-!
# What words mean as commands

The first word of a command names a command of the shell, a function, or a program. Programs
without a path are looked for along the search path.
-/

namespace TagVersion.Shell

/-- The search path that is used without any other. -/
def usualSearchPath : Bytes := "/usr/local/bin:/usr/bin:/bin".toList

/-- What a word names as a command. -/
inductive Meaning where
  | builtin (act : List Bytes → Run Unit)
  /-- A command of the shell that runs others. -/
  | running (name : String)
  | function (body : Command)
  | utility (act : Utility)
  /-- A program that runs others. -/
  | wrapper (name : String)
  | script (path content : Bytes)
  | forbidden
  | missing

/-- The programs that are shells. -/
def shellNames : List String := ["sh", "dash", "bash"]

/-- The programs that run others. -/
def wrapperNames : List String := ["env", "xargs"] ++ shellNames

namespace Machine

/-- What the name of a program of the system means. -/
def systemMeaning (name : String) : Meaning :=
  if wrapperNames.contains name then .wrapper name
  else
    match Utility.all.lookup name with
    | some act => .utility act
    | none => .missing

/-- What a path means as a command. -/
def programAt (m : Machine) (path : Bytes) : Meaning :=
  match programName? path with
  | some name => systemMeaning name
  | none =>
    match m.nodeAt? path with
    | none => .missing
    | some (.file content mode) =>
      if mode &&& 0o111 = 0 then .forbidden else .script path (ofBytes content.toList)
    | some _ => .forbidden

/-- The path of the first program of a name along the search path. -/
def searchedPath? (m : Machine) (name : Bytes) : Option Bytes :=
  let directories := ((m.valueOf? "PATH".toList).getD usualSearchPath).splitOn ':'
  let paths := directories.map fun directory =>
    if directory = [] then name else directory ++ '/' :: name
  paths.find? fun path =>
    match m.programAt path with
    | .missing => false
    | .forbidden => false
    | _ => true

/-- What a name means along the search path. -/
def searched (m : Machine) (name : Bytes) : Meaning :=
  match m.searchedPath? name with
  | some path => m.programAt path
  | none => .missing

/-- What a word means as a program. -/
def program (m : Machine) (name : Bytes) : Meaning :=
  if name = [] then .missing
  else if name.contains '/' then m.programAt name
  else m.searched name

/-- What a word means as a command: special commands come before functions, and these before
other commands of the shell. -/
def meaning (m : Machine) (seesFunctions : Bool) (name : Bytes) : Meaning :=
  let text := String.ofList name
  let ofShell : Option Meaning :=
    if Builtin.runningNames.contains text then some (.running text)
    else (Builtin.all.lookup text).map .builtin
  let function : Option Meaning :=
    if seesFunctions then (m.functions.lookup name).map .function else none
  if Builtin.specialNames.contains text then ofShell.getD .missing
  else (function <|> ofShell).getD (m.program name)

/-! ### What commands are -/

/-- The words after the one that keeps functions and special commands from being seen, and
whether there was one. It stays where it is asked what a word means. -/
def withoutLead (isPlain : Bool) : List Bytes → Bool × List Bytes
  | name :: rest =>
    if name = "command".toList then
      match rest with
      | ['-', 'v'] :: _ => (isPlain, name :: rest)
      | ['-', 'V'] :: _ => (isPlain, name :: rest)
      | ['-', 'p'] :: rest => withoutLead true rest
      | ['-', '-'] :: rest => withoutLead true rest
      | rest => withoutLead true rest
    else (isPlain, name :: rest)
  | [] => (isPlain, [])

/-- Writes what names mean as commands: briefly, or in words. -/
def describe (inWords : Bool) (names : List Bytes) : Run Unit := do
  succeed
  for name in names do
    let m ← get
    let text := String.ofList name
    let say (brief : Bytes) (words : String) : Run Unit :=
      emit 1 ((if inWords then name ++ ' ' :: words.toList else brief) ++ ['\n'])
    if reservedWords.contains text then say name "is a shell keyword"
    else
      match m.meaning true name with
      | .builtin _ => sayBuiltin say text name
      | .running _ => sayBuiltin say text name
      | .function _ => say name "is a shell function"
      | .missing => sayMissing name
      | .forbidden => sayMissing name
      | _ =>
        let path := if name.contains '/' then name else (m.searchedPath? name).getD name
        say path ("is " ++ String.ofList path)
where
  sayBuiltin (say : Bytes → String → Run Unit) (text : String) (name : Bytes) : Run Unit :=
    say name
      (if Builtin.specialNames.contains text then "is a special shell builtin"
        else "is a shell builtin")
  sayMissing (name : Bytes) : Run Unit := do
    if inWords then emit 1 (name ++ ": not found\n".toList)
    finish 127

end Machine

end TagVersion.Shell
