import TagVersion.Shell.Condition
import TagVersion.Shell.Output
import TagVersion.Shell.Programs.LineEditor
import TagVersion.Shell.Programs.Search
import TagVersion.Shell.Programs.Values

/-!
# The programs by their names

The programs that scripts find along the search path, apart from those that run others.
-/

namespace TagVersion.Shell

namespace Utility

open Machine

/-- Writes variables as they are assigned. -/
def writeEnvironment (bindings : List (Bytes × Bytes)) : Run Unit :=
  emit 1 (bindings.flatMap fun (name, value) => name ++ '=' :: value ++ ['\n'])

/-- Writes the values of variables. -/
def printVariables : Utility := fun words => do
  let bindings := (← get).environment
  succeed
  if words = [] then writeEnvironment bindings
  for name in words do
    match bindings.lookup name with
    | some value => emit 1 (value ++ ['\n'])
    | none => finish 1

/-- Ends as a condition says. -/
def evaluateCondition (words : List Bytes) : Run Unit := do
  match Condition.holds? (← get) words with
  | some b => finish (if b then 0 else 1)
  | none => Machine.complain 2 "test: syntax error".toList

/-- Ends as a condition between brackets says. -/
def evaluateBracketed (words : List Bytes) : Run Unit :=
  if words.getLast? = some [']'] then evaluateCondition words.dropLast
  else Machine.complain 2 "[: missing ]".toList

/-- Writes words. -/
def echo (words : List Bytes) : Run Unit := do
  emit 1 (echoText words)
  succeed

/-- Writes words as a format says. -/
def writeFormatted (words : List Bytes) : Run Unit := do
  let words := if words.head? = some ['-', '-'] then words.tail else words
  match words with
  | [] => Machine.complain 2 "printf: usage: printf format [arg ...]".toList
  | format :: arguments =>
    let (f, isFormat) := formatted format arguments
    emit 1 f.written
    succeed
    for complaint in f.complaints do
      Machine.complain 1 ("printf: ".toList ++ complaint)
    unless isFormat do Machine.complain 2 "printf: invalid directive".toList

/-- The programs by their names. -/
def all : List (String × Utility) :=
  [("cat", concatenate), ("tee", tee), ("tac", reverseLines), ("rev", reverseBytes),
    ("head", writeFirst), ("tail", writeLast), ("wc", countAll), ("sort", sortLines),
    ("uniq", dropRepeated), ("cut", cutColumns), ("tr", translate), ("touch", touch),
    ("mkdir", makeDirectories), ("rm", remove), ("rmdir", removeDirectories), ("cp", copy),
    ("mv", move), ("chmod", changeMode), ("ls", list), ("basename", writeBaseNames),
    ("dirname", writeDirectoryNames), ("seq", writeSequence), ("expr", evaluateWords),
    ("grep", search "grep" none), ("egrep", search "grep" (some 'E')),
    ("fgrep", search "grep" (some 'F')), ("sed", editLines), ("printenv", printVariables),
    ("true", fun _ => succeed), ("false", fun _ => finish 1), ("sleep", fun _ => succeed),
    ("sync", fun _ => succeed), ("echo", echo), ("printf", writeFormatted),
    ("test", evaluateCondition), ("[", evaluateBracketed)]

end Utility

end TagVersion.Shell
