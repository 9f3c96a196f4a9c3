import TagVersion.Shell.Bytes

/-!
# Shell scripts

What scripts are made of. A word consists of fragments: texts, quoted or not, parameters, the
output of commands, and sums. Commands are simple ones with assignments and redirections, or
they are made of others.
-/

namespace TagVersion.Shell

/-- How a text stands in for a parameter. -/
inductive StandIn where
  /-- The text is used if the parameter is missing. -/
  | default
  /-- The text is also assigned. -/
  | assign
  /-- The text is used if the parameter is not missing. -/
  | alternative
  /-- The text is the complaint about a missing parameter. -/
  | demand
deriving DecidableEq, Repr

/-- How a redirected file is opened. -/
inductive OpenMode where
  | read
  | write
  | append
  | update
deriving DecidableEq, Repr

mutual

/-- A part of a word. -/
inductive Fragment where
  | text (cs : Bytes) (isQuoted : Bool)
  | parameter (name : Bytes) (change : Change) (isQuoted : Bool)
  /-- The output of a command. -/
  | output (body : Command) (isQuoted : Bool)
  /-- The value of an expression. -/
  | value (expression : List Fragment) (isQuoted : Bool)

/-- What is made of the value of a parameter. -/
inductive Change where
  | asIs
  /-- The number of its bytes. -/
  | length
  | standIn (kind : StandIn) (alsoIfEmpty : Bool) (word : List Fragment)
  /-- The value without the shortest or longest start or end that matches a pattern. -/
  | trim (atEnd isLongest : Bool) (pattern : List Fragment)
  /-- What the shell does not know. -/
  | unknown

/-- A redirected stream. -/
inductive Redirection where
  | opened (number : Nat) (mode : OpenMode) (path : List Fragment)
  /-- The stream becomes another name for the one whose number is written, or is closed. -/
  | copied (number : Nat) (source : List Fragment)
  /-- The stream reads a text. -/
  | given (number : Nat) (text : List Fragment)

/-- A command. -/
inductive Command where
  | simple (assignments : List (Bytes × List Fragment)) (words : List (List Fragment))
    (redirections : List Redirection)
  | redirected (body : Command) (redirections : List Redirection)
  /-- A command that cannot change the state of the shell. -/
  | enclosed (body : Command)
  | background (body : Command)
  | sequence (commands : List Command)
  | both (first second : Command)
  | either (first second : Command)
  | negated (body : Command)
  /-- Commands of which each reads what the one before writes. -/
  | pipeline (commands : List Command)
  | conditional (condition body : Command) (otherwise : Option Command)
  | loop (isUntil : Bool) (condition body : Command)
  /-- A command for each of some words, or for each positional parameter. -/
  | forEach (name : Bytes) (words : Option (List (List Fragment))) (body : Command)
  | choice (word : List Fragment) (branches : List (List (List Fragment) × Command))
  | define (name : Bytes) (body : Command)

end

abbrev Word := List Fragment

/-- The command that does nothing. -/
def Command.nothing : Command := .sequence []

instance : Inhabited Command := ⟨.nothing⟩

/-! ### Characters -/

def isNameStart (c : Char) : Bool :=
  c.isAlpha || c == '_'

def isNameChar (c : Char) : Bool :=
  c.isAlphanum || c == '_'

/-- Whether a text is the name of a variable. -/
def isName (cs : Bytes) : Bool :=
  cs.head?.any isNameStart && cs.all isNameChar

/-- The characters that end a word. -/
def isMeta (c : Char) : Bool :=
  [' ', '\t', '\n', ';', '&', '|', '<', '>', '(', ')'].contains c

/-- The parameters that are named by a sign. -/
def isSign (c : Char) : Bool :=
  ['?', '$', '#', '!', '-', '@', '*'].contains c

/-- The words that begin or end commands. -/
def reservedWords : List String :=
  ["!", "case", "do", "done", "elif", "else", "esac", "fi", "for", "if", "in", "then", "until",
    "while", "\x7b", "\x7d"]

/-- The reserved words that only stand after a command. -/
def closingWords : List String :=
  ["do", "done", "elif", "else", "esac", "fi", "then", "\x7d"]

end TagVersion.Shell
