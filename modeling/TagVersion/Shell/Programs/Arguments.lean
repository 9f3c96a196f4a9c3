import TagVersion.Shell.Machine
import TagVersion.Shell.QuotedName

/-!
# Arguments of programs

Programs take options, some of them with values, and operands. Options are letters after a
hyphen, several of which may share one, or names after two hyphens. They may stand between
operands; two hyphens alone end them.
-/

namespace TagVersion.Shell

/-- The options that a program knows. -/
structure Options where
  /-- The letters of options without a value. -/
  flags : List Char
  /-- The letters of options with a value. -/
  valued : List Char
  /-- Names that stand for letters. -/
  names : List (String × Char)
  /-- Whether the first operand ends the options. -/
  endsAtOperand : Bool

/-- What a program is given. -/
structure Arguments where
  options : List (Char × Bytes)
  operands : List Bytes

namespace Arguments

def has (a : Arguments) (letter : Char) : Bool :=
  a.options.any (·.1 == letter)

/-- The value given last for an option. -/
def value? (a : Arguments) (letter : Char) : Option Bytes :=
  a.options.reverse.lookup letter

end Arguments

namespace Options

/-- Options that are all single letters. -/
def ofLetters (flags valued : String) (names : List (String × Char)) : Options :=
  { flags := flags.toList, valued := valued.toList, names, endsAtOperand := false }

/-- The options of a word of letters. The value of the last one may be the next word. -/
def readLetters (o : Options) (words : List Bytes) :
    Bytes → Except Bytes (List (Char × Bytes) × List Bytes)
  | [] => .ok ([], words)
  | c :: cs =>
    if o.flags.contains c then
      (o.readLetters words cs).map fun (more, words) => ((c, []) :: more, words)
    else if o.valued.contains c then
      if cs != [] then .ok ([(c, cs)], words)
      else
        match words with
        | value :: words => .ok ([(c, value)], words)
        | [] => .error ("option requires an argument -- '".toList ++ [c, '\''])
    else .error ("invalid option -- '".toList ++ [c, '\''])

/-- The option that a word names. -/
def readName (o : Options) (words : List Bytes) (word : Bytes) :
    Except Bytes (List (Char × Bytes) × List Bytes) :=
  let (name, value) := word.span (· != '=')
  match o.names.lookup (String.ofList name) with
  | none => .error ("unrecognized option '--".toList ++ word ++ ['\''])
  | some c =>
    if o.valued.contains c && value = [] then
      match words with
      | value :: words => .ok ([(c, value)], words)
      | [] => .error ("option '--".toList ++ name ++ "' requires an argument".toList)
    else .ok ([(c, value.tail)], words)

/-- The arguments that words make. -/
def readFrom (o : Options) : Nat → List Bytes → Except Bytes Arguments
  | 0, words => .ok ⟨[], words⟩
  | fuel + 1, words =>
    match words with
    | [] => .ok ⟨[], []⟩
    | ['-', '-'] :: rest => .ok ⟨[], rest⟩
    | ('-' :: '-' :: word) :: rest => do
      let (options, rest) ← o.readName rest word
      let a ← o.readFrom fuel rest
      return { a with options := options ++ a.options }
    | ('-' :: c :: cs) :: rest => do
      let (options, rest) ← o.readLetters rest (c :: cs)
      let a ← o.readFrom fuel rest
      return { a with options := options ++ a.options }
    | operand :: rest =>
      if o.endsAtOperand then .ok ⟨[], operand :: rest⟩
      else do
        let a ← o.readFrom fuel rest
        return { a with operands := operand :: a.operands }

/-- The arguments that words make, or what is wrong with them. -/
def read (o : Options) (words : List Bytes) : Except Bytes Arguments :=
  o.readFrom (words.length + 1) words

end Options

/-! ### Programs -/

/-- A program that runs on the words after its name. -/
abbrev Utility := List Bytes → Run Unit

namespace Utility

open Machine

/-- A complaint of a program. -/
def complain (program : String) (status : Nat) (message : Bytes) : Run Unit :=
  Machine.complain status (program.toList ++ ':' :: ' ' :: message)

/-- A complaint that is about a name. -/
def blame (program : String) (status : Nat) (name : Bytes) (e : SystemError) : Run Unit :=
  complain program status (QuotedName.ifNeeded name ++ ':' :: ' ' :: e.reason.toList)

/-- A complaint about the words of a program, with the advice to ask for help. -/
def misuse (program : String) (status : Nat) (message : Bytes) : Run Unit :=
  complain program status
    (message ++ "\nTry '".toList ++ program.toList ++ " --help' for more information.".toList)

/-- A program with options. It starts out as a success. -/
def withOptions (program : String) (status : Nat) (o : Options) (act : Arguments → Run Unit) :
    Utility := fun words => do
  match o.read words with
  | .ok a => do
    succeed
    act a
  | .error message => misuse program status message

/-- The complaint that there are too few operands. -/
def missingOperand (program : String) (status : Nat) : Run Unit :=
  misuse program status "missing operand".toList

/-- Complains about missing operands or about the last one if it is one too many. -/
def expectOperands (program : String) (least most : Nat) (operands : List Bytes)
    (act : Run Unit) : Run Unit :=
  if operands.length < least then
    match operands.getLast? with
    | none => missingOperand program 1
    | some last =>
      misuse program 1 ("missing operand after ".toList ++ QuotedName.always last)
  else
    match operands.drop most with
    | extra :: _ => misuse program 1 ("extra operand ".toList ++ QuotedName.always extra)
    | [] => act

/-- A count that programs are given. -/
def count? (cs : Bytes) : Option Nat :=
  if cs != [] && cs.all Char.isDigit then some (Nat.ofDigitChars 10 cs 0) else none

/-- The name that stands for the input of a program. -/
def inputName : Bytes := ['-']

/-- What lies in a file, or comes in. -/
def content (name : Bytes) : Run (Except SystemError Bytes) := do
  if name = inputName then return .ok (← readAll 0)
  else return (← get).contentAt name

/-- Why a file cannot be written. -/
def obstacle (m : Machine) (name : Bytes) : SystemError :=
  if m.nodeAt? name = some .directory then .isADirectory
  else
    match m.locate name with
    | .error e => e
    | .ok _ => .notFound

/-- Writes a text to a file, or tells why that cannot be done. -/
def store (mode : OpenMode) (name cs : Bytes) : Run (Option SystemError) := do
  let m ← get
  match m.openFile? mode name with
  | some (m, stream) =>
    set ({ m with streams := m.streams ++ [stream] }.write m.streams.length cs)
    return none
  | none => return some (obstacle m name)

/-- Does something with the contents of each file, or with the input if there is no file. -/
def forContents (program : String) (status : Nat) (names : List Bytes)
    (act : Bytes → Bytes → Run Unit) : Run Unit := do
  for name in (if names = [] then [inputName] else names) do
    match ← content name with
    | .ok cs => act name cs
    | .error e => blame program status name e

end Utility

end TagVersion.Shell
