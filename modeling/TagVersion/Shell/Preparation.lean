import TagVersion.Shell.Builtins
import TagVersion.Shell.Parser

/-!
# What happens before a command runs

The words of a command are expanded, its streams are redirected, and its variables are assigned.
Afterwards streams are put back, and so are variables that were only meant for the command.
-/

namespace TagVersion.Shell

namespace Machine

/-! ### Streams -/

/-- Redirects streams one after the other, and tells whether that was possible. -/
def redirect (run : Command → Run Unit) : List Redirection → Run Bool
  | [] => pure true
  | r :: rest => do
    let done ←
      match r with
      | .opened number mode path => do
        let path ← expandText run path
        if ← isGoing then
          match (← get).openFile? mode path with
          | some (m, stream) =>
            set m
            connect number stream
            pure true
          | none =>
            let m ← get
            let reason :=
              if m.nodeAt? path = some .directory then SystemError.reason .isADirectory
              else if mode = .read then "No such file"
              else "Directory nonexistent"
            complain 2
              ((if mode = .read then "cannot open " else "cannot create ").toList ++ path ++ ": ".toList ++
                reason.toList)
            pure false
        else pure false
      | .copied number source => do
        let source ← expandText run source
        if ← isGoing then
          let m ← get
          if source = ['-'] then
            set { m with descriptors := m.descriptors.filter (·.1 != number) }
            pure true
          else
            match (Utility.count? source).bind fun n => m.descriptors.lookup n with
            | some index =>
              set { m with descriptors := putEntry m.descriptors number index }
              pure true
            | none =>
              complain 2 (source ++ ": Bad file descriptor".toList)
              pure false
        else pure false
      | .given number text => do
        let text ← expandText run text
        connect number (.pipe text 0)
        isGoing
    if done then redirect run rest else return false

/-- Does something with redirected streams, and puts the streams back unless they are to stay.
If they cannot be redirected, something else is done. -/
def withRedirections (run : Command → Run Unit) (redirections : List Redirection) (stays : Bool)
    (act refused : Run Unit) : Run Unit := do
  let m ← get
  if ← redirect run redirections then
    act
    unless stays do modify ({ · with descriptors := m.descriptors })
  else
    modify ({ · with descriptors := m.descriptors })
    if ← isGoing then
      finish 2
      refused

/-! ### Variables -/

/-- Puts a variable back as it was. -/
def restore (m : Machine) (name : Bytes) (old : Option Variable) : Machine :=
  match old with
  | some v => { m with bindings := putEntry m.bindings name v }
  | none => { m with bindings := m.bindings.filter (·.1 != name) }

/-- Marks a variable for programs to see. -/
def expose (m : Machine) (name : Bytes) : Machine :=
  match m.bindings.lookup name with
  | some v => { m with bindings := putEntry m.bindings name { v with isExported := true } }
  | none => m

/-- Expands and assigns one variable after the other; programs get to see them if the flag says
so. -/
def assignEach (run : Command → Run Unit) (isExported : Bool) :
    List (Bytes × Word) → Run (List (Bytes × Bytes))
  | [] => pure []
  | (name, word) :: rest => do
    let value ← expandText run word
    if ← isGoing then assign name value
    if ← isGoing then
      if isExported then modify (·.expose name)
      return (name, value) :: (← assignEach run isExported rest)
    else return []

/-- Puts variables back as they were in an earlier state. -/
def restoreAll (m : Machine) (names : List Bytes) : Run Unit :=
  modify fun n => names.foldl (fun n name => n.restore name (m.bindings.lookup name)) n

/-- The words of a command. After the name of a command whose words may be assignments, what
looks like one is not cut into fields. -/
def expandArguments (run : Command → Run Unit) (words : List Word) : Run (List Bytes) := do
  match words with
  | first :: rest =>
    let isAssigning := (Reader.bareText? first).any fun cs =>
      Builtin.assigningNames.contains (String.ofList cs)
    if isAssigning then
      let lead ← expandWord run first
      return lead ++ (← expandEach rest)
    else expandWords run words
  | [] => return []
where
  expandEach : List Word → Run (List Bytes)
    | [] => pure []
    | word :: rest => do
      let fields ←
        if (Reader.assignment? word).isSome then do pure [← expandText run word]
        else expandWord run word
      if ← isGoing then return fields ++ (← expandEach rest)
      else return fields

/-- Writes what is about to be run, if that is wanted. -/
def trace (errorStream : Option Nat) (assignments : List (Bytes × Bytes))
    (words : List Bytes) : Run Unit :=
  modify fun m =>
    match errorStream with
    | some index =>
      let shown := assignments.map (fun (name, value) => name ++ '=' :: value) ++ words
      let lead := (m.valueOf? "PS4".toList).getD []
      if m.hasFlag 'x' then m.write index (lead ++ [' '].intercalate shown ++ ['\n']) else m
    | none => m

end Machine

end TagVersion.Shell
