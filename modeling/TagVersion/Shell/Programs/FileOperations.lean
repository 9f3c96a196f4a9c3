import TagVersion.Shell.Programs.Arguments

/-!
# Programs that handle files

Programs that make, remove, copy, move and list files and directories, and change who may do
what with them.
-/

namespace TagVersion.Shell

namespace Utility

open Machine

/-- A complaint that an action on a file failed. -/
def failed (program action : String) (name : Bytes) (reason : String) : Run Unit :=
  complain program 1
    (action.toList ++ ' ' :: QuotedName.always name ++ ':' :: ' ' :: reason.toList)

/-- The location and the node that a path leads to, or why it leads nowhere. -/
def entry (m : Machine) (name : Bytes) : Except SystemError (Location × FileNode) :=
  match m.locate name with
  | .error e => .error e
  | .ok loc =>
    match m.files.node? loc with
    | some node => .ok (loc, node)
    | none => .error .notFound

/-- Whether a directory holds nothing. -/
def isEmptyDirectory (m : Machine) (loc : Location) : Bool :=
  !m.files.nodes.any fun (l, _) => loc.isPrefixOf l && l != loc

/-- The last name of a path, without slashes at its end. -/
def lastName (path : Bytes) : Bytes :=
  ((path.reverse.dropWhile (· == '/')).takeWhile (· != '/')).reverse

/-! ### Making files -/

/-- Makes files that are not there yet. -/
def touch : Utility :=
  withOptions "touch" 1 (.ofLetters "acfhm" "dtr" [("no-create", 'c'), ("date", 'd'), ("reference", 'r')]) fun a => do
    if a.operands = [] then misuse "touch" 1 "missing file operand".toList
    for name in a.operands do
      let m ← get
      if (m.nodeAt? name).isNone && !a.has 'c' then
        match ← store .append name [] with
        | none => pure ()
        | some e => failed "touch" "cannot touch" name e.reason

/-- Makes directories, along with those above them if so asked. -/
def makeDirectories : Utility :=
  withOptions "mkdir" 1 (.ofLetters "pv" "m" [("parents", 'p'), ("verbose", 'v'), ("mode", 'm')]) fun a => do
    if a.operands = [] then missingOperand "mkdir" 1
    for name in a.operands do
      let refuse (name : Bytes) (e : String) : Run Unit :=
        failed "mkdir" "cannot create directory" name e
      let make (name : Bytes) (isLast : Bool) : Run Bool := do
        let m ← get
        match m.locate name with
        | .error e =>
          refuse name e.reason
          return false
        | .ok loc =>
          match m.files.node? loc with
          | some .directory =>
            if a.has 'p' then return true
            else
              refuse name "File exists"
              return false
          | some _ =>
            refuse name (if isLast then "File exists" else SystemError.reason .notADirectory)
            return false
          | none =>
            match m.files.node? loc.dropLast with
            | some .directory =>
              set { m with files := m.files.put loc .directory }
              if a.has 'v' then
                emit 1 ("mkdir: created directory ".toList ++ QuotedName.always name ++ ['\n'])
              return true
            | some _ =>
              refuse name (SystemError.reason .notADirectory)
              return false
            | none =>
              refuse name (SystemError.reason .notFound)
              return false
      if a.has 'p' then
        let parts := name.splitOn '/'
        let mut isGoing := true
        for n in List.range parts.length do
          let path := ['/'].intercalate (parts.take (n + 1))
          if isGoing && path != [] && (parts[n]?).any (· != []) then
            isGoing ← make path (n + 1 = parts.length)
      else
        let _ ← make name true

/-! ### Removing -/

/-- Removes files, and directories with all that is in them if so asked. -/
def remove : Utility :=
  withOptions "rm" 1
    (.ofLetters "rRfdvi" "" [("recursive", 'r'), ("force", 'f'), ("dir", 'd'), ("verbose", 'v')]) fun a => do
    let isRecursive := a.has 'r' || a.has 'R'
    if a.operands = [] && !a.has 'f' then missingOperand "rm" 1
    for name in a.operands do
      let m ← get
      let refuse (reason : String) : Run Unit := failed "rm" "cannot remove" name reason
      let take (loc : Location) (isDirectory : Bool) : Run Unit := do
        set { m with files := m.files.remove loc }
        if a.has 'v' then
          emit 1 ((if isDirectory then "removed directory " else "removed ").toList ++
            QuotedName.always name ++ ['\n'])
      match entry m name with
      | .error .notFound => unless a.has 'f' do refuse (SystemError.reason .notFound)
      | .error e => unless a.has 'f' && e = .notADirectory do refuse e.reason
      | .ok (loc, .directory) =>
        if isRecursive then
          if [['.'], ['.', '.']].contains (lastName name) then
            complain "rm" 1
              ("refusing to remove '.' or '..' directory: skipping ".toList ++ QuotedName.always name)
          else take loc true
        else if a.has 'd' then
          if isEmptyDirectory m loc then take loc true else refuse "Directory not empty"
        else refuse (SystemError.reason .isADirectory)
      | .ok (loc, _) => take loc false

/-- Removes empty directories, along with those above them if so asked. -/
def removeDirectories : Utility :=
  withOptions "rmdir" 1
    (.ofLetters "pv" "" [("parents", 'p'), ("verbose", 'v'), ("ignore-fail-on-non-empty", 'i')]) fun a => do
    if a.operands = [] then missingOperand "rmdir" 1
    for name in a.operands do
      let parts := name.splitOn '/'
      let steps := if a.has 'p' then (List.range parts.length).reverse else [parts.length - 1]
      let mut isGoing := true
      for n in steps do
        let path := ['/'].intercalate (parts.take (n + 1))
        let m ← get
        if isGoing && path != [] then
          let refuse (reason : String) : Run Unit := failed "rmdir" "failed to remove" path reason
          match entry m path with
          | .ok (loc, .directory) =>
            if isEmptyDirectory m loc then set { m with files := m.files.remove loc }
            else
              isGoing := false
              refuse "Directory not empty"
          | .ok (_, _) =>
            isGoing := false
            refuse (SystemError.reason .notADirectory)
          | .error e =>
            isGoing := false
            refuse e.reason

/-! ### Copying and moving -/

/-- The nodes at a location and below it, by their ways from there. -/
def branch (m : Machine) (loc : Location) : List (Location × FileNode) :=
  match m.files.node? loc with
  | none => []
  | some node =>
    ([], node) ::
      (m.files.nodes.filter fun (l, _) => loc.isPrefixOf l && l != loc).map fun (l, n) =>
        (l.drop loc.length, n)

/-- Puts nodes below a location. A file that is written over keeps its permissions. -/
def graft (files : FileTree) (target : Location) (keepsModes : Bool)
    (nodes : List (Location × FileNode)) : FileTree :=
  nodes.foldl
    (fun files (way, node) =>
      let loc := target ++ way
      match node, files.node? loc with
      | .directory, some .directory => files
      | .file content mode, some (.file _ oldMode) =>
        files.put loc (.file content (if keepsModes then mode else oldMode))
      | .file content mode, _ =>
        files.put loc (.file content (if keepsModes then mode else mode &&& 0o755))
      | node, _ => files.put loc node)
    files

/-- The options of the programs that copy and move. -/
def transferOptions : Options :=
  .ofLetters "rRafinpuvdLPT" "t"
    [("recursive", 'r'), ("archive", 'a'), ("force", 'f'), ("no-clobber", 'n'), ("verbose", 'v'),
      ("target-directory", 't'), ("no-target-directory", 'T')]

/-- Copies or moves what a path leads to. -/
def transferOne (a : Arguments) (moves : Bool) (source target : Bytes) : Run Unit := do
  let program := if moves then "mv" else "cp"
  let m ← get
  match entry m source with
  | .error e => failed program "cannot stat" source e.reason
  | .ok (src, node) =>
    let isRecursive := moves || a.has 'r' || a.has 'R' || a.has 'a'
    if node = .directory && !isRecursive then
      complain program 1 ("-r not specified; omitting directory ".toList ++ QuotedName.always source)
    else
      let missing (e : SystemError) : Run Unit :=
        if moves then
          failed program
            (String.ofList ("cannot move ".toList ++ QuotedName.always source ++ " to".toList)) target
            e.reason
        else
          failed program
            (if node = .directory then "cannot create directory" else "cannot create regular file")
            target e.reason
      match m.locate target with
      | .error e => missing e
      | .ok dst =>
        let old := m.files.node? dst
        if dst = src then
          complain program 1
            (QuotedName.always source ++ " and ".toList ++ QuotedName.always target ++
              " are the same file".toList)
        else if node = .directory && src.isPrefixOf dst then
          if moves then
            complain program 1
              ("cannot move ".toList ++ QuotedName.always source ++ " to a subdirectory of itself, ".toList ++
                QuotedName.always target)
          else
            complain program 1
              ("cannot copy a directory, ".toList ++ QuotedName.always source ++ ", into itself, ".toList ++
                QuotedName.always target)
        else if m.files.node? dst.dropLast != some .directory then missing .notFound
        else if node != .directory && old = none && target.getLast? = some '/' then missing .notADirectory
        else if a.has 'n' && old.isSome then pure ()
        else
          match node, old with
          | .directory, some (.file ..) =>
            complain program 1
              ("cannot overwrite non-directory ".toList ++ QuotedName.always target ++
                " with directory ".toList ++ QuotedName.always source)
          | .file .., some .directory =>
            complain program 1
              ("cannot overwrite directory ".toList ++ QuotedName.always target ++
                " with non-directory".toList ++ (if moves then ' ' :: QuotedName.always source else []))
          | _, _ =>
            if moves && node = .directory && old = some .directory && !isEmptyDirectory m dst then
              failed program
                (String.ofList ("cannot move ".toList ++ QuotedName.always source ++ " to".toList)) target
                "Directory not empty"
            else
              let nodes := branch m src
              let rest := if moves then m.files.remove src else m.files
              set { m with files := graft rest dst (moves || a.has 'p' || a.has 'a') nodes }
              if a.has 'v' then
                emit 1
                  ((if moves then "renamed ".toList else []) ++ QuotedName.always source ++
                    " -> ".toList ++ QuotedName.always target ++ ['\n'])

/-- Copies or moves files to a target, or into it if it is a directory. -/
def transfer (moves : Bool) : Utility :=
  let program := if moves then "mv" else "cp"
  withOptions program 1 transferOptions fun a => do
    let m ← get
    let inside (directory source : Bytes) : Bytes :=
      (if directory.getLast? = some '/' then directory else directory ++ ['/']) ++ lastName source
    match a.value? 't', a.operands with
    | some directory, sources =>
      if sources = [] then misuse program 1 "missing file operand".toList
      for source in sources do transferOne a moves source (inside directory source)
    | none, [] => misuse program 1 "missing file operand".toList
    | none, [source] =>
      misuse program 1
        ("missing destination file operand after ".toList ++ QuotedName.always source)
    | none, operands =>
      let target := operands.getLastD []
      let sources := operands.dropLast
      if m.nodeAt? target = some .directory && !a.has 'T' then
        for source in sources do transferOne a moves source (inside target source)
      else
        match sources with
        | [source] => transferOne a moves source target
        | _ =>
          complain program 1
            ("target ".toList ++ QuotedName.always target ++ ": ".toList ++
              (if (m.nodeAt? target).isSome then SystemError.reason .notADirectory
                else SystemError.reason .notFound).toList)

def copy : Utility := transfer false

def move : Utility := transfer true

/-! ### Permissions -/

/-- The bits of some of the owner, the group and the others, out of the same bits for all. -/
def bitsFor (who : Bytes) (bits : Nat) : Nat :=
  let all := who = [] || who.contains 'a'
  (if all || who.contains 'u' then bits * 64 else 0) + (if all || who.contains 'g' then bits * 8 else 0) +
    (if all || who.contains 'o' then bits else 0)

/-- The permissions after the actions that follow the letters for whose they are. -/
def symbolicMode? (who : Bytes) (isDirectory : Bool) : Nat → Bytes → Nat → Option Nat
  | 0, _, _ => none
  | fuel + 1, cs, mode =>
    match cs with
    | [] => some mode
    | sign :: rest =>
      if !(['+', '-', '='].contains sign) then none
      else
        let (letters, rest) := rest.span fun c => ['r', 'w', 'x', 'X', 's', 't'].contains c
        let runs := letters.contains 'x' ||
          (letters.contains 'X' && (isDirectory || mode &&& 0o111 != 0))
        let bits :=
          (if letters.contains 'r' then 4 else 0) + (if letters.contains 'w' then 2 else 0) +
            (if runs then 1 else 0)
        let chosen := bitsFor who bits
        let chosen := if who = [] then chosen &&& 0o755 else chosen
        let mode :=
          if sign = '+' then mode ||| chosen
          else if sign = '-' then mode - (mode &&& chosen)
          else (mode - (mode &&& bitsFor who 7)) ||| chosen
        symbolicMode? who isDirectory fuel rest mode

/-- The permissions that a description makes of others. -/
def changedMode? (description : Bytes) (isDirectory : Bool) (mode : Nat) : Option Nat :=
  if description != [] && description.all fun c => '0' ≤ c && c ≤ '7' then
    let n := Nat.ofDigitChars 8 description 0
    if n ≤ 0o7777 then some n else none
  else
    (description.splitOn ',').foldlM
      (fun mode clause =>
        let (who, actions) := clause.span fun c => ['u', 'g', 'o', 'a'].contains c
        if actions = [] then none
        else symbolicMode? who isDirectory (actions.length + 1) actions mode)
      mode

/-- Changes the permissions of files. -/
def changeMode : Utility := fun words =>
  -- A description may begin with the sign for options.
  let isDescription (w : Bytes) : Bool :=
    match w with
    | '-' :: c :: _ => ['r', 'w', 'x', 'X'].contains c
    | _ => false
  let removal := words.find? isDescription
  let words := if removal.isSome then words.erase (removal.getD []) else words
  withOptions "chmod" 1 (.ofLetters "Rcfv" "" [("recursive", 'R'), ("verbose", 'v')])
    (fun a => do
      match removal.toList ++ a.operands with
      | [] => missingOperand "chmod" 1
      | [description] =>
        misuse "chmod" 1 ("missing operand after ".toList ++ QuotedName.always description)
      | description :: names =>
        if (changedMode? description false 0).isNone then
          misuse "chmod" 1 ("invalid mode: ".toList ++ QuotedName.always description)
        else
          for name in names do
            let m ← get
            match entry m name with
            | .error e => unless a.has 'f' do failed "chmod" "cannot access" name e.reason
            | .ok (loc, _) =>
              let isMeant (l : Location) : Bool := l = loc || (a.has 'R' && loc.isPrefixOf l)
              let nodes := m.files.nodes.map fun (l, node) =>
                match node with
                | .file content mode =>
                  if isMeant l then (l, FileNode.file content ((changedMode? description false mode).getD mode))
                  else (l, node)
                | _ => (l, node)
              set { m with files := ⟨nodes⟩ })
    words

/-! ### Listing -/

/-- The names in a directory that are to be listed, in ascending order. -/
def listedNames (m : Machine) (a : Arguments) (loc : Location) : List Bytes :=
  let names := m.namesIn loc
  let names := if a.has 'a' || a.has 'A' then names else names.filter (·.head? != some '.')
  let names := if a.has 'a' then ['.'] :: ['.', '.'] :: names else names
  let sorted := names.mergeSort notAfter
  if a.has 'r' then sorted.reverse else sorted

/-- Lists files and what is in directories. -/
def list : Utility :=
  withOptions "ls" 2
    (.ofLetters "1aAdrpFC" ""
      [("all", 'a'), ("almost-all", 'A'), ("directory", 'd'), ("reverse", 'r')]) fun a => do
    let names := if a.operands = [] then [['.']] else a.operands
    let m ← get
    let mark (path name : Bytes) : Bytes :=
      match m.nodeAt? path with
      | some .directory => if a.has 'p' || a.has 'F' then name ++ ['/'] else name
      | some (.file _ mode) => if a.has 'F' && mode &&& 0o111 != 0 then name ++ ['*'] else name
      | _ => name
    for name in names do
      if (m.nodeAt? name).isNone then
        match entry m name with
        | .error e =>
          complain "ls" 2 ("cannot access ".toList ++ QuotedName.always name ++ ':' :: ' ' :: e.reason.toList)
        | .ok _ => pure ()
    let sorted := (names.filter fun n => (m.nodeAt? n).isSome).mergeSort notAfter
    let sorted := if a.has 'r' then sorted.reverse else sorted
    let (directories, files) := sorted.partition fun n =>
      m.nodeAt? n = some .directory && !a.has 'd'
    for name in files do emit 1 (mark name name ++ ['\n'])
    let showsNames := names.length > 1
    let mut isFirst := files.isEmpty
    for name in directories do
      if showsNames then
        emit 1 ((if isFirst then [] else ['\n']) ++ name ++ [':', '\n'])
      isFirst := false
      match m.locate? name with
      | some loc =>
        for n in listedNames m a loc do emit 1 (mark (name ++ '/' :: n) n ++ ['\n'])
      | none => pure ()

end Utility

end TagVersion.Shell
