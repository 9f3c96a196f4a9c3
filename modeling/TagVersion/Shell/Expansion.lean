import TagVersion.Shell.Arithmetic
import TagVersion.Shell.Machine
import TagVersion.Shell.Pattern

/-!
# Expanding words

Before a command runs, its words are expanded: parameters, output of commands and sums are put
in, unquoted results are cut into fields, and patterns become the paths that match them. How a
command is run to get its output is left open here.
-/

namespace TagVersion.Shell

/-- What an expanded word consists of. -/
inductive Item where
  /-- What makes a field, even an empty one. -/
  | mark
  /-- What ends a field between two parameters. -/
  | boundary
  /-- A character; one that is quoted has no meaning in patterns, and one that came out of an
  expansion may separate fields. -/
  | char (c : Char) (isQuoted isSplit : Bool)
deriving DecidableEq, Repr

namespace Machine

/-- The items of a text that came out of an expansion. -/
def resultItems (isQuoted : Bool) (cs : Bytes) : List Item :=
  if isQuoted then .mark :: cs.map (.char · true false) else cs.map (.char · false true)

/-- The items of several parameters, which stay apart. -/
def apart (isQuoted : Bool) : List Bytes → List Item
  | [] => []
  | [cs] => resultItems isQuoted cs
  | cs :: rest => resultItems isQuoted cs ++ .boundary :: apart isQuoted rest

/-- The value of a parameter, if it is set. Of all positional ones it is their texts with the
first separator between them. -/
def parameter? (m : Machine) (name : Bytes) : Option Bytes :=
  match name with
  | ['?'] => some (numeral m.status)
  | ['$'] => some (numeral processNumber)
  | ['#'] => some (numeral m.positional.length)
  | ['!'] => m.background.map fun _ => numeral backgroundNumber
  | ['-'] => some m.lettersOn
  | ['@'] => all
  | ['*'] => all
  | name =>
    if name.all Char.isDigit then
      match Nat.ofDigitChars 10 name 0 with
      | 0 => some m.name
      | n + 1 => m.positional[n]?
    else m.valueOf? name
where
  all : Option Bytes :=
    let separator :=
      match m.valueOf? separatorName with
      | some cs => cs.take 1
      | none => [' ']
    if m.positional = [] then none else some (separator.intercalate m.positional)

/-- Whether a missing parameter is an error, since the option for that is on. -/
def demands (m : Machine) (name : Bytes) : Bool :=
  m.hasFlag 'u' && name != ['@'] && name != ['*']

/-- Collects fields. `started` is the field that is being collected, and `afterBlank` tells
whether a blank separator has just ended one. -/
def collect (separators : Bytes) (started : Option (List MarkedChar)) (afterBlank : Bool) :
    List Item → List (List MarkedChar)
  | [] => started.toList
  | .mark :: rest => collect separators (some (started.getD [])) false rest
  | .boundary :: rest => started.toList ++ collect separators none false rest
  | .char c isQuoted isSplit :: rest =>
    if isSplit && separators.contains c then
      if usualSeparators.contains c then
        match started with
        | some field => field :: collect separators none true rest
        | none => collect separators none afterBlank rest
      else if started.isNone && afterBlank then collect separators none false rest
      else started.getD [] :: collect separators none false rest
    else collect separators (some (started.getD [] ++ [(c, isQuoted)])) false rest

/-- The characters of items. -/
def markedChars (items : List Item) : List MarkedChar :=
  items.filterMap fun
    | .char c isQuoted _ => some (c, isQuoted)
    | .boundary => some (' ', true)
    | .mark => none

/-- The text of items. -/
def textOf (items : List Item) : Bytes :=
  (markedChars items).map (·.1)

/-! ### Paths that match a pattern -/

/-- The paths that match the names of a pattern, after a path that is already there. -/
def matching (m : Machine) (path : Bytes) : List (List MarkedChar) → List Bytes
  | [] => if path = [] then [] else [path]
  | name :: rest =>
    let isLast := rest.isEmpty
    let next (found : Bytes) : List Bytes :=
      let path := path ++ found
      if isLast then
        if found = [] || (m.nodeAt? path).isSome then [path] else []
      else if (m.nodeAt? (if path = [] then ['/'] else path)) = some .directory || found = [] then
        matching m (path ++ ['/']) rest
      else []
    if Pattern.isActive name then
      match m.locate? (if path = [] then ['.'] else path) with
      | none => []
      | some loc =>
        let names := if m.files.node? loc = some .directory then [['.'], ['.', '.']] ++ m.namesIn loc else []
        (names.filter fun n =>
          (n.head? != some '.' || name.head?.any (·.1 == '.')) && Pattern.accepts name n).flatMap next
    else next (name.map (·.1))

/-- What becomes of a field: the paths that match it in ascending order, or else its text. -/
def paths (m : Machine) (field : List MarkedChar) : List Bytes :=
  let text := field.map (·.1)
  if m.hasFlag 'f' || !Pattern.isActive field then [text]
  else
    match m.matching [] (field.splitOnP fun (c, _) => c == '/') with
    | [] => [text]
    | found => found.mergeSort notAfter

/-! ### Words -/

/-- The start of a word that stands for the home directory. -/
def expandTilde (m : Machine) (word : Word) : Word :=
  match word with
  | .text ('~' :: cs) false :: rest =>
    match m.valueOf? "HOME".toList with
    | some home =>
      if cs.head? = some '/' || (cs = [] && rest.isEmpty) then
        .text home true :: .text cs false :: rest
      else word
    | none => word
  | word => word

/-- Runs a command apart from the script: only what it does to files and streams remains. -/
def apartFrom (act : Run Unit) : Run Unit := do
  let m ← get
  let (_, n) := act
    { m with
      flow := .going
      isApart := true
      pending := []
      traps := m.traps.filter (·.2 = []) }
  set
    { m with
      files := n.files
      streams := n.streams
      output := n.output
      errors := n.errors
      status := n.status % 256
      killedBy := n.killedBy
      flow := if n.killedBy.isSome then .exiting else m.flow }

/-- The output of a command, without line ends at its end. -/
def captured (act : Run Unit) : Run Bytes := do
  let m ← get
  let index := m.streams.length
  connect 1 (.pipe [] 0)
  apartFrom act
  modify fun n => { n with descriptors := m.descriptors, outputStatus := some n.status }
  match (← get).streams[index]? with
  | some (.pipe content _) =>
    return ((content.filter (· != '\x00')).reverse.dropWhile (· == '\n')).reverse
  | _ => return []

/-- The value of an expression. -/
def calculated (cs : Bytes) : Run Bytes := do
  let m ← get
  let scope : Arithmetic.Scope := m.bindings.filterMap fun (name, v) => v.value.map (name, ·)
  match (Arithmetic.parse cs).bind (Arithmetic.evaluate scope) with
  | some (n, after) =>
    let changed := after.take (after.length - scope.length)
    for (name, value) in changed.reverse do
      assign name value
    return signedNumeral n
  | none =>
    abort ("arithmetic expression: error: \"".toList ++ cs ++ ['"'])
    return []

mutual

/-- The items of the fragments of a word. The flag tells whether unquoted texts may be cut into
fields, because they stand in for a parameter. -/
def expandFragments (run : Command → Run Unit) (isSplit : Bool) :
    Nat → List Fragment → Run (List Item)
  | 0, _ => pure []
  | _, [] => pure []
  | fuel + 1, f :: rest => do
    let items ← expandFragment run isSplit fuel f
    if ← isGoing then
      return items ++ (← expandFragments run isSplit fuel rest)
    else return items

/-- The items of a fragment. -/
def expandFragment (run : Command → Run Unit) (isSplit : Bool) :
    Nat → Fragment → Run (List Item)
  | 0, _ => pure []
  | fuel + 1, f =>
    match f with
    | .text cs true => pure (.mark :: cs.map (.char · true false))
    | .text cs false => pure (cs.map (.char · false isSplit))
    | .output body isQuoted => do
      return resultItems isQuoted (← captured (run body))
    | .value word isQuoted => do
      let items ← expandFragments run false fuel word
      if ← isGoing then return resultItems isQuoted (← calculated (textOf items))
      else return []
    | .parameter name change isQuoted => do
      let m ← get
      let value := m.parameter? name
      let missing : Run (List Item) := do
        if m.demands name then
          abort (name ++ ": parameter not set".toList)
        return if isQuoted && name != ['@'] then [.mark] else []
      match change with
      | .asIs =>
        if name = ['@'] || (name = ['*'] && !isQuoted) then
          return apart isQuoted m.positional
        else
          match value with
          | some cs => return resultItems isQuoted cs
          | none => missing
      | .length =>
        if name = ['@'] || name = ['*'] then
          return resultItems isQuoted (numeral m.positional.length)
        else
          match value with
          | some cs => return resultItems isQuoted (numeral cs.length)
          | none =>
            if m.demands name then missing else return resultItems isQuoted ['0']
      | .trim atEnd isLongest pattern => do
        match value with
        | none => missing
        | some cs =>
          let pattern := markedChars (← expandFragments run false fuel pattern)
          let trim := if atEnd then Pattern.trimEnd else Pattern.trimStart
          return resultItems isQuoted (trim isLongest pattern cs)
      | .standIn kind alsoIfEmpty word => do
        let isMissing := value.isNone || (alsoIfEmpty && value = some [])
        let present : Run (List Item) :=
          if name = ['@'] || (name = ['*'] && !isQuoted) then pure (apart isQuoted m.positional)
          else pure (resultItems isQuoted (value.getD []))
        let lead : List Item := if isQuoted then [.mark] else []
        match kind with
        | .default =>
          if isMissing then return lead ++ (← expandFragments run (!isQuoted) fuel word)
          else present
        | .alternative =>
          if isMissing then return lead
          else return lead ++ (← expandFragments run (!isQuoted) fuel word)
        | .assign =>
          if isMissing then
            let cs := textOf (← expandFragments run false fuel word)
            if isName name then
              assign name cs
              return resultItems isQuoted cs
            else
              abort (name ++ ": bad variable name".toList)
              return []
          else present
        | .demand =>
          if isMissing then
            let cs := textOf (← expandFragments run false fuel word)
            let cs := if cs.isEmpty then "parameter not set".toList else cs
            abort (name ++ ": ".toList ++ cs)
            return []
          else present
      | .unknown => do
        abort "Bad substitution".toList
        return []

end

/-- The greatest number of steps in the expansion of one word. -/
def expansionSteps : Nat := 1000000

/-- The items of a word. -/
def expandItems (run : Command → Run Unit) (word : Word) : Run (List Item) := do
  expandFragments run false expansionSteps ((← get).expandTilde word)

/-- The text of a word that is not cut into fields. -/
def expandText (run : Command → Run Unit) (word : Word) : Run Bytes := do
  return textOf (← expandItems run word)

/-- The characters of a word that is a pattern. -/
def expandPattern (run : Command → Run Unit) (word : Word) : Run (List MarkedChar) := do
  return markedChars (← expandItems run word)

/-- The fields of a word. -/
def expandWord (run : Command → Run Unit) (word : Word) : Run (List Bytes) := do
  let items ← expandItems run word
  let m ← get
  return (collect m.separators none false items).flatMap m.paths

/-- The fields of several words. -/
def expandWords (run : Command → Run Unit) : List Word → Run (List Bytes)
  | [] => pure []
  | word :: rest => do
    let fields ← expandWord run word
    if ← isGoing then return fields ++ (← expandWords run rest)
    else return fields

end Machine

end TagVersion.Shell
