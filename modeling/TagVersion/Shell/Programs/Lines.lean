import TagVersion.Repository.NameGlob
import TagVersion.Shell.Programs.Arguments

/-!
# Programs on lines

Programs that write the lines of files or of their input: all of them, some, or other ones made
of them.
-/

namespace TagVersion.Shell

namespace Utility

open Machine

/-- The lines of a text, each with its end if it has one. -/
def wholeLines (cs : Bytes) : List Bytes :=
  let lines := cs.splitOn '\n'
  lines.dropLast.map (· ++ ['\n']) ++ (lines.getLast?.toList.filter (· != []))

/-- A text with blanks before it up to a width. -/
def padded (width : Nat) (cs : Bytes) : Bytes :=
  List.replicate (width - cs.length) ' ' ++ cs

/-! ### Copying -/

/-- How the lines of a text are shown: with numbers, and with a sign at their ends. -/
structure Listing where
  numbersAll : Bool
  numbersFilled : Bool
  marksEnds : Bool
  marksTabs : Bool
  /-- Whether of empty lines in a row only one remains. -/
  squeezes : Bool

namespace Listing

/-- Shows lines, of which the first has the given number if it gets one. -/
def lines (l : Listing) : Nat → Bool → List Bytes → Bytes × Nat
  | n, _, [] => ([], n)
  | n, afterEmpty, line :: rest =>
    let isEmpty := line = ['\n']
    if l.squeezes && afterEmpty && isEmpty then l.lines n true rest
    else
      let isNumbered := if l.numbersFilled then !isEmpty else l.numbersAll
      let lead := if isNumbered then padded 6 (numeral n) ++ ['\t'] else []
      let line := if l.marksTabs then line.flatMap fun c => if c = '\t' then ['^', 'I'] else [c] else line
      let line :=
        if l.marksEnds && line.getLast? = some '\n' then line.dropLast ++ ['$', '\n'] else line
      let (more, last) := l.lines (if isNumbered then n + 1 else n) isEmpty rest
      (lead ++ line ++ more, last)

end Listing

/-- The file that a stream writes to. -/
def writtenFile? (m : Machine) (number : Nat) : Option Location :=
  match (m.descriptors.lookup number).bind fun index => m.streams[index]? with
  | some (.file loc _ _) => some loc
  | _ => none

/-- Writes the contents of files. A file is not written onto its own end. -/
def concatenate : Utility :=
  withOptions "cat" 1
    (.ofLetters "AbeEnstTuv" ""
      [("number", 'n'), ("number-nonblank", 'b'), ("show-ends", 'E'), ("squeeze-blank", 's'),
        ("show-tabs", 'T'), ("show-all", 'A')]) fun a => do
    let listing : Listing :=
      { numbersAll := a.has 'n'
        numbersFilled := a.has 'b'
        marksEnds := a.has 'E' || a.has 'e' || a.has 'A'
        marksTabs := a.has 'T' || a.has 't' || a.has 'A'
        squeezes := a.has 's' }
    let mut next := 1
    for name in (if a.operands = [] then [inputName] else a.operands) do
      let m ← get
      match ← content name with
      | .error e => blame "cat" 1 name e
      | .ok cs =>
        let isOutput := name != inputName && m.locate? name == writtenFile? m 1
        if isOutput && (writtenFile? m 1).isSome && cs != [] then
          complain "cat" 1 (QuotedName.ifNeeded name ++ ": input file is output file".toList)
        else
          let (shown, n) := listing.lines next false (wholeLines cs)
          next := n
          emit 1 shown

/-- Writes the input to the output and to files. -/
def tee : Utility :=
  withOptions "tee" 1 (.ofLetters "aip" "" [("append", 'a')]) fun a => do
    let cs ← readAll 0
    emit 1 cs
    for name in a.operands do
      match ← store (if a.has 'a' then .append else .write) name cs with
      | none => pure ()
      | some e => blame "tee" 1 name e

/-- Writes the lines of files in reverse order. A last line without end runs on. -/
def reverseLines : Utility :=
  withOptions "tac" 1 (.ofLetters "" "" []) fun a =>
    forContents "tac" 1 a.operands fun _ cs => emit 1 (wholeLines cs).reverse.flatten

/-- Writes each line of files backwards. -/
def reverseBytes : Utility :=
  withOptions "rev" 1 (.ofLetters "" "" []) fun a =>
    forContents "rev" 1 a.operands fun _ cs =>
      emit 1 ((wholeLines cs).flatMap fun line =>
        if line.getLast? = some '\n' then line.dropLast.reverse ++ ['\n'] else line.reverse)

/-! ### Parts of texts -/

/-- Which part of a text is written: so many lines or bytes from one of its ends on, or all but
so many. -/
structure Extent where
  isBytes : Bool
  amount : Nat
  isAllBut : Bool

namespace Extent

/-- The first lines or bytes. -/
def first (x : Extent) (cs : Bytes) : Bytes :=
  if x.isBytes then
    if x.isAllBut then cs.take (cs.length - x.amount) else cs.take x.amount
  else
    let lines := wholeLines cs
    (if x.isAllBut then lines.take (lines.length - x.amount) else lines.take x.amount).flatten

/-- The last lines or bytes. To leave out the first ones, one is counted that remains. -/
def last (x : Extent) (cs : Bytes) : Bytes :=
  if x.isBytes then
    if x.isAllBut then cs.drop (x.amount - 1) else cs.drop (cs.length - x.amount)
  else
    let lines := wholeLines cs
    (if x.isAllBut then lines.drop (x.amount - 1) else lines.drop (lines.length - x.amount)).flatten

/-- The extent that options ask for, ten lines if none does. A sign makes it all but so many. -/
def read? (sign : Char) (a : Arguments) : Except (Bool × Bytes) Extent :=
  match a.options.reverse.find? fun (c, _) => c == 'n' || c == 'c' with
  | none => .ok ⟨false, 10, false⟩
  | some (c, value) =>
    let isAllBut := value.head? = some sign
    let ds := if value.head? = some '-' || value.head? = some '+' then value.tail else value
    match count? ds with
    | some n => .ok ⟨c = 'c', n, isAllBut⟩
    | none => .error (c = 'c', value)

end Extent

/-- The words of a program whose first one may be a count after a hyphen. -/
def withCountOption (words : List Bytes) : List Bytes :=
  match words with
  | ('-' :: c :: cs) :: rest =>
    if (c :: cs).all Char.isDigit then ['-', 'n'] :: (c :: cs) :: rest else words
  | words => words

/-- Writes one end of each of some files, with its name before it if there are several. -/
def writeEnds (program : String) (sign : Char) (part : Extent → Bytes → Bytes) : Utility :=
  fun words =>
    withOptions program 1
      (.ofLetters "qv" "nc" [("lines", 'n'), ("bytes", 'c'), ("quiet", 'q'), ("silent", 'q'), ("verbose", 'v')])
      (fun a => do
        match Extent.read? sign a with
        | .error (isBytes, value) =>
          complain program 1
            ("invalid number of ".toList ++ (if isBytes then "bytes" else "lines").toList ++ ": ".toList ++
              QuotedName.always value)
        | .ok x =>
          let showsNames := (a.operands.length > 1 || a.has 'v') && !a.has 'q'
          let mut isFirst := true
          for name in (if a.operands = [] then [inputName] else a.operands) do
            let header :=
              (if isFirst then [] else ['\n']) ++ "==> ".toList ++
                (if name = inputName then "standard input".toList else name) ++ " <==\n".toList
            match ← content name with
            | .ok cs =>
              if showsNames then emit 1 header
              isFirst := false
              emit 1 (part x cs)
            | .error .isADirectory =>
              if showsNames then emit 1 header
              isFirst := false
              complain program 1
                ("error reading ".toList ++ QuotedName.always name ++ ": Is a directory".toList)
            | .error e =>
              complain program 1
                ("cannot open ".toList ++ QuotedName.always name ++ " for reading: ".toList ++
                  e.reason.toList))
      (withCountOption words)

def writeFirst : Utility := writeEnds "head" '-' Extent.first

def writeLast : Utility := writeEnds "tail" '+' Extent.last

/-! ### Counting -/

/-- The number of lines, words and bytes of a text. -/
def counts (cs : Bytes) : List Nat :=
  let isBlank (c : Char) : Bool := c == ' ' || ('\t' ≤ c && c ≤ '\r')
  [cs.count '\n', ((cs.splitOnP isBlank).filter (· != [])).length, cs.length]

/-- Writes how many lines, words and bytes there are. The width of a number is that of the sum
of all sizes, unless there is only one number. -/
def countAll : Utility :=
  withOptions "wc" 1
    (.ofLetters "lwcm" "" [("lines", 'l'), ("words", 'w'), ("bytes", 'c'), ("chars", 'm')]) fun a => do
    let wanted := [a.has 'l', a.has 'w', a.has 'c' || a.has 'm']
    let wanted := if wanted.any id then wanted else [true, true, true]
    let names := a.operands
    let m ← get
    let size (name : Bytes) : Option Nat :=
      if name = inputName then
        match (m.descriptors.lookup 0).bind fun index => m.streams[index]? with
        | some (.file loc _ _) =>
          match m.files.node? loc with
          | some (.file content _) => some content.size
          | _ => none
        | _ => none
      else (m.contentAt name).toOption.map List.length
    let sizes := (if names = [] then [inputName] else names).map fun name => (name, size name)
    let isIrregular := sizes.any fun (name, size) =>
      size.isNone && (name = inputName || (m.nodeAt? name).isSome)
    let total := sizes.foldl (fun total (_, size) => total + size.getD 0) 0
    let width :=
      if sizes.length = 1 && (wanted.filter id).length = 1 then 1
      else max (numeral total).length (if isIrregular then 7 else 1)
    let row (numbers : List Nat) (name : Bytes) : Bytes :=
      let shown := (numbers.zip wanted).filterMap fun (n, isWanted) =>
        if isWanted then some (padded width (numeral n)) else none
      [' '].intercalate shown ++ (if name = [] then [] else ' ' :: name) ++ ['\n']
    let mut sums := [0, 0, 0]
    for (name, _) in sizes do
      match ← content name with
      | .ok cs =>
        let numbers := counts cs
        sums := List.zipWith (· + ·) sums numbers
        emit 1 (row numbers (if names = [] then [] else name))
      | .error e =>
        blame "wc" 1 name e
        if e = .isADirectory then emit 1 (row [0, 0, 0] name)
    if names.length > 1 then emit 1 (row sums "total".toList)

/-! ### Order -/

/-- A part of a line by which lines are sorted, from a field on and perhaps up to a field. -/
structure SortKey where
  start : Nat
  stop : Option Nat
  isNumeric : Bool
  isReversed : Bool
  ignoresCase : Bool

namespace SortKey

/-- The key that an option describes. Places within fields are not known. -/
def read? (cs : Bytes) : Option SortKey := do
  let (start, rest) := cs.span Char.isDigit
  let start ← count? start
  let (_, rest) := if rest.head? = some '.' then rest.tail.span Char.isDigit else ([], rest)
  let (letters, rest) := rest.span Char.isAlpha
  let (stop, more) :=
    match rest with
    | ',' :: rest =>
      let (ds, more) := rest.span Char.isDigit
      (count? ds, more)
    | rest => (none, rest)
  let letters := letters ++ more.filter Char.isAlpha
  if start = 0 then none
  else
    some
      { start, stop
        isNumeric := letters.contains 'n'
        isReversed := letters.contains 'r'
        ignoresCase := letters.contains 'f' }

/-- The fields of a line: between separators, or at the blanks before words. -/
def fields (separator : Option Char) (line : Bytes) : List Bytes :=
  match separator with
  | some c => line.splitOn c
  | none =>
    line.splitBy fun a b => a == ' ' || a == '\t' || !(b == ' ' || b == '\t')

/-- The part of a line that a key is about. -/
def part (k : SortKey) (separator : Option Char) (line : Bytes) : Bytes :=
  let fields := fields separator line
  let kept :=
    match k.stop with
    | some stop => (fields.take stop).drop (k.start - 1)
    | none => fields.drop (k.start - 1)
  match separator with
  | some c => [c].intercalate kept
  | none => kept.flatten

end SortKey

/-- The number that a text begins with, in units of its twentieth decimal place. -/
def leadingNumber (cs : Bytes) : Int :=
  let cs := cs.dropWhile fun c => c == ' ' || c == '\t'
  let (isNegative, cs) := if cs.head? = some '-' then (true, cs.tail) else (false, cs)
  let (whole, rest) := cs.span Char.isDigit
  let decimals := if rest.head? = some '.' then rest.tail.takeWhile Char.isDigit else []
  let scaled := Nat.ofDigitChars 10 (whole ++ (decimals ++ List.replicate 20 '0').take 20) 0
  if isNegative then -(scaled : Int) else scaled

/-- How two texts compare as a key says. -/
def compareBy (k : SortKey) (a b : Bytes) : Ordering :=
  let o :=
    if k.isNumeric then compare (leadingNumber a) (leadingNumber b)
    else if k.ignoresCase then compare (a.map Char.toUpper) (b.map Char.toUpper)
    else compare a b
  if k.isReversed then o.swap else o

/-- Writes the lines of files in order. -/
def sortLines : Utility :=
  withOptions "sort" 2
    (.ofLetters "rnufbsd" "kto"
      [("reverse", 'r'), ("numeric-sort", 'n'), ("unique", 'u'), ("ignore-case", 'f'),
        ("stable", 's'), ("key", 'k'), ("field-separator", 't'), ("output", 'o')]) fun a => do
    let plain : SortKey :=
      { start := 1, stop := none, isNumeric := a.has 'n', isReversed := a.has 'r'
        ignoresCase := a.has 'f' }
    let separator := (a.value? 't').bind List.head?
    let keys := (a.options.filter (·.1 == 'k')).map fun (_, cs) => SortKey.read? cs
    if keys.any Option.isNone then
      complain "sort" 2 "invalid number at field start".toList
    else
      let keys := keys.filterMap fun k => k.map fun k =>
        if k.isNumeric || k.isReversed || k.ignoresCase then k
        else { plain with start := k.start, stop := k.stop }
      let byKeys (x y : Bytes) : Ordering :=
        if keys = [] then compareBy plain x y
        else
          keys.foldl
            (fun o k => o.then (compareBy k (k.part separator x) (k.part separator y))) .eq
      let inOrder (x y : Bytes) : Bool :=
        match byKeys x y with
        | .lt => true
        | .gt => false
        | .eq =>
          if a.has 'u' || a.has 's' then true
          else if a.has 'r' then notAfter y x else notAfter x y
      let mut lines : List Bytes := []
      let mut isBad := false
      for name in (if a.operands = [] then [inputName] else a.operands) do
        match ← content name with
        | .ok cs => lines := lines ++ linesOf cs
        | .error e =>
          unless isBad do
            complain "sort" 2
              ((if e = .isADirectory then "read failed: " else "cannot read: ").toList ++
                QuotedName.ifNeeded name ++ ':' :: ' ' :: e.reason.toList)
          isBad := true
      unless isBad do
        let sorted := lines.mergeSort inOrder
        let kept :=
          if a.has 'u' then (sorted.splitBy fun x y => byKeys x y == .eq).filterMap List.head?
          else sorted
        let text := kept.flatMap (· ++ ['\n'])
        match a.value? 'o' with
        | none => emit 1 text
        | some name =>
          match ← store .write name text with
          | none => pure ()
          | some e =>
            complain "sort" 2
              ("open failed: ".toList ++ QuotedName.ifNeeded name ++ ':' :: ' ' :: e.reason.toList)

/-- Writes one line of each run of equal lines. -/
def dropRepeated : Utility :=
  withOptions "uniq" 1
    (.ofLetters "cdui" "" [("count", 'c'), ("repeated", 'd'), ("unique", 'u'), ("ignore-case", 'i')])
    fun a => expectOperands "uniq" 0 2 a.operands do
      let name := a.operands.headD inputName
      match ← content name with
      | .error e => blame "uniq" 1 name e
      | .ok cs =>
        let same (x y : Bytes) : Bool :=
          if a.has 'i' then x.map Char.toLower == y.map Char.toLower else x == y
        let runs := (linesOf cs).splitBy same
        let runs := runs.filter fun run =>
          (!a.has 'd' || run.length > 1) && (!a.has 'u' || run.length = 1)
        let text := runs.flatMap fun run =>
          (if a.has 'c' then padded 7 (numeral run.length) ++ [' '] else []) ++ run.headD [] ++ ['\n']
        match a.operands with
        | [_, target] =>
          match ← store .write target text with
          | none => pure ()
          | some e => blame "uniq" 1 target e
        | _ => emit 1 text

/-! ### Columns -/

/-- The places of a list of places and ranges. A range without end goes on for ever. -/
def places? (cs : Bytes) : Option (List (Nat × Option Nat)) :=
  (cs.splitOnP fun c => c == ',' || c == ' ').mapM fun place =>
    match place.splitOn '-' with
    | [n] => (count? n).bind fun n => if n = 0 then none else some (n, some n)
    | [low, high] =>
      if low = [] && high = [] then none
      else do
        let low ← if low = [] then some 1 else count? low
        let high ← if high = [] then some none else (count? high).map some
        if low = 0 || high.any (· < low) then none else some (low, high)
    | _ => none

/-- Whether a place is in a list of places. -/
def isPlace (places : List (Nat × Option Nat)) (n : Nat) : Bool :=
  places.any fun (low, high) => low ≤ n && high.all (n ≤ ·)

/-- What stands at some of the places of a list, the first of which is one. -/
def chosen {α : Type} (isComplement : Bool) (places : List (Nat × Option Nat)) (xs : List α) :
    List α :=
  xs.zipIdx.filterMap fun (x, n) => if isPlace places (n + 1) != isComplement then some x else none

/-- Writes some bytes or fields of each line. -/
def cutColumns : Utility :=
  withOptions "cut" 1
    (.ofLetters "sn" "dfbcOC"
      [("delimiter", 'd'), ("fields", 'f'), ("bytes", 'b'), ("characters", 'c'),
        ("only-delimited", 's'), ("output-delimiter", 'O')]) fun a => do
    match a.options.find? fun (c, _) => ['f', 'b', 'c'].contains c with
    | none => misuse "cut" 1 "you must specify a list of bytes, characters, or fields".toList
    | some (kind, list) =>
      match places? list with
      | none =>
        misuse "cut" 1
          ("invalid ".toList ++ (if kind = 'f' then "field" else "byte or character position").toList ++
            (if kind = 'f' then " value ".toList else " ".toList) ++ QuotedName.always list)
      | some places =>
        let delimiter := ((a.value? 'd').bind List.head?).getD '\t'
        if (a.value? 'd').any (·.length > 1) then
          misuse "cut" 1 "the delimiter must be a single character".toList
        else
          let joint := (a.value? 'O').getD [delimiter]
          forContents "cut" 1 a.operands fun _ cs =>
            emit 1 ((linesOf cs).flatMap fun line =>
              if kind = 'f' then
                if line.contains delimiter then
                  joint.intercalate (chosen false places (line.splitOn delimiter)) ++ ['\n']
                else if a.has 's' then []
                else line ++ ['\n']
              else chosen false places line ++ ['\n'])

/-! ### Characters -/

/-- The characters of a set as programs take it: with escapes, ranges and named classes. -/
def setChars : Nat → Bytes → Bytes
  | 0, _ => []
  | fuel + 1, cs =>
    match cs with
    | [] => []
    | '[' :: ':' :: rest =>
      let (name, after) := rest.span (· != ':')
      match ByteClass.ofName? name, after with
      | some cls, ':' :: ']' :: after =>
        ((List.range 256).filter fun n => cls.contains (UInt8.ofNat n)).map Char.ofNat ++
          setChars fuel after
      | _, _ => '[' :: setChars fuel (':' :: rest)
    | cs =>
      match cutChar cs with
      | (low, '-' :: c :: rest) =>
        let (high, rest) := cutChar (c :: rest)
        ((List.range 256).filter fun n => low.toNat ≤ n && n ≤ high.toNat).map Char.ofNat ++
          setChars fuel rest
      | (c, rest) => c :: setChars fuel rest
where
  cutChar (cs : Bytes) : Char × Bytes :=
    match cs with
    | '\\' :: c :: rest =>
      let ds := ((c :: rest).take 3).takeWhile fun c => '0' ≤ c && c ≤ '7'
      if ds != [] then (Char.ofNat (Nat.ofDigitChars 8 ds 0 % 256), (c :: rest).drop ds.length)
      else
        (([('n', '\n'), ('t', '\t'), ('r', '\r'), ('a', '\x07'), ('b', '\x08'), ('f', '\x0c'),
          ('v', '\x0b')].lookup c).getD c, rest)
    | c :: rest => (c, rest)
    | [] => ('\\', [])

/-- Drops all but one of equal characters of a set that follow each other. -/
def squeezed (isIn : Char → Bool) (cs : Bytes) : Bytes :=
  (cs.splitBy (· == ·)).flatMap fun run =>
    match run with
    | c :: _ => if isIn c then [c] else run
    | [] => []

/-- Writes the input with some characters replaced, dropped or not repeated. -/
def translate : Utility :=
  withOptions "tr" 1
    { flags := ['c', 'C', 'd', 's', 't'], valued := []
      names := [("complement", 'c'), ("delete", 'd'), ("squeeze-repeats", 's')]
      endsAtOperand := true } fun a => do
    let isComplement := a.has 'c' || a.has 'C'
    let chars (cs : Bytes) : Bytes := setChars (cs.length + 1) cs
    match a.operands with
    | [] => missingOperand "tr" 1
    | first :: more =>
      let given := chars first
      let isIn (c : Char) : Bool := given.contains c != isComplement
      let all :=
        if isComplement then (List.range 256).map Char.ofNat |>.filter (!given.contains ·) else given
      let second := more.head?.map chars
      match a.has 'd', a.has 's', second with
      | true, false, none => emit 1 ((← readAll 0).filter (!isIn ·))
      | true, true, some second =>
        emit 1 (squeezed second.contains ((← readAll 0).filter (!isIn ·)))
      | false, true, none => emit 1 (squeezed isIn (← readAll 0))
      | false, isSqueezed, some second =>
        match second.getLast? with
        | none => complain "tr" 1 "when not truncating set1, string2 must be non-empty".toList
        | some last =>
          let target := second ++ List.replicate (all.length - second.length) last
          let table := (all.zip target).reverse
          let cs := (← readAll 0).map fun c => (table.lookup c).getD c
          emit 1 (if isSqueezed then squeezed second.contains cs else cs)
      | true, false, some _ =>
        misuse "tr" 1 ("extra operand ".toList ++ QuotedName.always (more.headD []) ++
          "\nOnly one string may be given when deleting without squeezing repeats.".toList)
      | _, _, none =>
        misuse "tr" 1 ("missing operand after ".toList ++ QuotedName.always first ++
          "\nTwo strings must be given when translating.".toList)

end Utility

end TagVersion.Shell
