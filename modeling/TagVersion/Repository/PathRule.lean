import TagVersion.Repository.NameGlob

/-!
# Lines of pattern lists

A directory can hold lists of patterns for what lies in it or below it. A line of such a list
begins with a pattern. A slash before its end makes it a pattern of paths, which start in the
directory of the list; otherwise it is for names at any depth. A slash at its end restricts it
to directories, and an exclamation mark at its front turns its meaning round.
-/

namespace TagVersion

/-- A pattern with the directory it is for. -/
structure PathRule where
  /-- The path of the directory, with a slash at its end unless it is the topmost one. -/
  directory : List UInt8
  isException : Bool
  isForDirectories : Bool
  isForPaths : Bool
  hasWildcards : Bool
  pattern : List UInt8
  parts : List GlobPart
deriving DecidableEq, Repr

namespace PathRule

def newline : UInt8 := 0x0A

def carriageReturn : UInt8 := 0x0D

def numberSign : UInt8 := 0x23

def exclamationMark : UInt8 := 0x21

/-- The blanks of pattern lists, line ends among them. -/
def isBlank (b : UInt8) : Bool :=
  b == 0x20 || (0x09 ≤ b && b ≤ 0x0D)

/-- The blanks that a pattern may contain. -/
def isInnerBlank (b : UInt8) : Bool :=
  b == 0x20 || b == 0x09 || b == carriageReturn

def isWildcard (b : UInt8) : Bool :=
  b == NameGlob.star || b == NameGlob.questionMark || b == NameGlob.openBracket

/-- What follows the line. -/
def nextLine (bytes : List UInt8) : List UInt8 :=
  (bytes.dropWhile (· != newline)).dropWhile fun b => b == newline || b == carriageReturn

/-- Takes a pattern off the front, up to a blank without a backslash before it. The flag tells
whether the pattern has wildcards without one. -/
def cutPattern (allowsBlanks isEscaped : Bool) : List UInt8 → List UInt8 × Bool × List UInt8
  | [] => ([], false, [])
  | b :: rest =>
    if b = NameGlob.backslash && !isEscaped then
      let (pattern, hasWildcards, rest) := cutPattern allowsBlanks true rest
      (b :: pattern, hasWildcards, rest)
    else if isBlank b && !isEscaped && !(allowsBlanks && isInnerBlank b) then
      ([], false, b :: rest)
    else
      let (pattern, hasWildcards, rest) := cutPattern allowsBlanks false rest
      (b :: pattern, hasWildcards || (isWildcard b && !isEscaped), rest)

/-- Drops blanks at the front of a reversed pattern that no odd number of backslashes follows. -/
def dropBlanks : List UInt8 → List UInt8
  | [] => []
  | b :: rest =>
    if (b = 0x20 || b = 0x09) && (rest.takeWhile (· == NameGlob.backslash)).length % 2 = 0 then
      dropBlanks rest
    else b :: rest

/-- Takes the backslashes before blanks away. -/
def plainBlanks : List UInt8 → List UInt8
  | [] => []
  | b :: rest =>
    if b = NameGlob.backslash then
      match rest with
      | [] => []
      | c :: rest => if isBlank c then c :: plainBlanks rest else b :: c :: plainBlanks rest
    else b :: plainBlanks rest

/-- The rule of a pattern, which was cut off a line. -/
def ofPattern? (directory : List UInt8) (isException hasWildcards : Bool) (written : List UInt8) :
    Option PathRule :=
  let pattern := if written.head? = some NameGlob.slash then written.tail else written
  let pattern := if pattern.getLast? = some carriageReturn then pattern.dropLast else pattern
  let pattern := (dropBlanks pattern.reverse).reverse
  if pattern = [] then none
  else
    let isForDirectories := pattern.getLast? = some NameGlob.slash
    let slashes := written.count NameGlob.slash
    let isForPaths := if isForDirectories then slashes > 1 else slashes > 0
    let pattern := plainBlanks (if isForDirectories then pattern.dropLast else pattern)
    some
      { directory, isException, isForDirectories, isForPaths, hasWildcards, pattern
        parts := NameGlob.parts isForPaths pattern }

/-- Takes a rule off a line, if the line has one, and what follows the pattern. -/
def cut (directory : List UInt8) (allowsBlanks : Bool) (bytes : List UInt8) :
    Option PathRule × List UInt8 :=
  let isException := bytes.head? = some exclamationMark
  let (written, hasWildcards, rest) :=
    cutPattern allowsBlanks false (if isException then bytes.tail else bytes)
  (ofPattern? directory isException hasWildcards written, rest)

/-- The last name of a path. -/
def lastName (path : List UInt8) : List UInt8 :=
  (path.reverse.takeWhile (· != NameGlob.slash)).reverse

/-- Whether the pattern of a rule matches a path. -/
def accepts (r : PathRule) (path : List UInt8) (isDirectory : Bool) : Bool :=
  r.directory.isPrefixOf path && (isDirectory || !r.isForDirectories) &&
    NameGlob.accepts r.isForPaths r.parts
      (if r.isForPaths then path.drop r.directory.length else lastName path)

end PathRule

/-! ### Lists of rules -/

/-- The text of a list without the mark that some editors put at its front, and up to the
first byte that ends texts. -/
def patternListBytes (content : List UInt8) : List UInt8 :=
  let content :=
    match content with
    | 0xEF :: 0xBB :: 0xBF :: rest => rest
    | content => content
  content.takeWhile (· != 0)

end TagVersion
