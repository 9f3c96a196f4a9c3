import TagVersion.Repository.Attributes

/-!
# Line ends in a repository

Attributes can say that a file is a text whose lines end with a line feed in the repository,
whatever they end with in the working tree. Where it is left to the contents whether a file is a
text, a file that is staged with carriage returns stays as it is.
-/

namespace TagVersion

/-- What is to be done with the line ends of a file. -/
inductive LineEndRule where
  | keep
  | normalize
  /-- To normalize a file that looks like a text. -/
  | normalizeText
deriving DecidableEq, Repr

namespace LineEndRule

/-- What an attribute says on whether a file is a text. -/
def ofState? : Option AttributeState → Option LineEndRule
  | some .set => some .normalize
  | some .unset => some .keep
  | some (.value text) =>
    if text = "input".toUTF8.toList then some .normalize
    else if text = "auto".toUTF8.toList then some .normalizeText
    else none
  | _ => none

/-- Whether an attribute names a line end. -/
def namesLineEnd : Option AttributeState → Bool
  | some (.value text) => text = "lf".toUTF8.toList || text = "crlf".toUTF8.toList
  | _ => false

/-- The rule for a file with attributes in the given states. `normalizesTexts` tells what is to be
done where they say nothing. -/
def ofStates (state? : String → Option AttributeState) (normalizesTexts : Bool) : LineEndRule :=
  match ofState? (state? "text") <|> ofState? (state? "crlf") with
  | some rule => rule
  | none =>
    if namesLineEnd (state? "eol") then .normalize
    else if normalizesTexts then .normalizeText
    else .keep

end LineEndRule

namespace LineEnds

/-- Bytes counted by what they tell of a text. -/
structure Census where
  printable : Nat
  other : Nat
  hasNul : Bool
  hasLoneReturn : Bool

/-- The control bytes that texts contain. -/
def isTextControl (b : UInt8) : Bool :=
  b == 0x09 || b == 0x0C || b == 0x0B || b == 0x08 || b == 0x1B

/-- Counts the bytes of a file. -/
def census : List UInt8 → Census
  | [] => ⟨0, 0, false, false⟩
  | b :: rest =>
    let c := census rest
    if b = 0 then { c with other := c.other + 1, hasNul := true }
    else if b = 0x0A then c
    else if b = 0x0D then
      if rest.head? = some 0x0A then c else { c with hasLoneReturn := true }
    else if (b > 0x1F && b != 0x7F) || isTextControl b then
      { c with printable := c.printable + 1 }
    else { c with other := c.other + 1 }

/-- Whether the bytes of a file look like a text: every carriage return before a line feed, and
hardly any other control bytes. A mark at the end of the file does not count. -/
def looksLikeText (bytes : List UInt8) : Bool :=
  let c := census (if bytes.getLast? = some 0x1A then bytes.dropLast else bytes)
  !c.hasLoneReturn && !c.hasNul && c.other ≤ c.printable / 128

/-- Drops the carriage returns before line feeds. -/
def normalize : List UInt8 → List UInt8
  | 0x0D :: 0x0A :: rest => 0x0A :: normalize rest
  | b :: rest => b :: normalize rest
  | [] => []

/-- The bytes that a repository keeps of a file. `hasReturns` tells whether the file is staged
with carriage returns. -/
def stored (rule : LineEndRule) (hasReturns : Bool) (bytes : List UInt8) : List UInt8 :=
  match rule with
  | .keep => bytes
  | .normalize => normalize bytes
  | .normalizeText => if looksLikeText bytes && !hasReturns then normalize bytes else bytes

end LineEnds

end TagVersion
