import TagVersion.Repository.NameGlob
import TagVersion.Shell.Bytes

/-!
# Patterns of the shell

A pattern of the shell is a text some of whose characters are quoted. A quoted character stands
for itself; so does a bracket that nothing closes.
-/

namespace TagVersion.Shell

/-- A character, and whether it is quoted. -/
abbrev MarkedChar := Char × Bool

namespace Pattern

def byte (c : Char) : UInt8 := UInt8.ofNat c.toNat

/-- The name of a class of characters, after its opening colon. -/
def cutClass? (cs : List MarkedChar) : Option (ByteClass × List MarkedChar) :=
  match cs.span (fun (c, _) => c != ']') with
  | (name, _ :: rest) =>
    if name.getLast?.any (·.1 == ':') then
      (ByteClass.ofName? (name.dropLast.map (·.1))).map (·, rest)
    else none
  | _ => none

/-- The classes of a set up to its closing bracket. A bracket that stands first is in the
set. -/
def cutSet (isFirst : Bool) : Nat → List MarkedChar → Option (List ByteClass × List MarkedChar)
  | 0, _ => none
  | fuel + 1, cs =>
    match cs with
    | [] => none
    | (c, isQuoted) :: rest =>
      if c = ']' ∧ !isQuoted ∧ !isFirst then some ([], rest)
      else
        let named :=
          if c = '[' ∧ !isQuoted ∧ rest.head? = some (':', false) then cutClass? rest.tail
          else none
        match named with
        | some (cls, rest) =>
          (cutSet false fuel rest).map fun (classes, rest) => (cls :: classes, rest)
        | none =>
          match rest with
          | ('-', false) :: (high, isQuotedHigh) :: more =>
            if high = ']' ∧ !isQuotedHigh then
              (cutSet false fuel rest).map fun (classes, rest) =>
                (.range (byte c) (byte c) :: classes, rest)
            else
              (cutSet false fuel more).map fun (classes, rest) =>
                (.range (byte c) (byte high) :: classes, rest)
          | rest =>
            (cutSet false fuel rest).map fun (classes, rest) =>
              (.range (byte c) (byte c) :: classes, rest)

/-- A set after its opening bracket. -/
def cutBrackets? (cs : List MarkedChar) : Option (GlobPart × List MarkedChar) :=
  let isNegated := cs.head? = some ('!', false) || cs.head? = some ('^', false)
  let cs := if isNegated then cs.tail else cs
  (cutSet true (cs.length + 1) cs).map fun (classes, rest) => (.set isNegated classes, rest)

/-- The parts of a pattern. -/
def partsFrom : Nat → List MarkedChar → List GlobPart
  | 0, _ => []
  | fuel + 1, cs =>
    match cs with
    | [] => []
    | ('*', false) :: rest => .pathRun :: partsFrom fuel rest
    | ('?', false) :: rest => .anyByte :: partsFrom fuel rest
    | ('\\', false) :: (c, _) :: rest => .byte (byte c) :: partsFrom fuel rest
    | ('[', false) :: rest =>
      match cutBrackets? rest with
      | some (part, rest) => part :: partsFrom fuel rest
      | none => .byte (byte '[') :: partsFrom fuel rest
    | (c, _) :: rest => .byte (byte c) :: partsFrom fuel rest

/-- The parts of a pattern. -/
def parts (cs : List MarkedChar) : List GlobPart :=
  partsFrom (cs.length + 1) cs

/-- Whether a text matches a pattern as a whole. -/
def accepts (pattern : List MarkedChar) (text : Bytes) : Bool :=
  NameGlob.accepts false (parts pattern) (toBytes text)

/-- Whether a pattern has characters with a meaning of their own. -/
def isActive (cs : List MarkedChar) : Bool :=
  cs.any fun (c, isQuoted) => !isQuoted && ['*', '?', '['].contains c

/-- What is left of a text without the shortest or longest start that matches a pattern. -/
def trimStart (isLongest : Bool) (pattern : List MarkedChar) (text : Bytes) : Bytes :=
  let parts := parts pattern
  let sizes := List.range (text.length + 1)
  let sizes := if isLongest then sizes.reverse else sizes
  match sizes.find? fun n => NameGlob.accepts false parts (toBytes (text.take n)) with
  | some n => text.drop n
  | none => text

/-- What is left of a text without the shortest or longest end that matches a pattern. -/
def trimEnd (isLongest : Bool) (pattern : List MarkedChar) (text : Bytes) : Bytes :=
  let parts := parts pattern
  let places := List.range (text.length + 1)
  let places := if isLongest then places else places.reverse
  match places.find? fun n => NameGlob.accepts false parts (toBytes (text.drop n)) with
  | some n => text.take n
  | none => text

end Pattern

end TagVersion.Shell
