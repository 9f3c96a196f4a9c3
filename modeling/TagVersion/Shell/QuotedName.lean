import TagVersion.Shell.Bytes

/-!
# Names in messages

The messages of programs show a name so that it could be given to the shell: a name with
characters that mean something to the shell stands between quotes, and what cannot be shown is
written with escapes.
-/

namespace TagVersion.Shell

namespace QuotedName

def isPrintable (c : Char) : Bool :=
  ' ' ≤ c && c ≤ '~'

/-- Whether a character means nothing to the shell. -/
def isPlain (c : Char) : Bool :=
  c.isAlphanum || ['%', '+', ',', '-', '.', '/', ':', '@', ']', '_'].contains c

/-- Whether a name can be shown without quotes. Some signs matter only at its start, and braces
only if they are all of it. -/
def isBare (cs : Bytes) : Bool :=
  match cs with
  | [] => false
  | ['\x7b'] => false
  | ['\x7d'] => false
  | c :: rest =>
    (isPlain c || c == '\x7b' || c == '\x7d') &&
      rest.all fun c => isPlain c || ['#', '~', '\x7b', '\x7d'].contains c

/-- Whether a character also means nothing between double quotes. -/
def isTame (c : Char) : Bool :=
  isPlain c || [' ', '\'', '#', '~', '\x7b', '\x7d'].contains c

/-- The escape of a character that cannot be shown. -/
def escape (c : Char) : Bytes :=
  match [('\x07', 'a'), ('\x08', 'b'), ('\t', 't'), ('\n', 'n'), ('\x0b', 'v'), ('\x0c', 'f'),
    ('\r', 'r')].lookup c with
  | some letter => ['\\', letter]
  | none =>
    let ds := Nat.toDigits 8 c.toNat
    '\\' :: List.replicate (3 - ds.length) '0' ++ ds

/-- What stands between quotes for a name. `inEscape` tells whether escapes have just been
written, which stand between quotes of their own. -/
def inner (inEscape : Bool) : Bytes → Bytes
  | [] => []
  | c :: cs =>
    if isPrintable c then
      (if inEscape then ['\'', '\''] else []) ++
        (if c = '\'' then ['\'', '\\', '\'', '\''] else [c]) ++ inner false cs
    else (if inEscape then [] else ['\'', '$', '\'']) ++ escape c ++ inner true cs

/-- A name between quotes. -/
def always (cs : Bytes) : Bytes :=
  if cs.contains '\'' && cs.all isTame then '"' :: cs ++ ['"']
  else '\'' :: inner false cs ++ ['\'']

/-- A name, between quotes if it needs them. -/
def ifNeeded (cs : Bytes) : Bytes :=
  if isBare cs then cs else always cs

end QuotedName

end TagVersion.Shell
