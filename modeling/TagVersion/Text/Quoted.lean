import TagVersion.Text.HiddenChar

/-!
# Quoted text

Names that appear in lists and tables are written between double quotes. Characters that would
end the quotes, break the line, print nothing or attach themselves to their neighbour are
written as escapes, so that the quoted form can be read off unambiguously.
-/

namespace TagVersion.Text

/-- A code point as a braced hexadecimal escape, in lower case without leading zeros. -/
def hexEscape (c : Char) : List Char :=
  ['\\', 'u', '\x7b'] ++ Nat.toDigits 16 c.toNat ++ ['\x7d']

/-- One character as it stands between double quotes. -/
def escapeChar (c : Char) : List Char :=
  match c with
  | '\x00' => ['\\', '0']
  | '\t' => ['\\', 't']
  | '\r' => ['\\', 'r']
  | '\n' => ['\\', 'n']
  | '\\' => ['\\', '\\']
  | '"' => ['\\', '"']
  | c => if isHidden c then hexEscape c else [c]

/-- A text between double quotes. -/
def quoted (s : String) : String :=
  String.ofList ('"' :: s.toList.flatMap escapeChar ++ ['"'])

/-- A list of quoted texts between brackets. -/
def quotedList (ss : List String) : String :=
  "[" ++ ", ".intercalate (ss.map quoted) ++ "]"

end TagVersion.Text
