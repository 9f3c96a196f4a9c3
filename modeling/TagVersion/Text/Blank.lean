/-!
# Blanks

White space as the Unicode property of that name has it, and trimming of texts by it.
-/

namespace TagVersion.Text

/-- Whether a character is white space: the ASCII blanks and line ends, next line, no-break
space, the spaces of the general punctuation block and the ideographic space. -/
def isBlank (c : Char) : Bool :=
  let n := c.toNat
  (0x9 ≤ n && n ≤ 0xD) || n == 0x20 || n == 0x85 || n == 0xA0 || n == 0x1680 ||
    (0x2000 ≤ n && n ≤ 0x200A) || n == 0x2028 || n == 0x2029 || n == 0x202F || n == 0x205F ||
    n == 0x3000

/-- Drops the longest run of characters with property `p` at the end. -/
def dropEndWhile (p : Char → Bool) (cs : List Char) : List Char :=
  (cs.reverse.dropWhile p).reverse

/-- Drops white space at both ends. -/
def trim (cs : List Char) : List Char :=
  dropEndWhile isBlank (cs.dropWhile isBlank)

/-- Drops white space at both ends of a text. -/
def trimmed (s : String) : String :=
  String.ofList (trim s.toList)

end TagVersion.Text
