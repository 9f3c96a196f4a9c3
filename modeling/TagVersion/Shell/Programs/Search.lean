import TagVersion.Shell.Programs.Arguments
import TagVersion.Shell.Regex

/-!
# Searching lines

The program that writes the lines of files in which one of some patterns is found.
-/

namespace TagVersion.Shell

namespace Utility

open Machine

/-- What is searched for, and where a match may stand. -/
structure Search where
  pattern : Regex
  fits : Regex.Fit
  ignoresCase : Bool

/-- A pattern that is found where a text is. -/
def literal (cs : Bytes) : Regex :=
  cs.foldr (fun c r => .both (.byte c) r) .nothing

/-- The pattern of some texts, each of which may hold one pattern in a line. -/
def patternOf? (isExtended isLiteral : Bool) (texts : List Bytes) : Option Regex := do
  let patterns ← (texts.flatMap fun cs => cs.splitOn '\n').mapM fun cs =>
    if isLiteral then some (literal cs) else Regex.parse isExtended cs
  match patterns with
  | [] => none
  | r :: rest => some (rest.foldl .either r)

/-- Writes the lines in which a pattern is found. It is a failure if there is none. -/
def search (program : String) (kind : Option Char) : Utility :=
  withOptions program 2
    (.ofLetters "qvicnlLEFGowxshHaIrRP" "emfABC"
      [("quiet", 'q'), ("silent", 'q'), ("invert-match", 'v'), ("ignore-case", 'i'),
        ("count", 'c'), ("line-number", 'n'), ("files-with-matches", 'l'),
        ("files-without-match", 'L'), ("extended-regexp", 'E'), ("fixed-strings", 'F'),
        ("only-matching", 'o'), ("word-regexp", 'w'), ("line-regexp", 'x'), ("no-messages", 's'),
        ("no-filename", 'h'), ("with-filename", 'H'), ("regexp", 'e'), ("max-count", 'm')]) fun a => do
    let given := (a.options.filter (·.1 == 'e')).map (·.2)
    let (texts, names) :=
      if given != [] then (given, a.operands) else (a.operands.take 1, a.operands.drop 1)
    if texts = [] then
      emit 2 "Usage: grep [OPTION]... PATTERNS [FILE]...\nTry 'grep --help' for more information.\n".toList
      finish 2
    else
      let isExtended := a.has 'E' || a.has 'P' || kind = some 'E'
      let isLiteral := a.has 'F' || kind = some 'F'
      match patternOf? isExtended isLiteral texts with
      | none => complain program 2 "Invalid regular expression".toList
      | some pattern =>
        let s : Search :=
          { pattern
            fits :=
              if a.has 'x' then Regex.fitsLine else if a.has 'w' then Regex.fitsWord
              else Regex.fitsAnywhere
            ignoresCase := a.has 'i' }
        let showsNames := (names.length > 1 || a.has 'H') && !a.has 'h'
        let limit := ((a.value? 'm').bind count?)
        let mut isFound := false
        let mut isBad := false
        for name in (if names = [] then [inputName] else names) do
          let shown := if name = inputName then "(standard input)".toList else name
          match ← content name with
          | .error e =>
            isBad := true
            unless a.has 's' do
              emit 2 (program.toList ++ ": ".toList ++ name ++ ": ".toList ++ e.reason.toList ++ ['\n'])
          | .ok cs =>
            let lines := (linesOf cs).zipIdx 1
            let hits := lines.filter fun (line, _) =>
              (s.pattern.find? s.fits s.ignoresCase line).isSome != a.has 'v'
            let hits :=
              match limit with
              | some n => hits.take n
              | none => hits
            if hits != [] then isFound := true
            if a.has 'q' then pure ()
            else if a.has 'l' then
              if hits != [] then emit 1 (shown ++ ['\n'])
            else if a.has 'L' then
              if hits = [] then emit 1 (shown ++ ['\n'])
            else
              let lead := if showsNames then shown ++ [':'] else []
              if a.has 'c' then emit 1 (lead ++ numeral hits.length ++ ['\n'])
              else
                for (line, n) in hits do
                  let lead := lead ++ (if a.has 'n' then numeral n ++ [':'] else [])
                  if a.has 'o' then
                    unless a.has 'v' do
                      for found in s.pattern.allMatches s.fits s.ignoresCase line do
                        if found.found != [] then emit 1 (lead ++ found.found ++ ['\n'])
                  else emit 1 (lead ++ line ++ ['\n'])
        finish (if isBad && !(a.has 'q' && isFound) then 2 else if isFound then 0 else 1)

end Utility

end TagVersion.Shell
