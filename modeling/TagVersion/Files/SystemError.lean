/-!
# Errors of the operating system

Why a file could not be read or written, or a program not be started.
-/

namespace TagVersion

/-- An error of the operating system, or of what is asked of it. -/
inductive SystemError where
  | notFound
  | notExecutableFormat
  | permissionDenied
  | notADirectory
  | isADirectory
  | nameTooLong
  | tooManyLinks
  /-- A file was to be read as text and is none. -/
  | invalidText
  /-- A path contains the character that ends paths. -/
  | nulInPath
  /-- An argument or variable contains the character that ends texts. -/
  | nulInArgument
deriving DecidableEq, Repr

namespace SystemError

/-- What is wrong. -/
def reason : SystemError → String
  | notFound => "No such file or directory"
  | notExecutableFormat => "Exec format error"
  | permissionDenied => "Permission denied"
  | notADirectory => "Not a directory"
  | isADirectory => "Is a directory"
  | nameTooLong => "File name too long"
  | tooManyLinks => "Too many levels of symbolic links"
  | invalidText => "stream did not contain valid UTF-8"
  | nulInPath => "file name contained an unexpected NUL byte"
  | nulInArgument => "nul byte found in provided data"

/-- The mark that an error of the system has after its reason. -/
def mark : SystemError → String
  | notFound => " (os error 2)"
  | notExecutableFormat => " (os error 8)"
  | permissionDenied => " (os error 13)"
  | notADirectory => " (os error 20)"
  | isADirectory => " (os error 21)"
  | nameTooLong => " (os error 36)"
  | tooManyLinks => " (os error 40)"
  | _ => ""

def message (e : SystemError) : String :=
  e.reason ++ e.mark

end SystemError

end TagVersion
