/-!
# Diagnostics

What a run has to say to its user besides its result. Some of it is a warning, the rest informs
about steps that were skipped or only simulated.
-/

namespace TagVersion

/-- A remark about a run that does not stop it. -/
inductive Diagnostic where
  | problem (text : String)
  | ignoredFields (keys : List String)
  | versionMismatch (source expected current : String)
  | notCommitting
  | alreadyCorrect (source : String)
  | wouldUpdate (source line : String)
  | hookSkipped (path : String)
deriving DecidableEq, Repr

/-- How much attention a log record asks for. -/
inductive LogLevel where
  | trace
  | info
  | warn
deriving DecidableEq, Repr

/-- A record of what a run did or left undone. -/
structure LogRecord where
  level : LogLevel
  text : String
deriving DecidableEq, Repr

namespace LogRecord

def trace (text : String) : LogRecord := ⟨.trace, text⟩

def info (text : String) : LogRecord := ⟨.info, text⟩

end LogRecord

namespace Diagnostic

/-- Whether a remark is a warning. -/
def isWarning : Diagnostic → Bool
  | problem _ => true
  | ignoredFields _ => true
  | versionMismatch _ _ _ => true
  | hookSkipped _ => true
  | _ => false

/-- The wording of a remark. -/
def text : Diagnostic → String
  | problem text => text
  | ignoredFields keys => "Ignored fields for 'versioning': " ++ ", ".intercalate keys
  | versionMismatch source expected current =>
    "In " ++ source ++ " version should be " ++ expected ++ ", not " ++ current
  | notCommitting => "Not committing bump, nothing will be persisted"
  | alreadyCorrect source => source ++ " already has the right version"
  | wouldUpdate source line => "Would update " ++ source ++ " with '" ++ line ++ "'"
  | hookSkipped path => "Bump hook " ++ path ++ " is not executable, skipping it"

/-- The log record that accompanies a remark. -/
def record (d : Diagnostic) : LogRecord :=
  ⟨if d.isWarning then .warn else .info, d.text⟩

end Diagnostic

end TagVersion
