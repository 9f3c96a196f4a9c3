import TagVersion.Text.Quoted

/-!
# Errors

The reasons for which an operation on a project's version is refused, and their wording.
-/

namespace TagVersion

/-- Why an operation of the source control backend failed. -/
inductive ScmFault where
  /-- The backend gave a reason in words. -/
  | stated (reason : String)
  /-- The repository itself refused, of which only the fact is reported. -/
  | repository
deriving DecidableEq, Repr

/-- Why an operation failed. -/
inductive Error where
  | scm (fault : ScmFault)
  | disabled (reason : String)
  | branchNotAllowed (branch : String) (allowed : List String)
  | pendingChanges
  | customMainFormat (format : String)
  | outOfScope (component format : String)
  | versionOverflow (component version : String)
  | invalidComponent (text : String)
  | hook (reason : String)
  | source (reason : String)
  | config (reason : String)
  | io (reason : String)
deriving DecidableEq, Repr

namespace ScmFault

def reason : ScmFault → String
  | stated reason => reason
  | repository => "the repository refused"

end ScmFault

namespace Error

/-- The wording of an error. -/
def message : Error → String
  | scm fault => "Git operation failed: " ++ fault.reason
  | disabled reason => reason
  | branchNotAllowed branch allowed =>
    "Can't bump branch '" ++ branch ++ "', need one of " ++ Text.quotedList allowed
  | pendingChanges => "You have pending git changes, can't bump"
  | customMainFormat format => "Main format is not a template: " ++ format
  | outOfScope component format =>
    "Can't bump '" ++ component ++ "', it's out of scope of main format '" ++ format ++ "'"
  | versionOverflow component version =>
    "Can't bump '" ++ component ++ "' of " ++ version ++ ", it would overflow"
  | invalidComponent text =>
    "Invalid bump component '" ++ text ++ "', expected one of major, minor, patch"
  | hook reason => "Hook failed: " ++ reason
  | source reason => "Version source error: " ++ reason
  | config reason => "Configuration error: " ++ reason
  | io reason => "I/O error: " ++ reason

end Error

end TagVersion
