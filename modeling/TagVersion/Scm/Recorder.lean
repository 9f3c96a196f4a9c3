import TagVersion.Workspace

/-!
# Recorded source control

A backend that answers as it was told and records the requests that it grants. It stands in for
a repository when only the requests matter.
-/

namespace TagVersion

/-- The requests to a backend. -/
inductive ScmCall where
  | getVersion
  | getBranch
  | applyTag
  | commitFiles
deriving DecidableEq, Repr

namespace ScmCall

def name : ScmCall → String
  | getVersion => "get_version"
  | getBranch => "get_branch"
  | applyTag => "apply_tag"
  | commitFiles => "commit_files"

def all : List ScmCall := [getVersion, getBranch, applyTag, commitFiles]

/-- The request of a name, which is matched exactly. -/
def ofName? (s : String) : Option ScmCall :=
  all.find? (·.name == s)

end ScmCall

/-- A backend that answers as it was told. -/
structure Recorder where
  facts : VersionFacts
  branch : String
  /-- The requests that it refuses. -/
  refuses : List ScmCall
  tags : List (Bool × String)
  commits : List (Bool × List String × String)

namespace Recorder

/-- Refuses a request if it was told to. -/
def attempt {α : Type} (r : Recorder) (call : ScmCall) (answer : α) : Except Error α :=
  if r.refuses.contains call then .error (.scm (.stated (call.name ++ " refused")))
  else .ok answer

/-- Grants a request with a changed record, or refuses it. -/
def request (r : Recorder) (call : ScmCall) (granted : Recorder) : Reply Recorder :=
  match r.attempt call granted with
  | .ok r => ⟨.ok (), r, []⟩
  | .error e => ⟨.error e, r, []⟩

instance : VersionControl Recorder where
  refresh r := r
  facts r _ := r.attempt .getVersion r.facts
  branch r := r.attempt .getBranch r.branch
  applyTag r commit version :=
    r.request .applyTag { r with tags := r.tags ++ [(commit, version)] }
  commitFiles r _ commit paths version :=
    r.request .commitFiles { r with commits := r.commits ++ [(commit, paths, version)] }

end Recorder

end TagVersion
