import TagVersion.Repository.Basic

/-!
# Describing what is checked out

The checkout is described by the nearest commit of its history that carries a version tag, that
is, a tag with a point in its name. Of several version tags on one commit an annotated one wins,
of two annotated ones the newer, and otherwise the one whose name comes first.
-/

namespace TagVersion.Repository

/-- Whether a name is that of a version tag. -/
def isVersionTag (tag : String) : Bool :=
  tag.toList.contains '.'

/-- Whether a tag wins over another one on the same commit whose name comes first. -/
def outranks (r s : Ref) : Bool :=
  match r.note, s.note with
  | some _, none => true
  | some a, some b => b.time < a.time
  | none, _ => false

/-- The version tags on a commit in the order of their references. An annotated tag goes by the
name that it was given. -/
def versionTags (refs : List Ref) (commit : Nat) : List (Ref × String) :=
  refs.filterMap fun r =>
    match RefName.tag? r.name with
    | some tag =>
      if r.target == commit && isVersionTag tag then some (r, (r.note.map (·.name)).getD tag)
      else none
    | none => none

/-- The tag that names a commit. -/
def bestTag? (refs : List Ref) (commit : Nat) : Option String :=
  match versionTags refs commit with
  | [] => none
  | first :: rest =>
    some (rest.foldl (fun best next => if outranks next.1 best.1 then next else best) first).2

/-- The nearest version tag of a history, with the number of commits after it. -/
def nearestTag? (refs : List Ref) : List Nat → Option (String × Nat)
  | [] => none
  | commit :: older =>
    match bestTag? refs commit with
    | some tag => some (tag, 0)
    | none => (nearestTag? refs older).map fun (tag, distance) => (tag, distance + 1)

/-- The description of what is checked out, if its history has a version tag. -/
def describe? (r : Repository) (index : Snapshot) (files : FileTree) (workdir : Location) :
    Option Description := do
  let head ← r.headCommit?
  let (tag, distance) ← nearestTag? r.refs r.history
  return { tag := tag.toList
           distance := UInt64.ofNat distance
           id := r.ids.abbreviated head
           dirty := r.isDirty index files workdir }

/-- The facts of a checkout without a version tag in its history: every commit is a change
since version zero. -/
def untaggedFacts (r : Repository) (index : Snapshot) (files : FileTree) (workdir : Location)
    (head : Nat) : VersionFacts :=
  VersionFacts.ofTag ['0', '.', '0', '.', '0'] (UInt64.ofNat r.history.length)
    (some (String.ofList ('g' :: r.ids.abbreviated head))) (r.isDirty index files workdir)

/-- The version facts of what is checked out, with the given files staged. -/
def facts (r : Repository) (index : Snapshot) (files : FileTree) (workdir : Location) :
    Except Error VersionFacts :=
  match r.headCommit? with
  | none => .error (.scm .repository)
  | some head =>
    match r.describe? index files workdir with
    | none => .ok (r.untaggedFacts index files workdir head)
    | some d =>
      let text := String.ofList d.chars
      match VersionFacts.ofDescription? text with
      | some v => .ok v
      | none => .error (.scm (.stated ("cannot parse git describe output '" ++ text ++ "'")))

end TagVersion.Repository
