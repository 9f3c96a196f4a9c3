import TagVersion.Files.Path
import TagVersion.Files.SystemError

/-!
# File trees

The files, directories and symbolic links below a working directory. Paths are followed name by
name, and every name on the way has to be that of a directory, or of a link to one.

Paths are relative to the working directory, which is where all of them start. Nothing is known of
the file system above it: a path that leads there finds nothing, and neither does an absolute path,
even if it leads back below. It is left to the caller to say where the working directory lies.
-/

namespace TagVersion

/-- A file with its contents and permission bits, a directory, or a symbolic link with the path
along which it leads. -/
inductive FileNode where
  | file (content : ByteArray) (mode : Nat)
  | directory
  | link (target : String)

namespace FileNode

theorem file_inj {content content' : ByteArray} {mode mode' : Nat} :
    file content mode = file content' mode' ↔ content.data = content'.data ∧ mode = mode' := by
  simp [ByteArray.ext_iff]

/-- Files are equal when their bytes and their permissions are. -/
instance : DecidableEq FileNode
  | file .., file .. => decidable_of_iff _ file_inj.symm
  | directory, directory => isTrue rfl
  | link t, link t' => decidable_of_iff (t = t') (by simp)
  | file .., directory => isFalse nofun
  | file .., link _ => isFalse nofun
  | directory, file .. => isFalse nofun
  | directory, link _ => isFalse nofun
  | link _, file .. => isFalse nofun
  | link _, directory => isFalse nofun

end FileNode

/-- The files, directories and links below a working directory. -/
structure FileTree where
  nodes : List (Location × FileNode)
deriving DecidableEq

namespace FileTree

def empty : FileTree := ⟨[]⟩

/-- What lies at a location; the working directory itself is a directory. -/
def node? (t : FileTree) (loc : Location) : Option FileNode :=
  if loc = [] then some .directory else t.nodes.lookup loc

/-- Puts a node at a location, in place of what is there. -/
def putNode (nodes : List (Location × FileNode)) (loc : Location) (node : FileNode) :
    List (Location × FileNode) :=
  match nodes with
  | [] => [(loc, node)]
  | (l, n) :: rest => if l = loc then (loc, node) :: rest else (l, n) :: putNode rest loc node

/-- Puts a node at a location, in place of what is there. -/
def put (t : FileTree) (loc : Location) (node : FileNode) : FileTree :=
  ⟨putNode t.nodes loc node⟩

theorem lookup_putNode (nodes : List (Location × FileNode)) (loc l : Location)
    (node : FileNode) :
    (putNode nodes loc node).lookup l = if l = loc then some node else nodes.lookup l := by
  induction nodes with
  | nil =>
    by_cases h : l = loc
    · simp [putNode, h]
    · simp [putNode, List.lookup_cons, h, beq_false_of_ne h]
  | cons entry rest ih =>
    obtain ⟨k, n⟩ := entry
    by_cases hk : k = loc
    · subst hk
      by_cases h : l = k
      · simp [putNode, h]
      · simp [putNode, List.lookup_cons, h, beq_false_of_ne h]
    · by_cases h : l = k
      · subst h
        simp [putNode, hk]
      · simp [putNode, List.lookup_cons, hk, beq_false_of_ne h, ih]

/-- A written node is found, and nothing else moves. -/
theorem node?_put (t : FileTree) {loc : Location} (hloc : loc ≠ []) (l : Location)
    (node : FileNode) :
    (t.put loc node).node? l = if l = loc then some node else t.node? l := by
  by_cases h : l = []
  · subst h
    simp [node?, Ne.symm hloc]
  · simp [node?, put, h, lookup_putNode]

/-- Puts a node at a location and makes the directories above it. -/
def place (t : FileTree) (loc : Location) (node : FileNode) : FileTree :=
  let above := (List.range loc.length).filterMap fun n => if n = 0 then none else some (loc.take n)
  (above.foldl (fun t l => if (t.node? l).isSome then t else t.put l .directory) t).put loc node

/-- Takes away what is at a location and below it. -/
def remove (t : FileTree) (loc : Location) : FileTree :=
  ⟨t.nodes.filter fun (l, _) => !loc.isPrefixOf l⟩

/-! ### Following paths -/

/-- The greatest number of bytes in a name. -/
def maxNameBytes : Nat := 255

/-- The location that one name leads to from a directory. -/
def step (loc : Location) (name : String) : Except SystemError Location :=
  if name = "" ∨ name = "." then .ok loc
  else if name = ".." then
    if loc = [] then .error .notFound else .ok loc.dropLast
  else if name.utf8ByteSize > maxNameBytes then .error .nameTooLong
  else .ok (loc ++ [name])

/-- Follows names from a location. Only the end of the way may be missing or a file. What is to be
done at a link is told by `along`, from the directory of the link, its target and the names that are
left. -/
def walkWith (t : FileTree)
    (along : Location → String → List String → Except SystemError Location) (loc : Location) :
    List String → Except SystemError Location
  | [] => .ok loc
  | name :: rest =>
    match t.node? loc with
    | none => .error .notFound
    | some .directory =>
      match step loc name with
      | .ok next =>
        match t.node? next with
        | some (.link target) => along loc target rest
        | _ => walkWith t along next rest
      | .error e => .error e
    | some _ => .error .notADirectory

/-- Follows names from a location, and with them a number of links, those at the end of the way
included. -/
def walk (t : FileTree) : Nat → Location → List String → Except SystemError Location
  | 0 => t.walkWith fun _ _ _ => .error .tooManyLinks
  | links + 1 => t.walkWith fun loc target rest =>
    if target = "" ∨ Path.isAbsolute target then .error .notFound
    else walk t links loc (Path.names target ++ rest)

/-- The greatest number of links on the way of a path. -/
def maxLinks : Nat := 40

/-- The greatest number of bytes in a path. -/
def maxPathBytes : Nat := 4095

/-- The location that a path leads to from a directory. An absolute path leads nowhere. -/
def resolveFrom (t : FileTree) (directory : Location) (path : String) :
    Except SystemError Location :=
  if path.toList.contains '\x00' then .error .nulInPath
  else if path.utf8ByteSize > maxPathBytes then .error .nameTooLong
  else if path = "" ∨ Path.isAbsolute path then .error .notFound
  else t.walk maxLinks directory (Path.names path)

/-- The location that a path leads to from the working directory. -/
def resolve (t : FileTree) (path : String) : Except SystemError Location :=
  t.resolveFrom [] path

/-- What lies at the end of a path. -/
def find? (t : FileTree) (path : String) : Option FileNode :=
  match t.resolve path with
  | .ok loc => t.node? loc
  | .error _ => none

/-- Whether there is anything at the end of a path. -/
def pathExists (t : FileTree) (path : String) : Bool :=
  (t.find? path).isSome

def isFile (t : FileTree) (path : String) : Bool :=
  match t.find? path with
  | some (.file ..) => true
  | _ => false

def isDirectory (t : FileTree) (path : String) : Bool :=
  t.find? path == some .directory

/-- Whether a path leads to a file that somebody may execute. -/
def isExecutable (t : FileTree) (path : String) : Bool :=
  match t.find? path with
  | some (.file _ mode) => mode &&& 0o111 != 0
  | _ => false

/-! ### Reading and writing -/

/-- The text of a file, at its location. A link is not followed any more. -/
def textAt (t : FileTree) (loc : Location) : Except SystemError String :=
  match t.node? loc with
  | none => .error .notFound
  | some .directory => .error .isADirectory
  | some (.link _) => .error .tooManyLinks
  | some (.file content _) =>
    match String.fromUTF8? content with
    | some text => .ok text
    | none => .error .invalidText

/-- The text of a file. -/
def readText (t : FileTree) (path : String) : Except SystemError String :=
  match t.resolve path with
  | .ok loc => t.textAt loc
  | .error e => .error e

/-- The permission bits of a new file. -/
def newFileMode : Nat := 0o644

/-- Replaces the contents of a file, which keeps its permissions, or makes a new one. -/
def writeAt (t : FileTree) (loc : Location) (content : ByteArray) :
    Except SystemError FileTree :=
  match t.node? loc with
  | some .directory => .error .isADirectory
  | some (.link _) => .error .tooManyLinks
  | some (.file _ mode) => .ok (t.put loc (.file content mode))
  | none =>
    match t.node? loc.dropLast with
    | some .directory => .ok (t.put loc (.file content newFileMode))
    | _ => .error .notFound

/-- Replaces the text of a file. -/
def writeText (t : FileTree) (path : String) (text : String) : Except SystemError FileTree :=
  match t.resolve path with
  | .ok loc => t.writeAt loc text.toUTF8
  | .error e => .error e

/-- The files with their contents, each at its location. -/
def files (t : FileTree) : List (Location × ByteArray) :=
  t.nodes.filterMap fun (loc, node) =>
    match node with
    | .file content _ => some (loc, content)
    | _ => none

end FileTree

end TagVersion
