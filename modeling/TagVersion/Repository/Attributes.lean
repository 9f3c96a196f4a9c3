import TagVersion.Repository.PathRule
import TagVersion.Repository.Ignore

/-!
# Attributes of files

A directory can hold a list of attributes for what lies in it or below it: each line has a
pattern and the attributes that it sets. For one attribute of a path the list in the nearest
directory comes first, and in a list the last line that says anything about the attribute. A list
that the repository has for itself comes before all others.

A name can stand for several attributes. It is left out that it may do so in other lists than the
one that defines it, and so are lists that are symbolic links.
-/

namespace TagVersion

/-- What a line says about an attribute. -/
inductive AttributeState where
  | set
  | unset
  | unspecified
  | value (text : List UInt8)
deriving DecidableEq, Repr

/-- Attributes by their names. -/
abbrev Attributes := List (List UInt8 × AttributeState)

namespace Attributes

/-- Puts the state of an attribute in place of the one before. -/
def put (as : Attributes) (name : List UInt8) (state : AttributeState) : Attributes :=
  (name, state) :: as.filter fun (n, _) => n != name

end Attributes

/-- The names that stand for several attributes. -/
abbrev AttributeGroups := List (List UInt8 × Attributes)

namespace AttributeGroups

/-- The group of files without lines. -/
def usual : AttributeGroups :=
  [("binary".toUTF8.toList,
    ["diff", "merge", "text", "crlf"].map fun name => (name.toUTF8.toList, .unset))]

end AttributeGroups

/-- A line of a list of attributes. -/
structure AttributeRule where
  rule : PathRule
  attributes : Attributes
deriving DecidableEq, Repr

namespace AttributeRule

def equals : UInt8 := 0x3D

def minus : UInt8 := 0x2D

/-- The attribute that a word sets. A word without a name sets none. -/
def ofWord? (word : List UInt8) : Option (List UInt8 × AttributeState) :=
  let (state, word) :=
    match word with
    | b :: rest =>
      if b = minus then (AttributeState.unset, rest)
      else if b = PathRule.exclamationMark then (.unspecified, rest)
      else (.set, b :: rest)
    | [] => (.set, [])
  match word.span (· != equals) with
  | ([], _) => none
  | (name, _ :: b :: text) => some (name, .value (b :: text))
  | (name, _) => some (name, state)

/-- The words of a line up to a comment. -/
def words : Nat → List UInt8 → List (List UInt8)
  | 0, _ => []
  | fuel + 1, bytes =>
    let bytes := bytes.dropWhile PathRule.isBlank
    if bytes = [] || bytes.head? = some PathRule.numberSign then []
    else
      let (word, rest) := bytes.span (!PathRule.isBlank ·)
      word :: words fuel rest

/-- The attributes that a line sets, where the name of a group also sets what is in the
group. -/
def attributesOf (groups : AttributeGroups) (line : List UInt8) : Attributes :=
  (words (line.length + 1) line).foldl (fun as word =>
    match ofWord? word with
    | some (name, state) =>
      let members := if state = .set then (groups.lookup name).getD [] else []
      (members.foldl (fun as (n, s) => as.put n s) as).put name state
    | none => as) []

/-- What begins the definition of a group. -/
def groupLead : List UInt8 := "[attr]".toUTF8.toList

/-- Reads the lines of a list. -/
def ofLines (directory : List UInt8) (groups : AttributeGroups) :
    Nat → List UInt8 → List AttributeRule
  | 0, _ => []
  | fuel + 1, bytes =>
    let bytes := bytes.dropWhile PathRule.isBlank
    match bytes with
    | [] => []
    | b :: _ =>
      if b = PathRule.numberSign then ofLines directory groups fuel (PathRule.nextLine bytes)
      else
        let isGroup := groupLead.isPrefixOf bytes
        let (rule, rest) :=
          PathRule.cut directory false (if isGroup then bytes.drop groupLead.length else bytes)
        let (line, rest) := rest.span (· != PathRule.newline)
        let attributes := attributesOf groups line
        match rule with
        | none => ofLines directory groups fuel rest
        | some rule =>
          if attributes = [] then ofLines directory groups fuel rest
          else if isGroup then
            ofLines directory
              (if directory = [] then (rule.pattern, attributes) :: groups else groups) fuel rest
          else ⟨rule, attributes⟩ :: ofLines directory groups fuel rest

/-- The rules of a list in a directory. -/
def read (directory : List UInt8) (content : ByteArray) : List AttributeRule :=
  let bytes := patternListBytes content.toList
  ofLines directory .usual (bytes.length + 1) bytes

/-- Whether a rule is for a path. -/
def accepts (r : AttributeRule) (path : List UInt8) : Bool :=
  r.rule.accepts path false != r.rule.isException

/-- What the last rule for a path says that says anything about an attribute. -/
def lastState? (rules : List AttributeRule) (path : List UInt8) (name : String) :
    Option AttributeState :=
  rules.reverse.findSome? fun r =>
    if r.accepts path then r.attributes.lookup name.toUTF8.toList else none

end AttributeRule

/-- The lists of attributes in a working tree. -/
structure AttributeLists where
  /-- The list of the repository itself, which comes first. -/
  shared : List AttributeRule
  /-- The other lists, each with its directory. Where a directory has more than one, the first one
  comes first. -/
  lists : List (Location × List AttributeRule)

namespace AttributeLists

/-- The state of an attribute of a file, if anything is said about it. -/
def state? (l : AttributeLists) (names : Location) (name : String) : Option AttributeState :=
  let path := pathBytes names
  AttributeRule.lastState? l.shared path name <|>
    (List.range names.length).reverse.findSome? fun n =>
      l.lists.findSome? fun (directory, rules) =>
        if directory = names.take n then AttributeRule.lastState? rules path name else none

end AttributeLists

namespace FileTree

/-- The name of a list of attributes. -/
def attributeListName : String := ".gitattributes"

/-- Where the repository in a working tree keeps its own list. -/
def sharedAttributeList : Location := [repositoryName, "info", "attributes"]

/-- The lists of attributes in a working tree; after a list comes what is staged of it. -/
def attributeLists (t : FileTree) (workdir : Location) (index : Snapshot) : AttributeLists where
  shared :=
    match t.node? (workdir ++ sharedAttributeList) with
    | some (.file content _) => AttributeRule.read [] content
    | _ => []
  lists :=
    let present := t.nodes.filterMap fun (loc, node) =>
      match node with
      | .file content _ =>
        if loc.getLast? = some attributeListName && workdir.isPrefixOf loc then
          let directory := loc.dropLast.drop workdir.length
          some (directory, AttributeRule.read (leadBytes directory) content)
        else none
      | _ => none
    let staged := index.filterMap fun (path, blob) =>
      let names := Path.names path
      if names.getLast? = some attributeListName && blob.kind != .link then
        some (names.dropLast, AttributeRule.read (leadBytes names.dropLast) blob.content)
      else none
    present ++ staged

end FileTree

end TagVersion
