import TagVersion.Repository.Ident
import TagVersion.Repository.LineEnds

/-!
# What is kept of contents

Before the contents of a file are kept they are converted: a mark of identity is emptied, and after
that line ends are normalized. Attributes say which of it is done to a file. After the lists of
attributes in the working tree come those of the user and of the system, and then a setting for files
of which no list says anything.
-/

namespace TagVersion

/-- What the settings of a repository and of its surroundings say on how files are kept. -/
structure StorageSettings where
  /-- Whether line ends are normalized in files that look like texts, where nothing else is said. -/
  normalizesTexts : Bool := false
  /-- The lists of attributes of the user and of the system. -/
  generalAttributes : List AttributeRule := []

namespace StorageSettings

/-- The state of an attribute of a file, if anything is said about it. -/
def state? (settings : StorageSettings) (lists : AttributeLists) (names : Location) (name : String) :
    Option AttributeState :=
  lists.state? names name <|>
    AttributeRule.lastState? settings.generalAttributes (pathBytes names) name

end StorageSettings

/-- What is done to the contents of a file before they are kept. -/
structure Conversion where
  emptiesMark : Bool
  lineEnds : LineEndRule
deriving DecidableEq, Repr

namespace Conversion

/-- Contents are kept as they are. -/
def none : Conversion := ⟨false, .keep⟩

/-- The conversion of a file. -/
def ofAttributes (settings : StorageSettings) (lists : AttributeLists) (names : Location) :
    Conversion where
  emptiesMark := settings.state? lists names "ident" == some .set
  lineEnds := .ofStates (settings.state? lists names) settings.normalizesTexts

/-- The bytes that a repository keeps of a file. `hasReturns` tells whether the file is staged with
carriage returns. -/
def stored (c : Conversion) (hasReturns : Bool) (bytes : List UInt8) : List UInt8 :=
  LineEnds.stored c.lineEnds hasReturns (if c.emptiesMark then Ident.stored bytes else bytes)

end Conversion

end TagVersion
