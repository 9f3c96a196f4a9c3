import TagVersion.Config
import TagVersion.Files.Tree

/-!
# Loading the configuration

The configuration of a project is read from a named file, or from the usual one if it is there.
-/

namespace TagVersion

namespace ProjectConfig

/-- Reads a configuration file. -/
def ofFile (files : FileTree) (path : String) : Except Error ProjectConfig :=
  match files.readText path with
  | .ok text => parse text
  | .error e => .error (.io e.message)

/-- Loads the configuration from the given file, or from the usual one; without any the project
is unconfigured. -/
def load (files : FileTree) (path : Option String) : Except Error ProjectConfig :=
  match path with
  | some path => ofFile files path
  | none => if files.pathExists configFile then ofFile files configFile else .ok unconfigured

end ProjectConfig

end TagVersion
