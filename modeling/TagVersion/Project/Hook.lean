import TagVersion.Shell.Launch
import TagVersion.Version.Triplet
import TagVersion.Workspace

/-!
# Release hooks

A project can have a program that is run after each release, with the facts of the release in
its environment. When the release is only simulated the program is not started.
-/

namespace TagVersion

/-- What a hook is told about a release. -/
structure HookContext where
  version : String
  component : Component
  branch : String
  dryRun : Bool

namespace HookContext

/-- The environment variables that hold the context. -/
def environment (c : HookContext) : Environment :=
  [("BUMP_VERSION", c.version),
   ("BUMP_COMPONENT", c.component.name),
   ("BUMP_BRANCH", c.branch),
   ("BUMP_DRYRUN", if c.dryRun then "1" else "0")]

end HookContext

namespace Hook

/-- The file in a project that is run after a release. -/
def fileName : String := "bump-hook"

/-- The status of a program as it is reported; a program that a signal ended has none. -/
def statusText (status : Option Nat) : String :=
  match status with
  | some n => toString n
  | none => "-1"

/-- The report of a hook that ended with a failure. -/
def failureReport (path : String) (o : Outcome) : String :=
  "Hook " ++ path ++ " failed with exit code " ++ statusText o.status ++
    "\nStdout: " ++ Text.lossy o.output ++ "\nStderr: " ++ Text.lossy o.errors

/-- What came of the start of a hook: it has to end, and without a failure. -/
def verdict (path : String) : Except SystemError Outcome → Except Error Unit
  | .error e => .error (.hook ("Failed to execute hook " ++ path ++ ": " ++ e.message))
  | .ok outcome =>
    if outcome.status = some 0 then .ok () else .error (.hook (failureReport path outcome))

/-- Runs the hook at a path in a directory. -/
def execute {σ : Type} (host : Host) (base path directory : String) (context : HookContext) :
    Action σ Unit := do
  let w ← get
  match w.files.resolve path with
  | .error _ => throw (.hook ("Hook script not found: " ++ path))
  | .ok location =>
    if !w.files.isFile path then throw (.hook ("Hook script not found: " ++ path))
    if context.dryRun then
      Action.note [.info ("Would run: " ++ path)]
    else
      Action.note [.info ("Running: " ++ Path.join base (Path.ofLocation location))]
      Action.enter (.runHook path context.environment)
      let (files, result) :=
        host.start { location, directory, extra := context.environment } w.files
      modify fun w => { w with files }
      Action.ofExcept (verdict path result)

end Hook

end TagVersion
