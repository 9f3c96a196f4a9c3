import TagVersion.Metadata
import TagVersion.Workspace

/-!
# Working on metadata

Filling in a field changes the metadata of a project beside its workspace. Both are changed step by
step; when an operation fails, what it has done to either of them remains.
-/

namespace TagVersion

/-- A project while its metadata is worked on. -/
structure Draft (σ : Type) where
  workspace : Workspace σ
  metadata : Metadata

/-- An operation on the metadata of a project and on its workspace. -/
abbrev Filling (σ : Type) := EStateM Error (Draft σ)

namespace Filling

variable {σ α : Type}

/-- An operation on the workspace alone. -/
def work (act : Action σ α) : Filling σ α := fun p =>
  match act p.workspace with
  | .ok a w => .ok a { p with workspace := w }
  | .error e w => .error e { p with workspace := w }

/-- Fills in a field, with a record if it is left as it is. -/
def fillIn (key : String) (e : SourceEntry) (mayOverride : Bool) : Filling σ Unit := do
  let m := (← get).metadata
  work (Action.note (m.autoFillLog key mayOverride))
  modify fun p => { p with metadata := m.autoFill key e mayOverride }

end Filling

end TagVersion
