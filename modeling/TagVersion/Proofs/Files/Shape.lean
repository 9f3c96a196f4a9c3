import Mathlib
import TagVersion.Files.Tree

/-!
# The shape of file trees

Replacing the text of a file that is there moves no path and changes no permissions.

* **`SameShape`**: the same files, directories and links, with whatever in the files.
* **`SameShape.resolve_eq`**: a path leads to one place in both trees, or fails alike in both.
* **`SameShape.isExecutable_eq`**: a path leads to an executable file in both trees or in none.
* **`sameShape_written`**: the shape stays when a file that can be read is written.
-/

namespace TagVersion

namespace FileTree

/-- Two trees with the same directories and links, and the same files with the same permissions. -/
def SameShape (t t' : FileTree) : Prop :=
  ∀ loc, t'.node? loc = t.node? loc ∨
    ∃ content content' mode, t.node? loc = some (.file content mode) ∧
      t'.node? loc = some (.file content' mode)

namespace SameShape

variable {t t' : FileTree} {loc : Location}

theorem refl (t : FileTree) : SameShape t t := fun _ => .inl rfl

theorem trans {t₁ t₂ t₃ : FileTree} (h : SameShape t₁ t₂) (h' : SameShape t₂ t₃) :
    SameShape t₁ t₃ := by
  intro loc
  rcases h' loc with heq' | ⟨content, content', mode, hmid, hnew⟩
  · rw [heq']
    exact h loc
  · right
    rcases h loc with heq | ⟨old, old', mode', hold, hmid'⟩
    · exact ⟨content, content', mode, heq ▸ hmid, hnew⟩
    · obtain ⟨rfl, rfl⟩ := FileNode.file.inj (Option.some.inj (hmid'.symm.trans hmid))
      exact ⟨old, content', mode', hold, hnew⟩

/-- Whatever is no file is the same in both trees. -/
theorem node?_eq_iff (h : SameShape t t') {node : FileNode}
    (hnode : ∀ content mode, node ≠ .file content mode) :
    t'.node? loc = some node ↔ t.node? loc = some node := by
  rcases h loc with heq | ⟨content, content', mode, hold, hnew⟩
  · rw [heq]
  · rw [hold, hnew]
    have hfile := hnode content mode
    have hfile' := hnode content' mode
    simp [Ne.symm hfile, Ne.symm hfile']

theorem directory_iff (h : SameShape t t') (loc : Location) :
    t'.node? loc = some .directory ↔ t.node? loc = some .directory :=
  h.node?_eq_iff nofun

/-- A file is one with the same permissions in the other tree. -/
theorem exists_file (h : SameShape t t') {content : ByteArray} {mode : Nat}
    (hnode : t.node? loc = some (.file content mode)) :
    ∃ content', t'.node? loc = some (.file content' mode) := by
  rcases h loc with heq | ⟨old, content', mode', hold, hnew⟩
  · exact ⟨content, heq.trans hnode⟩
  · obtain ⟨rfl, rfl⟩ := FileNode.file.inj (Option.some.inj (hold.symm.trans hnode))
    exact ⟨content', hnew⟩

/-! ## Where paths lead -/

/-- A name leads the same way in both trees, since only the kinds of nodes and the targets of links
matter to it. -/
theorem walkWith_eq (h : SameShape t t')
    (along : Location → String → List String → Except SystemError Location) (loc : Location)
    (names : List String) : t'.walkWith along loc names = t.walkWith along loc names := by
  induction names generalizing loc with
  | nil => rfl
  | cons name rest ih =>
    unfold walkWith
    rcases h loc with heq | ⟨content, content', mode, hold, hnew⟩
    · rw [heq]
      cases t.node? loc with
      | none => rfl
      | some node =>
        cases node with
        | file content mode => rfl
        | link target => rfl
        | directory =>
          cases step loc name with
          | error e => rfl
          | ok next =>
            simp only
            rw [ih next]
            rcases h next with heq | ⟨content, content', mode, hold, hnew⟩
            · rw [heq]
            · rw [hold, hnew]
    · rw [hold, hnew]

theorem walk_eq (h : SameShape t t') (links : Nat) : t'.walk links = t.walk links := by
  induction links with
  | zero => exact funext fun loc => funext fun names => h.walkWith_eq _ loc names
  | succ links ih =>
    funext loc names
    unfold walk
    rw [ih]
    exact h.walkWith_eq _ loc names

theorem resolve_eq (h : SameShape t t') (path : String) : t'.resolve path = t.resolve path := by
  unfold resolve resolveFrom
  rw [h.walk_eq]

/-- **Executable files** are the same in both trees. -/
theorem isExecutable_eq (h : SameShape t t') (path : String) :
    t'.isExecutable path = t.isExecutable path := by
  unfold isExecutable find?
  rw [h.resolve_eq]
  cases t.resolve path with
  | error e => rfl
  | ok loc =>
    simp only
    rcases h loc with heq | ⟨content, content', mode, hold, hnew⟩
    · rw [heq]
    · rw [hold, hnew]

end SameShape

/-! ## Writing -/

theorem sameShape_put {t : FileTree} {loc : Location} {content : ByteArray} {mode : Nat}
    (h : t.node? loc = some (.file content mode)) (new : ByteArray) :
    SameShape t (t.put loc (.file new mode)) := by
  have hloc : loc ≠ [] := by
    rintro rfl
    exact absurd h (by simp [node?])
  intro l
  rw [node?_put t hloc]
  by_cases hl : l = loc
  · rw [if_pos hl, hl]
    exact .inr ⟨content, new, mode, h, rfl⟩
  · rw [if_neg hl]
    exact .inl rfl

theorem sameShape_of_writeText {t t' : FileTree} {path text content : String}
    (hread : t.readText path = .ok text) (hwrite : t.writeText path content = .ok t') :
    SameShape t t' := by
  unfold readText at hread
  unfold writeText at hwrite
  cases hresolve : t.resolve path with
  | error e =>
    rw [hresolve] at hread
    exact absurd hread (by simp)
  | ok loc =>
    simp only [hresolve] at hread hwrite
    unfold textAt at hread
    unfold writeAt at hwrite
    cases hnode : t.node? loc with
    | none =>
      rw [hnode] at hread
      exact absurd hread (by simp)
    | some node =>
      cases node with
      | directory =>
        rw [hnode] at hread
        exact absurd hread (by simp)
      | link target =>
        rw [hnode] at hread
        exact absurd hread (by simp)
      | file old mode =>
        rw [hnode] at hwrite
        rw [← Except.ok.inj hwrite]
        exact sameShape_put hnode content.toUTF8

/-- The files after a write, which changes nothing if it fails. -/
def written (t : FileTree) (path content : String) : FileTree :=
  (t.writeText path content).toOption.getD t

theorem written_eq {t t' : FileTree} {path content : String}
    (h : t.writeText path content = .ok t') : t.written path content = t' := by
  unfold written
  rw [h]
  rfl

/-- **Writing** a file that can be read keeps the shape of the tree. -/
theorem sameShape_written {t : FileTree} {path text : String} (h : t.readText path = .ok text)
    (content : String) : SameShape t (t.written path content) := by
  cases hwrite : t.writeText path content with
  | ok t' =>
    rw [written_eq hwrite]
    exact sameShape_of_writeText h hwrite
  | error e =>
    unfold written
    rw [hwrite]
    exact .refl t

end FileTree

end TagVersion
