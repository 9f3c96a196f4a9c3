import TagVersion.Proofs.Files.Shape

/-!
# Reading and writing

A file that can be read lies at the location that its path leads to. Writing it replaces its text
there and leaves all other locations alone.

* **`readText_eq_ok_iff`**: what is read is the text of a file.
* **`node?_written`**: what a write leaves at each location.
* **`readText_written_self`, `readText_written_of_ne`**: what is read after a write.
* **`readText_written_map`**: whether it can be read, with `cases_of_map_eq`.
-/

namespace TagVersion

theorem fromUTF8?_eq_some_iff {content : ByteArray} {text : String} :
    String.fromUTF8? content = some text ↔ content = text.toUTF8 := by
  unfold String.fromUTF8?
  constructor
  · intro h
    split at h
    · rw [← Option.some.inj h]
      rfl
    · exact absurd h (by simp)
  · rintro rfl
    rw [String.toUTF8_eq_toByteArray, dif_pos text.isValidUTF8]
    rfl

/-- Of two answers that are the same but for their values, both give one, or both are one error. -/
theorem cases_of_map_eq {ε α : Type} {answer other : Except ε α}
    (h : answer.map (fun _ => ()) = other.map fun _ => ()) :
    (∃ a b, answer = .ok a ∧ other = .ok b) ∨ ∃ e, answer = .error e ∧ other = .error e := by
  cases answer with
  | ok a =>
    cases other with
    | ok b => exact .inl ⟨a, b, rfl, rfl⟩
    | error e => exact absurd h nofun
  | error e =>
    cases other with
    | ok b => exact absurd h nofun
    | error e' =>
      obtain rfl : e = e' := Except.error.inj h
      exact .inr ⟨e, rfl, rfl⟩

namespace FileTree

variable {t : FileTree} {path text : String} {loc : Location}

/-! ## What is read -/

theorem textAt_eq_ok_iff :
    t.textAt loc = .ok text ↔ ∃ mode, t.node? loc = some (.file text.toUTF8 mode) := by
  unfold textAt
  constructor
  · intro h
    split at h
    · exact absurd h nofun
    · exact absurd h nofun
    · exact absurd h nofun
    · next content mode hnode =>
      split at h
      · next text' htext =>
        obtain rfl := Except.ok.inj h
        rw [← fromUTF8?_eq_some_iff.mp htext]
        exact ⟨mode, hnode⟩
      · exact absurd h (by simp)
  · rintro ⟨mode, hnode⟩
    rw [hnode]
    simp only [fromUTF8?_eq_some_iff.mpr rfl]

theorem readText_of_resolve (h : t.resolve path = .ok loc) : t.readText path = t.textAt loc := by
  unfold readText
  rw [h]

/-- **What is read** is the text of the file at the end of a path. -/
theorem readText_eq_ok_iff :
    t.readText path = .ok text ↔
      ∃ loc mode, t.resolve path = .ok loc ∧ t.node? loc = some (.file text.toUTF8 mode) := by
  cases hresolve : t.resolve path with
  | error e =>
    unfold readText
    rw [hresolve]
    simp
  | ok loc =>
    rw [readText_of_resolve hresolve, textAt_eq_ok_iff]
    simp

/-- What can be executed is a file. -/
theorem exists_resolve_of_isExecutable (h : t.isExecutable path = true) :
    ∃ loc, t.resolve path = .ok loc ∧ t.isFile path = true := by
  unfold isExecutable at h
  unfold isFile
  cases hfind : t.find? path with
  | none =>
    rw [hfind] at h
    exact absurd h Bool.false_ne_true
  | some node =>
    obtain ⟨loc, hresolve⟩ : ∃ loc, t.resolve path = .ok loc := by
      unfold find? at hfind
      cases hresolve : t.resolve path with
      | ok loc => exact ⟨loc, rfl⟩
      | error e =>
        rw [hresolve] at hfind
        exact absurd hfind nofun
    refine ⟨loc, hresolve, ?_⟩
    cases node with
    | file content mode => rfl
    | directory =>
      rw [hfind] at h
      exact absurd h Bool.false_ne_true
    | link target =>
      rw [hfind] at h
      exact absurd h Bool.false_ne_true

/-! ## What is there after a write -/

section

variable {old : ByteArray} {mode : Nat} (hresolve : t.resolve path = .ok loc)
  (hnode : t.node? loc = some (.file old mode))

include hresolve hnode

/-- Writing over a file always succeeds, and the file keeps its permissions. -/
theorem writeText_of_file (content : String) :
    t.writeText path content = .ok (t.put loc (.file content.toUTF8 mode)) := by
  unfold writeText writeAt
  rw [hresolve]
  simp only [hnode]

/-- **A write** changes one location. -/
theorem node?_written (content : String) (l : Location) :
    (t.written path content).node? l =
      if l = loc then some (.file content.toUTF8 mode) else t.node? l := by
  have hloc : loc ≠ [] := by
    rintro rfl
    exact absurd hnode (by simp [node?])
  rw [written_eq (writeText_of_file hresolve hnode content), node?_put t hloc]

end

section

variable (hread : t.readText path = .ok text)

include hread

theorem readText_written_self (content : String) :
    (t.written path content).readText path = .ok content := by
  obtain ⟨loc, mode, hresolve, hnode⟩ := readText_eq_ok_iff.mp hread
  refine readText_eq_ok_iff.mpr ⟨loc, mode, ?_, ?_⟩
  · rw [(sameShape_written hread content).resolve_eq, hresolve]
  · rw [node?_written hresolve hnode, if_pos rfl]

/-- What lies where another path leads to is left alone. -/
theorem node?_written_of_ne (content : String) (hne : t.resolve path ≠ .ok loc) :
    (t.written path content).node? loc = t.node? loc := by
  obtain ⟨loc', mode, hresolve, hnode⟩ := readText_eq_ok_iff.mp hread
  rw [node?_written hresolve hnode, if_neg]
  rintro rfl
  exact hne hresolve

theorem readText_written_of_ne (content : String) {other : String}
    (hne : ∀ loc, t.resolve other = .ok loc → t.resolve path ≠ .ok loc) :
    (t.written path content).readText other = t.readText other := by
  have hshape := (sameShape_written hread content).resolve_eq other
  cases hother : t.resolve other with
  | error e =>
    rw [hother] at hshape
    unfold readText
    rw [hshape, hother]
  | ok loc =>
    rw [hother] at hshape
    rw [readText_of_resolve hshape, readText_of_resolve hother]
    unfold textAt
    rw [node?_written_of_ne hread content (hne loc hother)]

/-- Whether a file can be read, and what stands in the way, stays the same. -/
theorem readText_written_map (content other : String) :
    ((t.written path content).readText other).map (fun _ => ()) =
      (t.readText other).map fun _ => () := by
  by_cases hsame : t.resolve other = t.resolve path
  · -- another path to the written file: it leads to a text before and after
    have hother : t.readText other = .ok text := by
      unfold readText at hread ⊢
      rwa [hsame]
    have hshape := sameShape_written hread content
    have hwritten : (t.written path content).readText other = .ok content := by
      have hself := readText_written_self hread content
      unfold readText at hself ⊢
      rwa [hshape.resolve_eq, hsame, ← hshape.resolve_eq]
    rw [hother, hwritten]
    rfl
  · rw [readText_written_of_ne hread content fun loc hloc hpath => hsame (hloc.trans hpath.symm)]

end

end FileTree

end TagVersion
