import Mathlib
import TagVersion.Metadata

/-!
# The history of a field

A field is defined by the operations that name it. The first of them creates its definition, and
what a later one does depends on its kind: a declaration adds an entry and leaves the value alone, a
fill does both or neither.

* **`Metadata.run`**: operations one after the other.
* **`Definition.ofHistory?`**: the definition that the operations on a field tell.
* **`Metadata.definition?_run`**: what one operation leaves, and then a run of them.
* **`Metadata.definition?_history`**: every field is what its history tells.
-/

namespace TagVersion

namespace Metadata

/-- An operation on the metadata of a project. -/
inductive Operation where
  | declare (key : String) (entry : SourceEntry)
  | autoFill (key : String) (entry : SourceEntry) (mayOverride : Bool)
deriving DecidableEq, Repr

namespace Operation

def key : Operation → String
  | declare key _ => key
  | autoFill key _ _ => key

def entry : Operation → SourceEntry
  | declare _ e => e
  | autoFill _ e _ => e

/-- Whether a field that is defined takes its value from the operation. -/
def overrides : Operation → Bool
  | declare _ _ => false
  | autoFill _ _ mayOverride => mayOverride

/-- Whether a field that is defined keeps the entry of the operation. -/
def isKept : Operation → Bool
  | declare _ _ => true
  | autoFill _ _ mayOverride => mayOverride

theorem isKept_of_overrides {op : Operation} (h : op.overrides = true) : op.isKept = true := by
  cases op with
  | declare key e => exact absurd h Bool.false_ne_true
  | autoFill key e mayOverride => exact h

end Operation

def perform (m : Metadata) : Operation → Metadata
  | .declare key e => m.declare key e
  | .autoFill key e mayOverride => m.autoFill key e mayOverride

def run (m : Metadata) (ops : List Operation) : Metadata :=
  ops.foldl perform m

/-- What metadata begins with: with no field at all, or with what a configuration declares. -/
inductive Origin where
  | empty (versioning : Option Declaration)
  | config (c : ProjectConfig)

namespace Origin

def metadata : Origin → Metadata
  | empty versioning => ofDeclaration versioning
  | config c => ofConfig c

/-- The declarations that a configuration makes. -/
def operations : Origin → List Operation
  | empty _ => []
  | config c => ((c.version.map configEntries).getD []).map (.declare versionKey)

end Origin

end Metadata

open Metadata (Operation Origin)

namespace Definition

def perform (d : Definition) : Operation → Definition
  | .declare _ e => d.declare e
  | .autoFill _ e mayOverride => if mayOverride then d.override e else d

/-- The definition that the operations on a field tell: the first one creates it, and of the later
ones those that are kept add their entries. The last one that overrides gives the value. -/
def ofHistory? (key : String) : List Operation → Option Definition
  | [] => none
  | first :: later =>
    let last := ((later.filter (·.overrides)).getLast?.getD first).entry
    some
      { key
        value := last.value
        source := last.source
        sources := first.entry :: (later.filter (·.isKept)).map (·.entry) }

theorem key_perform (d : Definition) (op : Operation) : (d.perform op).key = d.key := by
  cases op with
  | declare key e => rfl
  | autoFill key e mayOverride => cases mayOverride <;> rfl

theorem ofHistory?_append_singleton {key : String} {history : List Operation} {d : Definition}
    (h : ofHistory? key history = some d) (op : Operation) :
    ofHistory? key (history ++ [op]) = some (d.perform op) := by
  cases history with
  | nil => exact absurd h (by simp [ofHistory?])
  | cons first later =>
    obtain rfl := Option.some.inj h
    -- an operation is kept and overrides by its kind alone
    cases op with
    | declare key e => simp [ofHistory?, perform, declare, Operation.overrides, Operation.isKept,
        Operation.entry]
    | autoFill key e mayOverride =>
      cases mayOverride with
      | true => simp [ofHistory?, perform, override, Operation.overrides, Operation.isKept,
          Operation.entry]
      | false => simp [ofHistory?, perform, Operation.overrides, Operation.isKept]

theorem exists_ofHistory?_append {key : String} {history : List Operation} {d : Definition}
    (h : ofHistory? key history = some d) (rest : List Operation) :
    ∃ d', ofHistory? key (history ++ rest) = some d' ∧ d.sources <+: d'.sources ∧
      d'.declared? = d.declared? := by
  cases history with
  | nil => exact absurd h (by simp [ofHistory?])
  | cons first later =>
    obtain rfl := Option.some.inj h
    refine ⟨_, rfl, ?_, rfl⟩
    have hsources : ((later ++ rest).filter (·.isKept)).map (·.entry) =
        (later.filter (·.isKept)).map (·.entry) ++ (rest.filter (·.isKept)).map (·.entry) := by
      rw [List.filter_append, List.map_append]
    show first.entry :: _ <+: first.entry :: ((later ++ rest).filter (·.isKept)).map (·.entry)
    rw [hsources]
    exact List.cons_prefix_cons.mpr ⟨rfl, List.prefix_append _ _⟩

theorem mem_sources_of_ofHistory? {key : String} {history : List Operation} {d : Definition}
    (h : ofHistory? key history = some d) : ⟨d.source, d.value⟩ ∈ d.sources := by
  cases history with
  | nil => exact absurd h (by simp [ofHistory?])
  | cons first later =>
    obtain rfl := Option.some.inj h
    show ((later.filter (·.overrides)).getLast?.getD first).entry ∈
      first.entry :: (later.filter (·.isKept)).map (·.entry)
    cases hlast : (later.filter (·.overrides)).getLast? with
    | none => exact List.mem_cons_self
    | some op =>
      obtain ⟨hmem, hoverrides⟩ := List.mem_filter.mp (List.mem_of_getLast? hlast)
      have hkept : op ∈ later.filter (·.isKept) :=
        List.mem_filter.mpr ⟨hmem, Operation.isKept_of_overrides hoverrides⟩
      exact List.mem_cons_of_mem _ (List.mem_map_of_mem hkept)

theorem exists_mem_of_mem_sources {key : String} {history : List Operation} {d : Definition}
    (h : ofHistory? key history = some d) {e : SourceEntry} (he : e ∈ d.sources) :
    ∃ op ∈ history, op.entry = e := by
  cases history with
  | nil => exact absurd h (by simp [ofHistory?])
  | cons first later =>
    obtain rfl := Option.some.inj h
    rcases List.mem_cons.mp he with rfl | he
    · exact ⟨first, List.mem_cons_self, rfl⟩
    · obtain ⟨op, hop, rfl⟩ := List.mem_map.mp he
      exact ⟨op, List.mem_cons_of_mem _ (List.mem_filter.mp hop).1, rfl⟩

theorem ofHistory?_eq_none_iff {key : String} {history : List Operation} :
    ofHistory? key history = none ↔ history = [] := by
  cases history with
  | nil => simp [ofHistory?]
  | cons first later => simp [ofHistory?]

end Definition

namespace Metadata

/-! ## Single operations -/

section

variable {m : Metadata} {key key' : String} {e : SourceEntry} {change : Definition → Definition}

theorem key_of_definition?_eq_some {d : Definition} (h : m.definition? key = some d) :
    d.key = key := by
  have hfind : m.definitions.find? (fun d => d.key == key) = some d := h
  have hkey := List.find?_some hfind
  exact beq_iff_eq.mp hkey

/-- A change that leaves the keys alone leaves each definition where it was found. -/
theorem find?_map_key {f : Definition → Definition} (hf : ∀ d, (f d).key = d.key)
    (ds : List Definition) (key : String) :
    (ds.map f).find? (·.key == key) = (ds.find? (·.key == key)).map f := by
  have hsame : (fun d : Definition => d.key == key) ∘ f = fun d => d.key == key := by
    funext d
    show ((f d).key == key) = (d.key == key)
    rw [hf]
  rw [List.find?_map, hsame]

theorem definition?_update_of_none (h : m.definition? key = none) (key' : String) :
    (m.update key e change).definition? key' =
      if key' = key then some (Definition.ofEntry key e) else m.definition? key' := by
  have hdefinitions : (m.update key e change).definitions =
      m.definitions ++ [Definition.ofEntry key e] := by
    unfold update
    rw [h]
    rfl
  have hfind : m.definitions.find? (·.key == key) = none := h
  unfold definition?
  rw [hdefinitions, List.find?_append]
  by_cases hkey : key' = key
  · rw [if_pos hkey, hkey, hfind]
    simp [Definition.ofEntry]
  · rw [if_neg hkey]
    have hother : (Definition.ofEntry key e).key ≠ key' := fun heq => hkey heq.symm
    simp [hother]

theorem definition?_update_of_some (hchange : ∀ d, (change d).key = d.key) {d : Definition}
    (h : m.definition? key = some d) (key' : String) :
    (m.update key e change).definition? key' =
      if key' = key then some (change d) else m.definition? key' := by
  have hdefinitions : (m.update key e change).definitions =
      m.definitions.map fun d => if d.key == key then change d else d := by
    unfold update
    rw [h]
    rfl
  have hkeys : ∀ d : Definition, (if d.key == key then change d else d).key = d.key := by
    intro d
    split
    · exact hchange d
    · rfl
  have hmap : (m.update key e change).definition? key' =
      (m.definition? key').map fun d => if d.key == key then change d else d := by
    unfold definition?
    rw [hdefinitions, find?_map_key hkeys]
  rw [hmap]
  by_cases hkey : key' = key
  · have hd : (d.key == key) = true := beq_iff_eq.mpr (key_of_definition?_eq_some h)
    rw [if_pos hkey, hkey, h, Option.map_some, if_pos hd]
  · rw [if_neg hkey]
    cases h' : m.definition? key' with
    | none => rfl
    | some d' =>
      have hother : ¬ (d'.key == key) = true := by
        rw [key_of_definition?_eq_some h', beq_iff_eq]
        exact hkey
      rw [Option.map_some, if_neg hother]

/-- **One operation** changes or creates the definition of the field that it names, and no other. -/
theorem definition?_perform (m : Metadata) (op : Operation) (key : String) :
    (m.perform op).definition? key =
      if key = op.key then
        some (((m.definition? key).map (·.perform op)).getD (Definition.ofEntry key op.entry))
      else m.definition? key := by
  have hupdate : m.perform op = m.update op.key op.entry (·.perform op) := by
    cases op <;> rfl
  rw [hupdate]
  by_cases hkey : key = op.key
  · subst hkey
    cases h : m.definition? op.key with
    | none => rw [definition?_update_of_none h, if_pos rfl, if_pos rfl]; rfl
    | some d =>
      rw [definition?_update_of_some (fun d => d.key_perform op) h, if_pos rfl, if_pos rfl]
      rfl
  · rw [if_neg hkey]
    cases h : m.definition? op.key with
    | none => rw [definition?_update_of_none h, if_neg hkey]
    | some d => rw [definition?_update_of_some (fun d => d.key_perform op) h, if_neg hkey]

theorem versioning_perform (m : Metadata) (op : Operation) :
    (m.perform op).versioning = m.versioning := by
  cases op <;> rfl

end

/-! ## Runs -/

section

variable {m : Metadata} {key : String}

theorem run_append_singleton (m : Metadata) (ops : List Operation) (op : Operation) :
    m.run (ops ++ [op]) = (m.run ops).perform op :=
  List.foldl_append

theorem run_append (m : Metadata) (first rest : List Operation) :
    m.run (first ++ rest) = (m.run first).run rest :=
  List.foldl_append

theorem versioning_run (m : Metadata) (ops : List Operation) :
    (m.run ops).versioning = m.versioning := by
  induction ops generalizing m with
  | nil => rfl
  | cons op rest ih =>
    show ((m.perform op).run rest).versioning = _
    rw [ih, versioning_perform]

/-- **A run** leaves of a field that was not defined what the operations on it tell. -/
theorem definition?_run (h : m.definition? key = none) (ops : List Operation) :
    (m.run ops).definition? key = Definition.ofHistory? key (ops.filter (·.key = key)) := by
  induction ops using List.reverseRecOn with
  | nil => exact h
  | append_singleton ops op ih =>
    rw [run_append_singleton, definition?_perform, List.filter_append]
    by_cases hkey : key = op.key
    · have hfilter : [op].filter (·.key = key) = [op] := by simp [hkey]
      rw [if_pos hkey, hfilter]
      -- the operation finds the definition that the history before it tells
      cases hhistory : Definition.ofHistory? key (ops.filter (·.key = key)) with
      | some d =>
        rw [ih, hhistory, Definition.ofHistory?_append_singleton hhistory op]
        rfl
      | none =>
        rw [ih, hhistory, Definition.ofHistory?_eq_none_iff.mp hhistory]
        rfl
    · have hfilter : [op].filter (·.key = key) = [] := by simp [Ne.symm hkey]
      rw [if_neg hkey, ih, hfilter, List.append_nil]

end

theorem Origin.metadata_eq_run (o : Origin) : ∃ versioning,
    o.metadata = (ofDeclaration versioning).run o.operations := by
  cases o with
  | empty versioning => exact ⟨versioning, rfl⟩
  | config c =>
    refine ⟨c.versioning, ?_⟩
    unfold Origin.metadata Origin.operations ofConfig run
    rw [List.foldl_map]
    rfl

theorem definition?_run_origin (o : Origin) (ops : List Operation) (key : String) :
    (o.metadata.run ops).definition? key =
      Definition.ofHistory? key ((o.operations ++ ops).filter (·.key = key)) := by
  obtain ⟨versioning, horigin⟩ := o.metadata_eq_run
  have hnone : (ofDeclaration versioning).definition? key = none := rfl
  rw [horigin, ← run_append, definition?_run hnone]

/-- **A field is what its history tells.** It is defined if an operation has named it, its entries
are those of the operation that created it and of the later ones that are kept, and its value is
that of one of them: of the last fill that overrides, or else of the first entry. Operations on
other fields do not matter, and more operations only add entries. -/
theorem definition?_history (o : Origin) (ops : List Operation) (key : String) :
    let m := o.metadata.run ops
    let history := (o.operations ++ ops).filter (·.key = key)
    m.definition? key = Definition.ofHistory? key history ∧
      ((m.definition? key).isSome ↔ ∃ op ∈ o.operations ++ ops, op.key = key) ∧
      (∀ d, m.definition? key = some d → ⟨d.source, d.value⟩ ∈ d.sources) ∧
      (∀ rest d, m.definition? key = some d →
        ∃ d', (m.run rest).definition? key = some d' ∧ d.sources <+: d'.sources ∧
          d'.declared? = d.declared?) ∧
      ∀ ops', ops'.filter (·.key = key) = ops.filter (·.key = key) →
        (o.metadata.run ops').definition? key = m.definition? key := by
  have hrun := fun ops => definition?_run_origin o ops key
  intro m history
  have hm : m.definition? key = Definition.ofHistory? key history := hrun ops
  refine ⟨hm, ?_, ?_, ?_, ?_⟩
  · rw [← Option.ne_none_iff_isSome, hm, Ne, Definition.ofHistory?_eq_none_iff]
    simp only [history, List.filter_eq_nil_iff, decide_eq_true_eq, not_forall, not_not, exists_prop]
  · intro d hd
    rw [hm] at hd
    exact Definition.mem_sources_of_ofHistory? hd
  · intro rest d hd
    rw [hm] at hd
    have hmore : (m.run rest).definition? key =
        Definition.ofHistory? key (history ++ rest.filter (·.key = key)) := by
      show ((o.metadata.run ops).run rest).definition? key = _
      rw [← run_append, hrun, ← List.append_assoc, List.filter_append]
    rw [hmore]
    exact Definition.exists_ofHistory?_append hd _
  · intro ops' hsame
    have hhistory : (o.operations ++ ops').filter (·.key = key) = history := by
      rw [List.filter_append, hsame, ← List.filter_append]
    rw [hm, hrun, hhistory]

end Metadata

end TagVersion
