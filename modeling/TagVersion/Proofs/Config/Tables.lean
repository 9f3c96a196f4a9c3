import TagVersion.Project.Configuration
import TagVersion.Proofs.Branches.Repeating
import TagVersion.Proofs.Toml.Kept

/-!
# Tables that declare a strategy

A declaration is a switch, a text or a table. Of a table, four keys mean something to a strategy and
have to hold texts, the last one also a list of texts; all other keys are kept aside with their
values. So every key is accounted for once, and no value of the wrong kind gets lost among those
that are kept.

* **`IsStrategyTable`**, **`IsDeclaration`**: the tables and the values that can be read.
* **`strategyTable?_eq_some_iff`**: what is read of a table, key by key.
* **`Accounts`**: every key of a table is accounted for.
* **`Strategy.TakenFrom`**: the strategy of a table.
* **`ofDeclaration?_table_congr`**: the other keys do not change it.
* **`declaration?_accounts`**: all of it.
-/

namespace TagVersion

namespace BranchList

/-- The value that is written for a list of branches. -/
def value : BranchList → Toml.Value
  | .names branches => .array (branches.map .string)
  | .text branches => .string branches

theorem value_injective : Function.Injective value := by
  intro list list' h
  cases list with
  | names branches =>
    cases list' with
    | names branches' =>
      have hitems : branches.map Toml.Value.string = branches'.map .string :=
        Toml.Value.array.inj h
      have hstring : Function.Injective Toml.Value.string := fun _ _ => Toml.Value.string.inj
      rw [List.map_injective_iff.mpr hstring hitems]
    | text branches' => exact absurd h nofun
  | text branches =>
    cases list' with
    | names branches' => exact absurd h nofun
    | text branches' => rw [Toml.Value.string.inj h]

end BranchList

theorem StrategyTable.isEmpty_iff (t : StrategyTable) :
    t.isEmpty = true ↔ t.main = none ∧ t.extra = none ∧ t.separator = none ∧ t.branches = none ∧
      t.other = [] := by
  simp [isEmpty, and_assoc]

namespace ProjectConfig

open Toml (Value)

variable {entries entries' : Toml.Table} {v : Value}

/-! ## What can be read -/

/-- A table that can be read as a strategy: the keys that mean something hold texts, or a list of
texts for the branches, and the other ones values that can be kept. -/
structure IsStrategyTable (entries : Toml.Table) : Prop where
  text : ∀ key, key = "main" ∨ key = "extra" ∨ key = "separator" →
    ∀ v, entries.get? key = some v → ∃ s, v = .string s
  branches : ∀ v, entries.get? "branches" = some v → ∃ list : BranchList, v = list.value
  other : ∀ key v, (key, v) ∈ entries → key ∉ strategyKeys → v.IsRegular

/-- A value that can be read as a declaration. A point in time is read as a table with one key. -/
inductive IsDeclaration : Value → Prop where
  | switch (on : Bool) : IsDeclaration (.boolean on)
  | compact (text : String) : IsDeclaration (.string text)
  | table {entries : Toml.Table} (h : IsStrategyTable entries) : IsDeclaration (.table entries)
  | moment (text : String) : IsDeclaration (.datetime text)

/-! ## Readers of values -/

theorem string?_eq_some_iff {s : String} : string? v = some s ↔ v = .string s := by
  cases v <;> simp [string?]

/-- Items that are each written for a result are together written for the list of the results. -/
theorem mapM_eq_some_iff {α : Type} {read : Value → Option α} {write : α → Value}
    (h : ∀ v a, read v = some a ↔ v = write a) {items : List Value} {results : List α} :
    items.mapM read = some results ↔ items = results.map write := by
  induction items generalizing results with
  | nil =>
    rw [List.mapM_nil]
    cases results with
    | nil => exact iff_of_true rfl rfl
    | cons a results => exact iff_of_false nofun nofun
  | cons v items ih =>
    rw [List.mapM_cons]
    constructor
    · intro hread
      obtain ⟨a, ha, hread⟩ := Option.bind_eq_some_iff.mp hread
      obtain ⟨rest, hrest, hread⟩ := Option.bind_eq_some_iff.mp hread
      obtain rfl := Option.some.inj hread
      rw [(h v a).mp ha, ih.mp hrest, List.map_cons]
    · intro hwrite
      cases results with
      | nil => exact absurd hwrite nofun
      | cons a results =>
        obtain ⟨rfl, hrest⟩ := List.cons.inj hwrite
        have ha : read (write a) = some a := (h _ a).mpr rfl
        rw [ha, ih.mpr hrest]
        rfl

theorem strings?_eq_some_iff {names : List String} :
    strings? v = some names ↔ v = .array (names.map .string) := by
  cases v with
  | array items =>
    have hitems : items.mapM string? = some names ↔ items = names.map .string :=
      mapM_eq_some_iff fun v s => string?_eq_some_iff
    show items.mapM string? = some names ↔ _
    rw [hitems, Value.array.injEq]
  | _ => exact iff_of_false nofun nofun

theorem branchList?_eq_some_iff {list : BranchList} :
    branchList? v = some list ↔ v = list.value := by
  unfold branchList?
  constructor
  · intro h
    cases hnames : strings? v with
    | some names =>
      rw [hnames] at h
      obtain rfl : BranchList.names names = list := Option.some.inj h
      exact strings?_eq_some_iff.mp hnames
    | none =>
      rw [hnames] at h
      obtain ⟨s, hs, rfl⟩ := Option.map_eq_some_iff.mp (h : (string? v).map .text = some list)
      exact string?_eq_some_iff.mp hs
  · rintro rfl
    cases list with
    | names branches =>
      have hnames := strings?_eq_some_iff.mpr (rfl : (BranchList.names branches).value = _)
      rw [hnames]
      rfl
    | text branches => rfl

/-- A key that may be missing is read if it is missing, or if its value can be read. -/
theorem optional?_eq_some_iff {α : Type} {read : Value → Option α} {write : α → Value}
    (h : ∀ v a, read v = some a ↔ v = write a) {key : String} {result : Option α} :
    optional? read entries key = some result ↔ entries.get? key = result.map write := by
  unfold optional?
  cases hget : entries.get? key with
  | none => cases result <;> simp
  | some v =>
    show (read v).map some = some result ↔ _
    rw [Option.map_eq_some_iff]
    constructor
    · rintro ⟨a, ha, rfl⟩
      rw [(h v a).mp ha]
      rfl
    · intro hwrite
      cases result with
      | none => exact absurd hwrite nofun
      | some a => exact ⟨a, (h v a).mpr (Option.some.inj hwrite), rfl⟩

theorem exists_map_of_forall {α : Type} {write : α → Value} {found : Option Value}
    (h : ∀ v, found = some v → ∃ a, v = write a) : ∃ result : Option α, found = result.map write := by
  cases found with
  | none => exact ⟨none, rfl⟩
  | some v =>
    obtain ⟨a, rfl⟩ := h v rfl
    exact ⟨some a, rfl⟩

/-- What is found under a key leaves no choice of what is read of it. -/
theorem eq_of_found {α : Type} {write : α → Value} (hwrite : Function.Injective write)
    {found found' : Option Value} {result result' : Option α} (h : found = result.map write)
    (h' : found' = result'.map write) (hsame : found' = found) : result' = result := by
  apply Option.map_injective hwrite
  rw [← h', ← h, hsame]

/-! ## Reading a table -/

theorem mem_strategyKeys_iff {key : String} :
    key ∈ strategyKeys ↔ key = "main" ∨ key = "extra" ∨ key = "separator" ∨ key = "branches" := by
  simp [strategyKeys]

/-- The entries of a table under keys that mean nothing to a strategy. -/
def others (entries : Toml.Table) : Toml.Table :=
  entries.filter fun (key, _) => !strategyKeys.contains key

theorem get?_others (entries : Toml.Table) (key : String) :
    (others entries).get? key = if key ∈ strategyKeys then none else entries.get? key := by
  have hfilter := Keyed.lookup_filter (fun key => !strategyKeys.contains key) entries key
  have hget : (others entries).get? key =
      if !strategyKeys.contains key then entries.get? key else none := hfilter
  rw [hget]
  by_cases hkey : key ∈ strategyKeys <;> simp [hkey]

theorem mem_others_iff {key : String} :
    (key, v) ∈ others entries ↔ (key, v) ∈ entries ∧ key ∉ strategyKeys := by
  unfold others
  simp

/-- **What is read of a table**, key by key. -/
theorem strategyTable?_eq_some_iff {t : StrategyTable} :
    strategyTable? entries = some t ↔
      entries.get? "main" = t.main.map .string ∧ entries.get? "extra" = t.extra.map .string ∧
      entries.get? "separator" = t.separator.map .string ∧
      entries.get? "branches" = t.branches.map BranchList.value ∧
      Value.keptEntries? (others entries) = some t.other := by
  have hstring : ∀ (v : Value) (s : String), string? v = some s ↔ v = .string s :=
    fun v s => string?_eq_some_iff
  have hlist : ∀ (v : Value) (list : BranchList), branchList? v = some list ↔ v = list.value :=
    fun v list => branchList?_eq_some_iff
  -- what is found under a key says what its reader gives, so both sides are about the readers
  rw [← optional?_eq_some_iff hstring, ← optional?_eq_some_iff hstring,
    ← optional?_eq_some_iff hstring, ← optional?_eq_some_iff hlist]
  constructor
  · intro h
    obtain ⟨main, hmain, h⟩ := Option.bind_eq_some_iff.mp h
    obtain ⟨extra, hextra, h⟩ := Option.bind_eq_some_iff.mp h
    obtain ⟨separator, hseparator, h⟩ := Option.bind_eq_some_iff.mp h
    obtain ⟨branches, hbranches, h⟩ := Option.bind_eq_some_iff.mp h
    obtain ⟨other, hother, h⟩ := Option.bind_eq_some_iff.mp h
    obtain rfl := Option.some.inj h
    exact ⟨hmain, hextra, hseparator, hbranches, hother⟩
  · rintro ⟨hmain, hextra, hseparator, hbranches, hother⟩
    unfold others at hother
    unfold strategyTable?
    rw [hmain, hextra, hseparator, hbranches, hother]
    rfl

theorem exists_strategyTable? (h : IsStrategyTable entries) :
    ∃ t, strategyTable? entries = some t := by
  obtain ⟨main, hmain⟩ := exists_map_of_forall (h.text "main" (.inl rfl))
  obtain ⟨extra, hextra⟩ := exists_map_of_forall (h.text "extra" (.inr (.inl rfl)))
  obtain ⟨separator, hseparator⟩ := exists_map_of_forall (h.text "separator" (.inr (.inr rfl)))
  obtain ⟨branches, hbranches⟩ := exists_map_of_forall h.branches
  have hother : (Value.keptEntries? (others entries)).isSome = true := by
    apply Value.isSome_keptEntries?_iff.mpr
    rintro ⟨key, v⟩ hmem
    obtain ⟨hmem, hkey⟩ := mem_others_iff.mp hmem
    exact Value.isSome_kept?_iff.mpr (h.other key v hmem hkey)
  obtain ⟨other, hother⟩ := Option.isSome_iff_exists.mp hother
  exact ⟨⟨main, extra, separator, branches, other⟩,
    strategyTable?_eq_some_iff.mpr ⟨hmain, hextra, hseparator, hbranches, hother⟩⟩

theorem isStrategyTable_of_eq_some {t : StrategyTable} (h : strategyTable? entries = some t) :
    IsStrategyTable entries := by
  obtain ⟨hmain, hextra, hseparator, hbranches, hother⟩ := strategyTable?_eq_some_iff.mp h
  have hstring : ∀ {key : String} {found : Option String}, entries.get? key = found.map .string →
      ∀ v, entries.get? key = some v → ∃ s, v = .string s := by
    intro key found hfound v hv
    rw [hfound] at hv
    obtain ⟨s, -, rfl⟩ := Option.map_eq_some_iff.mp hv
    exact ⟨s, rfl⟩
  refine ⟨?_, ?_, ?_⟩
  · rintro key (rfl | rfl | rfl)
    · exact hstring hmain
    · exact hstring hextra
    · exact hstring hseparator
  · intro v hv
    rw [hbranches] at hv
    obtain ⟨list, -, rfl⟩ := Option.map_eq_some_iff.mp hv
    exact ⟨list, rfl⟩
  · intro key v hv hkey
    have hkept := Value.isSome_keptEntries?_iff.mp (Option.isSome_of_eq_some hother)
    exact Value.isSome_kept?_iff.mp (hkept (key, v) (mem_others_iff.mpr ⟨hv, hkey⟩))

theorem isSome_strategyTable?_iff :
    (strategyTable? entries).isSome = true ↔ IsStrategyTable entries := by
  rw [Option.isSome_iff_exists]
  exact ⟨fun ⟨_, h⟩ => isStrategyTable_of_eq_some h, exists_strategyTable?⟩

/-- **The values that declare something** are those that can be read. -/
theorem isSome_declaration?_iff : (declaration? v).isSome = true ↔ IsDeclaration v := by
  cases v with
  | boolean on => exact iff_of_true rfl (.switch on)
  | string text => exact iff_of_true rfl (.compact text)
  | table entries =>
    show ((strategyTable? entries).map Declaration.table).isSome = true ↔ _
    rw [Option.isSome_map, isSome_strategyTable?_iff]
    exact ⟨.table, fun h => by cases h; assumption⟩
  | datetime text => exact iff_of_true rfl (.moment text)
  | integer i => exact iff_of_false nofun nofun
  | float text => exact iff_of_false nofun nofun
  | array items => exact iff_of_false nofun nofun

/-! ## Keys that are accounted for -/

/-- What is read of a table holds every key of it once: the keys that mean something in their
places, all others in ascending order, each with what its value is kept as. -/
structure Accounts (entries : Toml.Table) (t : StrategyTable) : Prop where
  main : entries.get? "main" = t.main.map .string
  extra : entries.get? "extra" = t.extra.map .string
  separator : entries.get? "separator" = t.separator.map .string
  branches : entries.get? "branches" = t.branches.map BranchList.value
  ascending : t.other.Ascending
  mem_keys_other : ∀ key, key ∈ t.other.keys ↔ key ∈ entries.keys ∧ key ∉ strategyKeys
  keptAs : ∀ key v w, entries.get? key = some v → t.other.get? key = some w → Value.KeptAs v w

theorem accounts_of_strategyTable? {t : StrategyTable} (h : strategyTable? entries = some t) :
    Accounts entries t := by
  obtain ⟨hmain, hextra, hseparator, hbranches, hother⟩ := strategyTable?_eq_some_iff.mp h
  obtain ⟨hascending, hget⟩ := Value.keptEntries?_spec hother
  refine ⟨hmain, hextra, hseparator, hbranches, hascending, fun key => ?_, fun key v w hv hw => ?_⟩
  · rw [Value.mem_keys_keptEntries? hother, Toml.Table.mem_keys_iff, Toml.Table.mem_keys_iff,
      get?_others]
    by_cases hkey : key ∈ strategyKeys <;> simp [hkey]
  · rw [hget, get?_others] at hw
    by_cases hkey : key ∈ strategyKeys
    · rw [if_pos hkey] at hw
      exact absurd hw nofun
    · rw [if_neg hkey, hv, Option.bind_some] at hw
      exact Value.keptAs_of_kept? hw

namespace Accounts

variable {t t' : StrategyTable}

/-- Each key of a table is one that means something, or is kept exactly once. -/
theorem count_keys_other (h : Accounts entries t) {key : String} (hkey : key ∈ entries.keys) :
    t.other.keys.count key = if key ∈ strategyKeys then 0 else 1 := by
  have hnodup : t.other.keys.Nodup := Keyed.nodup_keys h.ascending
  split
  · next hknown =>
    apply List.count_eq_zero.mpr
    intro hmem
    exact ((h.mem_keys_other key).mp hmem).2 hknown
  · next hunknown =>
    exact List.count_eq_one_of_mem hnodup ((h.mem_keys_other key).mpr ⟨hkey, hunknown⟩)

theorem eq_nil_of_isEmpty (h : Accounts entries t) (hempty : t.isEmpty = true) : entries = [] := by
  obtain ⟨hmain, hextra, hseparator, hbranches, hother⟩ := t.isEmpty_iff.mp hempty
  apply List.eq_nil_iff_forall_not_mem.mpr
  rintro entry hmem
  have hmem : entry.1 ∈ entries.keys := List.mem_map_of_mem hmem
  obtain ⟨v, hv⟩ := Toml.Table.mem_keys_iff.mp hmem
  by_cases hkey : entry.1 ∈ strategyKeys
  · -- under each of the four keys nothing was found
    rcases mem_strategyKeys_iff.mp hkey with heq | heq | heq | heq
    · rw [heq, h.main, hmain] at hv
      exact absurd hv nofun
    · rw [heq, h.extra, hextra] at hv
      exact absurd hv nofun
    · rw [heq, h.separator, hseparator] at hv
      exact absurd hv nofun
    · rw [heq, h.branches, hbranches] at hv
      exact absurd hv nofun
  · have hkept : entry.1 ∈ t.other.keys := (h.mem_keys_other entry.1).mpr ⟨hmem, hkey⟩
    rw [hother] at hkept
    exact absurd hkept List.not_mem_nil

theorem isEmpty_of_nil (h : Accounts [] t) : t.isEmpty = true := by
  have hother : t.other = [] := by
    apply List.eq_nil_iff_forall_not_mem.mpr
    intro entry hmem
    have hkept : entry.1 ∈ t.other.keys := List.mem_map_of_mem hmem
    exact absurd ((h.mem_keys_other entry.1).mp hkept).1 List.not_mem_nil
  apply t.isEmpty_iff.mpr
  refine ⟨?_, ?_, ?_, ?_, hother⟩
  · exact Option.map_eq_none_iff.mp h.main.symm
  · exact Option.map_eq_none_iff.mp h.extra.symm
  · exact Option.map_eq_none_iff.mp h.separator.symm
  · exact Option.map_eq_none_iff.mp h.branches.symm

/-- Of two tables that agree on the keys that mean something, the same is read but for the others. -/
theorem eq_of_agree (h : Accounts entries t) (h' : Accounts entries' t')
    (hagree : ∀ key ∈ strategyKeys, entries'.get? key = entries.get? key) :
    t' = { t with other := t'.other } := by
  have hstring : Function.Injective Value.string := fun _ _ => Value.string.inj
  have hmain := eq_of_found hstring h.main h'.main (hagree "main" (by decide))
  have hextra := eq_of_found hstring h.extra h'.extra (hagree "extra" (by decide))
  have hseparator := eq_of_found hstring h.separator h'.separator (hagree "separator" (by decide))
  have hbranches :=
    eq_of_found BranchList.value_injective h.branches h'.branches (hagree "branches" (by decide))
  rw [← hmain, ← hextra, ← hseparator, ← hbranches]

end Accounts

theorem exists_accounts (h : IsStrategyTable entries) :
    ∃ t, declaration? (.table entries) = some (.table t) ∧ Accounts entries t := by
  obtain ⟨t, ht⟩ := exists_strategyTable? h
  refine ⟨t, ?_, accounts_of_strategyTable? ht⟩
  show (strategyTable? entries).map Declaration.table = _
  rw [ht]
  rfl

/-- A table can still be read if its other keys are exchanged for ones whose values can be kept. -/
theorem IsStrategyTable.exchange (h : IsStrategyTable entries)
    (hagree : ∀ key ∈ strategyKeys, entries'.get? key = entries.get? key)
    (hother : ∀ key v, (key, v) ∈ entries' → key ∉ strategyKeys → v.IsRegular) :
    IsStrategyTable entries' where
  text := by
    intro key hkey v hv
    have hmem : key ∈ strategyKeys := by
      rcases hkey with rfl | rfl | rfl <;> decide
    rw [hagree key hmem] at hv
    exact h.text key hkey v hv
  branches := by
    intro v hv
    rw [hagree "branches" (by decide)] at hv
    exact h.branches v hv
  other := hother

end ProjectConfig

/-! ## The strategy of a table -/

namespace Strategy

/-- A strategy that takes each part that a table has, and the default for each other one. An empty
separator and a list without names are no parts. All other keys are ignored. -/
structure TakenFrom (s : Strategy) (t : StrategyTable) : Prop where
  main : s.main = .template (t.main.getD defaultMain)
  extra : s.extra = .template (t.extra.getD defaultExtra)
  separator : s.separator = (t.separator.filter (· != "")).getD defaultSeparator
  branches : s.branches =
    if Branches.parse t.branchText = [] then Branches.parse defaultBranches
    else Branches.parse t.branchText
  ignoredFields : s.ignoredFields = t.other.keys

theorem takenFrom_ofTable (t : StrategyTable) : TakenFrom (ofTable t) t where
  main := rfl
  extra := rfl
  separator := by
    show (if t.separator.getD defaultSeparator = "" then defaultSeparator
      else t.separator.getD defaultSeparator) = _
    cases t.separator with
    | none => rfl
    | some separator =>
      rw [Option.getD_some]
      by_cases hempty : separator = ""
      · subst hempty
        rfl
      · have hfilter : (some separator).filter (· != "") = some separator := by simp [hempty]
        rw [if_neg hempty, hfilter, Option.getD_some]
  branches := branches_ofTable t
  ignoredFields := rfl

/-- The other keys do not change the strategy of a table. -/
theorem ofTable_other (t : StrategyTable) (other : Toml.Table) :
    ofTable { t with other } = { ofTable t with ignoredFields := other.keys } := rfl

theorem ofDeclaration?_table_of_ne_nil {entries : Toml.Table} {t : StrategyTable}
    (h : ProjectConfig.Accounts entries t) (hne : entries ≠ []) :
    ofDeclaration? (.table t) = some (ofTable t) := by
  have hempty : t.isEmpty = false := by
    rw [Bool.eq_false_iff]
    exact fun htrue => hne (h.eq_nil_of_isEmpty htrue)
  unfold ofDeclaration? Declaration.isTruthy
  simp only [hempty]
  rfl

theorem ofDeclaration?_table_nil {t : StrategyTable} (h : ProjectConfig.Accounts [] t) :
    ofDeclaration? (.table t) = none := by
  have hempty : t.isEmpty = true := h.isEmpty_of_nil
  unfold ofDeclaration? Declaration.isTruthy
  simp only [hempty]
  rfl

end Strategy

namespace ProjectConfig

open Strategy
open Toml (Value)

variable {entries entries' : Toml.Table} {v : Value}

/-- **The other keys do not change** what a strategy takes of the four. -/
theorem ofDeclaration?_table_congr {t t' : StrategyTable} (h : Accounts entries t)
    (h' : Accounts entries' t') (hne : entries' ≠ [])
    (hagree : ∀ key ∈ strategyKeys, entries'.get? key = entries.get? key) :
    ofDeclaration? (.table t') = some { ofTable t with ignoredFields := t'.other.keys } := by
  have hsame := h.eq_of_agree h' hagree
  rw [ofDeclaration?_table_of_ne_nil h' hne, ← ofTable_other t t'.other, ← hsame]

/-! ## Files -/

theorem load_of_readText {files : FileTree} {path : Option String} {text : String}
    (h : files.readText (path.getD configFile) = .ok text) : load files path = parse text := by
  have hfile : ofFile files (path.getD configFile) = parse text := by
    unfold ofFile
    rw [h]
  cases path with
  | some path => exact hfile
  | none =>
    -- a file that can be read is there
    have hexists : files.pathExists configFile = true := by
      have h : files.readText configFile = .ok text := h
      unfold FileTree.readText FileTree.textAt at h
      unfold FileTree.pathExists FileTree.find?
      cases hresolve : files.resolve configFile with
      | error e =>
        rw [hresolve] at h
        exact absurd h nofun
      | ok loc =>
        rw [hresolve] at h
        show (files.node? loc).isSome = true
        cases hnode : files.node? loc with
        | none =>
          simp only [hnode] at h
          exact absurd h nofun
        | some node => rfl
    unfold load
    rw [if_pos hexists]
    exact hfile

/-- **A file** is as good as what it says about the versioning and the version. -/
theorem parse_of_get? {text : String} {file : Toml.Table} (h : Toml.parse text = some file)
    (hget : file.get? "versioning" = some v) :
    parse text =
      match declaration? v, optional? versionDeclaration? file "version" with
      | some d, some version => .ok ⟨some d, version⟩
      | _, _ => .error (.config "the file is not a valid configuration") := by
  have hversioning : optional? declaration? file "versioning" = (declaration? v).map some := by
    unfold optional?
    rw [hget]
  unfold parse
  rw [h, Option.bind_eq_bind, Option.bind_some]
  unfold ofTable?
  rw [hversioning]
  cases declaration? v with
  | none => rfl
  | some d => cases optional? versionDeclaration? file "version" <;> rfl

/-! ## Every key -/

/-- **Every key of a declared table is accounted for.** A value is a declaration if it is a switch, a
text, or a table in which the four keys hold texts (the last one also a list of texts) and all
others values that can be kept; any other value refuses its file. Each key of such a table is one
of the four or is kept once. Its strategy takes what is there of the four, the default for what is
not, and ignores the other keys, in ascending order; other ones in their stead change nothing else,
as long as some key is there. -/
theorem declaration?_accounts (v : Value) :
    ((declaration? v).isSome = true ↔ IsDeclaration v) ∧
    (∀ (files : FileTree) (path : Option String) (text : String) (file : Toml.Table),
      files.readText (path.getD configFile) = .ok text → Toml.parse text = some file →
      file.get? "versioning" = some v →
      (∀ d version, declaration? v = some d →
        optional? versionDeclaration? file "version" = some version →
        load files path = .ok ⟨some d, version⟩) ∧
      (¬ IsDeclaration v →
        load files path = .error (.config "the file is not a valid configuration"))) ∧
    ∀ entries : Toml.Table, v = .table entries → IsStrategyTable entries →
      ∃ t, declaration? v = some (.table t) ∧ Accounts entries t ∧
        (∀ key ∈ entries.keys, t.other.keys.count key = if key ∈ strategyKeys then 0 else 1) ∧
        (entries = [] → ofDeclaration? (.table t) = none) ∧
        (entries ≠ [] → ∃ s, ofDeclaration? (.table t) = some s ∧ TakenFrom s t ∧
          s.ignoredFields.Pairwise (· < ·) ∧
          (∀ key, key ∈ s.ignoredFields ↔ key ∈ entries.keys ∧ key ∉ strategyKeys) ∧
          ∀ entries' : Toml.Table, entries' ≠ [] →
            (∀ key ∈ strategyKeys, entries'.get? key = entries.get? key) →
            (∀ key w, (key, w) ∈ entries' → key ∉ strategyKeys → w.IsRegular) →
            ∃ t', declaration? (.table entries') = some (.table t') ∧ Accounts entries' t' ∧
              ofDeclaration? (.table t') = some { s with ignoredFields := t'.other.keys }) := by
  refine ⟨isSome_declaration?_iff, ?_, ?_⟩
  · intro files path text file hread hparse hget
    have hload := (load_of_readText hread).trans (parse_of_get? hparse hget)
    constructor
    · intro d version hd hversion
      rw [hload, hd, hversion]
    · intro hnot
      have hnone : declaration? v = none := by
        rw [← Option.not_isSome_iff_eq_none, isSome_declaration?_iff]
        exact hnot
      rw [hload, hnone]
  · rintro entries rfl h
    obtain ⟨t, ht, haccounts⟩ := exists_accounts h
    refine ⟨t, ht, haccounts, fun key hkey => haccounts.count_keys_other hkey, ?_, ?_⟩
    · rintro rfl
      exact ofDeclaration?_table_nil haccounts
    · intro hne
      refine ⟨ofTable t, ofDeclaration?_table_of_ne_nil haccounts hne, takenFrom_ofTable t, ?_, ?_, ?_⟩
      · exact List.pairwise_map.mpr haccounts.ascending
      · exact haccounts.mem_keys_other
      · intro entries' hne' hagree hother
        obtain ⟨t', ht', haccounts'⟩ := exists_accounts (h.exchange hagree hother)
        exact ⟨t', ht', haccounts', ofDeclaration?_table_congr haccounts haccounts' hne' hagree⟩

/-- A list under `versioning` refuses its file. A table with two keys that mean something and two
others, one of which holds a table itself, declares the strategy of these two, and still does when
one point in time stands in place of the others. -/
theorem declaration?_accounts_exchanged :
    let files : FileTree := ⟨[(["versioning.toml"], .file "versioning = [\"tag\"]\n".toUTF8 0o644)]⟩
    let entries : Toml.Table :=
      [("z", .integer 1), ("main", .string "\x7bmajor\x7d"),
        ("branches", .array [.string "r", .string "s"]),
        ("a", .table [("b", .boolean true), ("a", .integer 2)])]
    let entries' : Toml.Table :=
      [("branches", .array [.string "r", .string "s"]), ("main", .string "\x7bmajor\x7d"),
        ("q", .datetime "2024-05-01")]
    load files none = .error (.config "the file is not a valid configuration") ∧
      ∃ t t' s, declaration? (.table entries) = some (.table t) ∧
        t.other = [("a", .table [("a", .integer 2), ("b", .boolean true)]), ("z", .integer 1)] ∧
        ofDeclaration? (.table t) = some s ∧ s.branches = ["r", "s"] ∧
        s.ignoredFields = ["a", "z"] ∧ declaration? (.table entries') = some (.table t') ∧
        ofDeclaration? (.table t') = some { s with ignoredFields := ["q"] } := by
  intro files entries entries'
  constructor
  · have hread : files.readText configFile = .ok "versioning = [\"tag\"]\n" := by decide +kernel
    have hnames : ((Toml.parse "versioning = [\"tag\"]\n").bind (·.get? "versioning")).bind
        strings? = some ["tag"] := by decide +kernel
    obtain ⟨v, hv, hnames⟩ := Option.bind_eq_some_iff.mp hnames
    obtain ⟨file, hparse, hget⟩ := Option.bind_eq_some_iff.mp hv
    obtain rfl := strings?_eq_some_iff.mp hnames
    obtain ⟨-, hfile, -⟩ := declaration?_accounts (.array [.string "tag"])
    exact (hfile files none _ file hread hparse hget).2 nofun
  · have hentries : IsStrategyTable entries := isSome_strategyTable?_iff.mp (by decide +kernel)
    obtain ⟨-, -, htable⟩ := declaration?_accounts (.table entries)
    obtain ⟨t, ht, -, -, -, hstrategy⟩ := htable entries rfl hentries
    obtain ⟨s, hs, htaken, -, -, hexchange⟩ := hstrategy nofun
    have hother : ∀ key w, (key, w) ∈ entries' → key ∉ strategyKeys → w.IsRegular :=
      (isSome_strategyTable?_iff.mp (by decide +kernel) : IsStrategyTable entries').other
    have hagree : ∀ key ∈ strategyKeys, entries'.get? key = entries.get? key := by
      intro key hkey
      rcases mem_strategyKeys_iff.mp hkey with rfl | rfl | rfl | rfl <;> rfl
    obtain ⟨t', ht', -, hs'⟩ := hexchange entries' nofun hagree hother
    -- both tables can be read, and this is what is read of them
    obtain rfl : _ = t := Declaration.table.inj (Option.some.inj (Eq.trans rfl ht))
    obtain rfl : _ = t' := Declaration.table.inj (Option.some.inj (Eq.trans rfl ht'))
    refine ⟨_, _, s, ht, rfl, hs, ?_, htaken.ignoredFields, ht', hs'⟩
    rw [htaken.branches]
    decide

/-- **What is not read as it is written**: a table under some other key that begins with the key of
points in time and is none, which refuses the whole declaration; and an empty separator or a list
of branches without any name, in place of which the strategy has the defaults. -/
theorem not_declaration?_verbatim :
    declaration? (.table [("k", .table [(Toml.datetimeKey, .string "bogus")])]) = none ∧
      ∃ t s, declaration? (.table [("separator", .string ""), ("branches", .string "")]) =
          some (.table t) ∧
        t.separator = some "" ∧ t.branches = some (.text "") ∧
        ofDeclaration? (.table t) = some s ∧ s.separator = "+" ∧ s.branches = ["master"] := by
  refine ⟨?_, ⟨none, none, some "", some (.text ""), []⟩, _, rfl, rfl, rfl, rfl, ?_, ?_⟩
  · have hnone : (declaration? (.table [("k", .table [(Toml.datetimeKey, .string "bogus")])])).isNone
        = true := by decide +kernel
    exact Option.isNone_iff_eq_none.mp hnone
  · decide
  · decide

end ProjectConfig

end TagVersion
