import TagVersion.Proofs.Keyed
import TagVersion.Toml.Kept

/-!
# What is kept of a value

A value that is kept for later stays what it is: texts, numbers and switches as they are, arrays item
by item, tables with all their keys, which now ascend. The one exception is a table that begins with
the key that stands for points in time. It has to be a point in time, and is kept as one.

* **`Value.induction`**: induction on what stands in a value.
* **`Value.IsRegular`**: values in which only points in time begin with that key.
* **`Value.KeptAs`**: what a value is kept as.
* **`Value.isSome_kept?_iff`**, **`Value.keptAs_of_kept?`**: the values that are kept, and as what.
* **`Value.keptEntries?_spec`**: the same of the entries of a table.
-/

namespace TagVersion.Toml

namespace Table

variable {t : Table}

theorem insert_eq (t : Table) (key : String) (value : Value) :
    t.insert key value = Keyed.insert t key value := by
  induction t with
  | nil => rfl
  | cons entry t ih =>
    unfold insert Keyed.insert
    rw [ih]

/-- Whether the keys of a table are in ascending order, each of them once. -/
def Ascending (t : Table) : Prop :=
  Keyed.Ascending t

theorem get?_insert (t : Table) (key k : String) (value : Value) :
    (t.insert key value).get? k = if k = key then some value else t.get? k := by
  rw [insert_eq]
  exact Keyed.lookup_insert t key k value

theorem ascending_insert (h : t.Ascending) (key : String) (value : Value) :
    (t.insert key value).Ascending := by
  rw [insert_eq]
  exact Keyed.ascending_insert h key value

theorem get?_cons (key : String) (v : Value) (t : Table) (k : String) :
    get? ((key, v) :: t) k = if k = key then some v else t.get? k := by
  unfold get?
  rw [List.lookup_cons]
  by_cases hk : k = key
  · rw [if_pos hk, beq_iff_eq.mpr hk]
  · rw [if_neg hk, beq_false_of_ne hk]

theorem mem_keys_iff {key : String} : key ∈ t.keys ↔ ∃ v, t.get? key = some v :=
  Keyed.mem_keys_iff

theorem mem_of_get? {key : String} {v : Value} (h : t.get? key = some v) : (key, v) ∈ t :=
  Keyed.mem_of_lookup h

/-- Whether a table begins with the key of points in time. -/
def OpensAsMoment (t : Table) : Prop :=
  t.head?.map (·.1) = some datetimeKey

/-- Whether a table is a point in time. -/
def IsMoment (t : Table) : Prop :=
  ∃ text, t = [(datetimeKey, .string text)] ∧ (Scalar.timestamp? text.toList).isSome = true

end Table

namespace Value

/-! ## Values in values -/

theorem sizeOf_lt_of_mem {key : String} {v : Value} {entries : Table} (h : (key, v) ∈ entries) :
    sizeOf v < sizeOf entries := by
  have hlt := List.sizeOf_lt_of_mem h
  have hpair : sizeOf (key, v) = 1 + sizeOf key + sizeOf v := rfl
  omega

/-- **Induction on what stands in a value**: in the items of an array and in the entries of a
table. -/
@[elab_as_elim]
theorem induction {motive : Value → Prop} (string : ∀ s, motive (.string s))
    (integer : ∀ i, motive (.integer i)) (float : ∀ text, motive (.float text))
    (boolean : ∀ b, motive (.boolean b)) (datetime : ∀ text, motive (.datetime text))
    (array : ∀ items, (∀ v ∈ items, motive v) → motive (.array items))
    (table : ∀ entries, (∀ key v, (key, v) ∈ entries → motive v) → motive (.table entries)) :
    ∀ v, motive v
  | .string s => string s
  | .integer i => integer i
  | .float text => float text
  | .boolean b => boolean b
  | .datetime text => datetime text
  | .array items =>
    array items fun v _ => induction string integer float boolean datetime array table v
  | .table entries =>
    table entries fun key v hv =>
      have _ : sizeOf v < sizeOf entries := sizeOf_lt_of_mem hv
      induction string integer float boolean datetime array table v

/-- A value, and all that stands in it. -/
inductive Inside : Value → Value → Prop where
  | self (v : Value) : Inside v v
  | item {u v : Value} {items : List Value} (hv : v ∈ items) (h : Inside u v) :
      Inside u (.array items)
  | entry {u v : Value} {key : String} {entries : Table} (hv : (key, v) ∈ entries)
      (h : Inside u v) : Inside u (.table entries)

/-- Whether the tables in a value that begin with the key of points in time are points in time. -/
def IsRegular (v : Value) : Prop :=
  ∀ entries : Table, Inside (.table entries) v → entries.OpensAsMoment → entries.IsMoment

theorem isRegular_array_iff {items : List Value} :
    (array items).IsRegular ↔ ∀ v ∈ items, v.IsRegular := by
  constructor
  · intro h v hv entries hinside
    exact h entries (.item hv hinside)
  · intro h entries hinside
    cases hinside with
    | item hv hinside => exact h _ hv entries hinside

theorem isRegular_table_iff {entries : Table} :
    (table entries).IsRegular ↔
      (entries.OpensAsMoment → entries.IsMoment) ∧ ∀ key v, (key, v) ∈ entries → v.IsRegular := by
  constructor
  · intro h
    refine ⟨h entries (.self _), ?_⟩
    intro key v hv entries' hinside
    exact h entries' (.entry hv hinside)
  · rintro ⟨hself, hentries⟩ entries' hinside
    cases hinside with
    | self => exact hself
    | entry hv hinside => exact hentries _ _ hv entries' hinside

/-! ## What is kept -/

/-- What a value is kept as. -/
inductive KeptAs : Value → Value → Prop where
  | string (s : String) : KeptAs (.string s) (.string s)
  | integer (i : Int) : KeptAs (.integer i) (.integer i)
  | float (text : String) : KeptAs (.float text) (.float text)
  | boolean (b : Bool) : KeptAs (.boolean b) (.boolean b)
  | datetime (text : String) : KeptAs (.datetime text) (.datetime text)
  /-- Each item by itself. -/
  | array {items kept : List Value} (hlength : items.length = kept.length)
      (hitems : ∀ (i : Nat) (v w : Value), items[i]? = some v → kept[i]? = some w → KeptAs v w) :
      KeptAs (.array items) (.array kept)
  /-- The same keys in their order, and what is found under each by itself. -/
  | table {entries kept : Table} (hopens : ¬ entries.OpensAsMoment) (hascending : kept.Ascending)
      (hkeys : ∀ key, key ∈ kept.keys ↔ key ∈ entries.keys)
      (hvalues : ∀ (key : String) (v w : Value),
        entries.get? key = some v → kept.get? key = some w → KeptAs v w) :
      KeptAs (.table entries) (.table kept)
  /-- A point in time that was written as a table. -/
  | moment {text : String} {m : Value} (h : Scalar.timestamp? text.toList = some m) :
      KeptAs (.table [(datetimeKey, .string text)]) m

theorem keptItems?_cons (v : Value) (vs : List Value) :
    keptItems? (v :: vs) = (kept? v).bind fun w => (keptItems? vs).map (w :: ·) := by
  show (kept? v).bind _ = _
  congr 1
  funext w
  cases keptItems? vs <;> rfl

theorem keptEntries?_cons (key : String) (v : Value) (rest : Table) :
    keptEntries? ((key, v) :: rest) =
      (kept? v).bind fun w => (keptEntries? rest).map (Table.insert · key w) := by
  show (kept? v).bind _ = _
  congr 1
  funext w
  cases keptEntries? rest <;> rfl

theorem isSome_keptItems?_iff {items : List Value} :
    (keptItems? items).isSome = true ↔ ∀ v ∈ items, (kept? v).isSome = true := by
  induction items with
  | nil => simp [keptItems?]
  | cons v vs ih =>
    rw [keptItems?_cons, List.forall_mem_cons, ← ih]
    cases kept? v <;> simp

theorem isSome_keptEntries?_iff {entries : Table} :
    (keptEntries? entries).isSome = true ↔
      ∀ entry ∈ entries, (kept? entry.2).isSome = true := by
  induction entries with
  | nil => simp [keptEntries?]
  | cons entry rest ih =>
    obtain ⟨key, v⟩ := entry
    rw [keptEntries?_cons, List.forall_mem_cons, ← ih]
    cases kept? v <;> simp

/-- The items of an array are kept one by one. -/
theorem keptItems?_spec {items kept : List Value} (h : keptItems? items = some kept) :
    items.length = kept.length ∧
      ∀ (i : Nat) (v w : Value), items[i]? = some v → kept[i]? = some w → kept? v = some w := by
  induction items generalizing kept with
  | nil =>
    obtain rfl := Option.some.inj h
    exact ⟨rfl, fun i v w hv _ => absurd hv (by simp)⟩
  | cons v vs ih =>
    rw [keptItems?_cons] at h
    obtain ⟨w, hw, h⟩ := Option.bind_eq_some_iff.mp h
    obtain ⟨ws, hws, rfl⟩ := Option.map_eq_some_iff.mp h
    obtain ⟨hlength, hitems⟩ := ih hws
    refine ⟨by simp [hlength], ?_⟩
    intro i v' w' hv' hw'
    cases i with
    | zero =>
      obtain rfl : v = v' := by simpa using hv'
      obtain rfl : w = w' := by simpa using hw'
      exact hw
    | succ i => exact hitems i v' w' (by simpa using hv') (by simpa using hw')

/-- **The entries of a table** are kept in the order of their keys, the value of each by itself. -/
theorem keptEntries?_spec {entries kept : Table} (h : keptEntries? entries = some kept) :
    kept.Ascending ∧ ∀ key, kept.get? key = (entries.get? key).bind kept? := by
  induction entries generalizing kept with
  | nil =>
    obtain rfl := Option.some.inj h
    exact ⟨List.Pairwise.nil, fun key => rfl⟩
  | cons entry rest ih =>
    obtain ⟨key, v⟩ := entry
    rw [keptEntries?_cons] at h
    obtain ⟨w, hw, h⟩ := Option.bind_eq_some_iff.mp h
    obtain ⟨kept', hkept, rfl⟩ := Option.map_eq_some_iff.mp h
    obtain ⟨hascending, hget⟩ := ih hkept
    -- the first entry goes in last, so it is the one that is found under its key
    refine ⟨Table.ascending_insert hascending key w, ?_⟩
    intro k
    rw [Table.get?_insert, Table.get?_cons]
    by_cases hk : k = key
    · rw [if_pos hk, if_pos hk, Option.bind_some, hw]
    · rw [if_neg hk, if_neg hk, hget]

theorem mem_keys_keptEntries? {entries kept : Table} (h : keptEntries? entries = some kept)
    (key : String) : key ∈ kept.keys ↔ key ∈ entries.keys := by
  have hget := (keptEntries?_spec h).2 key
  rw [Table.mem_keys_iff, Table.mem_keys_iff]
  constructor
  · rintro ⟨w, hw⟩
    rw [hget] at hw
    obtain ⟨v, hv, -⟩ := Option.bind_eq_some_iff.mp hw
    exact ⟨v, hv⟩
  · rintro ⟨v, hv⟩
    have hall := isSome_keptEntries?_iff.mp (Option.isSome_of_eq_some h)
    obtain ⟨w, hw⟩ := Option.isSome_iff_exists.mp (hall _ (Table.mem_of_get? hv))
    exact ⟨w, by rw [hget, hv, Option.bind_some, hw]⟩

/-! ## Tables and points in time -/

theorem kept?_table_of_not_opens {entries : Table} (h : ¬ entries.OpensAsMoment) :
    kept? (.table entries) = (keptEntries? entries).map .table := by
  cases entries with
  | nil => rfl
  | cons entry rest =>
    obtain ⟨key, v⟩ := entry
    have hkey : key ≠ datetimeKey := by
      rintro rfl
      exact h rfl
    show (if key = datetimeKey then _ else _) = _
    rw [if_neg hkey, keptEntries?_cons]
    cases kept? v with
    | none => rfl
    | some w => cases keptEntries? rest <;> simp

/-- A table that begins with the key of points in time has to be one. -/
theorem kept?_table_of_opens {entries : Table} (h : entries.OpensAsMoment) (m : Value) :
    kept? (.table entries) = some m ↔
      ∃ text, entries = [(datetimeKey, .string text)] ∧ Scalar.timestamp? text.toList = some m := by
  cases entries with
  | nil => exact absurd h nofun
  | cons entry rest =>
    obtain ⟨key, v⟩ := entry
    obtain rfl : key = datetimeKey := Option.some.inj h
    show (if datetimeKey = datetimeKey then _ else _) = some m ↔ _
    rw [if_pos rfl]
    constructor
    · intro hm
      unfold datetimeOf? at hm
      split at hm
      · next text => exact ⟨text, rfl, hm⟩
      · exact absurd hm nofun
    · rintro ⟨text, heq, hm⟩
      obtain ⟨hentry, rfl⟩ := List.cons.inj heq
      obtain ⟨-, rfl⟩ := Prod.mk.inj hentry
      exact hm

/-- **A value is kept** if and only if it is regular. -/
theorem isSome_kept?_iff {v : Value} : (kept? v).isSome = true ↔ v.IsRegular := by
  induction v using induction with
  | string s => exact iff_of_true rfl nofun
  | integer i => exact iff_of_true rfl nofun
  | float text => exact iff_of_true rfl nofun
  | boolean b => exact iff_of_true rfl nofun
  | datetime text => exact iff_of_true rfl nofun
  | array items ih =>
    have hkept : kept? (.array items) = (keptItems? items).map .array := rfl
    rw [hkept, Option.isSome_map, isSome_keptItems?_iff, isRegular_array_iff]
    exact forall₂_congr ih
  | table entries ih =>
    rw [isRegular_table_iff]
    -- a table that begins with the key of points in time is not kept entry by entry
    by_cases hopens : Table.OpensAsMoment entries
    · rw [Option.isSome_iff_exists]
      simp only [kept?_table_of_opens hopens]
      constructor
      · rintro ⟨m, text, rfl, hm⟩
        refine ⟨fun _ => ⟨text, rfl, Option.isSome_of_eq_some hm⟩, ?_⟩
        intro key v hv
        obtain ⟨-, rfl⟩ := Prod.mk.inj (List.mem_singleton.mp hv)
        exact nofun
      · rintro ⟨hmoment, -⟩
        obtain ⟨text, heq, hm⟩ := hmoment hopens
        obtain ⟨m, hm⟩ := Option.isSome_iff_exists.mp hm
        exact ⟨m, text, heq, hm⟩
    · rw [kept?_table_of_not_opens hopens, Option.isSome_map, isSome_keptEntries?_iff]
      constructor
      · intro h
        refine ⟨fun hmoment => absurd hmoment hopens, ?_⟩
        intro key v hv
        exact (ih key v hv).mp (h (key, v) hv)
      · rintro ⟨-, h⟩ ⟨key, v⟩ hv
        exact (ih key v hv).mpr (h key v hv)

/-- **What is kept** of a value is what it is. -/
theorem keptAs_of_kept? {v w : Value} (h : kept? v = some w) : KeptAs v w := by
  induction v using induction generalizing w with
  | string s =>
    obtain rfl := Option.some.inj h
    exact .string s
  | integer i =>
    obtain rfl := Option.some.inj h
    exact .integer i
  | float text =>
    obtain rfl := Option.some.inj h
    exact .float text
  | boolean b =>
    obtain rfl := Option.some.inj h
    exact .boolean b
  | datetime text =>
    obtain rfl := Option.some.inj h
    exact .datetime text
  | array items ih =>
    obtain ⟨kept, hkept, rfl⟩ := Option.map_eq_some_iff.mp (h : (keptItems? items).map _ = _)
    obtain ⟨hlength, hitems⟩ := keptItems?_spec hkept
    refine .array hlength ?_
    intro i v w hv hw
    exact ih v (List.mem_of_getElem? hv) (hitems i v w hv hw)
  | table entries ih =>
    by_cases hopens : Table.OpensAsMoment entries
    · obtain ⟨text, rfl, hm⟩ := (kept?_table_of_opens hopens w).mp h
      exact .moment hm
    · rw [kept?_table_of_not_opens hopens] at h
      obtain ⟨kept, hkept, rfl⟩ := Option.map_eq_some_iff.mp h
      obtain ⟨hascending, hget⟩ := keptEntries?_spec hkept
      refine .table hopens hascending (mem_keys_keptEntries? hkept) ?_
      intro key v w hv hw
      rw [hget, hv, Option.bind_some] at hw
      exact ih key v (Table.mem_of_get? hv) hw

end Value

end TagVersion.Toml
