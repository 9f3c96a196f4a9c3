import Mathlib.Data.List.Sort
import Mathlib.Data.String.Basic

/-!
# Lists in the order of their keys

Snapshots and the tables that are kept are lists of entries whose keys ascend, each key once. A value
that is put in is found under its key, and all others are found as before; so such a list is told
by what is found in it.

* **`lookup_insert`**, **`lookup_filter`**: what is found after an entry is put in, or some are taken
  away.
* **`ascending_insert`**: the order stays.
* **`mem_iff_lookup`**, **`eq_of_lookup`**: each entry is found, and nothing else is there.
-/

namespace TagVersion.Keyed

variable {α : Type} {t t' : List (String × α)} {key k : String} {value v : α}

/-- Puts a value under a key in its place in the order, or in place of the one that is there. -/
def insert (t : List (String × α)) (key : String) (value : α) : List (String × α) :=
  match t with
  | [] => [(key, value)]
  | (k, v) :: rest =>
    if key < k then (key, value) :: (k, v) :: rest
    else if key = k then (key, value) :: rest
    else (k, v) :: insert rest key value

/-- Whether the keys are in ascending order, each of them once. -/
def Ascending (t : List (String × α)) : Prop :=
  t.Pairwise fun a b => a.1 < b.1

/-! ## Putting entries in, and taking them away -/

theorem insert_cons (t : List (String × α)) (key : String) (value : α) (k : String) (v : α) :
    insert ((k, v) :: t) key value =
      if key < k then (key, value) :: (k, v) :: t
      else if key = k then (key, value) :: t
      else (k, v) :: insert t key value := rfl

/-- **What is found** once a value is put in. -/
theorem lookup_insert (t : List (String × α)) (key k : String) (value : α) :
    (insert t key value).lookup k = if k = key then some value else t.lookup k := by
  by_cases hk : k = key
  · subst hk
    rw [if_pos rfl]
    induction t with
    | nil => simp [insert]
    | cons entry t ih =>
      obtain ⟨k', v⟩ := entry
      rw [insert_cons]
      split
      · simp
      · split
        · simp
        · next hne => rw [List.lookup_cons, beq_false_of_ne hne, ih]
  · rw [if_neg hk]
    induction t with
    | nil => simp [insert, List.lookup_cons, beq_false_of_ne hk]
    | cons entry t ih =>
      obtain ⟨k', v⟩ := entry
      rw [insert_cons]
      split
      · rw [List.lookup_cons, beq_false_of_ne hk]
      · split
        · next heq => rw [List.lookup_cons, List.lookup_cons, beq_false_of_ne hk, ← heq,
            beq_false_of_ne hk]
        · rw [List.lookup_cons, List.lookup_cons, ih]

theorem mem_insert (h : (k, v) ∈ insert t key value) : (k, v) = (key, value) ∨ (k, v) ∈ t := by
  induction t with
  | nil => exact .inl (List.mem_singleton.mp h)
  | cons entry t ih =>
    obtain ⟨k', v'⟩ := entry
    rw [insert_cons] at h
    split at h
    · exact List.mem_cons.mp h
    · split at h
      · exact (List.mem_cons.mp h).imp_right (List.mem_cons_of_mem _)
      · rcases List.mem_cons.mp h with heq | hrest
        · exact .inr (heq ▸ List.mem_cons_self)
        · exact (ih hrest).imp_right (List.mem_cons_of_mem _)

/-- **The order** stays when a value is put in. -/
theorem ascending_insert (h : Ascending t) (key : String) (value : α) :
    Ascending (insert t key value) := by
  unfold Ascending at *
  induction t with
  | nil => exact List.pairwise_singleton _ _
  | cons entry t ih =>
    obtain ⟨k', v'⟩ := entry
    obtain ⟨hhead, htail⟩ := List.pairwise_cons.mp h
    rw [insert_cons]
    split
    · next hlt =>
      refine List.pairwise_cons.mpr ⟨fun entry hentry => ?_, h⟩
      rcases List.mem_cons.mp hentry with rfl | hentry
      · exact hlt
      · exact lt_trans hlt (hhead entry hentry)
    · split
      · next heq =>
        subst heq
        exact List.pairwise_cons.mpr ⟨hhead, htail⟩
      · next hnot hne =>
        -- the new key comes later than the first one
        have hlt : k' < key := (lt_trichotomy key k').resolve_left hnot |>.resolve_left hne
        refine List.pairwise_cons.mpr ⟨fun entry hentry => ?_, ih htail⟩
        obtain ⟨k, v⟩ := entry
        rcases mem_insert hentry with heq | hmem
        · rw [heq]
          exact hlt
        · exact hhead _ hmem

/-- What is found among the entries that are left when others are taken away by their keys. -/
theorem lookup_filter (f : String → Bool) (t : List (String × α)) (k : String) :
    (t.filter fun entry => f entry.1).lookup k = if f k then t.lookup k else none := by
  induction t with
  | nil => simp
  | cons entry t ih =>
    obtain ⟨k', v⟩ := entry
    by_cases hk : k = k'
    · subst hk
      cases hf : f k with
      | true => simp [hf]
      | false =>
        rw [List.filter_cons_of_neg (by simp [hf]), ih, hf]
        rfl
    · rw [List.lookup_cons, beq_false_of_ne hk, ← ih]
      cases hf : f k' with
      | true => rw [List.filter_cons_of_pos (by simp [hf]), List.lookup_cons, beq_false_of_ne hk]
      | false => rw [List.filter_cons_of_neg (by simp [hf])]

/-! ## Lists that are in order -/

theorem mem_of_lookup (h : t.lookup k = some v) : (k, v) ∈ t := by
  obtain ⟨before, after, rfl, -⟩ := List.lookup_eq_some_iff.mp h
  simp

theorem mem_keys_iff : k ∈ t.map (·.1) ↔ ∃ v, t.lookup k = some v := by
  rw [← Option.isSome_iff_exists, List.lookup_isSome_iff, List.mem_map]
  constructor
  · rintro ⟨entry, hmem, rfl⟩
    exact ⟨entry, hmem, beq_self_eq_true _⟩
  · rintro ⟨entry, hmem, heq⟩
    exact ⟨entry, hmem, (beq_iff_eq.mp heq).symm⟩

/-- **Each entry** is found under its key. -/
theorem mem_iff_lookup (h : Ascending t) : (k, v) ∈ t ↔ t.lookup k = some v := by
  unfold Ascending at h
  induction t with
  | nil => simp
  | cons entry t ih =>
    obtain ⟨k', v'⟩ := entry
    obtain ⟨hhead, htail⟩ := List.pairwise_cons.mp h
    by_cases hk : k = k'
    · subst hk
      have hnot : (k, v) ∉ t := fun hmem => String.lt_irrefl k (hhead _ hmem)
      simp [hnot, eq_comm]
    · rw [List.lookup_cons, beq_false_of_ne hk, ← ih htail, List.mem_cons]
      simp [hk]

/-- Lists in which the same values are found are the same. -/
theorem eq_of_lookup (h : Ascending t) (h' : Ascending t')
    (hlookup : ∀ k, t.lookup k = t'.lookup k) : t = t' := by
  apply h.eq_of_mem_iff h'
  rintro ⟨k, v⟩
  rw [mem_iff_lookup h, mem_iff_lookup h', hlookup]

theorem nodup_keys (h : Ascending t) : (t.map (·.1)).Nodup := by
  have hkeys : (t.map (·.1)).Pairwise fun a b => a < b := List.pairwise_map.mpr h
  exact hkeys.imp fun hlt => ne_of_lt hlt

end TagVersion.Keyed
