import Mathlib
import TagVersion.Repository.Conversion

/-!
# Contents that are kept

Where it is left to the contents whether a file is a text, it matters what is staged of the file
already. Staging it once settles this: what was kept once is kept again.

* **`Bytes.toList_eq`**: the bytes of a file as a list.
* **`Ident.stored_of_not_mem`**: a file without dollar signs has no mark to empty.
* **`LineEnds.not_mem_normalize`**: a text has no carriage returns once its line ends are normalized.
* **`LineEnds.stored_stored`**: what is kept of a file is kept again.
* **`Conversion.stored_of_not_mem`**: what every conversion keeps as it is.
-/

namespace TagVersion

/-! ## Bytes as lists -/

namespace Bytes

theorem toList_loop (bytes : ByteArray) (i : Nat) (done : List UInt8) :
    ByteArray.toList.loop bytes i done = done.reverse ++ bytes.data.toList.drop i := by
  induction i, done using ByteArray.toList.loop.induct bytes with
  | case1 i done hlt ih =>
    have hlt' : i < bytes.data.toList.length := hlt
    have hget : bytes.get! i = bytes.data.toList[i] := getElem!_pos bytes.data i hlt
    rw [ByteArray.toList.loop, if_pos hlt, ih, List.reverse_cons, List.append_assoc, hget,
      List.drop_eq_getElem_cons hlt', List.singleton_append]
  | case2 i done hge =>
    have hge' : bytes.data.toList.length ≤ i := Nat.le_of_not_lt hge
    rw [ByteArray.toList.loop, if_neg hge, List.drop_eq_nil_of_le hge', List.append_nil]

/-- A file is the list of its bytes. -/
theorem toList_eq (bytes : ByteArray) : bytes.toList = bytes.data.toList := by
  rw [ByteArray.toList, toList_loop]
  rfl

theorem mk_toList (bytes : ByteArray) : (⟨bytes.toList.toArray⟩ : ByteArray) = bytes := by
  rw [toList_eq]

end Bytes

namespace Ident

theorem cutLead_eq_none {bytes : List UInt8} (h : dollar ∉ bytes) : cutLead bytes = none := by
  induction bytes with
  | nil => rfl
  | cons b rest ih =>
    obtain ⟨hb, hrest⟩ := List.ne_and_not_mem_of_not_mem_cons h
    simp [cutLead, Ne.symm hb, ih hrest]

/-- A mark begins with a dollar sign. -/
theorem stored_of_not_mem {bytes : List UInt8} (h : dollar ∉ bytes) : stored bytes = bytes := by
  unfold stored emptied
  rw [cutLead_eq_none h, ite_self]

end Ident

namespace LineEnds

/-! ## Texts without carriage returns -/

theorem hasLoneReturn_cons (b : UInt8) (rest : List UInt8) :
    (census (b :: rest)).hasLoneReturn =
      ((census rest).hasLoneReturn || (b == 0x0D && rest.head? != some 0x0A)) := by
  by_cases hreturn : b = 0x0D
  · subst hreturn
    by_cases hfeed : rest.head? = some 0x0A
    · simp [census, hfeed]
    · simp [census, hfeed]
  · rw [census]
    -- no other byte tells of a lone return
    split
    · simp [hreturn]
    · split
      · simp [hreturn]
      · split <;> simp [hreturn]

/-- A mark at the end of a file is no line end. -/
theorem hasLoneReturn_append (bytes : List UInt8) :
    (census (bytes ++ [0x1A])).hasLoneReturn = (census bytes).hasLoneReturn := by
  induction bytes with
  | nil => rfl
  | cons b rest ih =>
    have hhead : ((rest ++ [(0x1A : UInt8)]).head? != some 0x0A) = (rest.head? != some 0x0A) := by
      cases rest <;> rfl
    rw [List.cons_append, hasLoneReturn_cons, hasLoneReturn_cons, ih, hhead]

/-- **A text** has no carriage returns once its line ends are normalized. -/
theorem not_mem_normalize {bytes : List UInt8} (h : (census bytes).hasLoneReturn = false) :
    0x0D ∉ normalize bytes := by
  induction bytes using normalize.induct with
  | case1 rest ih =>
    rw [hasLoneReturn_cons, hasLoneReturn_cons] at h
    rw [normalize]
    have hrest : (census rest).hasLoneReturn = false := by simpa using h
    simpa using ih hrest
  | case2 b rest hnot ih =>
    rw [hasLoneReturn_cons, Bool.or_eq_false_iff] at h
    rw [normalize.eq_2 _ _ hnot]
    have hb : b ≠ 0x0D := by
      rintro rfl
      cases hhead : rest with
      | nil => simp [hhead] at h
      | cons c rest' =>
        have hc : c = 0x0A := by simpa [hhead] using h.2
        exact hnot rest' rfl (by rw [hhead, hc])
    exact List.not_mem_cons_of_ne_of_not_mem (Ne.symm hb) (ih h.1)
  | case3 => exact List.not_mem_nil

theorem not_mem_normalize_of_looksLikeText {bytes : List UInt8} (h : looksLikeText bytes = true) :
    0x0D ∉ normalize bytes := by
  refine not_mem_normalize ?_
  unfold looksLikeText at h
  simp only [Bool.and_eq_true, Bool.not_eq_true'] at h
  have hlone := h.1.1
  by_cases hmark : bytes.getLast? = some 0x1A
  · obtain ⟨front, rfl⟩ := List.getLast?_eq_some_iff.mp hmark
    rw [if_pos hmark, List.dropLast_concat] at hlone
    rw [hasLoneReturn_append]
    exact hlone
  · rw [if_neg hmark] at hlone
    exact hlone

/-! ## Keeping a file twice -/

theorem normalize_of_not_mem {bytes : List UInt8} (h : 0x0D ∉ bytes) : normalize bytes = bytes := by
  induction bytes using normalize.induct with
  | case1 rest ih => exact absurd List.mem_cons_self h
  | case2 b rest hnot ih =>
    rw [normalize.eq_2 _ _ hnot, ih (List.not_mem_of_not_mem_cons h)]
  | case3 => rfl

/-- **What is kept** of a file is kept again, by what is staged of it then. -/
theorem stored_stored (rule : LineEndRule) (hasReturns : Bool) (bytes : List UInt8) :
    stored rule ((stored rule hasReturns bytes).contains 0x0D) bytes =
      stored rule hasReturns bytes := by
  cases rule with
  | keep => rfl
  | normalize => rfl
  | normalizeText =>
    unfold stored
    simp only
    by_cases htext : looksLikeText bytes = true
    · have hreturns := not_mem_normalize_of_looksLikeText htext
      cases hasReturns with
      | false => simp [htext, hreturns]
      | true =>
        -- a file without carriage returns is its own text
        by_cases hmem : 0x0D ∈ bytes
        · simp [htext, hmem]
        · simp [htext, hmem, normalize_of_not_mem hmem]
    · simp [htext]

/-- A file without carriage returns is kept as it is. -/
theorem stored_of_not_mem {bytes : List UInt8} (h : 0x0D ∉ bytes) (rule : LineEndRule)
    (hasReturns : Bool) : stored rule hasReturns bytes = bytes := by
  have hsame := normalize_of_not_mem h
  cases rule with
  | keep => rfl
  | normalize => exact hsame
  | normalizeText =>
    unfold stored
    simp only
    rw [hsame, ite_self]

end LineEnds

namespace Conversion

/-- **A file without marks and carriage returns** is kept as it is, whatever is done to it. -/
theorem stored_of_not_mem {bytes : List UInt8} (hmark : Ident.dollar ∉ bytes)
    (hreturns : 0x0D ∉ bytes) (c : Conversion) (hasReturns : Bool) :
    c.stored hasReturns bytes = bytes := by
  unfold stored
  rw [Ident.stored_of_not_mem hmark, ite_self]
  exact LineEnds.stored_of_not_mem hreturns c.lineEnds hasReturns

theorem stored_none (hasReturns : Bool) (bytes : List UInt8) : none.stored hasReturns bytes = bytes :=
  rfl

end Conversion

end TagVersion
