import Mathlib.Data.List.Basic

/-!
# Lists in storage

A list that lies in consecutive slots, as `QList` of Qt 6 keeps it. Removing the first item moves
the start; removing any other item moves the items behind it one slot down and leaves the last slot
as it was. The list itself is what one expects (`toList_removeOne`); somebody who goes through the
slots in the meantime sees the difference (`removeOne_of_head`, `mem_drop_removeOne_of_shift`).
-/

namespace Storage

/-- The slots, where the list starts and its length. -/
structure Buffer (α : Type*) where
  slots : List α
  start : ℕ
  size : ℕ
  deriving DecidableEq, Repr

variable {α : Type*}

/-- `count` items from `src` on are copied to `dst`, which lies before them. -/
def moveDown (l : List α) (dst src count : ℕ) : List α :=
  l.take dst ++ (l.drop src).take count ++ l.drop (dst + count)

namespace Buffer

def ofList (l : List α) : Buffer α := ⟨l, 0, l.length⟩

def toList (b : Buffer α) : List α := (b.slots.drop b.start).take b.size

/-- Removes the item at an index of the list. -/
def erase (b : Buffer α) (i : ℕ) : Buffer α :=
  if i = 0 ∧ b.size ≠ 1 then { b with start := b.start + 1, size := b.size - 1 }
  else
    { b with
      slots := moveDown b.slots (b.start + i) (b.start + i + 1) (b.size - (i + 1))
      size := b.size - 1 }

/-- Removes the first item that is equal to `a`. -/
def removeOne [DecidableEq α] (b : Buffer α) (a : α) : Buffer α :=
  match b.toList.idxOf? a with
  | none => b
  | some i => b.erase i

/-- The list lies within the slots. -/
def Fits (b : Buffer α) : Prop := b.start + b.size ≤ b.slots.length

theorem toList_ofList (l : List α) : (ofList l).toList = l := by simp [ofList, toList]

theorem fits_ofList (l : List α) : (ofList l).Fits := by simp [ofList, Fits]

theorem Fits.length_toList {b : Buffer α} (h : b.Fits) : b.toList.length = b.size := by
  unfold Fits at h
  rw [toList, List.length_take, List.length_drop]
  omega

end Buffer

/-! ## Moving items -/

section Move

variable {l : List α} {dst count : ℕ}

theorem length_moveDown (h : dst + 1 + count ≤ l.length) :
    (moveDown l dst (dst + 1) count).length = l.length := by
  simp only [moveDown, List.length_append, List.length_take, List.length_drop]
  omega

theorem getElem?_moveDown (h : dst + 1 + count ≤ l.length) (j : ℕ) :
    (moveDown l dst (dst + 1) count)[j]? =
      if dst ≤ j ∧ j < dst + count then l[j + 1]? else l[j]? := by
  have hlen : ((l.drop (dst + 1)).take count).length = count := by
    simp only [List.length_take, List.length_drop]
    omega
  have hdst : (l.take dst).length = dst := by
    rw [List.length_take]
    omega
  unfold moveDown
  by_cases h₁ : j < dst
  · rw [List.append_assoc, List.getElem?_append_left (by omega), List.getElem?_take,
      if_pos h₁, if_neg (by omega)]
  · by_cases h₂ : j < dst + count
    · rw [List.getElem?_append_left (by simp only [List.length_append]; omega),
        List.getElem?_append_right (by omega), hdst, List.getElem?_take, if_pos (by omega),
        List.getElem?_drop, if_pos (by omega), show dst + 1 + (j - dst) = j + 1 by omega]
    · rw [List.getElem?_append_right (by simp only [List.length_append]; omega),
        List.length_append, hdst, hlen, List.getElem?_drop, if_neg (by omega),
        show dst + count + (j - (dst + count)) = j by omega]

end Move

/-! ## Removing items -/

namespace Buffer

variable {b : Buffer α}

theorem length_slots_erase (h : b.Fits) {i : ℕ} (hi : i < b.size) :
    (b.erase i).slots.length = b.slots.length := by
  unfold Fits at h
  unfold erase
  split_ifs
  · rfl
  · exact length_moveDown (by omega)

theorem toList_erase (h : b.Fits) {i : ℕ} (hi : i < b.size) :
    (b.erase i).toList = b.toList.eraseIdx i := by
  unfold Fits at h
  apply List.ext_getElem?
  intro j
  unfold erase
  split_ifs with hfirst
  · simp only [toList, List.getElem?_eraseIdx, List.getElem?_take, List.getElem?_drop, hfirst.1]
    split_ifs <;> first | omega | rfl | (congr 1; omega)
  · simp only [toList, List.getElem?_eraseIdx, List.getElem?_take, List.getElem?_drop]
    rw [getElem?_moveDown (by omega)]
    split_ifs <;> first | omega | rfl

theorem Fits.erase (h : b.Fits) {i : ℕ} (hi : i < b.size) : (b.erase i).Fits := by
  have hlen := length_slots_erase h hi
  unfold Fits at h ⊢
  rw [hlen]
  unfold Buffer.erase
  split_ifs
  · dsimp only
    omega
  · dsimp only
    omega

/-- What a slot holds after a removal: the items behind the removed one have moved down, unless the
first one was removed. -/
theorem getElem?_slots_erase (h : b.Fits) {i : ℕ} (hi : i < b.size) (j : ℕ) :
    (b.erase i).slots[j]? =
      if (i ≠ 0 ∨ b.size = 1) ∧ b.start + i ≤ j ∧ j + 1 < b.start + b.size then b.slots[j + 1]?
      else b.slots[j]? := by
  unfold Fits at h
  unfold Buffer.erase
  split_ifs with hfirst hmoved hmoved
  · omega
  · rfl
  · rw [getElem?_moveDown (by omega), if_pos (by omega)]
  · rw [getElem?_moveDown (by omega), if_neg (by omega)]

theorem mem_drop_erase (h : b.Fits) {i : ℕ} (hi : i < b.size) {j : ℕ} {x : α}
    (hx : x ∈ (b.erase i).slots.drop j) : x ∈ b.slots.drop j := by
  obtain ⟨k, hk⟩ := List.mem_iff_getElem?.mp hx
  rw [List.getElem?_drop, getElem?_slots_erase h hi] at hk
  split_ifs at hk
  · exact List.mem_iff_getElem?.mpr ⟨k + 1, by rw [List.getElem?_drop]; exact hk⟩
  · exact List.mem_iff_getElem?.mpr ⟨k, by rw [List.getElem?_drop]; exact hk⟩

/-- When another item than the first is removed in front of slot `j`, all that is left to see from
there is what was to be seen from slot `j + 1`. -/
theorem mem_drop_erase_of_shift (h : b.Fits) {i : ℕ} (hi : i < b.size) (hne : i ≠ 0) {j : ℕ}
    (hij : b.start + i ≤ j) (hend : b.start + b.size = b.slots.length)
    (hj : j + 1 < b.slots.length) {x : α} (hx : x ∈ (b.erase i).slots.drop j) :
    x ∈ b.slots.drop (j + 1) := by
  obtain ⟨k, hk⟩ := List.mem_iff_getElem?.mp hx
  have hlt : j + k < b.slots.length := by
    rw [← length_slots_erase h hi]
    rw [List.getElem?_drop] at hk
    exact (List.getElem?_eq_some_iff.mp hk).1
  rw [List.getElem?_drop, getElem?_slots_erase h hi] at hk
  split_ifs at hk with hmoved
  · refine List.mem_iff_getElem?.mpr ⟨k, ?_⟩
    rw [List.getElem?_drop, show j + 1 + k = j + k + 1 by omega]
    exact hk
  · -- the last slot
    refine List.mem_iff_getElem?.mpr ⟨k - 1, ?_⟩
    rw [List.getElem?_drop, show j + 1 + (k - 1) = j + k by omega]
    exact hk

/-! ## Removing an item by value -/

section Value

variable [DecidableEq α] {a : α}

theorem removeOne_of_not_mem (h : a ∉ b.toList) : b.removeOne a = b := by
  rw [removeOne, List.idxOf?_eq_none_iff.mpr h]

theorem removeOne_of_mem (hfit : b.Fits) (h : a ∈ b.toList) :
    ∃ i, i < b.size ∧ b.toList[i]? = some a ∧ (∀ j < i, b.toList[j]? ≠ some a) ∧
      b.toList.erase a = b.toList.eraseIdx i ∧ b.removeOne a = b.erase i := by
  cases hidx : b.toList.idxOf? a with
  | none => exact absurd h (List.idxOf?_eq_none_iff.mp hidx)
  | some i =>
    obtain ⟨hlt, hi, hfirst⟩ := List.idxOf?_eq_some_iff.mp hidx
    refine ⟨i, by rwa [hfit.length_toList] at hlt, ?_, ?_, ?_, ?_⟩
    · rw [List.getElem?_eq_getElem hlt, hi]
    · intro j hj
      rw [List.getElem?_eq_getElem (by omega)]
      exact fun heq => hfirst j hj (Option.some.inj heq)
    · rw [List.erase_eq_eraseIdx, hidx]
    · rw [removeOne, hidx]

/-- **The list.** Whatever happens in the slots, the item is removed from the list. -/
theorem toList_removeOne (hfit : b.Fits) (a : α) : (b.removeOne a).toList = b.toList.erase a := by
  by_cases h : a ∈ b.toList
  · obtain ⟨i, hi, -, -, herase, heq⟩ := removeOne_of_mem hfit h
    rw [heq, toList_erase hfit hi, herase]
  · rw [removeOne_of_not_mem h, List.erase_of_not_mem h]

theorem Fits.removeOne (hfit : b.Fits) (a : α) : (b.removeOne a).Fits := by
  by_cases h : a ∈ b.toList
  · obtain ⟨i, hi, -, -, -, heq⟩ := removeOne_of_mem hfit h
    rw [heq]
    exact hfit.erase hi
  · rwa [removeOne_of_not_mem h]

theorem length_slots_removeOne (hfit : b.Fits) (a : α) :
    (b.removeOne a).slots.length = b.slots.length := by
  by_cases h : a ∈ b.toList
  · obtain ⟨i, hi, -, -, -, heq⟩ := removeOne_of_mem hfit h
    rw [heq, length_slots_erase hfit hi]
  · rw [removeOne_of_not_mem h]

theorem mem_drop_removeOne (hfit : b.Fits) {j : ℕ} {x : α}
    (hx : x ∈ (b.removeOne a).slots.drop j) : x ∈ b.slots.drop j := by
  by_cases h : a ∈ b.toList
  · obtain ⟨i, hi, -, -, -, heq⟩ := removeOne_of_mem hfit h
    rw [heq] at hx
    exact mem_drop_erase hfit hi hx
  · rwa [removeOne_of_not_mem h] at hx

theorem drop_slots_removeOne (hfit : b.Fits) {j : ℕ} (hj : b.slots.length ≤ j + 1) :
    (b.removeOne a).slots.drop j = b.slots.drop j := by
  by_cases h : a ∈ b.toList
  · obtain ⟨i, hi, -, -, -, heq⟩ := removeOne_of_mem hfit h
    rw [heq]
    apply List.ext_getElem?
    intro k
    unfold Fits at hfit
    rw [List.getElem?_drop, List.getElem?_drop, getElem?_slots_erase hfit hi, if_neg (by omega)]
  · rw [removeOne_of_not_mem h]

/-- Removing the first of several items touches no slot. -/
theorem removeOne_of_head {rest : List α} (hfit : b.Fits) (h : b.toList = a :: rest)
    (hrest : rest ≠ []) :
    b.removeOne a = { b with start := b.start + 1, size := b.size - 1 } := by
  obtain ⟨i, hi, -, hfirst, -, heq⟩ := removeOne_of_mem hfit (a := a) (by simp [h])
  have hzero : i = 0 := by
    by_contra hne
    exact hfirst 0 (by omega) (by simp [h])
  have hsize : b.size ≠ 1 := by
    rw [← hfit.length_toList, h, List.length_cons]
    have := List.length_pos_iff.mpr hrest
    omega
  rw [heq, Buffer.erase, if_pos ⟨hzero, hsize⟩]

/-- Removing another item than the first hides the next slot from whoever stands before it. -/
theorem mem_drop_removeOne_of_shift (hfit : b.Fits) (hend : b.start + b.size = b.slots.length)
    {i j : ℕ} (hi : b.toList[i]? = some a) (hhead : b.toList.head? ≠ some a)
    (hij : b.start + i ≤ j) (hj : j + 1 < b.slots.length) {x : α}
    (hx : x ∈ (b.removeOne a).slots.drop j) : x ∈ b.slots.drop (j + 1) := by
  obtain ⟨i', hi', ha', hfirst, -, heq⟩ := removeOne_of_mem hfit (List.mem_of_getElem? hi)
  have hle : i' ≤ i := by
    by_contra hlt
    exact hfirst i (by omega) hi
  have hne : i' ≠ 0 := by
    rintro rfl
    rw [List.head?_eq_getElem?] at hhead
    exact hhead ha'
  rw [heq] at hx
  exact mem_drop_erase_of_shift hfit hi' hne (by omega) hend hj hx

end Value

end Buffer

end Storage
