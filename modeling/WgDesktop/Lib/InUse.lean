import Mathlib.Data.Set.Insert
import Mathlib.Logic.Function.Basic

/-!
# Values in use

Keys are assigned values, and a value is in use while some key has it. A register of the values in
use is usually kept one value at a time; the two results say exactly when that works. Adding the
new value of a key is enough unless the key gives up a value that no other key has, and removing
the value of a deleted key is right unless another key has it too.
-/

namespace InUse

variable {K A : Type*} [DecidableEq K] {f : K → Option A} {k : K} {a : A}

/-- The values that some key has. -/
def inUse (f : K → Option A) : Set A := { a | ∃ k, f k = some a }

omit [DecidableEq K] in
theorem mem_inUse : a ∈ inUse f ↔ ∃ k, f k = some a := Iff.rfl

theorem mem_inUse_update_some {b : A} :
    b ∈ inUse (Function.update f k (some a)) ↔ b = a ∨ ∃ k', k' ≠ k ∧ f k' = some b := by
  rw [mem_inUse]
  constructor
  · rintro ⟨k', hk'⟩
    by_cases h : k' = k
    · subst h
      rw [Function.update_self, Option.some_inj] at hk'
      exact Or.inl hk'.symm
    · rw [Function.update_of_ne h] at hk'
      exact Or.inr ⟨k', h, hk'⟩
  · rintro (rfl | ⟨k', h, hk'⟩)
    · exact ⟨k, Function.update_self ..⟩
    · exact ⟨k', by rw [Function.update_of_ne h, hk']⟩

theorem mem_inUse_update_none {b : A} :
    b ∈ inUse (Function.update f k none) ↔ ∃ k', k' ≠ k ∧ f k' = some b := by
  rw [mem_inUse]
  constructor
  · rintro ⟨k', hk'⟩
    by_cases h : k' = k
    · subst h
      simp at hk'
    · rw [Function.update_of_ne h] at hk'
      exact ⟨k', h, hk'⟩
  · rintro ⟨k', h, hk'⟩
    exact ⟨k', by rw [Function.update_of_ne h, hk']⟩

/-- **Assigning.** -/
theorem union_eq_inUse_update_some_iff :
    inUse f ∪ {a} = inUse (Function.update f k (some a)) ↔
      ∀ old, f k = some old → old = a ∨ ∃ k', k' ≠ k ∧ f k' = some old := by
  constructor
  · intro h old hold
    have hmem : old ∈ inUse f ∪ {a} := Or.inl ⟨k, hold⟩
    rwa [h, mem_inUse_update_some] at hmem
  · intro h
    ext b
    rw [mem_inUse_update_some, Set.mem_union, Set.mem_singleton_iff, mem_inUse]
    constructor
    · rintro (⟨k', hk'⟩ | rfl)
      · by_cases hkk : k' = k
        · exact h b (hkk ▸ hk')
        · exact Or.inr ⟨k', hkk, hk'⟩
      · exact Or.inl rfl
    · rintro (rfl | ⟨k', -, hk'⟩)
      · exact Or.inr rfl
      · exact Or.inl ⟨k', hk'⟩

/-- **Deleting.** -/
theorem diff_eq_inUse_update_none_iff (hk : f k = some a) :
    inUse f \ {a} = inUse (Function.update f k none) ↔ ∀ k', k' ≠ k → f k' ≠ some a := by
  constructor
  · intro h k' hne hk'
    have hmem : a ∈ inUse (Function.update f k none) := mem_inUse_update_none.mpr ⟨k', hne, hk'⟩
    rw [← h] at hmem
    exact hmem.2 rfl
  · intro h
    ext b
    rw [mem_inUse_update_none, Set.mem_sdiff, Set.mem_singleton_iff, mem_inUse]
    constructor
    · rintro ⟨⟨k', hk'⟩, hne⟩
      refine ⟨k', ?_, hk'⟩
      rintro rfl
      rw [hk, Option.some_inj] at hk'
      exact hne hk'.symm
    · rintro ⟨k', hne, hk'⟩
      refine ⟨⟨k', hk'⟩, ?_⟩
      rintro rfl
      exact h k' hne hk'

end InUse
