import Mathlib.Data.List.Infix

/-!
# Stores with hierarchical keys

A store of values by keys that are paths, where a whole subtree can be listed and removed. `insert`
and `removeTree` are given by what they leave to be looked up (`lookup_insert`,
`lookup_removeTree`), and `below` lists what is stored strictly below a key (`exists_below_iff`).
-/

namespace Hierarchy

abbrev Path (α : Type*) := List α

abbrev Store (α β : Type*) := List (Path α × β)

/-- The path lies strictly below the key. -/
def Under {α : Type*} (key p : Path α) : Prop := key <+: p ∧ key ≠ p

theorem under_append {α : Type*} {key k : Path α} (hk : k ≠ []) : Under key (key ++ k) :=
  ⟨List.prefix_append key k, fun h => hk (List.self_eq_append_right.mp h)⟩

variable {α β : Type*} [DecidableEq α]

instance (key p : Path α) : Decidable (Under key p) :=
  inferInstanceAs (Decidable (key <+: p ∧ key ≠ p))

namespace Store

def insert (store : Store α β) (p : Path α) (v : β) : Store α β :=
  (p, v) :: store.filter fun e => e.1 ≠ p

/-- Without a key and all that lies below it. -/
def removeTree (store : Store α β) (key : Path α) : Store α β :=
  store.filter fun e => !decide (key <+: e.1)

/-- The keys below a key, relative to it. -/
def below (store : Store α β) (key : Path α) : List (Path α) :=
  (store.filter fun e => Under key e.1).map fun e => e.1.drop key.length

variable {store : Store α β} {key p q : Path α} {v : β}

theorem lookup_filter (f : Path α → Bool) :
    (store.filter fun e => f e.1).lookup p = if f p then store.lookup p else none := by
  induction store with
  | nil => simp
  | cons e store ih =>
    obtain ⟨q, v⟩ := e
    rw [List.filter_cons]
    by_cases hp : p = q
    · subst hp
      by_cases hf : f p = true
      · rw [if_pos hf, if_pos hf, List.lookup_cons_self, List.lookup_cons_self]
      · rw [if_neg hf, ih, if_neg hf, if_neg hf]
    · have hne : (p == q) = false := beq_false_of_ne hp
      split
      · rw [List.lookup_cons, hne, ih, List.lookup_cons, hne]
      · rw [ih, List.lookup_cons, hne]

theorem lookup_insert : (store.insert p v).lookup q = if q = p then some v else store.lookup q := by
  rw [insert, List.lookup_cons]
  by_cases hq : q = p
  · simp [hq]
  · have hne : (q == p) = false := beq_false_of_ne hq
    rw [hne, lookup_filter fun q => decide (q ≠ p)]
    simp [hq]

theorem lookup_removeTree :
    (store.removeTree key).lookup p = if key <+: p then none else store.lookup p := by
  rw [removeTree, lookup_filter fun p => !decide (key <+: p)]
  by_cases h : key <+: p
  · simp [h]
  · simp [h]

theorem exists_mem_iff : (∃ e ∈ store, e.1 = p) ↔ store.lookup p ≠ none := by
  rw [Ne, List.lookup_eq_none_iff, not_forall]
  constructor
  · rintro ⟨e, he, rfl⟩
    exact ⟨e, fun h => by simpa using h he⟩
  · rintro ⟨e, he⟩
    obtain ⟨hmem, hkey⟩ := Classical.not_imp.mp he
    have heq : p = e.1 := by simpa using hkey
    exact ⟨e, hmem, heq.symm⟩

theorem exists_below_iff :
    (∃ k ∈ store.below key, key ++ k = p) ↔ Under key p ∧ store.lookup p ≠ none := by
  rw [← exists_mem_iff]
  constructor
  · rintro ⟨k, hk, rfl⟩
    obtain ⟨e, he, rfl⟩ := List.mem_map.mp hk
    obtain ⟨hmem, hunder⟩ := List.mem_filter.mp he
    have hunder := of_decide_eq_true hunder
    rw [List.prefix_iff_eq_append.mp hunder.1]
    exact ⟨hunder, e, hmem, rfl⟩
  · rintro ⟨hunder, e, hmem, rfl⟩
    have hlisted : e ∈ store.filter fun e => Under key e.1 :=
      List.mem_filter.mpr ⟨hmem, decide_eq_true hunder⟩
    exact ⟨_, List.mem_map_of_mem hlisted, List.prefix_iff_eq_append.mp hunder.1⟩

end Store

end Hierarchy
