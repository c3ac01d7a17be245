import Mathlib.Data.List.Sort

/-!
# Verdicts by weight

Filters are tried from the heaviest to the lightest, and the first that matches decides. Filters of
one weight may be tried in any order, so a packet can be sure to be blocked, sure to be let through,
or neither. `blocked_iff` and `permitted_iff` say when it is sure, by the filters that match.
-/

namespace Verdicts

variable {φ π : Type*} (weight : φ → ℕ) (applies : φ → π → Bool) (block : φ → Bool)

/-- The filters, in an order in which they may be tried. -/
structure IsOrder (filters order : List φ) : Prop where
  perm : order.Perm filters
  sorted : order.Pairwise fun f g => weight g ≤ weight f

/-- Whether the first filter that matches blocks; a packet that none matches is let through. -/
def blocks (order : List φ) (p : π) : Bool := ((order.find? (applies · p)).map block).getD false

/-- The packet is blocked, whatever order the filters of one weight are tried in. -/
def Blocked (filters : List φ) (p : π) : Prop :=
  ∀ order, IsOrder weight filters order → blocks applies block order p = true

def Permitted (filters : List φ) (p : π) : Prop :=
  ∀ order, IsOrder weight filters order → blocks applies block order p = false

section Order

variable {weight applies} {filters order : List φ} {p : π} {f g : φ}

/-- What is found in an order is as heavy as everything else that matches. -/
theorem IsOrder.weight_le (h : IsOrder weight filters order)
    (hf : order.find? (applies · p) = some f) (hg : g ∈ filters) (hmatch : applies g p = true) :
    weight g ≤ weight f := by
  obtain ⟨-, before, rest, rfl, hnone⟩ := List.find?_eq_some_iff_append.mp hf
  rcases List.mem_append.mp (h.perm.mem_iff.mpr hg) with hmem | hmem
  · have hno := hnone g hmem
    simp [hmatch] at hno
  · rcases List.mem_cons.mp hmem with rfl | hmem
    · exact le_rfl
    · exact (List.pairwise_cons.mp (List.pairwise_append.mp h.sorted).2.1).1 g hmem

theorem IsOrder.exists_find (h : IsOrder weight filters order) (hg : g ∈ filters)
    (hmatch : applies g p = true) : ∃ f, order.find? (applies · p) = some f :=
  Option.isSome_iff_exists.mp
    (List.find?_isSome.mpr ⟨g, h.perm.mem_iff.mpr hg, hmatch⟩)

theorem IsOrder.mem_of_find (h : IsOrder weight filters order)
    (hf : order.find? (applies · p) = some f) : f ∈ filters ∧ applies f p = true :=
  ⟨h.perm.mem_iff.mp (List.mem_of_find?_eq_some hf),
    @List.find?_some _ (applies · p) _ _ hf⟩

variable (weight) in
/-- The order that tries the filters of `first` before the others of their weight. -/
def preferring (first : φ → Bool) (filters : List φ) : List φ :=
  filters.mergeSort fun f g =>
    2 * weight g + (first g).toNat ≤ 2 * weight f + (first f).toNat

theorem pairwise_preferring (first : φ → Bool) (filters : List φ) :
    (preferring weight first filters).Pairwise fun f g =>
      2 * weight g + (first g).toNat ≤ 2 * weight f + (first f).toNat := by
  have hsorted := @List.pairwise_mergeSort φ
    (fun f g => decide (2 * weight g + (first g).toNat ≤ 2 * weight f + (first f).toNat))
    (fun a b c hab hbc => by simp only [decide_eq_true_eq] at *; omega)
    (fun a b => by simp only [Bool.or_eq_true, decide_eq_true_eq]; omega) filters
  exact hsorted.imp fun h => of_decide_eq_true h

theorem isOrder_preferring (first : φ → Bool) (filters : List φ) :
    IsOrder weight filters (preferring weight first filters) where
  perm := List.mergeSort_perm _ _
  sorted := (pairwise_preferring first filters).imp fun {f g} h => by
    have hf := Bool.toNat_le (first f)
    omega

/-- If what is found is not preferred, then nothing of its weight that matches is. -/
theorem first_of_preferring {first : φ → Bool}
    (hf : (preferring weight first filters).find? (applies · p) = some f) (hg : g ∈ filters)
    (hmatch : applies g p = true) (hfirst : first g = true) (hle : weight f ≤ weight g) :
    first f = true := by
  obtain ⟨-, before, rest, heq, hnone⟩ := List.find?_eq_some_iff_append.mp hf
  have hsorted := @pairwise_preferring φ weight first filters
  have hmem : g ∈ preferring weight first filters := List.mem_mergeSort.mpr hg
  rw [heq] at hsorted hmem
  rcases List.mem_append.mp hmem with hmem | hmem
  · have hno := hnone g hmem
    simp [hmatch] at hno
  · rcases List.mem_cons.mp hmem with rfl | hmem
    · exact hfirst
    · have hkey := (List.pairwise_cons.mp (List.pairwise_append.mp hsorted).2.1).1 g hmem
      rw [hfirst, Bool.toNat_true] at hkey
      by_contra hne
      rw [Bool.not_eq_true] at hne
      rw [hne, Bool.toNat_false] at hkey
      omega

end Order

section Sure

variable {weight applies block} {filters : List φ} {p : π}

/-- A packet is sure to be blocked when a blocking filter matches that is heavier than every other
filter that matches. -/
theorem blocked_iff :
    Blocked weight applies block filters p ↔
      ∃ f ∈ filters, applies f p = true ∧ block f = true ∧
        ∀ g ∈ filters, applies g p = true → block g = false → weight g < weight f := by
  constructor
  · intro h
    have hblocks := h _ (isOrder_preferring (fun f => !block f) filters)
    have horder := @isOrder_preferring φ weight (fun f => !block f) filters
    rcases hfind : (preferring weight (fun f => !block f) filters).find? (applies · p) with _ | f
    · rw [blocks, hfind] at hblocks
      cases hblocks
    · rw [blocks, hfind] at hblocks
      obtain ⟨hmem, hmatch⟩ := horder.mem_of_find hfind
      refine ⟨f, hmem, hmatch, hblocks, fun g hg hgmatch hpermit => ?_⟩
      by_contra hle
      have hfirst := first_of_preferring hfind hg hgmatch (by simp [hpermit]) (not_lt.mp hle)
      rw [Option.map_some, Option.getD_some] at hblocks
      simp [hblocks] at hfirst
  · rintro ⟨f, hf, hmatch, hblock, hlt⟩ order horder
    obtain ⟨g, hg⟩ := horder.exists_find hf hmatch
    have hle := horder.weight_le hg hf hmatch
    obtain ⟨hmem, hgmatch⟩ := horder.mem_of_find hg
    rw [blocks, hg, Option.map_some, Option.getD_some]
    by_contra hpermit
    have := hlt g hmem hgmatch (Bool.eq_false_iff.mpr hpermit)
    omega

/-- A packet is sure to be let through when every blocking filter that matches is lighter than some
other filter that matches. -/
theorem permitted_iff :
    Permitted weight applies block filters p ↔
      ∀ f ∈ filters, applies f p = true → block f = true →
        ∃ g ∈ filters, applies g p = true ∧ block g = false ∧ weight f < weight g := by
  constructor
  · intro h f hf hmatch hblock
    have hblocks := h _ (isOrder_preferring block filters)
    have horder := @isOrder_preferring φ weight block filters
    obtain ⟨g, hg⟩ := horder.exists_find hf hmatch
    obtain ⟨hmem, hgmatch⟩ := horder.mem_of_find hg
    rw [blocks, hg, Option.map_some, Option.getD_some] at hblocks
    refine ⟨g, hmem, hgmatch, hblocks, ?_⟩
    by_contra hle
    have hfirst := first_of_preferring hg hf hmatch hblock (not_lt.mp hle)
    rw [hblocks] at hfirst
    cases hfirst
  · intro h order horder
    rcases hfind : order.find? (applies · p) with _ | f
    · rw [blocks, hfind]
      rfl
    · obtain ⟨hmem, hmatch⟩ := horder.mem_of_find hfind
      rw [blocks, hfind, Option.map_some, Option.getD_some]
      by_contra hblock
      obtain ⟨g, hg, hgmatch, -, hlt⟩ := h f hmem hmatch (Bool.not_eq_false _ ▸ hblock)
      have hle := horder.weight_le hfind hg hgmatch
      omega

end Sure

end Verdicts
