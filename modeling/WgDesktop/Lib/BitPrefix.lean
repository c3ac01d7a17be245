import Mathlib.Topology.MetricSpace.PiNat

/-!
# Bit prefixes

A prefix of length `n` of a bit sequence `x` is the cylinder `PiNat.cylinder x n`: the sequences
that agree with `x` on the first `n` symbols. Two cylinders are nested or disjoint
(`mem_of_common`), and a cylinder of Boolean sequences is the disjoint union of the two cylinders
one symbol longer (`mem_cylinder_halves`).

The bits of a machine word, most significant first, are such a sequence; `xor_shift_eq_zero_iff`
is the usual test for a common prefix, and `setBit` fills in the first bit past a prefix.
-/

namespace BitPrefix

open PiNat

section Sequences

variable {α : Type*} {x y z : ℕ → α} {m n : ℕ}

theorem mem_cylinder_trans (hy : y ∈ cylinder x n) (hz : z ∈ cylinder y n) :
    z ∈ cylinder x n := by
  intro i hi
  rw [hz i hi, hy i hi]

/-- Two cylinders with a common point are nested: the longer one starts inside the shorter one. -/
theorem mem_of_common (hmn : m ≤ n) (hx : z ∈ cylinder x m) (hy : z ∈ cylinder y n) :
    y ∈ cylinder x m := by
  intro i hi
  rw [← hx i hi, hy i (by omega)]

/-- A prefix of length `m + n` is a prefix of length `m` followed by one of length `n`. -/
theorem mem_cylinder_add :
    y ∈ cylinder x (m + n) ↔
      y ∈ cylinder x m ∧ (fun j => y (m + j)) ∈ cylinder (fun j => x (m + j)) n := by
  constructor
  · intro h
    exact ⟨cylinder_anti x (Nat.le_add_right m n) h, fun j hj => h (m + j) (by omega)⟩
  · rintro ⟨hm, hn⟩ i hi
    by_cases him : i < m
    · exact hm i him
    · have htail : y (m + (i - m)) = x (m + (i - m)) := hn (i - m) (by omega)
      rwa [show m + (i - m) = i by omega] at htail

theorem mem_cylinder_succ : y ∈ cylinder x (n + 1) ↔ y ∈ cylinder x n ∧ y n = x n := by
  constructor
  · intro h
    exact ⟨cylinder_anti x (Nat.le_succ n) h, h n (Nat.lt_succ_self n)⟩
  · rintro ⟨h, hn⟩ i hi
    rcases Nat.lt_succ_iff_lt_or_eq.mp hi with hi | rfl
    · exact h i hi
    · exact hn

end Sequences

section Halves

variable {x x' y : ℕ → Bool} {n : ℕ}

theorem mem_cylinder_halves (hx' : x' ∈ cylinder x n) (hne : x' n ≠ x n) :
    y ∈ cylinder x n ↔ y ∈ cylinder x (n + 1) ∨ y ∈ cylinder x' (n + 1) := by
  have hcyl : cylinder x' n = cylinder x n := mem_cylinder_iff_eq.mp hx'
  rw [mem_cylinder_succ, mem_cylinder_succ, hcyl]
  constructor
  · intro h
    by_cases hy : y n = x n
    · exact Or.inl ⟨h, hy⟩
    · refine Or.inr ⟨h, ?_⟩
      revert hy hne
      cases y n <;> cases x n <;> cases x' n <;> simp
  · rintro (h | h)
    · exact h.1
    · exact h.1

theorem not_mem_both_halves (hne : x' n ≠ x n) :
    ¬ (y ∈ cylinder x (n + 1) ∧ y ∈ cylinder x' (n + 1)) := by
  rintro ⟨h, h'⟩
  exact hne ((h' n (Nat.lt_succ_self n)).symm.trans (h n (Nat.lt_succ_self n)))

end Halves

section Words

variable {w n : ℕ} {x y : BitVec w}

/-- No bit is set past the first `n`. -/
def HostZero (n : ℕ) (x : ℕ → Bool) : Prop := ∀ i, n ≤ i → x i = false

theorem HostZero.mono {x : ℕ → Bool} {m : ℕ} (h : HostZero m x) (hmn : m ≤ n) : HostZero n x :=
  fun i hi => h i (hmn.trans hi)

/-- A sequence that is zero past a prefix is determined by that prefix. -/
theorem HostZero.eq_of_mem {x y : ℕ → Bool} (hx : HostZero n x) (hy : HostZero n y)
    (h : y ∈ cylinder x n) : y = x := by
  funext i
  by_cases hi : i < n
  · exact h i hi
  · rw [hx i (by omega), hy i (by omega)]

theorem getMsbD_injective : Function.Injective (BitVec.getMsbD : BitVec w → ℕ → Bool) := by
  intro x y h
  exact BitVec.eq_of_getMsbD_eq (fun i _ => congrFun h i)

theorem getMsbD_of_ge {i : ℕ} (h : w ≤ i) : x.getMsbD i = false := by
  simp [BitVec.getMsbD, h]

/-- The common-prefix test on words: shifting the host part out of the difference leaves zero. -/
theorem xor_shift_eq_zero_iff (hn : n ≤ w) :
    (x ^^^ y) >>> (w - n) = 0#w ↔ y.getMsbD ∈ cylinder x.getMsbD n := by
  constructor
  · intro h i hi
    have hbit : ((x ^^^ y) >>> (w - n)).getLsbD (n - 1 - i) = false := by rw [h]; simp
    rw [BitVec.getLsbD_ushiftRight, show w - n + (n - 1 - i) = w - 1 - i by omega,
      BitVec.getLsbD_xor] at hbit
    have hiw : i < w := by omega
    simp only [BitVec.getMsbD, hiw, decide_true, Bool.true_and]
    revert hbit
    cases x.getLsbD (w - 1 - i) <;> cases y.getLsbD (w - 1 - i) <;> simp
  · intro h
    apply BitVec.eq_of_getLsbD_eq
    intro j hj
    rw [BitVec.getLsbD_ushiftRight, BitVec.getLsbD_xor]
    by_cases hw : w - n + j < w
    · have hbit := h (w - 1 - (w - n + j)) (by omega)
      have hlt : w - 1 - (w - n + j) < w := by omega
      simp only [BitVec.getMsbD, hlt, decide_true, Bool.true_and,
        show w - 1 - (w - 1 - (w - n + j)) = w - n + j by omega] at hbit
      simp [hbit]
    · rw [BitVec.getLsbD_of_ge _ _ (by omega), BitVec.getLsbD_of_ge _ _ (by omega)]
      simp

/-- The word `x` with bit `n`, counted from the top, set. -/
def setBit (x : BitVec w) (n : ℕ) : BitVec w := x ||| (BitVec.intMin w >>> n)

theorem getMsbD_setBit (hn : n < w) (i : ℕ) :
    (setBit x n).getMsbD i = (x.getMsbD i || decide (i = n)) := by
  rw [setBit, BitVec.getMsbD_or, BitVec.getMsbD_ushiftRight, BitVec.getMsbD_intMin]
  congr 1
  by_cases h : i = n
  · simp [h, hn, show 0 < w by omega]
  · by_cases hlt : i < n
    · simp [hlt, h]
    · have hne : i - n ≠ 0 := by omega
      simp [h, hne]

theorem setBit_mem_cylinder (hn : n < w) : (setBit x n).getMsbD ∈ cylinder x.getMsbD n := by
  intro i hi
  rw [getMsbD_setBit hn]
  simp [show i ≠ n by omega]

theorem setBit_ne (hn : n < w) (hx : HostZero n x.getMsbD) :
    (setBit x n).getMsbD n ≠ x.getMsbD n := by
  rw [getMsbD_setBit hn, hx n le_rfl]
  simp

theorem hostZero_setBit (hn : n < w) (hx : HostZero n x.getMsbD) :
    HostZero (n + 1) (setBit x n).getMsbD := by
  intro i hi
  rw [getMsbD_setBit hn, hx i (by omega)]
  simp [show i ≠ n by omega]

/-- The word `x` with bit `n`, counted from the top, inverted. -/
def flipBit (x : BitVec w) (n : ℕ) : BitVec w := x ^^^ (BitVec.intMin w >>> n)

theorem getMsbD_flipBit (hn : n < w) (i : ℕ) :
    (flipBit x n).getMsbD i = (x.getMsbD i ^^ decide (i = n)) := by
  have hbit := getMsbD_setBit (x := 0#w) hn i
  rw [setBit, BitVec.zero_or, BitVec.getMsbD_zero, Bool.false_or] at hbit
  rw [flipBit, BitVec.getMsbD_xor, hbit]

/-- Words order by their highest bits, so more bits make no smaller word. -/
theorem toNat_le_of_getMsbD (h : ∀ i < w, x.getMsbD i = true → y.getMsbD i = true) :
    x.toNat ≤ y.toNat := by
  have hand : x &&& y = x := by
    apply BitVec.eq_of_getMsbD_eq
    intro i hi
    rw [BitVec.getMsbD_and]
    have := h i hi
    cases hx : x.getMsbD i <;> simp_all
  rw [← hand, BitVec.toNat_and]
  exact Nat.and_le_right

/-- Words share a prefix when they are equal without their last bits. -/
theorem mem_cylinder_iff_div (hn : n ≤ w) :
    y.getMsbD ∈ cylinder x.getMsbD n ↔ y.toNat / 2 ^ (w - n) = x.toNat / 2 ^ (w - n) := by
  rw [← xor_shift_eq_zero_iff hn, BitVec.ushiftRight_xor_distrib, BitVec.xor_eq_zero_iff,
    ← BitVec.toNat_inj, BitVec.toNat_ushiftRight, BitVec.toNat_ushiftRight,
    Nat.shiftRight_eq_div_pow, Nat.shiftRight_eq_div_pow]
  exact eq_comm

end Words

end BitPrefix
