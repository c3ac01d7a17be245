import Mathlib.Data.Nat.ModEq

/-!
# Ones-complement sums

Addition of words in which the carry out of the top bit is added back in. The sum of a list of words
is the residue of the total of their numbers (`toNat_sum`), so the carries of a total may be added
back at any time (`residue_fold`), and a list with the complement of its sum in the place of a zero
has the sum of a word of ones (`not_sum_set`).
-/

namespace OnesComplement

/-! ## Residues -/

/-- Zero for zero, and otherwise the number from `1` to `m` that is congruent to `n`. -/
def residue (m n : ℕ) : ℕ := if n = 0 then 0 else (n - 1) % m + 1

section Residue

variable {m n a b : ℕ}

@[simp] theorem residue_zero (m : ℕ) : residue m 0 = 0 := rfl

theorem residue_of_pos (h : 0 < n) : residue m n = (n - 1) % m + 1 := if_neg (Nat.ne_of_gt h)

theorem residue_le (hm : 0 < m) (n : ℕ) : residue m n ≤ m := by
  rw [residue]
  split
  · exact Nat.zero_le m
  · exact Nat.mod_lt _ hm

theorem residue_eq_zero : residue m n = 0 ↔ n = 0 := by
  rw [residue]
  split <;> simp_all

theorem residue_modEq (m n : ℕ) : residue m n ≡ n [MOD m] := by
  rcases Nat.eq_zero_or_pos n with rfl | hn
  · rfl
  · rw [residue_of_pos hn]
    calc (n - 1) % m + 1 ≡ n - 1 + 1 [MOD m] := (Nat.mod_modEq (n - 1) m).add_right 1
      _ = n := Nat.sub_add_cancel hn

theorem residue_congr (h : a ≡ b [MOD m]) (h0 : a = 0 ↔ b = 0) : residue m a = residue m b := by
  rcases Nat.eq_zero_or_pos a with rfl | ha
  · rw [h0.mp rfl]
  · have hb : 0 < b := Nat.pos_of_ne_zero fun hb => Nat.ne_of_gt ha (h0.mpr hb)
    have hpred : a - 1 ≡ b - 1 [MOD m] := by
      apply Nat.ModEq.add_right_cancel' 1
      rwa [Nat.sub_add_cancel ha, Nat.sub_add_cancel hb]
    rw [residue_of_pos ha, residue_of_pos hb, hpred]

theorem residue_of_le (h : n ≤ m) : residue m n = n := by
  rcases Nat.eq_zero_or_pos n with rfl | hn
  · rfl
  · rw [residue_of_pos hn, Nat.mod_eq_of_lt (by omega), Nat.sub_add_cancel hn]

theorem residue_add (m a b : ℕ) : residue m (residue m a + b) = residue m (a + b) := by
  apply residue_congr ((residue_modEq m a).add_right b)
  rw [Nat.add_eq_zero_iff, Nat.add_eq_zero_iff, residue_eq_zero]

theorem residue_of_dvd (hn : 0 < n) (h : m ∣ n) : residue m n = m := by
  obtain ⟨k, rfl⟩ := h
  have hm : 0 < m := Nat.pos_of_mul_pos_right hn
  have hself : residue m m = m := residue_of_le le_rfl
  conv_rhs => rw [← hself]
  apply residue_congr
  · exact (Nat.modEq_zero_iff_dvd.mpr (Nat.dvd_mul_right m k)).trans
      (Nat.modEq_zero_iff_dvd.mpr (Nat.dvd_refl m)).symm
  · exact iff_of_false (Nat.ne_of_gt hn) (Nat.ne_of_gt hm)

/-- With what its residue lacks of `m`, a total has the residue `m`. -/
theorem residue_add_sub (hm : 0 < m) (n : ℕ) : residue m (n + (m - residue m n)) = m := by
  have hle := residue_le hm n
  apply residue_of_dvd
  · rcases Nat.eq_zero_or_pos n with rfl | hn
    · rw [residue_zero]
      omega
    · omega
  · rw [← Nat.modEq_zero_iff_dvd]
    calc n + (m - residue m n) ≡ residue m n + (m - residue m n) [MOD m] :=
          ((residue_modEq m n).symm).add_right _
      _ = m := Nat.add_sub_cancel' hle
      _ ≡ 0 [MOD m] := Nat.modEq_zero_iff_dvd.mpr (Nat.dvd_refl m)

/-- The carries of a total added back in: what is above the low `w` bits goes to them. -/
theorem residue_fold (w n : ℕ) :
    residue (2 ^ w - 1) (n / 2 ^ w + n % 2 ^ w) = residue (2 ^ w - 1) n := by
  have hsplit := Nat.div_add_mod n (2 ^ w)
  have hone : 2 ^ w ≡ 1 [MOD 2 ^ w - 1] :=
    ((Nat.modEq_iff_dvd' (Nat.one_le_two_pow)).mpr (Nat.dvd_refl _)).symm
  apply residue_congr
  · calc n / 2 ^ w + n % 2 ^ w = 1 * (n / 2 ^ w) + n % 2 ^ w := by rw [Nat.one_mul]
      _ ≡ 2 ^ w * (n / 2 ^ w) + n % 2 ^ w [MOD 2 ^ w - 1] :=
        (hone.symm.mul_right _).add_right _
      _ = n := hsplit
  · constructor
    · intro h
      rw [Nat.add_eq_zero_iff] at h
      rw [← hsplit, h.1, h.2, Nat.mul_zero]
    · rintro rfl
      rw [Nat.zero_div, Nat.zero_mod]

/-- A total with one carry at most is its residue once that carry is added. -/
theorem add_carry_mod {w : ℕ} (h : n < 2 ^ (w + 1) - 1) :
    (n + n / 2 ^ w) % 2 ^ w = residue (2 ^ w - 1) n := by
  have hpow : 2 ^ (w + 1) = 2 ^ w + 2 ^ w := by rw [Nat.pow_succ, Nat.mul_two]
  rcases Nat.lt_or_ge n (2 ^ w) with hn | hn
  · rw [Nat.div_eq_of_lt hn, Nat.add_zero, Nat.mod_eq_of_lt hn, residue_of_le (by omega)]
  · have hcarry : n / 2 ^ w = 1 := Nat.div_eq_of_lt_le (by omega) (by omega)
    have hlow : n + 1 = n - (2 ^ w - 1) + 2 ^ w := by omega
    have hpred : n - 1 = n - 2 ^ w + (2 ^ w - 1) := by omega
    rw [hcarry, hlow, Nat.add_mod_right, Nat.mod_eq_of_lt (by omega), residue_of_pos (by omega),
      hpred, Nat.add_mod_right, Nat.mod_eq_of_lt (by omega)]
    omega

end Residue

/-! ## Words -/

section Words

variable {w : ℕ}

/-- The sum of two words, with its carry added back in. -/
def add (x y : BitVec w) : BitVec w :=
  if x.toNat + y.toNat < 2 ^ w then x + y else x + y + 1#w

def sum (xs : List (BitVec w)) : BitVec w := xs.foldl add 0#w

theorem toNat_add (x y : BitVec w) :
    (add x y).toNat = residue (2 ^ w - 1) (x.toNat + y.toNat) := by
  have hx := x.isLt
  have hy := y.isLt
  rw [add]
  split
  case isTrue h =>
    rw [BitVec.toNat_add, Nat.mod_eq_of_lt h, residue_of_le (by omega)]
  case isFalse h =>
    have hcarry : x.toNat + y.toNat - 1 = x.toNat + y.toNat - 2 ^ w + (2 ^ w - 1) := by omega
    have hsum : (x.toNat + y.toNat) % 2 ^ w = x.toNat + y.toNat - 2 ^ w := by
      rw [Nat.mod_eq_sub_mod (by omega), Nat.mod_eq_of_lt (by omega)]
    have hone : (1#w).toNat = 1 := by
      rw [BitVec.toNat_ofNat, Nat.mod_eq_of_lt (by omega)]
    rw [BitVec.toNat_add, BitVec.toNat_add, hsum, residue_of_pos (by omega), hcarry,
      Nat.add_mod_right, Nat.mod_eq_of_lt (by omega : x.toNat + y.toNat - 2 ^ w < 2 ^ w - 1)]
    rw [hone, Nat.mod_eq_of_lt (by omega)]

theorem toNat_foldl_add (xs : List (BitVec w)) (acc : BitVec w) :
    (xs.foldl add acc).toNat =
      residue (2 ^ w - 1) (acc.toNat + (xs.map BitVec.toNat).sum) := by
  induction xs generalizing acc with
  | nil => exact (residue_of_le (Nat.le_sub_one_of_lt acc.isLt)).symm
  | cons x xs ih =>
    rw [List.foldl_cons, ih, toNat_add, residue_add, List.map_cons, List.sum_cons, Nat.add_assoc]

theorem toNat_sum (xs : List (BitVec w)) :
    (sum xs).toNat = residue (2 ^ w - 1) (xs.map BitVec.toNat).sum := by
  rw [sum, toNat_foldl_add, BitVec.toNat_zero, Nat.zero_add]

theorem sum_map_set {xs : List (BitVec w)} {i : ℕ} (h : xs[i]? = some 0#w) (c : BitVec w) :
    ((xs.set i c).map BitVec.toNat).sum = (xs.map BitVec.toNat).sum + c.toNat := by
  induction xs generalizing i with
  | nil => cases h
  | cons x xs ih =>
    cases i with
    | zero =>
      obtain rfl : x = 0#w := by simpa using h
      simp [Nat.add_comm]
    | succ i =>
      have htail := ih (i := i) (by simpa using h)
      simp only [List.set_cons_succ, List.map_cons, List.sum_cons, htail]
      omega

/-- A list with the complement of its sum in place of a zero has the complement zero. -/
theorem not_sum_set {xs : List (BitVec w)} {i : ℕ} (h : xs[i]? = some 0#w) :
    ~~~ sum (xs.set i (~~~ sum xs)) = 0#w := by
  cases w with
  | zero => exact Subsingleton.elim _ _
  | succ w =>
    have hm : 0 < 2 ^ (w + 1) - 1 := by
      have := Nat.one_lt_two_pow (Nat.succ_ne_zero w)
      omega
    apply BitVec.eq_of_toNat_eq
    rw [BitVec.toNat_not, toNat_sum, sum_map_set h, BitVec.toNat_not, toNat_sum,
      residue_add_sub hm, Nat.sub_self, BitVec.toNat_zero]

end Words

end OnesComplement
