import Mathlib.Data.List.Basic

/-!
# The last elements of a growing list

Elements are numbered in the order they come, from zero on, and the list has the latest one first.
A ring of `k` places keeps the latest element of each residue (`latest k`), and where the numbers
are cut off at a multiple `m` of `k`, `latest_iff` says when the element in the ring is the one that
a number means.
-/

namespace Window

variable {α : Type*}

/-- The latest element whose number leaves `r`, and its number. -/
def latest (k r : ℕ) : List α → Option (ℕ × α)
  | [] => none
  | x :: l => if l.length % k = r then some (l.length, x) else latest k r l

/-- Change the latest element whose number leaves `r`. -/
def modifyLatest (k r : ℕ) (f : α → α) : List α → List α
  | [] => []
  | x :: l => if l.length % k = r then f x :: l else x :: modifyLatest k r f l

variable {k m r s n : ℕ} {l : List α} {x : α} {f : α → α}

@[simp] theorem length_modifyLatest (k r : ℕ) (f : α → α) (l : List α) :
    (modifyLatest k r f l).length = l.length := by
  induction l with
  | nil => rfl
  | cons y l ih =>
    rw [modifyLatest]
    split
    · rfl
    · rw [List.length_cons, ih, List.length_cons]

theorem latest_spec (hk : 0 < k) (h : latest k r l = some (n, x)) :
    n < l.length ∧ n % k = r ∧ l.length ≤ n + k := by
  induction l with
  | nil => cases h
  | cons y l ih =>
    rw [latest] at h
    rw [List.length_cons]
    split at h
    case isTrue hr =>
      rw [Option.some.injEq, Prod.mk.injEq] at h
      obtain ⟨rfl, -⟩ := h
      exact ⟨by omega, hr, by omega⟩
    case isFalse hr =>
      obtain ⟨hlt, hmod, hle⟩ := ih h
      have hne : l.length ≠ n + k := by
        rintro heq
        rw [heq, Nat.add_mod_right] at hr
        exact hr hmod
      exact ⟨by omega, hmod, by omega⟩

theorem latest_eq_none_iff (hr : r < k) : latest k r l = none ↔ l.length ≤ r := by
  induction l with
  | nil => simp [latest]
  | cons y l ih =>
    rw [latest, List.length_cons]
    split
    case isTrue heq =>
      have hle := Nat.mod_le l.length k
      constructor
      · intro h
        cases h
      · intro h
        omega
    case isFalse hne =>
      rw [ih]
      constructor
      · intro h
        by_contra hlt
        obtain rfl : l.length = r := by omega
        exact hne (Nat.mod_eq_of_lt hr)
      · intro h
        omega

theorem mod_ne_of_lt {a b : ℕ} (hlt : a < b) (hclose : b < a + k) : b % k ≠ a % k := by
  intro heq
  have hdvd : k ∣ b - a := Nat.dvd_of_mod_eq_zero (Nat.sub_mod_eq_zero_of_mod_eq heq)
  have hle := Nat.le_of_dvd (by omega) hdvd
  omega

/-- The element in the ring has the number `s` when it is the latest one with this number and one
of the last `k`. -/
theorem latest_iff (hdvd : k ∣ m) (hm : 0 < m) :
    (latest k (s % k) l = some (n, x) ∧ n % m = s) ↔
      (latest m s l = some (n, x) ∧ l.length ≤ n + k) := by
  have hmod : ∀ a, a % m = s → a % k = s % k := by
    rintro a rfl
    exact (Nat.mod_mod_of_dvd a hdvd).symm
  induction l with
  | nil => simp [latest]
  | cons y l ih =>
    have hk : 0 < k := Nat.pos_of_dvd_of_pos hdvd hm
    rw [latest, latest, List.length_cons]
    by_cases hlm : l.length % m = s
    · rw [if_pos (hmod _ hlm), if_pos hlm]
      refine and_congr_right fun h => ?_
      obtain ⟨rfl, -⟩ := Prod.mk.inj (Option.some.inj h)
      exact iff_of_true hlm (by omega)
    rw [if_neg hlm]
    by_cases hlk : l.length % k = s % k
    · rw [if_pos hlk]
      refine iff_of_false ?_ ?_
      · rintro ⟨h, hnm⟩
        obtain ⟨rfl, -⟩ := Prod.mk.inj (Option.some.inj h)
        exact hlm hnm
      · rintro ⟨h, hle⟩
        obtain ⟨hlt, hnm, -⟩ := latest_spec hm h
        exact mod_ne_of_lt hlt (by omega) (hlk.trans (hmod _ hnm).symm)
    · rw [if_neg hlk]
      refine ih.trans (and_congr_right fun h => ?_)
      obtain ⟨hlt, hnm, -⟩ := latest_spec hm h
      have hne : l.length ≠ n + k := by
        rintro heq
        rw [heq, Nat.add_mod_right] at hlk
        exact hlk (hmod _ hnm)
      omega

/-- A change of the element that the number `s` means, seen in the ring. -/
theorem latest_modifyLatest (hdvd : k ∣ m) (hs : latest k (s % k) l = some (n, x))
    (hn : n % m = s) (r : ℕ) :
    latest k r (modifyLatest m s f l) = if r = s % k then some (n, f x) else latest k r l := by
  induction l with
  | nil => cases hs
  | cons y l ih =>
    rw [latest] at hs
    rw [modifyLatest]
    by_cases hlk : l.length % k = s % k
    · rw [if_pos hlk] at hs
      obtain ⟨rfl, rfl⟩ := Prod.mk.inj (Option.some.inj hs)
      rw [if_pos hn, latest, latest, hlk]
      by_cases hr : s % k = r
      · rw [if_pos hr, if_pos hr.symm]
      · rw [if_neg hr, if_neg (Ne.symm hr)]
        rw [if_neg hr]
    · have hlm : l.length % m ≠ s := by
        rintro rfl
        exact hlk (Nat.mod_mod_of_dvd _ hdvd).symm
      rw [if_neg hlk] at hs
      rw [if_neg hlm, latest, length_modifyLatest, ih hs, latest]
      by_cases hr : r = s % k
      · rw [if_pos hr, if_pos hr, if_neg (by rw [hr]; exact hlk)]
      · rw [if_neg hr, if_neg hr]

end Window
