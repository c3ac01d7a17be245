import Mathlib.Order.Basic
import Mathlib.Algebra.Order.Ring.Int

/-!
# The Gregorian calendar

Days are numbered from the first of January of the year 0, in both directions, and years as in
astronomy, with a year 0. A day lies in exactly one year (`year_eq_iff`); the day before one has the
number before it in the year, or is the last of the year before (`dayOfYear_pred`), and the years
tell when it is the other way round (`eq_pred_iff_year`, `eq_pred_iff_year_pred`).
-/

namespace Calendar

def Leap (y : ℤ) : Prop := y % 4 = 0 ∧ y % 100 ≠ 0 ∨ y % 400 = 0

instance (y : ℤ) : Decidable (Leap y) := inferInstanceAs (Decidable (_ ∨ _))

/-- The number of the first of January. -/
def firstDay (y : ℤ) : ℤ := 365 * y + (y + 3) / 4 - (y + 99) / 100 + (y + 399) / 400

/-- The year of a day: the mean length of a year gives it up to one. -/
def year (d : ℤ) : ℤ :=
  let y := 400 * d / 146097
  if firstDay (y + 1) ≤ d then y + 1 else if d < firstDay y then y - 1 else y

def lengthOfYear (y : ℤ) : ℤ := if Leap y then 366 else 365

def dayOfYear (d : ℤ) : ℤ := d - firstDay (year d) + 1

theorem firstDay_succ (y : ℤ) : firstDay (y + 1) = firstDay y + lengthOfYear y := by
  unfold firstDay lengthOfYear Leap
  split_ifs with h
  · omega
  · omega

theorem lengthOfYear_pos (y : ℤ) : 0 < lengthOfYear y := by
  unfold lengthOfYear
  split_ifs
  · decide
  · decide

theorem firstDay_lt_firstDay {y z : ℤ} : firstDay y < firstDay z ↔ y < z := by
  have hmono : StrictMono firstDay := strictMono_int_of_lt_succ fun y => by
    have hpos := lengthOfYear_pos y
    rw [firstDay_succ]
    omega
  exact hmono.lt_iff_lt

theorem firstDay_bounds (y : ℤ) :
    146097 * y - 400 ≤ 400 * firstDay y ∧ 400 * firstDay y ≤ 146097 * y + 700 := by
  unfold firstDay
  constructor
  · omega
  · omega

theorem year_spec (d : ℤ) : firstDay (year d) ≤ d ∧ d < firstDay (year d + 1) := by
  have hprev := firstDay_bounds (400 * d / 146097 - 1)
  have hnext := firstDay_bounds (400 * d / 146097 + 1 + 1)
  have hsame : 400 * d / 146097 - 1 + 1 = 400 * d / 146097 := by omega
  unfold year
  dsimp only
  split_ifs with hlate hearly
  · exact ⟨hlate, by omega⟩
  · rw [hsame]
    exact ⟨by omega, hearly⟩
  · exact ⟨not_lt.mp hearly, not_le.mp hlate⟩

theorem year_eq_iff {d y : ℤ} : year d = y ↔ firstDay y ≤ d ∧ d < firstDay (y + 1) := by
  refine ⟨fun h => h ▸ year_spec d, fun ⟨hle, hlt⟩ => ?_⟩
  obtain ⟨hle', hlt'⟩ := year_spec d
  have h₁ := firstDay_lt_firstDay.mp (hle.trans_lt hlt')
  have h₂ := firstDay_lt_firstDay.mp (hle'.trans_lt hlt)
  omega

theorem dayOfYear_pos (d : ℤ) : 1 ≤ dayOfYear d := by
  have h := (year_spec d).1
  unfold dayOfYear
  omega

theorem dayOfYear_pred (d : ℤ) :
    dayOfYear (d - 1) = dayOfYear d - 1 ∨
      dayOfYear d = 1 ∧ dayOfYear (d - 1) = lengthOfYear (year (d - 1)) := by
  obtain ⟨hle, hlt⟩ := year_spec d
  by_cases hfirst : firstDay (year d) ≤ d - 1
  · have hyear : year (d - 1) = year d := year_eq_iff.mpr ⟨hfirst, by omega⟩
    left
    rw [dayOfYear, dayOfYear, hyear]
    omega
  · have hsucc := firstDay_succ (year d - 1)
    have hpos := lengthOfYear_pos (year d - 1)
    rw [Int.sub_add_cancel] at hsucc
    have hyear : year (d - 1) = year d - 1 :=
      year_eq_iff.mpr ⟨by omega, by rw [Int.sub_add_cancel]; omega⟩
    right
    rw [dayOfYear, dayOfYear, hyear]
    omega

/-- A day that has the number before it in its year is the day before if the year is the same. -/
theorem eq_pred_iff_year {d e : ℤ} (h : dayOfYear e = dayOfYear d - 1) :
    e = d - 1 ↔ year e = year d := by
  constructor
  · rintro rfl
    have hpos := dayOfYear_pos (d - 1)
    obtain ⟨-, hlt⟩ := year_spec d
    rw [h, dayOfYear] at hpos
    exact year_eq_iff.mpr ⟨by omega, by omega⟩
  · intro hyear
    rw [dayOfYear, dayOfYear, hyear] at h
    omega

/-- The last day of a year is the day before the first of January of the next. -/
theorem eq_pred_iff_year_pred {d e : ℤ} (hd : dayOfYear d = 1)
    (he : dayOfYear e = lengthOfYear (year e)) : e = d - 1 ↔ year e = year d - 1 := by
  have hsucc := firstDay_succ (year e)
  rw [dayOfYear] at hd he
  constructor
  · intro heq
    have hfirst : firstDay (year e + 1) = firstDay (year d) := by omega
    have hle := mt firstDay_lt_firstDay.mpr hfirst.not_lt
    have hge := mt firstDay_lt_firstDay.mpr hfirst.not_gt
    omega
  · intro hyear
    rw [show year e + 1 = year d by omega] at hsucc
    omega

end Calendar
