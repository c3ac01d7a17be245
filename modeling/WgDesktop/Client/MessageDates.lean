import WgDesktop.Lib.Calendar

/-!
# Dates of messages

`Localizer::formatDate` of `src/localizer.cpp`: a message of today shows its time, one of yesterday
the word for it, one of this week the name of the day, and any other its date. The comparison of
days looks at their numbers in the year and never at the year, so a message of another year may be
shown as one of yesterday (`formatDate_eq_iff`).
-/

namespace WgDesktop

open Calendar

/-- How far the clocks of a zone are ahead, in milliseconds, at a moment. -/
abbrev Zone := ℤ → ℤ

/-- `QDateTime`: a moment, in milliseconds from the beginning of 1970, read in a zone. -/
structure QDateTime (zone : Zone) where
  msecs : ℤ
  deriving DecidableEq

namespace QDateTime

variable {zone : Zone}

def localMSecs (t : QDateTime zone) : ℤ := t.msecs + zone t.msecs

/-- The day, as the calendar numbers it. -/
def date (t : QDateTime zone) : ℤ := firstDay 1970 + t.localMSecs / 86400000

/-- The time of day, in milliseconds. -/
def time (t : QDateTime zone) : ℤ := t.localMSecs % 86400000

/-- The seconds from `t` to `other`, rounded towards zero. -/
def secsTo (t other : QDateTime zone) : ℤ := (other.msecs - t.msecs).tdiv 1000

end QDateTime

/-- `QDate::dayOfWeek`, from 1 for Monday. The Julian day 0 was a Monday. -/
def dayOfWeek (date : ℤ) : ℤ := (date + 1721060) % 7 + 1

namespace Localizer

/-- The texts of the locales: a time and a date in their short form, and the name of a day. -/
structure Texts where
  time : ℤ → List Char
  date : ℤ → List Char
  dayName : ℤ → List Char

variable {zone : Zone}

/-- The condition of the branch for today. -/
def IsToday (nowDateTime messageDateTime : QDateTime zone) : Prop :=
  messageDateTime.secsTo nowDateTime < 86400 ∧ messageDateTime.time ≤ nowDateTime.time

/-- The condition of the branch for yesterday. -/
def IsYesterday (nowDateTime messageDateTime : QDateTime zone) : Prop :=
  dayOfYear messageDateTime.date = dayOfYear nowDateTime.date - 1 ∨
    dayOfYear nowDateTime.date = 1 ∧
      dayOfYear messageDateTime.date = lengthOfYear (year messageDateTime.date)

instance (now message : QDateTime zone) : Decidable (IsToday now message) :=
  inferInstanceAs (Decidable (_ ∧ _))

instance (now message : QDateTime zone) : Decidable (IsYesterday now message) :=
  inferInstanceAs (Decidable (_ ∨ _))

def formatDate (T : Texts) (nowDateTime messageDateTime : QDateTime zone)
    (yesterday : List Char) : List Char :=
  if messageDateTime.secsTo nowDateTime < 0 then T.time nowDateTime.time
  else if IsToday nowDateTime messageDateTime then T.time messageDateTime.time
  else if IsYesterday nowDateTime messageDateTime then yesterday
  else if messageDateTime.date ≥ nowDateTime.date + -6 then
    T.dayName (dayOfWeek messageDateTime.date)
  else T.date messageDateTime.date

/-- The text that the calendar asks for. -/
def calendarText (T : Texts) (now message : QDateTime zone) (yesterday : List Char) : List Char :=
  if message.date = now.date then T.time message.time
  else if message.date = now.date - 1 then yesterday
  else if now.date - 6 ≤ message.date ∧ message.date ≤ now.date - 2 then
    T.dayName (dayOfWeek message.date)
  else T.date message.date

/-! ## When they agree -/

/-- The clocks of the zone tell the days apart: they are not set back past the message, no more
than 24 hours pass within a day, and 24 hours pass until the time of day of the message comes
again. -/
structure ClocksAgree (now message : QDateTime zone) : Prop where
  date_le : message.date ≤ now.date
  sameDay : message.date = now.date → message.secsTo now < 86400 ∧ message.time ≤ now.time
  laterDay : message.date < now.date → message.time ≤ now.time → 86400 ≤ message.secsTo now

/-- Days that follow each other by their numbers do so by their years. -/
def YearsAgree (now message : QDateTime zone) : Prop :=
  (dayOfYear message.date = dayOfYear now.date - 1 → year message.date = year now.date) ∧
    (dayOfYear now.date = 1 → dayOfYear message.date = lengthOfYear (year message.date) →
      year message.date = year now.date - 1)

variable {now message : QDateTime zone}

theorem secsTo_nonneg (h : message.msecs ≤ now.msecs) : 0 ≤ message.secsTo now :=
  Int.tdiv_nonneg (by omega) (by decide)

/-- Where the clocks are not changed in between, they tell the days apart. -/
theorem clocksAgree_of_offset (h : message.msecs ≤ now.msecs)
    (hzone : zone message.msecs = zone now.msecs) : ClocksAgree now message := by
  have hsecs : message.secsTo now = (now.msecs - message.msecs) / 1000 :=
    Int.tdiv_eq_ediv_of_nonneg (by omega)
  have hlocal : now.localMSecs - message.localMSecs = now.msecs - message.msecs := by
    rw [QDateTime.localMSecs, QDateTime.localMSecs, hzone]
    omega
  refine ⟨?_, fun hsame => ?_, fun hlater htime => ?_⟩
  · unfold QDateTime.date
    omega
  · unfold QDateTime.date at hsame
    unfold QDateTime.time
    omega
  · unfold QDateTime.date at hlater
    unfold QDateTime.time at htime
    omega

theorem ClocksAgree.isToday_iff (h : ClocksAgree now message) :
    IsToday now message ↔ message.date = now.date := by
  refine ⟨fun ⟨hsecs, htime⟩ => ?_, h.sameDay⟩
  by_contra hne
  have := h.laterDay (lt_of_le_of_ne h.date_le hne) htime
  omega

theorem isYesterday_iff (h : YearsAgree now message) :
    IsYesterday now message ↔ message.date = now.date - 1 := by
  constructor
  · rintro (hnumber | ⟨hfirst, hlast⟩)
    · exact (eq_pred_iff_year hnumber).mpr (h.1 hnumber)
    · exact (eq_pred_iff_year_pred hfirst hlast).mpr (h.2 hfirst hlast)
  · intro heq
    rw [IsYesterday, heq]
    exact dayOfYear_pred now.date

theorem yearsAgree_iff :
    YearsAgree now message ↔ (IsYesterday now message → message.date = now.date - 1) := by
  refine ⟨fun h => (isYesterday_iff h).mp, fun h => ⟨fun hnumber => ?_, fun hfirst hlast => ?_⟩⟩
  · exact (eq_pred_iff_year hnumber).mp (h (Or.inl hnumber))
  · exact (eq_pred_iff_year_pred hfirst hlast).mp (h (Or.inr ⟨hfirst, hlast⟩))

theorem not_isYesterday_self (h : message.date = now.date) : ¬IsYesterday now message := by
  rw [IsYesterday, h]
  rintro (hnumber | ⟨hfirst, hlast⟩)
  · omega
  · rw [hfirst, lengthOfYear] at hlast
    split_ifs at hlast
    · omega
    · omega

/-- Texts that tell the branches apart. -/
def branchNames : Texts where
  time _ := ['t']
  date _ := ['d']
  dayName _ := ['n']

theorem agree_of_branchNames (hsecs : ¬message.secsTo now < 0)
    (h : formatDate branchNames now message ['y'] = calendarText branchNames now message ['y']) :
    ClocksAgree now message ∧ YearsAgree now message := by
  rw [formatDate, if_neg hsecs, calendarText] at h
  dsimp only [branchNames] at h
  rw [yearsAgree_iff]
  by_cases htoday : IsToday now message
  · rw [if_pos htoday] at h
    have hsame : message.date = now.date := by
      by_contra hne
      rw [if_neg hne] at h
      split_ifs at h <;> exact absurd h (by decide)
    exact ⟨⟨hsame.le, fun _ => htoday, fun hlt => absurd hsame hlt.ne⟩,
      fun hy => absurd hy (not_isYesterday_self hsame)⟩
  · have hne : message.date ≠ now.date := by
      intro hsame
      rw [if_neg htoday, if_pos hsame] at h
      split_ifs at h <;> exact absurd h (by decide)
    have hlater : message.time ≤ now.time → 86400 ≤ message.secsTo now := fun htime =>
      not_lt.mp fun hlt => htoday ⟨hlt, htime⟩
    have hclocks (hle : message.date ≤ now.date) : ClocksAgree now message :=
      ⟨hle, fun hsame => absurd hsame hne, fun _ => hlater⟩
    rw [if_neg htoday, if_neg hne] at h
    by_cases hy : IsYesterday now message
    · have hprev : message.date = now.date - 1 := by
        by_contra hnot
        rw [if_pos hy, if_neg hnot] at h
        split_ifs at h <;> exact absurd h (by decide)
      exact ⟨hclocks (by omega), fun _ => hprev⟩
    · refine ⟨hclocks (not_lt.mp fun hgt => ?_), fun hyes => absurd hyes hy⟩
      rw [if_neg hy, if_pos (by omega), if_neg (by omega), if_neg (by omega)] at h
      exact absurd h (by decide)

/-- **The exact condition.** For a message that is not later than now, in any zone, the text is the
one of the calendar in all languages if and only if clocks and years agree. -/
theorem formatDate_eq_iff (h : message.msecs ≤ now.msecs) :
    (∀ T yesterday, formatDate T now message yesterday = calendarText T now message yesterday) ↔
      ClocksAgree now message ∧ YearsAgree now message := by
  have hsecs : ¬message.secsTo now < 0 := not_lt.mpr (secsTo_nonneg h)
  refine ⟨fun heq => agree_of_branchNames hsecs (heq branchNames ['y']), ?_⟩
  rintro ⟨hclocks, hyears⟩ T yesterday
  have hle := hclocks.date_le
  have htoday := hclocks.isToday_iff
  have hyesterday := isYesterday_iff hyears
  rw [formatDate, if_neg hsecs, calendarText]
  by_cases hsame : message.date = now.date
  · rw [if_pos (htoday.mpr hsame), if_pos hsame]
  · rw [if_neg (mt htoday.mp hsame), if_neg hsame]
    by_cases hprev : message.date = now.date - 1
    · rw [if_pos (hyesterday.mpr hprev), if_pos hprev]
    · rw [if_neg (mt hyesterday.mp hprev), if_neg hprev]
      exact if_congr (by omega) rfl rfl

/-- Midnight at the beginning of a day, by clocks that are never ahead. -/
def atMidnight (date : ℤ) : QDateTime (fun _ => 0) := ⟨(date - firstDay 1970) * 86400000⟩

/-- The last of February 2024, seen from the day after. -/
theorem formatDate_leapDay :
    formatDate branchNames (atMidnight (firstDay 2024 + 60)) (atMidnight (firstDay 2024 + 59))
        ['y'] =
      calendarText branchNames (atMidnight (firstDay 2024 + 60)) (atMidnight (firstDay 2024 + 59))
        ['y'] := by
  have hle : (atMidnight (firstDay 2024 + 59)).msecs ≤ (atMidnight (firstDay 2024 + 60)).msecs := by
    decide
  exact (formatDate_eq_iff hle).mpr ⟨clocksAgree_of_offset hle rfl, by decide, by decide⟩
    branchNames ['y']

/-- On the second of March 2024 a message of the same day in 2023 is one of yesterday. -/
theorem formatDate_yearAgo :
    ¬∀ T yesterday,
      formatDate T (atMidnight (firstDay 2024 + 61)) (atMidnight (firstDay 2023 + 60)) yesterday =
        calendarText T (atMidnight (firstDay 2024 + 61)) (atMidnight (firstDay 2023 + 60))
          yesterday := by
  intro h
  exact absurd (h branchNames ['y']) (by decide)

end Localizer

end WgDesktop
