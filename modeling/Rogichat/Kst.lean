import Mathlib.Algebra.Order.Ring.Int

/-!
# The days of KST

Instants are milliseconds since 1970, and days are numbered from the first one of that year.
-/

namespace Rogichat

/-- The milliseconds of a day; Korea has no days of another length. -/
def MS_PER_DAY : Int := 1000 * 60 * 60 * 24

/-- Korean time is nine hours ahead of UTC all year. -/
def KST_OFFSET_MS : Int := 9 * 60 * 60 * 1000

/-- The day of an instant in Korea, counted from 1 January 1970. -/
def kstDay (date : Int) : Int := (date + KST_OFFSET_MS) / MS_PER_DAY

/-- The instant at which a day begins in Korea. -/
def kstMidnight (day : Int) : Int := day * MS_PER_DAY - KST_OFFSET_MS

/-- A day's midnight lies on that day. -/
@[simp] theorem kstDay_kstMidnight (day : Int) : kstDay (kstMidnight day) = day := by
  unfold kstDay kstMidnight MS_PER_DAY
  omega

/-- Midnights are ordered as their days. -/
theorem kstMidnight_lt {day day' : Int} : kstMidnight day < kstMidnight day' ↔ day < day' := by
  unfold kstMidnight MS_PER_DAY
  omega

theorem kstMidnight_le {day day' : Int} : kstMidnight day ≤ kstMidnight day' ↔ day ≤ day' := by
  unfold kstMidnight MS_PER_DAY
  omega

/-- Different days have different midnights. -/
theorem kstMidnight_inj {day day' : Int} : kstMidnight day = kstMidnight day' ↔ day = day' := by
  unfold kstMidnight MS_PER_DAY
  omega

theorem kstMidnight_sub (day day' : Int) :
    kstMidnight day - kstMidnight day' = (day - day') * MS_PER_DAY := by
  unfold kstMidnight
  rw [Int.sub_mul]
  omega

/-- Whole days after a midnight it is midnight again. -/
theorem kstMidnight_add (day n : Int) :
    kstMidnight day + n * MS_PER_DAY = kstMidnight (day + n) := by
  unfold kstMidnight
  rw [Int.add_mul]
  omega

/-- The division of two midnights' distance is exact, so the source's rounding changes nothing. -/
theorem days_between (day day' : Int) :
    (kstMidnight day - kstMidnight day') / MS_PER_DAY = day - day' := by
  rw [kstMidnight_sub]
  exact Int.mul_ediv_cancel _ (by decide)

/-- A later instant is on no earlier day. -/
theorem kstDay_mono {date date' : Int} (h : date ≤ date') : kstDay date ≤ kstDay date' := by
  unfold kstDay MS_PER_DAY
  omega

end Rogichat
