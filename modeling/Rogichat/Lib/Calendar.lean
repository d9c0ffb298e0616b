import Mathlib

/-!
# The calendar

The proleptic Gregorian calendar over day numbers, day 0 being 1 January 1970. A date is a year, a
month and a day; a day past the end of its month runs on into the next one.

* **`civil_valid`**, **`dayNumber_civil`**, **`civil_dayNumber`** — days and valid dates are the
  same thing.
* **`yearOf_eq_iff`** — the days of a year.
-/

namespace Lib.Calendar

/-! ## Splitting into blocks -/

/-- The block of a position and the place in it, for blocks of the given lengths. -/
def locate : List Nat → Nat → Nat × Nat
  | [], i => (0, i)
  | length :: lengths, i =>
    if i < length then (0, i)
    else ((locate lengths (i - length)).1 + 1, (locate lengths (i - length)).2)

theorem locate_lt {lengths : List Nat} {i : Nat} (h : i < lengths.sum) :
    (locate lengths i).2 < lengths.getD (locate lengths i).1 0 := by
  induction lengths generalizing i with
  | nil => exact absurd h (Nat.not_lt_zero i)
  | cons length lengths ih =>
    by_cases hfirst : i < length
    · simp only [locate, if_pos hfirst, List.getD_cons_zero]
      exact hfirst
    · rw [List.sum_cons] at h
      simp only [locate, if_neg hfirst, List.getD_cons_succ]
      apply ih
      omega

theorem sum_locate {lengths : List Nat} {i : Nat} (h : i < lengths.sum) :
    (lengths.take (locate lengths i).1).sum + (locate lengths i).2 = i := by
  induction lengths generalizing i with
  | nil => exact absurd h (Nat.not_lt_zero i)
  | cons length lengths ih =>
    by_cases hfirst : i < length
    · simp only [locate, if_pos hfirst, List.take_zero, List.sum_nil, Nat.zero_add]
    · rw [List.sum_cons] at h
      have := @ih (i - length) (by omega)
      simp only [locate, if_neg hfirst, List.take_succ_cons, List.sum_cons]
      omega

theorem locate_sum {lengths : List Nat} {block place : Nat}
    (hplace : place < lengths.getD block 0) :
    locate lengths ((lengths.take block).sum + place) = (block, place) := by
  induction lengths generalizing block with
  | nil => exact absurd hplace (Nat.not_lt_zero place)
  | cons length lengths ih =>
    cases block with
    | zero =>
      simp only [List.take_zero, List.sum_nil, Nat.zero_add, locate]
      exact if_pos hplace
    | succ block =>
      have hrest := ih hplace
      have hpast : ¬length + (lengths.take block).sum + place < length := by omega
      have hsub : length + (lengths.take block).sum + place - length =
          (lengths.take block).sum + place := by omega
      simp only [List.take_succ_cons, List.sum_cons, locate, if_neg hpast, hsub, hrest]

/-- A place in a block is one in the blocks. -/
theorem sum_take_add_lt {lengths : List Nat} {block place : Nat}
    (hplace : place < lengths.getD block 0) :
    (lengths.take block).sum + place < lengths.sum := by
  induction lengths generalizing block with
  | nil => exact absurd hplace (Nat.not_lt_zero place)
  | cons length lengths ih =>
    cases block with
    | zero =>
      have hplace : place < length := hplace
      simp only [List.take_zero, List.sum_nil, List.sum_cons]
      omega
    | succ block =>
      have := ih hplace
      simp only [List.take_succ_cons, List.sum_cons]
      omega

/-! ## Years -/

/-- A year with a 29 February. -/
def Leap (year : Int) : Prop := year % 4 = 0 ∧ year % 100 ≠ 0 ∨ year % 400 = 0

instance (year : Int) : Decidable (Leap year) := inferInstanceAs (Decidable (_ ∨ _))

/-- The day number of 1 January. -/
def yearStart (year : Int) : Int :=
  365 * (year - 1970) + (year - 1969) / 4 - (year - 1901) / 100 + (year - 1601) / 400

theorem yearStart_succ (year : Int) :
    yearStart (year + 1) = yearStart year + if Leap year then 366 else 365 := by
  unfold yearStart
  split
  · rename_i hleap
    unfold Leap at hleap
    omega
  · rename_i hleap
    unfold Leap at hleap
    omega

theorem yearStart_lt_succ (year : Int) : yearStart year + 365 ≤ yearStart (year + 1) := by
  rw [yearStart_succ]
  split <;> omega

theorem yearStart_strictMono : StrictMono yearStart :=
  strictMono_int_of_lt_succ fun year => by
    have := yearStart_lt_succ year
    omega

/-- The year of a day: the average length of a year gives it but for one. -/
def yearOf (day : Int) : Int :=
  let year := 1970 + 400 * day / 146097
  if day < yearStart year then year - 1
  else if yearStart (year + 1) ≤ day then year + 1
  else year

/-- In units of a four hundredth of a day the years have equal lengths, but for one and a half
days. -/
theorem yearStart_bounds (year : Int) :
    146097 * (year - 1970) - 506 ≤ 400 * yearStart year ∧
      400 * yearStart year ≤ 146097 * (year - 1970) + 589 := by
  unfold yearStart
  omega

theorem yearOf_spec (day : Int) :
    yearStart (yearOf day) ≤ day ∧ day < yearStart (yearOf day + 1) := by
  have hhere := yearStart_bounds (1970 + 400 * day / 146097)
  have hnext := yearStart_bounds (1970 + 400 * day / 146097 + 1)
  unfold yearOf
  simp only
  by_cases hlow : day < yearStart (1970 + 400 * day / 146097)
  · rw [if_pos hlow, sub_add_cancel]
    have hback := yearStart_lt_succ (1970 + 400 * day / 146097 - 1)
    rw [sub_add_cancel] at hback
    omega
  · rw [if_neg hlow]
    by_cases hhigh : yearStart (1970 + 400 * day / 146097 + 1) ≤ day
    · rw [if_pos hhigh]
      have hforth := yearStart_lt_succ (1970 + 400 * day / 146097 + 1)
      omega
    · rw [if_neg hhigh]
      omega

theorem yearOf_eq_iff {day year : Int} :
    yearOf day = year ↔ yearStart year ≤ day ∧ day < yearStart (year + 1) := by
  constructor
  · rintro rfl
    exact yearOf_spec day
  · rintro ⟨hstart, hend⟩
    obtain ⟨hstart', hend'⟩ := yearOf_spec day
    have hle : yearOf day < year + 1 := yearStart_strictMono.lt_iff_lt.mp (by omega)
    have hge : year < yearOf day + 1 := yearStart_strictMono.lt_iff_lt.mp (by omega)
    omega

theorem yearOf_mono {day day' : Int} (h : day ≤ day') : yearOf day ≤ yearOf day' := by
  have hstart := (yearOf_spec day).1
  have hend := (yearOf_spec day').2
  have : yearOf day < yearOf day' + 1 := yearStart_strictMono.lt_iff_lt.mp (by omega)
  omega

/-! ## Dates -/

/-- The lengths of the months. -/
def monthLengths (year : Int) : List Nat :=
  [31, if Leap year then 29 else 28, 31, 30, 31, 30, 31, 31, 30, 31, 30, 31]

theorem sum_monthLengths (year : Int) :
    (monthLengths year).sum = if Leap year then 366 else 365 := by
  unfold monthLengths
  split <;> rfl

/-- The length of a month, and no length where there is no such month. -/
def monthLength (year : Int) (month : Nat) : Nat := (monthLengths year).getD (month - 1) 0

theorem monthLength_february (year : Int) :
    monthLength year 2 = if Leap year then 29 else 28 := rfl

/-- Only February has another length in another year. -/
theorem monthLength_eq {month : Nat} (h : month ≠ 2) (year year' : Int) :
    monthLength year month = monthLength year' month := by
  match month with
  | 0 | 1 => rfl
  | 2 => exact absurd rfl h
  | month + 3 => rfl

/-- Of two years one has at most a day more before a month. -/
theorem sum_take_monthLengths_le (months : Nat) (year year' : Int) :
    ((monthLengths year).take months).sum ≤ ((monthLengths year').take months).sum + 1 := by
  match months with
  | 0 | 1 => exact Nat.le_succ _
  | months + 2 =>
    simp only [monthLengths, List.take_succ_cons, List.sum_cons]
    split <;> split <;> omega

/-- A date, its month and day counted from one. -/
@[ext] structure Civil where
  year : Int
  month : Nat
  day : Nat
  deriving DecidableEq, Repr

/-- The month exists and has the day. -/
structure Civil.Valid (date : Civil) : Prop where
  month : 1 ≤ date.month
  day : 1 ≤ date.day
  last : date.day ≤ monthLength date.year date.month

/-- The day number of a date. -/
def dayNumber (date : Civil) : Int :=
  yearStart date.year + ((monthLengths date.year).take (date.month - 1)).sum + (date.day - 1)

/-- The date of a day. -/
def civil (day : Int) : Civil :=
  let place := locate (monthLengths (yearOf day)) (day - yearStart (yearOf day)).toNat
  { year := yearOf day, month := place.1 + 1, day := place.2 + 1 }

@[simp] theorem civil_year (day : Int) : (civil day).year = yearOf day := rfl

/-- A day stands inside its year. -/
theorem toNat_lt_sum (day : Int) :
    (day - yearStart (yearOf day)).toNat < (monthLengths (yearOf day)).sum := by
  obtain ⟨hstart, hend⟩ := yearOf_spec day
  rw [yearStart_succ] at hend
  rw [sum_monthLengths]
  split at hend <;> simp_all only [if_true, if_false] <;> omega

theorem civil_valid (day : Int) : (civil day).Valid :=
  ⟨Nat.succ_pos _, Nat.succ_pos _, locate_lt (toNat_lt_sum day)⟩

theorem dayNumber_civil (day : Int) : dayNumber (civil day) = day := by
  have hsum := sum_locate (toNat_lt_sum day)
  have hstart := (yearOf_spec day).1
  unfold dayNumber civil
  simp only [Nat.add_sub_cancel]
  omega

/-- The place of a date in its month. -/
theorem Civil.Valid.place {date : Civil} (h : date.Valid) :
    date.day - 1 < (monthLengths date.year).getD (date.month - 1) 0 := by
  have hday := h.day
  have hlast : date.day ≤ (monthLengths date.year).getD (date.month - 1) 0 := h.last
  omega

/-- A valid date is a day of its year. -/
theorem yearOf_dayNumber {date : Civil} (h : date.Valid) : yearOf (dayNumber date) = date.year := by
  have hlength : yearStart (date.year + 1) =
      yearStart date.year + (monthLengths date.year).sum := by
    rw [yearStart_succ, sum_monthLengths]
    split <;> rfl
  have hinside := sum_take_add_lt h.place
  have hday := h.day
  rw [yearOf_eq_iff, hlength]
  unfold dayNumber
  omega

theorem civil_dayNumber {date : Civil} (h : date.Valid) : civil (dayNumber date) = date := by
  have hyear := yearOf_dayNumber h
  have hmonth := h.month
  have hday := h.day
  have hoffset : (dayNumber date - yearStart date.year).toNat =
      ((monthLengths date.year).take (date.month - 1)).sum + (date.day - 1) := by
    unfold dayNumber
    omega
  unfold civil
  rw [hyear, hoffset, locate_sum h.place]
  obtain ⟨year, month, day⟩ := date
  simp only [Civil.mk.injEq, true_and]
  exact ⟨Nat.sub_add_cancel hmonth, Nat.sub_add_cancel hday⟩

theorem dayNumber_eq_iff {date : Civil} (h : date.Valid) {day : Int} :
    day = dayNumber date ↔ civil day = date := by
  constructor
  · rintro rfl
    exact civil_dayNumber h
  · rintro rfl
    exact (dayNumber_civil day).symm

/-- A day more. -/
theorem dayNumber_succ (year : Int) (month day : Nat) :
    dayNumber ⟨year, month, day + 1⟩ = dayNumber ⟨year, month, day⟩ + 1 := by
  simp only [dayNumber, Nat.cast_succ]
  omega

end Lib.Calendar
