import Rogichat.Anniversary.Range

/-!
# The next anniversary

The milestone and the birthday that are announced today against the first ones a calendar from
today on shows. The announcements let 29 February run on into March, skip a hundred days that are
today, and count the day of the debut and the days before it as anniversaries.

* **`milestoneFirst_of_apart`**, **`apart_of_milestoneFirst`** — when the milestone is the first.
* **`birthdayFirst_iff`** — when the birthday is.
* **`expansions_and_next`** — both, with the expansions exact.
-/

namespace Rogichat.Anniversary

open Lib.Calendar

/-! ## A date that runs on -/

/-- The day `Date.UTC` makes of a date in a year. -/
def rolled (first year : Int) : Int := dayNumber ⟨year, (civil first).month, (civil first).day⟩

/-- The day is 29 February, and its year has none. -/
def Short (first year : Int) : Prop := LeapDay (civil first) ∧ ¬Leap year

instance (first year : Int) : Decidable (Short first year) := inferInstanceAs (Decidable (_ ∧ _))

/-- In a common year a leap day rolls over to 1 March. -/
theorem rolled_short {first year : Int} (h : Short first year) :
    rolled first year = returnDay first year + 1 := by
  rw [rolled, returnDay, anniversaryYmd_short h.1 h.2, h.1.1, h.1.2]
  exact dayNumber_succ year 2 28

/-- Every other return stays where it is. -/
theorem rolled_same {first year : Int} (h : ¬Short first year) :
    rolled first year = returnDay first year := by
  rw [rolled, returnDay,
    anniversaryYmd_same fun hleap => not_not.mp fun hyear => h ⟨hleap, hyear⟩]

/-- Where there is no 29 February, 1 March takes its place. -/
theorem rolled_march {first year : Int} (h : Short first year) :
    rolled first year = dayNumber ⟨year, 3, 1⟩ := by
  rw [rolled, h.1.1, h.1.2]
  simp only [dayNumber, monthLengths, if_neg h.2, List.take_succ_cons, List.sum_cons]
  simp
  omega

/-- Rolling over moves a return by one day at most. -/
theorem returnDay_le_rolled (first year : Int) :
    returnDay first year ≤ rolled first year ∧ rolled first year ≤ returnDay first year + 1 := by
  by_cases h : Short first year
  · rw [rolled_short h]
    omega
  · rw [rolled_same h]
    omega

/-- Rolling over does not leave the year. -/
theorem yearOf_rolled (first year : Int) : yearOf (rolled first year) = year := by
  by_cases h : Short first year
  · rw [rolled_march h]
    exact yearOf_dayNumber ⟨by simp, by simp, by simp [monthLength, monthLengths]⟩
  · rw [rolled_same h, yearOf_returnDay]

/-- The first day counts as a return, in its own year. -/
theorem returns_self (first : Int) : Returns first first := .inl ⟨rfl, rfl⟩

theorem returnDay_self (first : Int) : returnDay first (yearOf first) = first :=
  (returns_iff.mp (returns_self first)).symm

/-- A leap day's own year is a leap year. -/
theorem not_short_self (first : Int) : ¬Short first (yearOf first) := by
  rintro ⟨hleap, hyear⟩
  have hlast := (civil_valid first).last
  rw [hleap.1, hleap.2, monthLength_february, civil_year, if_neg hyear] at hlast
  omega

/-- From one return to the next a year passes, but for two days. -/
theorem returnDay_gap (first year : Int) :
    returnDay first year + 363 ≤ returnDay first (year + 1) := by
  have hyear := yearStart_lt_succ year
  have hmonths := sum_take_monthLengths_le ((civil first).month - 1) year (year + 1)
  have hrolled : rolled first year + 364 ≤ rolled first (year + 1) := by
    simp only [rolled, dayNumber]
    omega
  have hhere := returnDay_le_rolled first year
  have hnext := returnDay_le_rolled first (year + 1)
  omega

/-! ## What is announced -/

/-- The year of the anniversary that is announced. -/
structure NextYear (first today year : Int) : Prop where
  reached : today ≤ rolled first year
  year_eq : year = yearOf today ∨ year = yearOf today + 1 ∧ rolled first (yearOf today) < today

/-- No return is before the year of the next one. -/
theorem NextYear.early {first today year day : Int} (h : NextYear first today year)
    (hreturns : Returns first day) (hday : today ≤ day) : year ≤ yearOf day := by
  have hle := yearOf_mono hday
  rcases h.year_eq with rfl | ⟨rfl, hpast⟩
  · exact hle
  · by_contra hlt
    have heq : yearOf day = yearOf today := by omega
    have hreturn := returns_iff.mp hreturns
    have hrolled := (returnDay_le_rolled first (yearOf today)).1
    rw [heq] at hreturn
    omega

/-- The next return is the least one from today on. -/
theorem NextYear.le {first today year day : Int} (h : NextYear first today year)
    (hreturns : Returns first day) (hday : today ≤ day) : returnDay first year ≤ day := by
  rw [returns_iff.mp hreturns]
  rcases Int.le_iff_lt_or_eq.mp (h.early hreturns hday) with hlt | heq
  · exact (returnDay_lt first hlt).le
  · rw [← heq]

/-- Rolling over hurts only in a common year: the rolled return is the least one elsewhere too. -/
theorem NextYear.rolled_le {first today year day : Int} (h : NextYear first today year)
    (hreturns : Returns first day) (hday : today ≤ day) (hshort : ¬Short first (yearOf day)) :
    rolled first year ≤ day := by
  rcases Int.le_iff_lt_or_eq.mp (h.early hreturns hday) with hlt | heq
  · refine (day_lt_of_year ?_).le
    rw [yearOf_rolled]
    exact hlt
  · rw [heq, rolled_same hshort, ← returns_iff.mp hreturns]

/-- The year the source takes: this one, or the next when this year's return is over. -/
theorem exists_nextYear (first today : Int) :
    NextYear first today
      (if rolled first (yearOf today) < today then yearOf today + 1 else yearOf today) := by
  by_cases hpast : rolled first (yearOf today) < today
  · rw [if_pos hpast]
    refine ⟨Int.le_of_lt (day_lt_of_year ?_), .inr ⟨rfl, hpast⟩⟩
    rw [yearOf_rolled]
    omega
  · rw [if_neg hpast]
    exact ⟨Int.not_lt.mp hpast, .inl rfl⟩

section Announced

variable {debut birthday now : Int}

/-- `Date.UTC` rolls a leap day over in a common year, so the source's return is the rolled one. -/
theorem parse_rolled (first : Int) {year : Int} (h : 100 ≤ year) :
    parseKstYmd ⟨year, (civil first).month, (civil first).day⟩ =
      kstMidnight (rolled first year) :=
  parseKstYmd_eq h

/-- The days of the debut so far. -/
def daysPassed (debut today : Int) : Int := if 0 ≤ today - debut then today - debut + 1 else 0

/-- The hundred days after them. -/
def next100Day (debut today : Int) : Int :=
  if 0 < daysPassed debut today then ceilDiv (daysPassed debut today + 1) 100 * 100 else 100

/-- The milestones without the source's arithmetic on instants. -/
theorem calculateMilestones_eq (hdebut : Dated debut) (hnow : Dated now) :
    ∃ year, NextYear (kstDay debut) (kstDay now) year ∧
      calculateMilestonesFromDate debut now =
        if next100Day (kstDay debut) (kstDay now) - daysPassed (kstDay debut) (kstDay now) <
            rolled (kstDay debut) year - kstDay now then
          ⟨daysPassed (kstDay debut) (kstDay now), s!"{next100Day (kstDay debut) (kstDay now)}일",
            next100Day (kstDay debut) (kstDay now) - daysPassed (kstDay debut) (kstDay now)⟩
        else
          ⟨daysPassed (kstDay debut) (kstDay now), s!"{year - yearOf (kstDay debut)}주년",
            rolled (kstDay debut) year - kstDay now⟩ := by
  refine ⟨_, exists_nextYear (kstDay debut) (kstDay now), ?_⟩
  have hthis := parse_rolled (kstDay debut) hnow.1
  have hnext := @parse_rolled (kstDay debut) (yearOf (kstDay now) + 1) (by have := hnow.1; omega)
  unfold calculateMilestonesFromDate
  simp only [parse_toKstYmd hdebut, parse_toKstYmd hnow, days_between]
  simp only [toKstYmd_eq, civil_year, hthis, hnext, kstMidnight_lt]
  by_cases hpast : rolled (kstDay debut) (yearOf (kstDay now)) < kstDay now
  · simp only [if_pos hpast, days_between]
    rw [show yearOf (kstDay now) - yearOf (kstDay debut) + 1 =
      yearOf (kstDay now) + 1 - yearOf (kstDay debut) by omega]
    rfl
  · simp only [if_neg hpast, days_between]
    rw [show yearOf (kstDay now) - yearOf (kstDay debut) + 0 =
      yearOf (kstDay now) - yearOf (kstDay debut) by omega]
    rfl

/-- From the debut on: the next hundred days, or the anniversary if it is not later. -/
theorem calculateMilestones_after (hdebut : Dated debut) (hnow : Dated now)
    (h : kstDay debut ≤ kstDay now) :
    ∃ k year, 0 < k ∧ kstDay now < kstDay debut + (100 * k - 1) ∧
      kstDay debut + (100 * k - 1) ≤ kstDay now + 100 ∧
      NextYear (kstDay debut) (kstDay now) year ∧
      calculateMilestonesFromDate debut now =
        if kstDay debut + (100 * k - 1) < rolled (kstDay debut) year then
          ⟨kstDay now - kstDay debut + 1, s!"{100 * k}일",
            kstDay debut + (100 * k - 1) - kstDay now⟩
        else
          ⟨kstDay now - kstDay debut + 1, s!"{year - yearOf (kstDay debut)}주년",
            rolled (kstDay debut) year - kstDay now⟩ := by
  obtain ⟨year, hyear, heq⟩ := calculateMilestones_eq hdebut hnow
  have hpassed : daysPassed (kstDay debut) (kstDay now) = kstDay now - kstDay debut + 1 :=
    if_pos (by omega)
  obtain ⟨k, hk⟩ : ∃ k, next100Day (kstDay debut) (kstDay now) = 100 * k := by
    rw [next100Day, hpassed, if_pos (by omega), mul_comm]
    exact ⟨_, rfl⟩
  have hbound : kstDay now - kstDay debut + 1 < 100 * k ∧
      100 * k ≤ kstDay now - kstDay debut + 101 := by
    rw [← hk, next100Day, hpassed, if_pos (by omega), ceilDiv]
    omega
  rw [hk, hpassed] at heq
  refine ⟨k, year, by omega, by omega, by omega, hyear, heq.trans ?_⟩
  have hdays : 100 * k - (kstDay now - kstDay debut + 1) =
      kstDay debut + (100 * k - 1) - kstDay now := by omega
  rw [hdays]
  by_cases hcloser : kstDay debut + (100 * k - 1) < rolled (kstDay debut) year
  · rw [if_pos hcloser, if_pos (by omega)]
  · rw [if_neg hcloser, if_neg (by omega)]

/-- Before the debut: a hundred days from today, or a day that is not after the debut. -/
theorem calculateMilestones_before (hdebut : Dated debut) (hnow : Dated now)
    (h : kstDay now < kstDay debut) :
    ∃ year, NextYear (kstDay debut) (kstDay now) year ∧
      calculateMilestonesFromDate debut now =
        if kstDay now + 100 < rolled (kstDay debut) year then ⟨0, "100일", 100⟩
        else
          ⟨0, s!"{year - yearOf (kstDay debut)}주년",
            rolled (kstDay debut) year - kstDay now⟩ := by
  obtain ⟨year, hyear, heq⟩ := calculateMilestones_eq hdebut hnow
  have hpassed : daysPassed (kstDay debut) (kstDay now) = 0 := if_neg (by omega)
  have hnext : next100Day (kstDay debut) (kstDay now) = 100 := if_neg (by omega)
  rw [hpassed, hnext] at heq
  refine ⟨year, hyear, heq.trans ?_⟩
  by_cases hcloser : kstDay now + 100 < rolled (kstDay debut) year
  · rw [if_pos hcloser, if_pos (by omega)]
    rfl
  · rw [if_neg hcloser, if_neg (by omega)]

/-- The birthday without the source's arithmetic on instants. -/
theorem calculateBirthday_eq (hnow : Dated now) :
    ∃ year, NextYear (kstDay birthday) (kstDay now) year ∧
      calculateBirthdayDdayFromDate birthday now =
        ⟨rolled (kstDay birthday) year - kstDay now,
          s!"{(civil (kstDay birthday)).month}월 {(civil (kstDay birthday)).day}일"⟩ := by
  refine ⟨_, exists_nextYear (kstDay birthday) (kstDay now), ?_⟩
  have hthis := parse_rolled (kstDay birthday) hnow.1
  have hnext := @parse_rolled (kstDay birthday) (yearOf (kstDay now) + 1)
    (by have := hnow.1; omega)
  unfold calculateBirthdayDdayFromDate
  simp only [parse_toKstYmd hnow]
  simp only [toKstYmd_eq, civil_year, hthis, hnext, kstMidnight_lt]
  by_cases hpast : rolled (kstDay birthday) (yearOf (kstDay now)) < kstDay now
  · simp only [if_pos hpast, days_between_ceil]
  · simp only [if_neg hpast, days_between_ceil]

end Announced

/-! ## The first one of a calendar -/

theorem milestoneOn_date {debut day : Int} {a : AnniversaryInRange} (h : MilestoneOn debut day a) :
    a.date = kstMidnight day := by
  obtain ⟨title, -, rfl⟩ := h
  rfl

theorem birthdayOn_date {birthday day : Int} {a : AnniversaryInRange}
    (h : BirthdayOn birthday day a) : a.date = kstMidnight day := by
  obtain ⟨-, rfl⟩ := h
  rfl

section Heads

variable {found : List AnniversaryInRange} {from_ to_ day : Int}
  {law : Int → AnniversaryInRange → Prop} {a b : AnniversaryInRange}

/-- The head of a listing is its earliest entry. -/
theorem Lists.le_of_head (h : Lists found from_ to_ law) (hhead : found.head? = some a)
    (hb : b ∈ found) : a.date ≤ b.date := by
  obtain ⟨rest, rfl⟩ := List.head?_eq_some_iff.mp hhead
  rcases List.mem_cons.mp hb with rfl | hb
  · exact Int.le_refl _
  · exact (List.pairwise_cons.mp h.sorted).1 b hb

/-- What is on the earliest day and gives way to nothing is the head. -/
theorem Lists.head_eq (h : Lists found from_ to_ law)
    (hdate : ∀ day a, law day a → a.date = kstMidnight day) (ha : law day a)
    (hstart : kstDay from_ ≤ day) (hstop : day < kstDay to_)
    (hearly : ∀ day' b, law day' b → kstDay from_ ≤ day' → day ≤ day')
    (halone : ∀ b, law day b → b = a ∨ found.head? ≠ some b) : found.head? = some a := by
  have hmem : a ∈ found := (h.exact a).mpr ⟨day, ha, hstart, hstop⟩
  cases hhead : found.head? with
  | none => exact absurd (List.head?_eq_none_iff.mp hhead ▸ hmem) List.not_mem_nil
  | some b =>
    obtain ⟨day', hb, hstart', -⟩ := (h.exact b).mp (List.mem_of_mem_head? hhead)
    have hle := h.le_of_head hhead hmem
    rw [hdate _ _ hb, hdate _ _ ha, kstMidnight_le] at hle
    have hday : day' = day := Int.le_antisymm hle (hearly day' b hb hstart')
    rcases halone b (hday ▸ hb) with rfl | hnot
    · rfl
    · exact absurd hhead hnot

end Heads

/-- The last day that has a four-digit year. -/
def lastDay : Int := yearStart 10000 - 1

theorem dated_lastDay : Dated (kstMidnight lastDay) := by
  unfold Dated
  rw [kstDay_kstMidnight]
  decide

theorem lt_lastDay {day : Int} (h : yearOf day ≤ 9998) : day < lastDay := by
  have hend := (yearOf_spec day).2
  have hmono : yearStart (yearOf day + 1) ≤ yearStart 9999 :=
    yearStart_strictMono.monotone (by omega)
  have hlast : yearStart 9999 + 365 ≤ yearStart 10000 := yearStart_lt_succ 9999
  unfold lastDay
  omega

/-- A range as long as needed. -/
theorem exists_long {last : Int} (h : Dated last) :
    ∃ to_, last ≤ to_ ∧ Dated to_ ∧ lastDay ≤ kstDay to_ := by
  rcases Int.le_total last (kstMidnight lastDay) with hle | hle
  · exact ⟨_, hle, dated_lastDay, (kstDay_kstMidnight lastDay).ge⟩
  · have := kstDay_mono hle
    rw [kstDay_kstMidnight] at this
    exact ⟨last, Int.le_refl last, h, this⟩

/-! ## Birthdays -/

/-- The day of the birthday that is announced. -/
def birthdayDay (birthday now : Int) : Int :=
  kstDay now + (calculateBirthdayDdayFromDate birthday now).daysUntilBirthday

/-- The birthday announced is the first one a long enough calendar from today on shows, and the
date announced is its date. -/
def BirthdayFirst (birthday now : Int) : Prop :=
  (∃ last, Dated last ∧ ∀ to_, last ≤ to_ → Dated to_ →
    (expandBirthdayInRange birthday now to_).head? =
      some ⟨.BIRTHDAY, "생일", kstMidnight (birthdayDay birthday now)⟩) ∧
  (calculateBirthdayDdayFromDate birthday now).birthdayDate =
    s!"{(civil (birthdayDay birthday now)).month}월 {(civil (birthdayDay birthday now)).day}일"

/-- Someone born on 29 February is announced a birthday in a leap year. -/
def LeapAhead (birthday today : Int) : Prop :=
  LeapDay (civil birthday) →
    (Leap (yearOf today) ∧ today ≤ dayNumber ⟨yearOf today, 2, 29⟩) ∨
      (Leap (yearOf today + 1) ∧ dayNumber ⟨yearOf today, 3, 1⟩ < today)

/-- Two leap years never follow one another. -/
theorem leap_succ {year : Int} (h : Leap (year + 1)) : ¬Leap year := by
  unfold Leap at *
  omega

/-- The next return of a leap day is in a leap year exactly when none is in between. -/
theorem NextYear.leapAhead_iff {birthday today year : Int} (h : NextYear birthday today year) :
    LeapAhead birthday today ↔ ¬Short birthday year := by
  unfold LeapAhead Short
  by_cases hleap : LeapDay (civil birthday)
  · simp only [hleap, true_implies, true_and, not_not]
    have hrolled : rolled birthday (yearOf today) = dayNumber ⟨yearOf today, 2, 29⟩ := by
      rw [rolled, hleap.1, hleap.2]
    rcases h.year_eq with rfl | ⟨rfl, hpast⟩
    · have hreached := h.reached
      constructor
      · rintro (⟨hyear, -⟩ | ⟨hyear, hmarch⟩)
        · exact hyear
        · have := rolled_march ⟨hleap, leap_succ hyear⟩
          omega
      · intro hyear
        exact .inl ⟨hyear, hrolled ▸ hreached⟩
    · constructor
      · rintro (⟨-, hearly⟩ | ⟨hyear, -⟩)
        · omega
        · exact hyear
      · intro hyear
        exact .inr ⟨hyear, rolled_march ⟨hleap, leap_succ hyear⟩ ▸ hpast⟩
  · simp only [hleap, false_implies, false_and, not_false_eq_true]

/-- The announced birthday is the first one of the range exactly when no roll moves it. -/
theorem birthdayFirst_iff {birthday now : Int} (hnow : Dated now)
    (hlate : yearOf (kstDay now) < 9998) :
    BirthdayFirst birthday now ↔ LeapAhead (kstDay birthday) (kstDay now) := by
  obtain ⟨year, hyear, hcalculated⟩ := @calculateBirthday_eq birthday now hnow
  have hday : birthdayDay birthday now = rolled (kstDay birthday) year := by
    rw [birthdayDay, hcalculated]
    exact add_sub_cancel _ _
  rw [hyear.leapAhead_iff, BirthdayFirst, hcalculated, hday]
  constructor
  · -- a birthday that rolls over is not in the range, which keeps 28 February
    rintro ⟨⟨last, hlast, hfirst⟩, -⟩ hshort
    obtain ⟨day, ⟨hreturns, heq⟩, -⟩ := ((expandBirthday_exact hnow hlast).exact _).mp
      (List.mem_of_mem_head? (hfirst last (Int.le_refl last) hlast))
    have hday := kstMidnight_inj.mp (congrArg AnniversaryInRange.date heq)
    subst hday
    have hreturn := returns_iff.mp hreturns
    rw [yearOf_rolled, rolled_short hshort] at hreturn
    omega
  · intro hshort
    have hsame := rolled_same hshort
    -- the range may end long after the next birthday
    have hclose : rolled (kstDay birthday) year < lastDay := by
      apply lt_lastDay
      rw [yearOf_rolled]
      rcases hyear.year_eq with h | h <;> omega
    refine ⟨⟨_, dated_lastDay, fun to_ hto hdated => ?_⟩, ?_⟩
    · have hend := kstDay_mono hto
      rw [kstDay_kstMidnight] at hend
      refine (expandBirthday_exact hnow hdated).head_eq (fun _ _ => birthdayOn_date)
        ⟨hsame ▸ returns_returnDay _ year, rfl⟩ hyear.reached (by omega) ?_ ?_
      · rintro day' b ⟨hreturns, -⟩ hstart
        exact hsame ▸ hyear.le hreturns hstart
      · rintro b ⟨-, rfl⟩
        exact .inl rfl
    · have hleap : LeapDay (civil (kstDay birthday)) → Leap year :=
        fun h => not_not.mp fun hnot => hshort ⟨h, hnot⟩
      rw [rolled, civil_dayNumber (valid_of_year (civil_valid _) hleap)]

/-! ## Milestones -/

/-- The day of the milestone that is announced. -/
def milestoneDay (debut now : Int) : Int :=
  kstDay now + (calculateMilestonesFromDate debut now).daysToMilestone

/-- The milestone announced is the first one a long enough calendar from today on shows. -/
def MilestoneFirst (debut now : Int) : Prop :=
  ∃ last, Dated last ∧ ∀ to_, last ≤ to_ → Dated to_ →
    (expandMilestonesInRange debut now to_).head? =
      some ⟨.BROADCAST_MILESTONE, (calculateMilestonesFromDate debut now).nextMilestone,
        kstMidnight (milestoneDay debut now)⟩

/-- The first day from today on that completes a hundred. -/
def hundredDay (debut today : Int) : Int := today + (99 - (today - debut) % 100)

/-- The debut is past, today completes no hundred and is no 1 March in place of 29 February, and
an anniversary up to the next hundred falls on it just when it stands for 29 February. -/
structure Apart (debut today : Int) : Prop where
  debuted : debut < today
  counting : (today - debut) % 100 ≠ 99
  march : Short debut (yearOf today) → today ≠ dayNumber ⟨yearOf today, 3, 1⟩
  anniversary : ∀ day, Returns debut day → today ≤ day → day ≤ hundredDay debut today →
    (day = hundredDay debut today ↔ Short debut (yearOf day))

theorem yearOf_add_le {day n : Int} (h : n ≤ 365) : yearOf (day + n) ≤ yearOf day + 1 := by
  have hend := (yearOf_spec day).2
  have hstart := (yearOf_spec (day + n)).1
  have hyear := yearStart_lt_succ (yearOf day + 1)
  have : yearOf (day + n) < yearOf day + 1 + 1 := yearStart_strictMono.lt_iff_lt.mp (by omega)
  omega

/-- An anniversary after the debut is in a later year. -/
theorem later_year {debut day : Int} (hreturns : Returns debut day) (h : debut < day) :
    yearOf debut < yearOf day := by
  refine lt_of_le_of_ne (yearOf_mono h.le) fun heq => ?_
  have hday := returns_iff.mp hreturns
  rw [← heq, returnDay_self] at hday
  omega

/-- The milestones of a range from today on. -/
theorem milestoneOn_cases {debut today day : Int} {a : AnniversaryInRange}
    (ha : MilestoneOn debut day a) (hday : today ≤ day) :
    (hundredDay debut today ≤ day ∧ ∃ k, day = debut + (100 * k - 1) ∧ 0 < k ∧
      a = ⟨.BROADCAST_MILESTONE, s!"{100 * k}일", kstMidnight day⟩) ∨
    (Returns debut day ∧
      a = ⟨.BROADCAST_MILESTONE, s!"{yearOf day - yearOf debut}주년", kstMidnight day⟩) := by
  obtain ⟨title, hmilestone, rfl⟩ := ha
  cases hmilestone with
  | hundred k hk =>
    refine .inl ⟨?_, k, rfl, hk, rfl⟩
    unfold hundredDay
    omega
  | anniversary _ hreturns _ => exact .inr ⟨hreturns, rfl⟩

/-- Every milestone of a range is after the debut. -/
theorem MilestoneOn.later {debut day : Int} {a : AnniversaryInRange} (h : MilestoneOn debut day a) :
    debut < day := by
  obtain ⟨title, hmilestone, -⟩ := h
  cases hmilestone with
  | hundred k hk => omega
  | anniversary _ _ hlater => exact day_lt_of_year hlater

theorem hundredDay_lt_lastDay {debut today : Int} (h : yearOf today < 9998) :
    hundredDay debut today < lastDay := by
  have := @yearOf_add_le today (99 - (today - debut) % 100) (by omega)
  exact lt_lastDay (by unfold hundredDay; omega)

section First

variable {debut now : Int}

/-- Away from the debut day and from a roll, the announced milestone leads the range. -/
theorem milestoneFirst_of_apart (hdebut : Dated debut) (hnow : Dated now)
    (hlate : yearOf (kstDay now) < 9998) (h : Apart (kstDay debut) (kstDay now)) :
    MilestoneFirst debut now := by
  obtain ⟨k, year, hk, hlow, hhigh, hyear, hcalculated⟩ :=
    calculateMilestones_after hdebut hnow h.debuted.le
  have hcounting := h.counting
  have hhundred : kstDay debut + (100 * k - 1) = hundredDay (kstDay debut) (kstDay now) := by
    unfold hundredDay
    omega
  have hclose := @hundredDay_lt_lastDay (kstDay debut) _ hlate
  refine ⟨_, dated_lastDay, fun to_ hto hdated => ?_⟩
  have hend := kstDay_mono hto
  rw [kstDay_kstMidnight] at hend
  have hlists := expandMilestones_exact hdebut hnow hdated
  -- which of the two is announced: the hundred when it comes before the anniversary
  by_cases hcloser : kstDay debut + (100 * k - 1) < rolled (kstDay debut) year
  · rw [if_pos hcloser] at hcalculated
    have hday : milestoneDay debut now = kstDay debut + (100 * k - 1) := by
      rw [milestoneDay, hcalculated]
      exact add_sub_cancel _ _
    rw [hday, hcalculated]
    refine hlists.head_eq (fun _ _ => milestoneOn_date) ⟨_, .hundred k hk, rfl⟩ hlow.le
      (by omega) ?_ ?_
    · intro day' b hb hstart
      rcases milestoneOn_cases hb hstart with ⟨hle, -⟩ | ⟨hreturns, -⟩
      · exact hhundred ▸ hle
      · -- an anniversary before the hundred is one of its year, so it would have been announced
        by_contra hlt
        have hfalls := h.anniversary day' hreturns hstart (by omega)
        have hshort : ¬Short (kstDay debut) (yearOf day') := fun hshort => by
          have := hfalls.mpr hshort
          omega
        have := hyear.rolled_le hreturns hstart hshort
        omega
    · intro b hb
      rcases milestoneOn_cases hb hlow.le with ⟨-, k', hday', -, rfl⟩ | ⟨-, rfl⟩
      · obtain rfl : k' = k := by omega
        exact .inl rfl
      · exact .inr (not_head_of_hundred hdebut hnow hdated rfl hk hlow.le (by omega))
  · rw [if_neg hcloser] at hcalculated
    have hday : milestoneDay debut now = rolled (kstDay debut) year := by
      rw [milestoneDay, hcalculated]
      exact add_sub_cancel _ _
    have hreached := hyear.reached
    have hbetween := returnDay_le_rolled (kstDay debut) year
    have hreturns := returns_returnDay (kstDay debut) year
    -- the anniversary that is announced is no leap day's in a common year
    have hshort : ¬Short (kstDay debut) year := by
      intro hshort
      have hrolled := rolled_short hshort
      by_cases hpast : returnDay (kstDay debut) year < kstDay now
      · have htoday : rolled (kstDay debut) year = kstDay now := by omega
        have hyeartoday : yearOf (kstDay now) = year := by rw [← htoday, yearOf_rolled]
        apply h.march (hyeartoday.symm ▸ hshort)
        rw [hyeartoday, ← rolled_march hshort, htoday]
      · have hfalls := h.anniversary _ hreturns (by omega) (by omega)
        rw [yearOf_returnDay] at hfalls
        have := hfalls.mpr hshort
        omega
    have hsame := rolled_same hshort
    have hstart : kstDay now ≤ returnDay (kstDay debut) year := hsame ▸ hreached
    have hdebuted := h.debuted
    have hlater := later_year hreturns (by omega)
    -- it comes before the hundred, as nothing rolls over
    have hbefore : returnDay (kstDay debut) year < hundredDay (kstDay debut) (kstDay now) := by
      have hfalls := h.anniversary _ hreturns hstart (by omega)
      rw [yearOf_returnDay] at hfalls
      have := hfalls.not.mpr hshort
      omega
    rw [hday, hcalculated, hsame]
    refine hlists.head_eq (fun _ _ => milestoneOn_date) ⟨_, .anniversary _ hreturns hlater, ?_⟩
      hstart (by omega) ?_ ?_
    · rw [yearOf_returnDay]
    · intro day' b hb hstart'
      rcases milestoneOn_cases hb hstart' with ⟨hle, -⟩ | ⟨hreturns', -⟩
      · omega
      · exact hyear.le hreturns' hstart'
    · intro b hb
      rcases milestoneOn_cases hb hstart with ⟨hle, -⟩ | ⟨-, rfl⟩
      · omega
      · rw [yearOf_returnDay]
        exact .inl rfl

/-- What the first milestone of a long calendar says of the one announced. -/
structure Announced (debut now to_ : Int) : Prop where
  dated : Dated to_
  long : lastDay ≤ kstDay to_
  head : (expandMilestonesInRange debut now to_).head? =
    some ⟨.BROADCAST_MILESTONE, (calculateMilestonesFromDate debut now).nextMilestone,
      kstMidnight (milestoneDay debut now)⟩

theorem MilestoneFirst.announced (h : MilestoneFirst debut now) : ∃ to_, Announced debut now to_ := by
  obtain ⟨last, hlast, hfirst⟩ := h
  obtain ⟨to_, hto, hdated, hlong⟩ := exists_long hlast
  exact ⟨to_, hdated, hlong, hfirst to_ hto hdated⟩

section Announced

variable {to_ : Int} (h : Announced debut now to_) (hdebut : Dated debut) (hnow : Dated now)
include h hdebut hnow

/-- What is announced stands in the range on its own day. -/
theorem Announced.on : MilestoneOn (kstDay debut) (milestoneDay debut now)
    ⟨.BROADCAST_MILESTONE, (calculateMilestonesFromDate debut now).nextMilestone,
      kstMidnight (milestoneDay debut now)⟩ := by
  obtain ⟨day, hon, -⟩ := ((expandMilestones_exact hdebut hnow h.dated).exact _).mp
    (List.mem_of_mem_head? h.head)
  have hday := kstMidnight_inj.mp (milestoneOn_date hon)
  exact hday ▸ hon

/-- Nothing of the range comes before what is announced. -/
theorem Announced.le {day : Int} {a : AnniversaryInRange} (ha : MilestoneOn (kstDay debut) day a)
    (hstart : kstDay now ≤ day) (hstop : day < lastDay) : milestoneDay debut now ≤ day := by
  have hlists := expandMilestones_exact hdebut hnow h.dated
  have hlong := h.long
  have hmem : a ∈ expandMilestonesInRange debut now to_ :=
    (hlists.exact a).mpr ⟨day, ha, hstart, by omega⟩
  have hle := hlists.le_of_head h.head hmem
  rw [milestoneOn_date ha] at hle
  exact kstMidnight_le.mp hle

/-- Up to the debut an anniversary is announced that is none, or a hundred too early. -/
theorem Announced.debuted : kstDay debut < kstDay now := by
  have hlater := (h.on hdebut hnow).later
  by_contra hle
  have hle := Int.not_lt.mp hle
  have hrolled := fun {year} (hyear : NextYear (kstDay debut) (kstDay now) year) =>
    hyear.rolled_le (returns_self (kstDay debut)) hle (not_short_self _)
  rcases Int.le_iff_lt_or_eq.mp hle with hlt | heq
  · obtain ⟨year, hyear, hcalculated⟩ := calculateMilestones_before hdebut hnow hlt
    have := hrolled hyear
    rw [milestoneDay, hcalculated] at hlater
    by_cases hcloser : kstDay now + 100 < rolled (kstDay debut) year
    · simp only [if_pos hcloser] at hlater
      omega
    · simp only [if_neg hcloser] at hlater
      omega
  · obtain ⟨k, year, -, hlow, -, hyear, hcalculated⟩ :=
      calculateMilestones_after hdebut hnow heq.ge
    have := hrolled hyear
    rw [milestoneDay, hcalculated, if_neg (by omega)] at hlater
    simp only at hlater
    omega

end Announced

/-- The converse: when the announced milestone leads, neither exception is met. -/
theorem apart_of_milestoneFirst (hdebut : Dated debut) (hnow : Dated now)
    (hlate : yearOf (kstDay now) < 9998) (h : MilestoneFirst debut now) :
    Apart (kstDay debut) (kstDay now) := by
  obtain ⟨to_, h⟩ := h.announced
  have hdebuted := h.debuted hdebut hnow
  obtain ⟨k, year, hk, hlow, hhigh, hyear, hcalculated⟩ :=
    calculateMilestones_after hdebut hnow hdebuted.le
  have hreached := hyear.reached
  have hlong := h.long
  have htoday : kstDay now < lastDay := lt_lastDay (by omega)
  -- a day on which the anniversary was announced, and not a hundred
  have hyearly (hcloser : ¬kstDay debut + (100 * k - 1) < rolled (kstDay debut) year) :
      milestoneDay debut now = rolled (kstDay debut) year ∧
        (expandMilestonesInRange debut now to_).head? = some ⟨.BROADCAST_MILESTONE,
          s!"{year - yearOf (kstDay debut)}주년", kstMidnight (rolled (kstDay debut) year)⟩ := by
    have hday : milestoneDay debut now = rolled (kstDay debut) year := by
      rw [milestoneDay, hcalculated, if_neg hcloser]
      exact add_sub_cancel _ _
    have hhead := h.head
    rw [hday, hcalculated, if_neg hcloser] at hhead
    exact ⟨hday, hhead⟩
  have hcounting : (kstDay now - kstDay debut) % 100 ≠ 99 := by
    intro hfull
    obtain ⟨k', hk', htoday'⟩ : ∃ k', 0 < k' ∧ kstDay now = kstDay debut + (100 * k' - 1) :=
      ⟨(kstDay now - kstDay debut + 1) / 100, by omega, by omega⟩
    have hle := h.le hdebut hnow ⟨_, .hundred k' hk', rfl⟩ htoday'.le (by omega)
    by_cases hcloser : kstDay debut + (100 * k - 1) < rolled (kstDay debut) year
    · rw [milestoneDay, hcalculated, if_pos hcloser] at hle
      simp only at hle
      omega
    · obtain ⟨hday, hhead⟩ := hyearly hcloser
      refine not_head_of_hundred hdebut hnow h.dated ?_ hk' hreached (by omega) hhead
      omega
  have hhundred : kstDay debut + (100 * k - 1) = hundredDay (kstDay debut) (kstDay now) := by
    unfold hundredDay
    omega
  have hclose := @hundredDay_lt_lastDay (kstDay debut) _ hlate
  have hmarch : Short (kstDay debut) (yearOf (kstDay now)) →
      kstDay now ≠ dayNumber ⟨yearOf (kstDay now), 3, 1⟩ := by
    intro hshort htoday'
    rw [← rolled_march hshort] at htoday'
    have hyear' : year = yearOf (kstDay now) := by
      rcases hyear.year_eq with hyear | ⟨-, hpast⟩
      · exact hyear
      · omega
    obtain ⟨hday, -⟩ := hyearly (by rw [hyear']; omega)
    have hon := h.on hdebut hnow
    rw [hday, hyear', ← htoday'] at hon
    rcases milestoneOn_cases hon (Int.le_refl _) with ⟨hle, -⟩ | ⟨hreturns, -⟩
    · omega
    · have hreturn := returns_iff.mp hreturns
      have := rolled_short hshort
      omega
  refine ⟨hdebuted, hcounting, hmarch, fun day hreturns hstart hday => ?_⟩
  have hspan : hundredDay (kstDay debut) (kstDay now) ≤ kstDay now + 99 := by
    unfold hundredDay
    omega
  have hreturn := returns_iff.mp hreturns
  have hyearday : year = yearOf day := by
    have hearly := hyear.early hreturns hstart
    have hnext := (yearOf_mono (hday.trans hspan)).trans
      (@yearOf_add_le (kstDay now) 99 (by omega))
    by_contra hne
    obtain ⟨hyear', hday'⟩ : year = yearOf (kstDay now) ∧ yearOf day = year + 1 := by
      rcases hyear.year_eq with h | ⟨h, -⟩ <;> omega
    have hgap := returnDay_gap (kstDay debut) year
    rw [hday'] at hreturn
    by_cases hshort : Short (kstDay debut) year
    · have hrolled := rolled_short hshort
      apply hmarch (hyear' ▸ hshort)
      rw [← hyear', ← rolled_march hshort]
      omega
    · have := rolled_same hshort
      omega
  rw [← hyearday] at hreturn ⊢
  constructor
  · intro hfalls
    by_contra hshort
    have hsame := rolled_same hshort
    obtain ⟨-, hhead⟩ := hyearly (by omega)
    exact not_head_of_hundred hdebut hnow h.dated (by omega) hk hreached (by omega) hhead
  · intro hshort
    by_contra hne
    have hrolled := rolled_short hshort
    obtain ⟨hday', -⟩ := hyearly (by omega)
    have hle := h.le hdebut hnow ⟨_, .anniversary day hreturns (later_year hreturns (by omega)), rfl⟩
      hstart (by omega)
    omega

end First

/-- The expansions are exact. The milestone announced is the first one just when the milestones are
apart, and the birthday just when a birthday on 29 February is in a leap year. -/
theorem expansions_and_next {debut birthday from_ to_ now : Int} (hdebut : Dated debut)
    (hfrom : Dated from_) (hto : Dated to_) (hnow : Dated now)
    (hlate : yearOf (kstDay now) < 9998) :
    Lists (expandMilestonesInRange debut from_ to_) from_ to_ (MilestoneOn (kstDay debut)) ∧
      Lists (expandBirthdayInRange birthday from_ to_) from_ to_ (BirthdayOn (kstDay birthday)) ∧
      (MilestoneFirst debut now ↔ Apart (kstDay debut) (kstDay now)) ∧
      (BirthdayFirst birthday now ↔ LeapAhead (kstDay birthday) (kstDay now)) :=
  ⟨expandMilestones_exact hdebut hfrom hto, expandBirthday_exact hfrom hto,
    ⟨apart_of_milestoneFirst hdebut hnow hlate, milestoneFirst_of_apart hdebut hnow hlate⟩,
    birthdayFirst_iff hnow hlate⟩

/-- The midnights of 29 February 2024 and of the first days of 2025 and 2026. -/
theorem expansions_and_next_2024 :
    Lists (expandMilestonesInRange 1709132400000 1735657200000 1767193200000)
        1735657200000 1767193200000 (MilestoneOn (kstDay 1709132400000)) ∧
      Lists (expandBirthdayInRange 1709132400000 1735657200000 1767193200000)
        1735657200000 1767193200000 (BirthdayOn (kstDay 1709132400000)) ∧
      (MilestoneFirst 1709132400000 1735657200000 ↔
        Apart (kstDay 1709132400000) (kstDay 1735657200000)) ∧
      (BirthdayFirst 1709132400000 1735657200000 ↔
        LeapAhead (kstDay 1709132400000) (kstDay 1735657200000)) :=
  expansions_and_next (by decide) (by decide) (by decide) (by decide) (by decide)

/-- On the day of the debut its anniversary zero is announced, which no calendar shows. -/
theorem debut_announced : ¬∀ debut birthday now, Dated debut → Dated birthday → Dated now →
    yearOf (kstDay now) < 9998 → MilestoneFirst debut now ∧ BirthdayFirst birthday now := by
  intro hclaim
  have hfirst := hclaim 1577804400000 1577804400000 1577804400000 (by decide) (by decide)
    (by decide) (by decide)
  have hapart := apart_of_milestoneFirst (by decide) (by decide) (by decide) hfirst.1
  exact Int.lt_irrefl _ hapart.debuted

example : calculateMilestonesFromDate 1577804400000 1577804400000 = ⟨1, "0주년", 0⟩ := by
  decide +kernel

end Rogichat.Anniversary
