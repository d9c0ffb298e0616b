import Mathlib.Data.List.Sort
import Rogichat.Anniversary.Model

/-!
# The anniversaries of a range

What the days of a milestone and of a birthday are, without the code, and that the two expansions
list exactly those of their range: in order, and none twice.

* **`expandMilestones_exact`**, **`expandBirthday_exact`** — the two expansions.
* **`not_head_of_hundred`** — of two milestones of one day the hundred days stand first.
-/

namespace Rogichat.Anniversary

open Lib
open Lib.Calendar

/-! ## Dates -/

/-- The year is one that a text and `Date.UTC` keep. -/
def Dated (date : Int) : Prop := 100 ≤ yearOf (kstDay date) ∧ yearOf (kstDay date) ≤ 9999

instance (date : Int) : Decidable (Dated date) := inferInstanceAs (Decidable (_ ∧ _))

/-- The source rounds this distance up; between midnights there is nothing to round. -/
theorem days_between_ceil (day day' : Int) :
    ceilDiv (kstMidnight day - kstMidnight day') MS_PER_DAY = day - day' := by
  rw [ceilDiv, Int.neg_sub, days_between]
  exact Int.neg_sub day' day

theorem toKstYmd_eq (date : Int) : toKstYmd date = civil (kstDay date) := rfl

/-- A date of a late enough year is read as the midnight of its day. -/
theorem parseKstYmd_eq {ymd : Civil} (h : 100 ≤ ymd.year) :
    parseKstYmd ymd = kstMidnight (dayNumber ymd) := by
  have hlate : ¬(0 ≤ ymd.year ∧ ymd.year ≤ 99) := by omega
  unfold parseKstYmd dateUTC
  rw [if_neg hlate]
  rfl

/-- Reading a date back gives the midnight of its day. -/
theorem parse_toKstYmd {date : Int} (h : Dated date) :
    parseKstYmd (toKstYmd date) = kstMidnight (kstDay date) := by
  rw [toKstYmd_eq, parseKstYmd_eq h.1, dayNumber_civil]

/-! ## The dates of a year -/

theorem isLeapYear_eq_false {year : Int} : isLeapYear year = false ↔ ¬Leap year := by
  rw [← Bool.not_eq_true, isLeapYear, Leap]
  simp

/-- The day exists in leap years only. -/
def LeapDay (ymd : Civil) : Prop := ymd.month = 2 ∧ ymd.day = 29

instance (ymd : Civil) : Decidable (LeapDay ymd) := inferInstanceAs (Decidable (_ ∧ _))

/-- A leap day is kept on 28 February in a common year. -/
theorem anniversaryYmd_short {ymd : Civil} {year : Int} (h : LeapDay ymd) (hyear : ¬Leap year) :
    anniversaryYmd ymd year = ⟨year, 2, 28⟩ :=
  if_pos ⟨h.1, h.2, isLeapYear_eq_false.mpr hyear⟩

/-- Every other date keeps its month and day. -/
theorem anniversaryYmd_same {ymd : Civil} {year : Int} (h : LeapDay ymd → Leap year) :
    anniversaryYmd ymd year = ⟨year, ymd.month, ymd.day⟩ :=
  if_neg fun hshort => isLeapYear_eq_false.mp hshort.2.2 (h ⟨hshort.1, hshort.2.1⟩)

@[simp] theorem anniversaryYmd_year (ymd : Civil) (year : Int) :
    (anniversaryYmd ymd year).year = year := by
  unfold anniversaryYmd
  split <;> rfl

/-- A date is one of another year too, but for 29 February. -/
theorem valid_of_year {ymd : Civil} {year : Int} (h : ymd.Valid) (hleap : LeapDay ymd → Leap year) :
    (⟨year, ymd.month, ymd.day⟩ : Civil).Valid := by
  refine ⟨h.month, h.day, ?_⟩
  have hlast := h.last
  show ymd.day ≤ monthLength year ymd.month
  by_cases hfebruary : ymd.month = 2
  · rw [hfebruary, monthLength_february] at hlast ⊢
    by_cases hyear : Leap year
    · rw [if_pos hyear]
      split at hlast <;> omega
    · have : ymd.day ≠ 29 := fun hday => hyear (hleap ⟨hfebruary, hday⟩)
      rw [if_neg hyear]
      split at hlast <;> omega
  · rw [monthLength_eq hfebruary year ymd.year]
    exact hlast

/-- An anniversary of a valid date is a valid date. -/
theorem anniversaryYmd_valid {ymd : Civil} (h : ymd.Valid) (year : Int) :
    (anniversaryYmd ymd year).Valid := by
  by_cases hshort : LeapDay ymd ∧ ¬Leap year
  · rw [anniversaryYmd_short hshort.1 hshort.2]
    refine ⟨by simp, by simp, ?_⟩
    show 28 ≤ if Leap year then 29 else 28
    split <;> omega
  · have hleap : LeapDay ymd → Leap year := fun h => not_not.mp fun hyear => hshort ⟨h, hyear⟩
    rw [anniversaryYmd_same hleap]
    exact valid_of_year h hleap

/-! ## The law -/

/-- The day bears the date of the first one, or stands for 29 February. -/
def Returns (first day : Int) : Prop :=
  ((civil day).month = (civil first).month ∧ (civil day).day = (civil first).day) ∨
    (LeapDay (civil first) ∧ ¬Leap (yearOf day) ∧
      (civil day).month = 2 ∧ (civil day).day = 28)

/-- What a day is a milestone of: hundreds of days, the first day being the first one, and
years. -/
inductive Milestone (debut : Int) : Int → String → Prop
  | hundred (k : Int) : 0 < k → Milestone debut (debut + (100 * k - 1)) s!"{100 * k}일"
  | anniversary (day : Int) : Returns debut day → yearOf debut < yearOf day →
      Milestone debut day s!"{yearOf day - yearOf debut}주년"

/-- The day of a year on which a date returns. -/
def returnDay (first year : Int) : Int := dayNumber (anniversaryYmd (civil first) year)

/-- Each year the date returns once. -/
theorem returns_iff {first day : Int} :
    Returns first day ↔ day = returnDay first (yearOf day) := by
  have hvalid := anniversaryYmd_valid (civil_valid first) (yearOf day)
  have hlast := (civil_valid day).last
  rw [returnDay, dayNumber_eq_iff hvalid]
  unfold Returns
  by_cases hshort : LeapDay (civil first) ∧ ¬Leap (yearOf day)
  · obtain ⟨hleap, hyear⟩ := hshort
    have hnot : ¬((civil day).month = (civil first).month ∧
        (civil day).day = (civil first).day) := by
      rintro ⟨hmonth, hday⟩
      rw [hmonth, hday, hleap.1, hleap.2, monthLength_february, civil_year, if_neg hyear] at hlast
      omega
    rw [anniversaryYmd_short hleap hyear, or_iff_right hnot]
    constructor
    · rintro ⟨-, -, hmonth, hday⟩
      exact Civil.ext rfl hmonth hday
    · intro h
      exact ⟨hleap, hyear, congrArg Civil.month h, congrArg Civil.day h⟩
  · have hsame : LeapDay (civil first) → Leap (yearOf day) :=
      fun h => not_not.mp fun hyear => hshort ⟨h, hyear⟩
    rw [anniversaryYmd_same hsame]
    constructor
    · rintro (⟨hmonth, hday⟩ | ⟨hleap, hyear, -⟩)
      · exact Civil.ext rfl hmonth hday
      · exact absurd ⟨hleap, hyear⟩ hshort
    · intro h
      obtain ⟨-, hmonth, hday⟩ := Civil.ext_iff.mp h
      exact .inl ⟨hmonth, hday⟩

theorem yearOf_returnDay (first year : Int) : yearOf (returnDay first year) = year := by
  rw [returnDay, yearOf_dayNumber (anniversaryYmd_valid (civil_valid first) year),
    anniversaryYmd_year]

/-- The return of a year is a return. -/
theorem returns_returnDay (first year : Int) : Returns first (returnDay first year) := by
  rw [returns_iff, yearOf_returnDay]

/-- The milestone of a day as the calendar shows it. -/
def MilestoneOn (debut day : Int) (a : AnniversaryInRange) : Prop :=
  ∃ title, Milestone debut day title ∧ a = ⟨.BROADCAST_MILESTONE, title, kstMidnight day⟩

/-- The birthday of a day as the calendar shows it. -/
def BirthdayOn (birthday day : Int) (a : AnniversaryInRange) : Prop :=
  Returns birthday day ∧ a = ⟨.BIRTHDAY, "생일", kstMidnight day⟩

/-- The list has what falls on the days of the range, in order and each once. -/
structure Lists (found : List AnniversaryInRange) (from_ to_ : Int)
    (law : Int → AnniversaryInRange → Prop) : Prop where
  sorted : found.Pairwise fun a b => a.date ≤ b.date
  nodup : found.Nodup
  exact : ∀ a, a ∈ found ↔ ∃ day, law day a ∧ kstDay from_ ≤ day ∧ day < kstDay to_

/-! ## A date of a year -/

variable {debut birthday from_ to_ : Int}

theorem day_lt_of_year {day day' : Int} (h : yearOf day < yearOf day') : day < day' := by
  by_contra hle
  have := yearOf_mono (Int.not_lt.mp hle)
  omega

/-- Returns ascend with their years. -/
theorem returnDay_lt (first : Int) {year year' : Int} (h : year < year') :
    returnDay first year <
      returnDay first year' := by
  apply day_lt_of_year
  rw [yearOf_returnDay, yearOf_returnDay]
  exact h

/-- The source's anniversary is the midnight of the return. -/
theorem parse_anniversary (first : Int) {year : Int} (h : 100 ≤ year) :
    parseKstYmd (anniversaryYmd (civil first) year) =
      kstMidnight (returnDay first year) :=
  parseKstYmd_eq ((anniversaryYmd_year _ year).symm ▸ h)

/-- What a loop over the years shows of a year. -/
theorem shown_iff {first year : Int} {entry : Int → AnniversaryInRange} {a : AnniversaryInRange}
    (hfrom : Dated from_) (hto : Dated to_) (hyear : 100 ≤ year) :
    (if parseKstYmd (toKstYmd from_) ≤ parseKstYmd (anniversaryYmd (civil first) year) ∧
          parseKstYmd (anniversaryYmd (civil first) year) < parseKstYmd (toKstYmd to_) then
        some (entry (parseKstYmd (anniversaryYmd (civil first) year)))
      else none) = some a ↔
      kstDay from_ ≤ returnDay first year ∧
        returnDay first year < kstDay to_ ∧
        a = entry (kstMidnight (returnDay first year)) := by
  simp only [parse_toKstYmd hfrom, parse_toKstYmd hto, parse_anniversary first hyear,
    kstMidnight_le, kstMidnight_lt]
  by_cases hrange : kstDay from_ ≤ returnDay first year ∧
      returnDay first year < kstDay to_
  · rw [if_pos hrange, Option.some.injEq]
    exact ⟨fun h => ⟨hrange.1, hrange.2, h.symm⟩, fun h => h.2.2.symm⟩
  · rw [if_neg hrange]
    exact ⟨fun h => absurd h (Option.some_ne_none a).symm, fun h => absurd ⟨h.1, h.2.1⟩ hrange⟩

/-- A range that does not end later is empty. -/
theorem not_in_empty (h : kstDay to_ ≤ kstDay from_) {day : Int} :
    ¬(kstDay from_ ≤ day ∧ day < kstDay to_) := by
  omega

/-! ## Birthdays -/

/-- The birthdays of a range are listed, in order and each once. -/
theorem expandBirthday_exact (hfrom : Dated from_) (hto : Dated to_) :
    Lists (expandBirthdayInRange birthday from_ to_) from_ to_ (BirthdayOn (kstDay birthday)) := by
  unfold expandBirthdayInRange
  simp only [parse_toKstYmd hfrom, parse_toKstYmd hto, kstMidnight_le]
  by_cases hempty : kstDay to_ ≤ kstDay from_
  · rw [if_pos hempty]
    refine ⟨.nil, List.nodup_nil, fun a => ⟨fun h => absurd h List.not_mem_nil, ?_⟩⟩
    rintro ⟨_, _, h⟩
    exact absurd h (not_in_empty hempty)
  rw [if_neg hempty]
  simp only [← parse_toKstYmd hfrom, ← parse_toKstYmd hto]
  have hmem : ∀ {year a}, year ∈ steps (toKstYmd from_).year (toKstYmd to_).year 1 → _ :=
    fun {year a} h => @shown_iff from_ to_ (kstDay birthday) year
      (fun date => ⟨.BIRTHDAY, "생일", date⟩) a hfrom hto (hfrom.1.trans (mem_steps_one.mp h).1)
  -- the loop's years ascend, and the birthdays with them
  have hsorted : ((steps (toKstYmd from_).year (toKstYmd to_).year 1).filterMap fun year =>
      if parseKstYmd (toKstYmd from_) ≤ parseKstYmd (anniversaryYmd (toKstYmd birthday) year) ∧
          parseKstYmd (anniversaryYmd (toKstYmd birthday) year) < parseKstYmd (toKstYmd to_) then
        some (⟨.BIRTHDAY, "생일", parseKstYmd (anniversaryYmd (toKstYmd birthday) year)⟩ :
          AnniversaryInRange)
      else none).Pairwise fun a b => a.date < b.date := by
    rw [List.pairwise_filterMap]
    refine (steps_sorted _ _ (by decide)).imp_of_mem fun {year year'} hy hy' hlt a ha b hb => ?_
    obtain ⟨-, -, rfl⟩ := (hmem hy).mp ha
    obtain ⟨-, -, rfl⟩ := (hmem hy').mp hb
    exact kstMidnight_lt.mpr (returnDay_lt _ hlt)
  refine ⟨hsorted.imp Int.le_of_lt, hsorted.imp fun hlt heq => ?_, fun a => ?_⟩
  · rw [heq] at hlt
    exact Int.lt_irrefl _ hlt
  · rw [List.mem_filterMap]
    constructor
    · rintro ⟨year, hyear, hshown⟩
      obtain ⟨hstart, hstop, rfl⟩ := (hmem hyear).mp hshown
      exact ⟨_, ⟨returns_returnDay _ year, rfl⟩, hstart, hstop⟩
    · rintro ⟨day, ⟨hreturns, rfl⟩, hstart, hstop⟩
      have hday := returns_iff.mp hreturns
      have hyear : yearOf day ∈ steps (toKstYmd from_).year (toKstYmd to_).year 1 :=
        mem_steps_one.mpr ⟨yearOf_mono hstart, yearOf_mono hstop.le⟩
      refine ⟨yearOf day, hyear, (hmem hyear).mpr ?_⟩
      rw [← hday]
      exact ⟨hstart, hstop, rfl⟩

/-! ## Milestones -/

/-- The hundredth days of a range: the debut day counts as the first. -/
theorem mem_hundreds {D F T : Int} {a : AnniversaryInRange} :
    a ∈ hundreds (kstMidnight D) (kstMidnight F) (kstMidnight T) ↔
      ∃ k, 0 < k ∧ F ≤ D + (100 * k - 1) ∧ D + (100 * k - 1) < T ∧
        a = ⟨.BROADCAST_MILESTONE, s!"{100 * k}일", kstMidnight (D + (100 * k - 1))⟩ := by
  unfold hundreds
  simp only [days_between_ceil, List.mem_map, mem_steps (by decide : (0 : Int) < 100),
    kstMidnight_add]
  constructor
  · rintro ⟨_, ⟨i, rfl, hi⟩, rfl⟩
    obtain ⟨k, hk⟩ : ∃ k : Int, max 100 (ceilDiv (F - D + 1) 100 * 100) + 100 * i = 100 * k :=
      ⟨max 1 (ceilDiv (F - D + 1) 100) + i, by omega⟩
    rw [hk] at hi ⊢
    unfold ceilDiv at hk
    exact ⟨k, by omega, by omega, by omega, rfl⟩
  · rintro ⟨k, hk, hfrom, hto, rfl⟩
    unfold ceilDiv
    refine ⟨100 * k, ⟨(k - max 1 (-(-(F - D + 1) / 100))).toNat, ?_, ?_⟩, rfl⟩
    · omega
    · omega

/-- No hundredth day is listed twice. -/
theorem hundreds_nodup (D F T : Int) :
    (hundreds (kstMidnight D) (kstMidnight F) (kstMidnight T)).Nodup := by
  unfold hundreds
  simp only [kstMidnight_add]
  refine List.Nodup.map ?_ ((steps_sorted _ _ (by decide : (0 : Int) < 100)).imp Int.ne_of_lt)
  intro k k' heq
  have := kstMidnight_inj.mp (congrArg AnniversaryInRange.date heq)
  omega

/-- What the loop over the years shows of a year. -/
theorem anniversary_shown (hdebut : Dated debut) (hfrom : Dated from_) (hto : Dated to_)
    {year : Int} {a : AnniversaryInRange} (hyear : (toKstYmd debut).year ≤ year) :
    (if year - (toKstYmd debut).year ≤ 0 then none
      else if parseKstYmd (toKstYmd from_) ≤ parseKstYmd (anniversaryYmd (toKstYmd debut) year) ∧
          parseKstYmd (anniversaryYmd (toKstYmd debut) year) < parseKstYmd (toKstYmd to_) then
        some ⟨.BROADCAST_MILESTONE, s!"{year - (toKstYmd debut).year}주년",
          parseKstYmd (anniversaryYmd (toKstYmd debut) year)⟩
      else none) = some a ↔
      yearOf (kstDay debut) < year ∧
        kstDay from_ ≤ returnDay (kstDay debut) year ∧
        returnDay (kstDay debut) year < kstDay to_ ∧
        a = ⟨.BROADCAST_MILESTONE, s!"{year - yearOf (kstDay debut)}주년",
          kstMidnight (returnDay (kstDay debut) year)⟩ := by
  have hshown := @shown_iff from_ to_ (kstDay debut) year
    (fun date => ⟨.BROADCAST_MILESTONE, s!"{year - yearOf (kstDay debut)}주년", date⟩) a
    hfrom hto (hdebut.1.trans hyear)
  have hnumber : year - (toKstYmd debut).year ≤ 0 ↔ ¬yearOf (kstDay debut) < year := by
    rw [toKstYmd_eq, civil_year]
    omega
  by_cases hlater : yearOf (kstDay debut) < year
  · rw [if_neg (hnumber.not.mpr (not_not.mpr hlater)), and_iff_right hlater]
    exact hshown
  · rw [if_pos (hnumber.mpr hlater)]
    exact ⟨fun h => absurd h (Option.some_ne_none a).symm, fun h => absurd h.1 hlater⟩

/-- The loop over the years lists its anniversaries in order. -/
theorem anniversaries_sorted (hdebut : Dated debut) (hfrom : Dated from_) (hto : Dated to_) :
    (anniversaries (toKstYmd debut) (toKstYmd from_) (toKstYmd to_)).Pairwise
      fun a b => a.date < b.date := by
  unfold anniversaries
  rw [List.pairwise_filterMap]
  refine (steps_sorted _ _ (by decide)).imp_of_mem fun {year year'} hy hy' hlt a ha b hb => ?_
  obtain ⟨-, -, -, rfl⟩ := (anniversary_shown hdebut hfrom hto (le_of_mem_steps hy)).mp ha
  obtain ⟨-, -, -, rfl⟩ := (anniversary_shown hdebut hfrom hto (le_of_mem_steps hy')).mp hb
  exact kstMidnight_lt.mpr (returnDay_lt _ hlt)

/-- The anniversaries of a range, without the debut year. -/
theorem mem_anniversaries (hdebut : Dated debut) (hfrom : Dated from_) (hto : Dated to_)
    {a : AnniversaryInRange} :
    a ∈ anniversaries (toKstYmd debut) (toKstYmd from_) (toKstYmd to_) ↔
      ∃ day, Returns (kstDay debut) day ∧ yearOf (kstDay debut) < yearOf day ∧
        kstDay from_ ≤ day ∧ day < kstDay to_ ∧
        a = ⟨.BROADCAST_MILESTONE, s!"{yearOf day - yearOf (kstDay debut)}주년",
          kstMidnight day⟩ := by
  unfold anniversaries
  rw [List.mem_filterMap]
  constructor
  · rintro ⟨year, hyear, hshown⟩
    obtain ⟨hlater, hstart, hstop, rfl⟩ :=
      (anniversary_shown hdebut hfrom hto (le_of_mem_steps hyear)).mp hshown
    have hday := yearOf_returnDay (kstDay debut) year
    exact ⟨_, returns_returnDay _ year, hday.symm ▸ hlater, hstart, hstop, by rw [hday]⟩
  · rintro ⟨day, hreturns, hlater, hstart, hstop, rfl⟩
    have hday := returns_iff.mp hreturns
    refine ⟨yearOf day, mem_steps_one.mpr
      ⟨max_le hlater.le (yearOf_mono hstart), yearOf_mono hstop.le⟩,
      (anniversary_shown hdebut hfrom hto hlater.le).mpr ?_⟩
    rw [← hday]
    exact ⟨hlater, hstart, hstop, rfl⟩

/-- Hundred days are not called a year. -/
theorem title_ne (k n : Int) : s!"{k}일" ≠ s!"{n}주년" := by
  intro h
  have hlast := congrArg (fun title => title.toList.getLast?) h
  simp only [String.toList_append, List.getLast?_append] at hlast
  change (some '일').or _ = (some '년').or _ at hlast
  simp at hlast

theorem byDate_trans (a b c : AnniversaryInRange) (hab : decide (a.date ≤ b.date))
    (hbc : decide (b.date ≤ c.date)) : decide (a.date ≤ c.date) := by
  rw [decide_eq_true_eq] at *
  omega

theorem byDate_total (a b : AnniversaryInRange) :
    decide (a.date ≤ b.date) || decide (b.date ≤ a.date) := by
  rw [Bool.or_eq_true, decide_eq_true_eq, decide_eq_true_eq]
  omega

/-- The milestones before they are sorted. -/
def unsorted (debut from_ to_ : Int) : List AnniversaryInRange :=
  hundreds (kstMidnight (kstDay debut)) (kstMidnight (kstDay from_)) (kstMidnight (kstDay to_)) ++
    anniversaries (toKstYmd debut) (toKstYmd from_) (toKstYmd to_)

/-- The range is the sort of both lists. -/
theorem expandMilestones_eq (hdebut : Dated debut) (hfrom : Dated from_) (hto : Dated to_) :
    expandMilestonesInRange debut from_ to_ =
      if kstDay to_ ≤ kstDay from_ then []
      else (unsorted debut from_ to_).mergeSort fun a b => a.date ≤ b.date := by
  unfold expandMilestonesInRange unsorted
  simp only [parse_toKstYmd hdebut, parse_toKstYmd hfrom, parse_toKstYmd hto, kstMidnight_le]

/-- A hundredth day and an anniversary never have the same label. -/
theorem unsorted_nodup (hdebut : Dated debut) (hfrom : Dated from_) (hto : Dated to_) :
    (unsorted debut from_ to_).Nodup := by
  refine List.nodup_append.mpr ⟨hundreds_nodup _ _ _, ?_, ?_⟩
  · refine (anniversaries_sorted hdebut hfrom hto).imp fun hlt heq => ?_
    rw [heq] at hlt
    exact Int.lt_irrefl _ hlt
  · intro a ha b hb heq
    obtain ⟨k, -, -, -, rfl⟩ := mem_hundreds.mp ha
    obtain ⟨day, -, -, -, -, rfl⟩ := (mem_anniversaries hdebut hfrom hto).mp hb
    exact title_ne _ _ (congrArg AnniversaryInRange.title heq)

/-- Both lists together hold the milestones of the range and nothing else. -/
theorem mem_unsorted (hdebut : Dated debut) (hfrom : Dated from_) (hto : Dated to_)
    {a : AnniversaryInRange} :
    a ∈ unsorted debut from_ to_ ↔
      ∃ day, MilestoneOn (kstDay debut) day a ∧ kstDay from_ ≤ day ∧ day < kstDay to_ := by
  unfold unsorted
  rw [List.mem_append, mem_hundreds, mem_anniversaries hdebut hfrom hto]
  constructor
  · rintro (⟨k, hk, hstart, hstop, rfl⟩ | ⟨day, hreturns, hlater, hstart, hstop, rfl⟩)
    · exact ⟨_, ⟨_, .hundred k hk, rfl⟩, hstart, hstop⟩
    · exact ⟨day, ⟨_, .anniversary day hreturns hlater, rfl⟩, hstart, hstop⟩
  · rintro ⟨day, ⟨title, hmilestone, rfl⟩, hstart, hstop⟩
    cases hmilestone with
    | hundred k hk => exact .inl ⟨k, hk, hstart, hstop, rfl⟩
    | anniversary _ hreturns hlater => exact .inr ⟨day, hreturns, hlater, hstart, hstop, rfl⟩

/-- The milestones of a range are listed, in order and each once. -/
theorem expandMilestones_exact (hdebut : Dated debut) (hfrom : Dated from_) (hto : Dated to_) :
    Lists (expandMilestonesInRange debut from_ to_) from_ to_ (MilestoneOn (kstDay debut)) := by
  rw [expandMilestones_eq hdebut hfrom hto]
  by_cases hempty : kstDay to_ ≤ kstDay from_
  · rw [if_pos hempty]
    refine ⟨.nil, List.nodup_nil, fun a => ⟨fun h => absurd h List.not_mem_nil, ?_⟩⟩
    rintro ⟨_, _, h⟩
    exact absurd h (not_in_empty hempty)
  rw [if_neg hempty]
  refine ⟨?_, ?_, fun a => ?_⟩
  · exact (List.pairwise_mergeSort byDate_trans byDate_total _).imp of_decide_eq_true
  · exact (List.mergeSort_perm _ _).nodup_iff.mpr (unsorted_nodup hdebut hfrom hto)
  · rw [List.mem_mergeSort, mem_unsorted hdebut hfrom hto]

/-- Of two milestones of one day the hundred days stand first. -/
theorem not_head_of_hundred (hdebut : Dated debut) (hfrom : Dated from_) (hto : Dated to_)
    {day n k : Int} (hday : day = kstDay debut + (100 * k - 1)) (hk : 0 < k)
    (hstart : kstDay from_ ≤ day) (hstop : day < kstDay to_) :
    (expandMilestonesInRange debut from_ to_).head? ≠
      some ⟨.BROADCAST_MILESTONE, s!"{n}주년", kstMidnight day⟩ := by
  have hnodup := (expandMilestones_exact hdebut hfrom hto).nodup
  rw [expandMilestones_eq hdebut hfrom hto, if_neg (by omega)] at hnodup ⊢
  intro hhead
  obtain ⟨rest, hsorted⟩ := List.head?_eq_some_iff.mp hhead
  have hfirst : ⟨.BROADCAST_MILESTONE, s!"{100 * k}일", kstMidnight day⟩ ∈
      hundreds (kstMidnight (kstDay debut)) (kstMidnight (kstDay from_))
        (kstMidnight (kstDay to_)) :=
    mem_hundreds.mpr ⟨k, hk, by omega, by omega, by rw [hday]⟩
  have hsecond : ⟨.BROADCAST_MILESTONE, s!"{n}주년", kstMidnight day⟩ ∈
      anniversaries (toKstYmd debut) (toKstYmd from_) (toKstYmd to_) := by
    have hmem := List.mem_of_mem_head? hhead
    rw [List.mem_mergeSort, unsorted, List.mem_append] at hmem
    refine hmem.resolve_left fun hhundred => ?_
    obtain ⟨k', -, -, -, heq⟩ := mem_hundreds.mp hhundred
    exact title_ne _ _ (congrArg AnniversaryInRange.title heq).symm
  -- the sort keeps the two in order, so the second one is not the head of a list without repeats
  have hpair := List.pair_sublist_mergeSort byDate_trans byDate_total
    (decide_eq_true (Int.le_refl (kstMidnight day)))
    ((List.singleton_sublist.mpr hfirst).append (List.singleton_sublist.mpr hsecond))
  rw [hsorted] at hnodup
  rw [unsorted] at hsorted
  rw [hsorted] at hpair
  have hrest := (List.nodup_cons.mp hnodup).1
  rcases List.sublist_cons_iff.mp hpair with hpair | ⟨_, heq, hpair⟩
  · exact hrest (hpair.subset (List.mem_cons_of_mem _ List.mem_cons_self))
  · exact title_ne _ _ (congrArg AnniversaryInRange.title (List.cons.inj heq).1)

end Rogichat.Anniversary
