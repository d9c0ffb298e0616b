import Rogichat.Kst
import Rogichat.Lib.Calendar
import Rogichat.Lib.Steps

/-!
# Anniversaries

`channel-anniversary.utils.ts` and `channel-anniversary-range.utils.ts`. A `Date` is its number of
milliseconds. A text `YYYY-MM-DD` is the date it denotes, since every slice of it is read as a
number again; `toISOString` writes the years 0 to 9999 in this way.
-/

namespace Rogichat.Anniversary

open Lib (steps)
open Lib.Calendar

/-- `Date.UTC(year, month - 1, day)`, where the years 0 to 99 are those of the century. -/
def dateUTC (year : Int) (month day : Nat) : Int :=
  dayNumber ⟨if 0 ≤ year ∧ year ≤ 99 then 1900 + year else year, month, day⟩ * MS_PER_DAY

/-- The midnight in Korea of a date, as `Date.UTC` takes its three numbers. -/
def parseKstYmd (dateString : Civil) : Int :=
  dateUTC dateString.year dateString.month dateString.day - KST_OFFSET_MS

/-- The date in Korea at an instant. -/
def toKstYmd (date : Int) : Civil := civil ((date + KST_OFFSET_MS) / MS_PER_DAY)

/-- `Math.ceil(a / b)`. -/
def ceilDiv (a b : Int) : Int := -(-a / b)

/-! ## The next one -/

structure ChannelMilestones where
  daysPassed : Int
  nextMilestone : String
  daysToMilestone : Int
  deriving DecidableEq, Repr

structure ChannelBirthdayDday where
  daysUntilBirthday : Int
  birthdayDate : String
  deriving DecidableEq, Repr

/-- The next milestone is the earlier of the next hundredth day and the next anniversary. -/
def calculateMilestonesFromDate (debutDate now : Int) : ChannelMilestones :=
  let debutYmd := toKstYmd debutDate
  let debut := parseKstYmd debutYmd
  let todayYmd := toKstYmd now
  let today := parseKstYmd todayYmd
  let diffDays := (today - debut) / MS_PER_DAY
  let daysPassed := if 0 ≤ diffDays then diffDays + 1 else 0
  let next100Day := if 0 < daysPassed then ceilDiv (daysPassed + 1) 100 * 100 else 100
  let daysTo100 := next100Day - daysPassed
  let currentYear := todayYmd.year
  let debutYear := debutYmd.year
  let thisYearAnniversary := parseKstYmd ⟨currentYear, debutYmd.month, debutYmd.day⟩
  let nextAnniversaryDate :=
    if thisYearAnniversary < today then
      parseKstYmd ⟨currentYear + 1, debutYmd.month, debutYmd.day⟩
    else thisYearAnniversary
  let daysToAnniversary := (nextAnniversaryDate - today) / MS_PER_DAY
  let anniversaryNumber :=
    currentYear - debutYear + if thisYearAnniversary < today then 1 else 0
  if daysTo100 < daysToAnniversary then
    { daysPassed, nextMilestone := s!"{next100Day}일", daysToMilestone := daysTo100 }
  else
    { daysPassed
      nextMilestone := s!"{anniversaryNumber}주년"
      daysToMilestone := daysToAnniversary }

/-- The birthday of this year, or of the next one when it is over. -/
def calculateBirthdayDdayFromDate (birthday now : Int) : ChannelBirthdayDday :=
  let todayYmd := toKstYmd now
  let today := parseKstYmd todayYmd
  let birthdayYmd := toKstYmd birthday
  let baseYmd := fun year => (⟨year, birthdayYmd.month, birthdayYmd.day⟩ : Civil)
  let currentYear := todayYmd.year
  let thisBirthday :=
    if parseKstYmd (baseYmd currentYear) < today then parseKstYmd (baseYmd (currentYear + 1))
    else parseKstYmd (baseYmd currentYear)
  { daysUntilBirthday := ceilDiv (thisBirthday - today) MS_PER_DAY
    birthdayDate := s!"{birthdayYmd.month}월 {birthdayYmd.day}일" }

/-! ## A range -/

/-- The two kinds of entries of a range. -/
inductive AnniversaryType
  | BROADCAST_MILESTONE | BIRTHDAY
  deriving DecidableEq, Repr

/-- `MilestoneInRange` and `BirthdayInRange`. -/
structure AnniversaryInRange where
  type : AnniversaryType
  title : String
  date : Int
  deriving DecidableEq, Repr

/-- The Gregorian rule, as the source spells it out. -/
def isLeapYear (year : Int) : Bool :=
  year % 4 == 0 && year % 100 != 0 || year % 400 == 0

/-- The date of the year: 28 February where the year has no 29th. -/
def anniversaryYmd (ymd : Civil) (year : Int) : Civil :=
  if ymd.month = 2 ∧ ymd.day = 29 ∧ isLeapYear year = false then ⟨year, 2, 28⟩
  else ⟨year, ymd.month, ymd.day⟩

/-- The milestones of a hundred days each. -/
def hundreds (debut fromKst toKst : Int) : List AnniversaryInRange :=
  let fromDayNumber := ceilDiv (fromKst - debut) MS_PER_DAY + 1
  let toDayNumberExclusive := ceilDiv (toKst - debut) MS_PER_DAY + 1
  let startK := max 100 (ceilDiv fromDayNumber 100 * 100)
  let endK := (toDayNumberExclusive - 1) / 100 * 100
  (steps startK endK 100).map fun k =>
    { type := .BROADCAST_MILESTONE, title := s!"{k}일", date := debut + (k - 1) * MS_PER_DAY }

/-- The milestones of a year each. -/
def anniversaries (debutYmd fromYmd toYmd : Civil) : List AnniversaryInRange :=
  (steps (max debutYmd.year fromYmd.year) toYmd.year 1).filterMap fun year =>
    let anniversaryNumber := year - debutYmd.year
    let anniversaryDate := parseKstYmd (anniversaryYmd debutYmd year)
    if anniversaryNumber ≤ 0 then none
    else if parseKstYmd fromYmd ≤ anniversaryDate ∧ anniversaryDate < parseKstYmd toYmd then
      some { type := .BROADCAST_MILESTONE
             title := s!"{anniversaryNumber}주년"
             date := anniversaryDate }
    else none

/-- The hundredth days and the anniversaries of a half-open range, sorted by date. -/
def expandMilestonesInRange (debutDate from_ to_ : Int) : List AnniversaryInRange :=
  let debutYmd := toKstYmd debutDate
  let fromYmd := toKstYmd from_
  let toYmd := toKstYmd to_
  if parseKstYmd toYmd ≤ parseKstYmd fromYmd then []
  else
    (hundreds (parseKstYmd debutYmd) (parseKstYmd fromYmd) (parseKstYmd toYmd) ++
      anniversaries debutYmd fromYmd toYmd).mergeSort fun a b => a.date ≤ b.date

/-- The birthdays of a half-open range; a leap day's stands on 28 February in a common year. -/
def expandBirthdayInRange (birthday from_ to_ : Int) : List AnniversaryInRange :=
  let birthdayYmd := toKstYmd birthday
  let fromYmd := toKstYmd from_
  let toYmd := toKstYmd to_
  if parseKstYmd toYmd ≤ parseKstYmd fromYmd then []
  else
    (steps fromYmd.year toYmd.year 1).filterMap fun year =>
      let bdayDate := parseKstYmd (anniversaryYmd birthdayYmd year)
      if parseKstYmd fromYmd ≤ bdayDate ∧ bdayDate < parseKstYmd toYmd then
        some { type := .BIRTHDAY, title := "생일", date := bdayDate }
      else none

end Rogichat.Anniversary
