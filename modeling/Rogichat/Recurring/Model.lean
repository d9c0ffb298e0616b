import Rogichat.Basic
import Rogichat.Kst
import Rogichat.Lib.Keyed
import Rogichat.Lib.Outcome
import Rogichat.Lib.Steps
import Rogichat.Lib.Table

/-!
# Recurring schedules

`recurring-schedule.service.ts` and the writes of `schedule.service.ts`, for the one channel there
is. A command reads the clock once. `Date.UTC` of the fields of an instant is the midnight of its
day, so the dates are day numbers; times are as the columns keep them. The texts of a request have
been parsed and are within their lengths.
-/

namespace Rogichat.Recurring

open Lib

inductive ContentError
  | INVALID_REQUEST | FORBIDDEN | NOT_FOUND | conflict | channel_content_id_exhausted
  deriving DecidableEq, Repr

/-! ## Rows -/

/-- What a template says about its day of the week. -/
inductive RecurringScheduleStatus
  | LIVE | OFF
  deriving DecidableEq, Repr

/-- What a schedule says about its day. -/
inductive ScheduleStatus
  | LIVE | COLLAB | OFF | ETC | TBD
  deriving DecidableEq, Repr

inductive ScheduleVisibility
  | PUBLIC | PRIVATE
  deriving DecidableEq, Repr

/-- A text `HH:MM`. -/
structure StartTime where
  hour : Fin 24
  minute : Fin 60
  deriving DecidableEq, Repr

/-- A day of the week, Sunday being the first. -/
abbrev DayOfWeek := Fin 7

/-- A day of the week as the owner writes it. -/
structure Template where
  dayOfWeek : DayOfWeek
  title : String
  startTime : Option StartTime
  status : RecurringScheduleStatus
  isActive : Bool
  deriving DecidableEq, Repr

/-- A row of `channel_recurring_schedules`. -/
structure ChannelRecurringSchedule extends Template where
  id : Nat
  deriving DecidableEq, Repr

instance : Row ChannelRecurringSchedule where
  Key := Nat ⊕ DayOfWeek
  decEq := inferInstance
  keys row := [.inl row.id, .inr row.dayOfWeek]
  keyed _ := List.cons_ne_nil _ _

/-- A row of `channel_schedules`; an occurrence names its template. -/
structure ChannelSchedule where
  id : Nat
  authorUserId : Uuid
  recurringScheduleId : Option Nat := none
  title : String
  content : Option String := none
  startAt : Int
  endAt : Option Int := none
  allDay : Bool := false
  isCanceled : Bool := false
  status : ScheduleStatus := .TBD
  visibility : ScheduleVisibility := .PUBLIC
  location : Option String := none
  externalUrl : Option String := none
  isDeleted : Bool := false
  deletedAt : Option Int := none
  deriving DecidableEq, Repr

instance : Row ChannelSchedule where
  Key := Nat
  decEq := inferInstance
  keys row := [row.id]
  keyed _ := List.cons_ne_nil _ _

/-- The rows of the channel, its owner and whether the owner may write. -/
structure Store where
  recurring : Table ChannelRecurringSchedule := .empty
  schedules : Table ChannelSchedule := .empty
  counter : Nat := 0
  ownerId : Option Uuid := none
  enabled : Bool := false

/-- The user owns the channel and its content is switched on. -/
def requireOwner (s : Store) (userId : Uuid) : Except ContentError Unit := do
  ensure (s.ownerId = some userId) .FORBIDDEN
  ensure (s.enabled = true) .FORBIDDEN

/-- The next id of the channel's counter, which ends at the largest 32-bit integer. -/
def nextChannelContentId (counter : Nat) : Except ContentError Nat := do
  ensure (counter + 1 ≤ 2147483647) .channel_content_id_exhausted
  pure (counter + 1)

/-! ## Generation -/

/-- `getUTCDay` of a day. -/
def dayOfWeek (day : Int) : DayOfWeek :=
  ⟨((day + 4) % 7).toNat, by omega⟩

/-- The last day of the generation: the first Sunday from four weeks on. -/
def lastDay (today : Int) : Int := today + 28 + (7 - (today + 28 + 4) % 7) % 7

/-- `generationRange`: tomorrow's midnight and the last minute of the last day. -/
def generationRange (now : Int) : Int × Int :=
  (kstMidnight (kstDay now + 1), kstMidnight (lastDay (kstDay now)) + (23 * 60 + 59) * 60000)

/-- The start of a template's occurrence on a day. -/
def Template.startAt (template : Template) (day : Int) : Int :=
  match template.startTime with
  | some time => kstMidnight day + (time.hour * 60 + time.minute) * 60000
  | none => kstMidnight day

/-- What the loop of `generate` carries: the starts it knows and the counter. -/
structure Generation where
  starts : List Int
  counter : Nat
  created : List ChannelSchedule

/-- A round of the loop over the days. -/
def generateDay (authorUserId : Uuid) (byDay : List ChannelRecurringSchedule) (g : Generation)
    (current : Int) : Except ContentError Generation :=
  let day := kstDay current
  match Keyed.at? (fun row : ChannelRecurringSchedule => row.dayOfWeek) byDay (dayOfWeek day) with
  | none => pure g
  | some template =>
    let startAt := template.startAt day
    if startAt ∈ g.starts then pure g
    else do
      let id ← nextChannelContentId g.counter
      pure {
        starts := startAt :: g.starts
        counter := id
        created := g.created ++ [{
          id, authorUserId, startAt
          recurringScheduleId := some template.id
          title := template.title
          allDay := template.status = .OFF || template.startTime.isNone
          status := match template.status with
            | .OFF => .OFF
            | .LIVE => .LIVE
          visibility := .PUBLIC }] }

/-- The occurrences of some templates in a range, where no live schedule starts at that time. -/
def generate (s : Store) (authorUserId : Uuid) (templates : List ChannelRecurringSchedule)
    (from_ to_ : Int) : Except ContentError Store := do
  let byDay := Keyed.ofList (fun row : ChannelRecurringSchedule => row.dayOfWeek) templates
  let existing := s.schedules.select fun row =>
    row.isDeleted = false ∧ from_ ≤ row.startAt ∧ row.startAt ≤ to_
  let g ← (steps from_ to_ MS_PER_DAY).foldlM (generateDay authorUserId byDay)
    ⟨existing.map ChannelSchedule.startAt, s.counter, []⟩
  let schedules ← require (s.schedules.insertAll g.created) .conflict
  pure { s with schedules, counter := g.counter }

/-- The refresh of the worker: the active templates, with the owner as author. -/
def refreshUpcoming (s : Store) (now : Int) : Except ContentError Store :=
  match s.ownerId with
  | none => pure s
  | some ownerId =>
    let templates := s.recurring.select fun row => row.isActive = true
    if templates.isEmpty then pure s
    else
      let range := generationRange now
      generate s ownerId templates range.1 range.2

/-! ## Saving templates -/

/-- One `upsert`: the id is drawn for an update too. -/
def upsert (s : Store) (item : Template) :
    Except ContentError (Store × ChannelRecurringSchedule) := do
  let id ← nextChannelContentId s.counter
  match s.recurring.find? fun row => row.dayOfWeek = item.dayOfWeek with
  | some row =>
    let change := fun row : ChannelRecurringSchedule => { row with
      title := item.title, startTime := item.startTime, status := item.status
      isActive := item.isActive }
    pure ({ s with
      counter := id
      recurring := s.recurring.update (fun r => r.id = row.id) change }, change row)
  | none =>
    let row : ChannelRecurringSchedule := { item with id }
    let recurring ← require (s.recurring.insert row) .conflict
    pure ({ s with counter := id, recurring }, row)

/-- The templates of a request, one after another. -/
def upsertAll (s : Store) : List Template →
    Except ContentError (Store × List ChannelRecurringSchedule)
  | [] => pure (s, [])
  | item :: items => do
    let (s, row) ← upsert s item
    let (s, rows) ← upsertAll s items
    pure (s, row :: rows)

/-- The upcoming occurrences of the templates are hidden. -/
def hideUpcoming (s : Store) (now from_ : Int) : Store :=
  { s with
    schedules := s.schedules.update
      (fun row => row.isDeleted = false ∧ from_ ≤ row.startAt ∧
        ∃ template ∈ s.recurring.rows, row.recurringScheduleId = some template.id)
      fun row => { row with isDeleted := true, deletedAt := some now } }

/-- Templates of other days are deleted, and their rows belong to none. -/
def deleteRemoved (s : Store) (days : List DayOfWeek) : Store :=
  { s with
    recurring := s.recurring.delete fun row => row.dayOfWeek ∉ days
    schedules := s.schedules.update
      (fun row => ∃ template ∈ s.recurring.rows,
        template.dayOfWeek ∉ days ∧ row.recurringScheduleId = some template.id)
      fun row => { row with recurringScheduleId := none } }

/-- An item of `parse`: a live one has a time, and one that is off loses its own. -/
def parseItem (item : Template) : Except ContentError Template := do
  ensure (item.status = .LIVE → item.startTime.isSome) .INVALID_REQUEST
  pure { item with startTime := if item.status = .OFF then none else item.startTime }

/-- `parse`, from values of the right shapes on. -/
def parse (schedules : List Template) : Except ContentError (List Template) := do
  ensure (schedules.length ≤ 7) .INVALID_REQUEST
  let items ← schedules.mapM parseItem
  ensure (items.map Template.dayOfWeek).Nodup .INVALID_REQUEST
  pure items

/-- `save`: the templates of the request become the templates of the channel, and the upcoming
occurrences are generated again. -/
def save (s : Store) (now : Int) (userId : Uuid) (value : List Template) :
    Except ContentError Store := do
  let schedules ← parse value
  requireOwner s userId
  let range := generationRange now
  let cleared :=
    deleteRemoved (hideUpcoming s now range.1) (schedules.map Template.dayOfWeek)
  let (saved, rows) ← upsertAll cleared schedules
  generate saved userId (rows.filter fun row => row.isActive) range.1 range.2

/-! ## Edits -/

/-- The fields a request may set; an absent field keeps the row's value. -/
structure ScheduleInput where
  title : Option String := none
  content : Option (Option String) := none
  startAt : Option Int := none
  endAt : Option (Option Int) := none
  allDay : Option Bool := none
  visibility : Option ScheduleVisibility := none
  status : Option ScheduleStatus := none
  location : Option (Option String) := none
  externalUrl : Option (Option String) := none
  isCanceled : Option Bool := none
  deriving DecidableEq, Repr

/-- The range check of `input`. -/
def ScheduleInput.ordered (parsed : ScheduleInput) : Prop :=
  ∀ start ∈ parsed.startAt, ∀ endAt ∈ parsed.endAt.join, start ≤ endAt

instance (parsed : ScheduleInput) : Decidable parsed.ordered :=
  inferInstanceAs (Decidable (∀ _ ∈ _, _))

/-- A schedule the owner enters by hand. -/
def create (s : Store) (userId : Uuid) (title : String) (startAt : Int) (parsed : ScheduleInput) :
    Except ContentError Store := do
  ensure { parsed with startAt := some startAt : ScheduleInput }.ordered .INVALID_REQUEST
  requireOwner s userId
  let id ← nextChannelContentId s.counter
  let row : ChannelSchedule := {
    id, title, startAt
    authorUserId := userId
    content := parsed.content.getD none
    endAt := parsed.endAt.getD none
    allDay := parsed.allDay.getD false
    visibility := parsed.visibility.getD .PUBLIC
    status := parsed.status.getD .TBD
    location := parsed.location.getD none
    externalUrl := parsed.externalUrl.getD none
    isCanceled := parsed.isCanceled.getD false }
  let schedules ← require (s.schedules.insert row) .conflict
  pure { s with schedules, counter := id }

/-- The row an update leaves: it belongs to no template any more. -/
def ScheduleInput.apply (parsed : ScheduleInput) (row : ChannelSchedule) : ChannelSchedule :=
  { row with
    recurringScheduleId := none
    title := parsed.title.getD row.title
    content := parsed.content.getD row.content
    startAt := parsed.startAt.getD row.startAt
    endAt := parsed.endAt.getD row.endAt
    allDay := parsed.allDay.getD row.allDay
    visibility := parsed.visibility.getD row.visibility
    status := parsed.status.getD row.status
    location := parsed.location.getD row.location
    externalUrl := parsed.externalUrl.getD row.externalUrl
    isCanceled := parsed.isCanceled.getD row.isCanceled }

/-- The live row of an id. -/
def liveRow (s : Store) (id : Nat) : Option ChannelSchedule :=
  s.schedules.find? fun row => row.id = id ∧ row.isDeleted = false

/-- An edit of one schedule; the row keeps its template. -/
def update (s : Store) (userId : Uuid) (id : Nat) (parsed : ScheduleInput) :
    Except ContentError Store := do
  ensure parsed.ordered .INVALID_REQUEST
  requireOwner s userId
  let existing ← require (liveRow s id) .NOT_FOUND
  let start := parsed.startAt.getD existing.startAt
  ensure (∀ endAt ∈ parsed.endAt.getD existing.endAt, start ≤ endAt) .INVALID_REQUEST
  pure { s with schedules := s.schedules.update (fun row => row.id = id) parsed.apply }

/-- The schedule is kept as a deleted row. -/
def remove (s : Store) (now : Int) (userId : Uuid) (id : Nat) : Except ContentError Store := do
  requireOwner s userId
  ensure (s.schedules.Has fun row => row.id = id ∧ row.isDeleted = false) .NOT_FOUND
  pure { s with
    schedules := s.schedules.update (fun row => row.id = id ∧ row.isDeleted = false)
      fun row => { row with isDeleted := true, deletedAt := some now } }

end Rogichat.Recurring
