import Rogichat.Lib.Trace
import Rogichat.Recurring.Refresh

/-!
# Recurring schedules over whole runs

A run starts with any templates and any schedules of which none belongs to a template, and takes
the owner's commands and refreshes in any order while the clock goes on. A state remembers the
occurrences the owner removed or edited.

* **`reachable_sound`** — a template has at most one live occurrence a day, in every run.
-/

namespace Rogichat.Recurring

open Lib

/-- The store with its clock, and the occurrences the owner removed or edited. -/
structure State where
  store : Store
  now : Int
  /-- The occurrences the owner removed or edited, each a template and a day. -/
  touched : List (Nat × Int) := []

/-- The owner's commands, the refresh, and the passing of time. -/
inductive Command
  | wait (later : Int)
  | bind (ownerId : Option Uuid) (enabled : Bool)
  | save (userId : Uuid) (schedules : List Template)
  | refresh
  | create (userId : Uuid) (title : String) (startAt : Int) (parsed : ScheduleInput)
  | update (userId : Uuid) (id : Nat) (parsed : ScheduleInput)
  | remove (userId : Uuid) (id : Nat)

/-- The occurrence a command on a row touches. -/
def touches (s : Store) (id : Nat) : List (Nat × Int) :=
  match liveRow s id with
  | some row =>
    (row.recurringScheduleId.map fun template => (template, kstDay row.startAt)).toList
  | none => []

/-- A command in a state; a failed one changes nothing. -/
def exec : Command → State → Except ContentError State
  | .wait later, s => do
    ensure (s.now ≤ later) .conflict
    pure { s with now := later }
  | .bind ownerId enabled, s => pure { s with store := { s.store with ownerId, enabled } }
  | .save userId schedules, s => do
    let store ← save s.store s.now userId schedules
    pure { s with store }
  | .refresh, s => do
    let store ← refreshUpcoming s.store s.now
    pure { s with store }
  | .create userId title startAt parsed, s => do
    let store ← create s.store userId title startAt parsed
    pure { s with store }
  | .update userId id parsed, s => do
    let store ← update s.store userId id parsed
    pure { s with store, touched := touches s.store id ++ s.touched }
  | .remove userId id, s => do
    let store ← remove s.store s.now userId id
    pure { s with store, touched := touches s.store id ++ s.touched }

/-- The runs whose commands `ok` allows. -/
def recurringSystem (ok : State → Command → Prop) : System State Command where
  init s := (∀ row ∈ s.store.schedules, row.recurringScheduleId = none) ∧ s.touched = []
  step c s t := exec c s = .ok t ∧ ok s c

variable {s t : State} {now : Int}

/-! ## What holds in every run -/

/-- A live row of a template. -/
structure Belongs (row : ChannelSchedule) (id : Nat) : Prop where
  live : row.isDeleted = false
  recurring : row.recurringScheduleId = some id

/-- A template has at most one live occurrence a day. -/
def OneLive (s : Store) : Prop :=
  ∀ row ∈ s.schedules, ∀ row' ∈ s.schedules, ∀ id, Belongs row id → Belongs row' id →
    kstDay row.startAt = kstDay row'.startAt → row = row'

/-- Upcoming occurrences are those of their templates, and no occurrence is past the range. -/
structure Sound (s : Store) (now : Int) : Prop where
  upcoming : ∀ row ∈ s.schedules, ∀ id, Belongs row id → kstDay now < kstDay row.startAt →
    ∃ template ∈ s.recurring, template.isActive = true ∧
      Occurrence template (kstDay row.startAt) row
  within : ∀ row ∈ s.schedules, ∀ id, Belongs row id →
    kstDay row.startAt ≤ lastDay (kstDay now)
  one : OneLive s

/-- Less occurrences and more time. -/
theorem Sound.mono {s t : Store} {later : Int} (h : Sound s now) (hlater : now ≤ later)
    (hrecurring : t.recurring = s.recurring)
    (hrows : ∀ row ∈ t.schedules, ∀ id, Belongs row id → row ∈ s.schedules) : Sound t later := by
  have hday := kstDay_mono hlater
  refine ⟨?_, ?_, ?_⟩
  · intro row hrow id hid hupcoming
    rw [hrecurring]
    exact h.upcoming row (hrows row hrow id hid) id hid (by omega)
  · intro row hrow id hid
    exact (h.within row (hrows row hrow id hid) id hid).trans (lastDay_mono hday)
  · intro row hrow row' hrow' id hid hid'
    exact h.one row (hrows row hrow id hid) row' (hrows row' hrow' id hid') id hid hid'

/-- An occurrence is on its day. -/
theorem Occurrence.kstDay {template : ChannelRecurringSchedule} {day : Int}
    {row : ChannelSchedule} (h : Occurrence template day row) : kstDay row.startAt = day := by
  rw [h.startAt, kstDay_startAt]

/-- Occurrences of one template on one day start together. -/
theorem Occurrence.startAt_eq {s : Store} {template template' : ChannelRecurringSchedule}
    {day : Int} {row row' : ChannelSchedule} {id : Nat} (h : Occurrence template day row)
    (h' : Occurrence template' day row') (hmem : template ∈ s.recurring)
    (hmem' : template' ∈ s.recurring) (hid : row.recurringScheduleId = some id)
    (hid' : row'.recurringScheduleId = some id) : row.startAt = row'.startAt := by
  have heq : template.id = template'.id :=
    (Option.some.inj (h.recurring.symm.trans hid)).trans
      (Option.some.inj (h'.recurring.symm.trans hid')).symm
  have hsame : template = template' := Table.eq_of_key hmem hmem'
    (k := .inl template.id) List.mem_cons_self (heq ▸ List.mem_cons_self)
  rw [h.startAt, h'.startAt, hsame]

/-- A generation from active templates keeps a channel sound. -/
theorem Generated.sound {s t : Store} {templates : List ChannelRecurringSchedule}
    {new : List ChannelSchedule} (h : Generated s t now templates new) (hs : Sound s now)
    (htemplates : ∀ template ∈ templates, template ∈ s.recurring ∧ template.isActive = true) :
    Sound t now := by
  refine ⟨?_, ?_, ?_⟩
  · intro row hrow id hid hupcoming
    rw [h.recurring]
    rcases (h.rows row).mp hrow with hold | hnew
    · exact hs.upcoming row hold id hid hupcoming
    · obtain ⟨day, -, template, htemplate, hoccurrence⟩ := h.occurrence row hnew
      obtain ⟨hmem, hactive⟩ := htemplates template htemplate
      exact ⟨template, hmem, hactive, hoccurrence.kstDay ▸ hoccurrence⟩
  · intro row hrow id hid
    rcases (h.rows row).mp hrow with hold | hnew
    · exact hs.within row hold id hid
    · obtain ⟨day, hday, template, -, hoccurrence⟩ := h.occurrence row hnew
      rw [hoccurrence.kstDay]
      exact hday.2
  · -- a new row starts when no old one and no other new one does
    have hmixed : ∀ row ∈ s.schedules, ∀ row' ∈ new, ∀ id, Belongs row id → Belongs row' id →
        kstDay row.startAt ≠ kstDay row'.startAt := by
      intro row hrow row' hrow' id hid hid' hsame
      obtain ⟨day, hday, template', htemplate', hoccurrence'⟩ := h.occurrence row' hrow'
      rw [hoccurrence'.kstDay] at hsame
      obtain ⟨template, hmem, -, hoccurrence⟩ :=
        hs.upcoming row hrow id hid (by rw [hsame]; exact hday.1)
      rw [hsame] at hoccurrence
      refine h.free row' hrow' ⟨row, hrow, hid.live, ?_⟩
      exact hoccurrence.startAt_eq hoccurrence' hmem (htemplates _ htemplate').1 hid.recurring
        hid'.recurring
    intro row hrow row' hrow' id hid hid' hsame
    rcases (h.rows row).mp hrow with hold | hnew <;>
      rcases (h.rows row').mp hrow' with hold' | hnew'
    · exact hs.one row hold row' hold' id hid hid' hsame
    · exact absurd hsame (hmixed row hold row' hnew' id hid hid')
    · exact absurd hsame.symm (hmixed row' hold' row hnew id hid' hid)
    · obtain ⟨day, hday, template, htemplate, hoccurrence⟩ := h.occurrence row hnew
      obtain ⟨day', hday', template', htemplate', hoccurrence'⟩ := h.occurrence row' hnew'
      rw [hoccurrence.kstDay, hoccurrence'.kstDay] at hsame
      subst hsame
      have hstart := hoccurrence.startAt_eq hoccurrence' (htemplates _ htemplate).1
        (htemplates _ htemplate').1 hid.recurring hid'.recurring
      by_contra hne
      have : Std.Symm fun row row' : ChannelSchedule => row.startAt ≠ row'.startAt :=
        ⟨fun _ _ hne heq => hne heq.symm⟩
      exact h.apart.forall hnew hnew' hne hstart

/-! ## Saving -/

section Saving

variable {s t : Store} {item : Template} {row : ChannelRecurringSchedule}

/-- What an upsert leaves: the row of its day, and the rows of the other days. -/
structure Upserted (s t : Store) (item : Template) (row : ChannelRecurringSchedule) : Prop where
  schedules : t.schedules = s.schedules
  mem : row ∈ t.recurring
  dayOfWeek : row.dayOfWeek = item.dayOfWeek
  others : ∀ template, template ∈ t.recurring →
    template = row ∨ template ∈ s.recurring ∧ template.dayOfWeek ≠ item.dayOfWeek
  kept : ∀ template ∈ s.recurring, template.dayOfWeek ≠ item.dayOfWeek → template ∈ t.recurring

/-- What one template of a request does to the store. -/
theorem upsert_spec (h : upsert s item = .ok (t, row)) : Upserted s t item row := by
  unfold upsert at h
  rw [bind_ok] at h
  obtain ⟨id, -, h⟩ := h
  cases hfound : s.recurring.find? fun row => row.dayOfWeek = item.dayOfWeek with
  | some found =>
    rw [hfound] at h
    simp only [pure_ok, Prod.mk.injEq] at h
    obtain ⟨rfl, rfl⟩ := h
    have hmem := Table.mem_of_find? hfound
    have hday : found.dayOfWeek = item.dayOfWeek := Table.holds_of_find?
      (p := fun row : ChannelRecurringSchedule => row.dayOfWeek = item.dayOfWeek) hfound
    refine ⟨rfl, ?_, hday, ?_, ?_⟩
    · exact (Table.mem_update (k := by exact ⟨fun _ => rfl⟩)).mpr
        ⟨found, hmem, (if_pos rfl).symm⟩
    · intro template htemplate
      obtain ⟨r, hr, rfl⟩ := (Table.mem_update (k := by exact ⟨fun _ => rfl⟩)).mp htemplate
      by_cases hid : r.id = found.id
      · obtain rfl : r = found := Table.eq_of_key hr hmem
          (k := .inl r.id) List.mem_cons_self (hid ▸ List.mem_cons_self)
        exact .inl (if_pos rfl)
      · rw [if_neg hid]
        refine .inr ⟨hr, fun heq => hid ?_⟩
        rw [Table.eq_of_key hr hmem (k := .inr r.dayOfWeek)
          (List.mem_cons_of_mem _ List.mem_cons_self)
          (by rw [heq, ← hday]; exact List.mem_cons_of_mem _ List.mem_cons_self)]
    · intro template htemplate hother
      refine (Table.mem_update (k := by exact ⟨fun _ => rfl⟩)).mpr
        ⟨template, htemplate, (if_neg fun hid => hother ?_).symm⟩
      rw [Table.eq_of_key htemplate hmem (k := .inl template.id) List.mem_cons_self
        (hid ▸ List.mem_cons_self), hday]
  | none =>
    rw [hfound] at h
    simp only [bind_ok, require_ok, pure_ok, Prod.mk.injEq] at h
    obtain ⟨recurring, hinsert, rfl, rfl⟩ := h
    have hmem := fun {template} => @Table.mem_insert _ _ _ _ _ template hinsert
    refine ⟨rfl, hmem.mpr (.inr rfl), rfl, ?_, ?_⟩
    · intro template htemplate
      rcases hmem.mp htemplate with hold | rfl
      · exact .inr ⟨hold, Table.find?_eq_none.mp hfound template hold⟩
      · exact .inl rfl
    · exact fun template htemplate _ => hmem.mpr (.inl htemplate)

/-- What upserts of different days leave. -/
structure AllUpserted (s t : Store) (items : List Template)
    (rows : List ChannelRecurringSchedule) : Prop where
  schedules : t.schedules = s.schedules
  mem : ∀ row ∈ rows, row ∈ t.recurring
  days : rows.map (fun row => row.dayOfWeek) = items.map Template.dayOfWeek
  others : ∀ template ∈ t.recurring, template ∈ rows ∨
    template ∈ s.recurring ∧ template.dayOfWeek ∉ items.map Template.dayOfWeek
  kept : ∀ template ∈ s.recurring, template.dayOfWeek ∉ items.map Template.dayOfWeek →
    template ∈ t.recurring

/-- What the templates of a request do to the store. -/
theorem upsertAll_spec {items : List Template} {rows : List ChannelRecurringSchedule}
    (hdays : (items.map Template.dayOfWeek).Nodup) (h : upsertAll s items = .ok (t, rows)) :
    AllUpserted s t items rows := by
  induction items generalizing s rows with
  | nil =>
    simp only [upsertAll, pure_ok, Prod.mk.injEq] at h
    obtain ⟨rfl, rfl⟩ := h
    exact ⟨rfl, by simp, rfl, fun template htemplate => .inr ⟨htemplate, List.not_mem_nil⟩,
      fun template htemplate _ => htemplate⟩
  | cons item items ih =>
    simp only [upsertAll, bind_ok, pure_ok, Prod.mk.injEq, Prod.exists] at h
    obtain ⟨s₁, row, hfirst, s₂, rows', hrest, rfl, rfl⟩ := h
    rw [List.map_cons, List.nodup_cons] at hdays
    have hrow := upsert_spec hfirst
    have hrows := ih hdays.2 hrest
    refine ⟨hrows.schedules.trans hrow.schedules, ?_, ?_, ?_, ?_⟩
    · intro r hr
      rcases List.mem_cons.mp hr with rfl | hr
      · exact hrows.kept r hrow.mem (hrow.dayOfWeek ▸ hdays.1)
      · exact hrows.mem r hr
    · rw [List.map_cons, List.map_cons, hrow.dayOfWeek, hrows.days]
    · intro template htemplate
      rcases hrows.others template htemplate with hmem | ⟨hmem, hday⟩
      · exact .inl (List.mem_cons_of_mem _ hmem)
      · rcases hrow.others template hmem with rfl | ⟨hold, hne⟩
        · exact .inl List.mem_cons_self
        · refine .inr ⟨hold, fun hin => ?_⟩
          rcases List.mem_cons.mp hin with heq | hin
          · exact hne heq
          · exact hday hin
    · intro template htemplate hday
      rw [List.map_cons, List.mem_cons, not_or] at hday
      exact hrows.kept template (hrow.kept template htemplate hday.1) hday.2

/-- Where the templates are saved, occurrences are left up to today only. -/
theorem belongs_of_cleared {days : List DayOfWeek} (hs : Sound s now) {row : ChannelSchedule}
    {id : Nat}
    (hrow : row ∈ (deleteRemoved (hideUpcoming s now (generationRange now).1) days).schedules)
    (hid : Belongs row id) : row ∈ s.schedules ∧ kstDay row.startAt ≤ kstDay now := by
  obtain ⟨row', hrow', rfl⟩ := (Table.mem_update (k := by exact ⟨fun _ => rfl⟩)).mp hrow
  split at hid
  · exact absurd hid.recurring (Option.some_ne_none id).symm
  rename_i hkept
  rw [if_neg hkept] at *
  obtain ⟨old, hold, rfl⟩ := (Table.mem_update (k := by exact ⟨fun _ => rfl⟩)).mp hrow'
  split at hid
  · exact absurd hid.live (by simp)
  rename_i hshown
  rw [if_neg hshown] at *
  refine ⟨hold, ?_⟩
  by_contra hlater
  obtain ⟨template, htemplate, -, hoccurrence⟩ :=
    hs.upcoming old hold id hid (Int.not_le.mp hlater)
  refine hshown ⟨hid.live, ?_, template, htemplate, hoccurrence.recurring⟩
  unfold kstDay MS_PER_DAY at hlater
  unfold generationRange kstMidnight kstDay MS_PER_DAY
  simp only
  omega

/-- The items `parse` lets through are of different days. -/
theorem parse_days {value items : List Template} (h : parse value = .ok items) :
    (items.map Template.dayOfWeek).Nodup := by
  simp only [parse, bind_ok, ensure_ok, pure_ok] at h
  obtain ⟨-, -, parsed, -, -, hdays, rfl⟩ := h
  exact hdays

/-- What a save generates, and from what. -/
theorem save_spec {userId : Uuid} {value : List Template} (hs : Sound s now)
    (h : save s now userId value = .ok t) :
    ∃ (saved : Store) (rows : List ChannelRecurringSchedule) (new : List ChannelSchedule),
      Sound saved now ∧ Generated saved t now (rows.filter fun row => row.isActive) new ∧
        ∀ template, template ∈ saved.recurring ↔ template ∈ rows := by
  simp only [save, bind_ok, Prod.exists] at h
  obtain ⟨items, hparse, -, -, saved, rows, hupserts, hgenerate⟩ := h
  have hdays := parse_days hparse
  have hsaved := upsertAll_spec hdays hupserts
  have hfilter : ((rows.filter fun row => row.isActive).map fun row => row.dayOfWeek).Nodup := by
    have hrows : (rows.map fun row => row.dayOfWeek).Nodup := hsaved.days ▸ hdays
    exact hrows.sublist (List.filter_sublist.map _)
  obtain ⟨new, hnew⟩ := generate_spec hfilter hgenerate
  have hcleared : ∀ row ∈ saved.schedules, ∀ id, Belongs row id →
      row ∈ s.schedules ∧ kstDay row.startAt ≤ kstDay now := fun row hrow id hid =>
    belongs_of_cleared hs (hsaved.schedules ▸ hrow) hid
  refine ⟨saved, rows, new, ⟨?_, ?_, ?_⟩, hnew, ?_⟩
  · intro row hrow id hid hupcoming
    have := (hcleared row hrow id hid).2
    omega
  · intro row hrow id hid
    exact hs.within row (hcleared row hrow id hid).1 id hid
  · intro row hrow row' hrow' id hid hid'
    exact hs.one row (hcleared row hrow id hid).1 row' (hcleared row' hrow' id hid').1 id hid hid'
  · intro template
    constructor
    · intro htemplate
      rcases hsaved.others template htemplate with hmem | ⟨hmem, hday⟩
      · exact hmem
      · have := (Table.mem_delete.mp hmem).2
        exact absurd hday this
    · exact hsaved.mem template

end Saving

/-! ## Every step -/

section Steps

variable {s t : Store} {userId : Uuid} {id : Nat} {parsed : ScheduleInput}

/-- The live row of an id. -/
theorem liveRow_iff {row : ChannelSchedule} :
    liveRow s id = some row ↔ row ∈ s.schedules ∧ row.id = id ∧ row.isDeleted = false := by
  constructor
  · intro h
    exact ⟨Table.mem_of_find? h, Table.holds_of_find?
      (p := fun row : ChannelSchedule => row.id = id ∧ row.isDeleted = false) h⟩
  · rintro ⟨hmem, hid, hlive⟩
    refine Table.find?_eq_some hmem ⟨hid, hlive⟩ (k := id) (hid ▸ List.mem_cons_self) ?_
    rintro other ⟨rfl, -⟩
    exact List.mem_cons_self

/-- A touched occurrence is that of a live row of a template. -/
theorem mem_touches {p : Nat × Int} (h : p ∈ touches s id) :
    ∃ row ∈ s.schedules, row.id = id ∧ Belongs row p.1 ∧ p.2 = kstDay row.startAt := by
  unfold touches at h
  cases hrow : liveRow s id with
  | none =>
    rw [hrow] at h
    exact absurd h List.not_mem_nil
  | some row =>
    obtain ⟨hmem, hid, hlive⟩ := liveRow_iff.mp hrow
    rw [hrow] at h
    obtain ⟨template, htemplate, rfl⟩ := Option.map_eq_some_iff.mp (Option.mem_toList.mp h)
    exact ⟨row, hmem, hid, ⟨hlive, htemplate⟩, rfl⟩

/-- A schedule entered by hand belongs to no template. -/
theorem create_spec {title : String} {startAt : Int}
    (h : create s userId title startAt parsed = .ok t) :
    t.recurring = s.recurring ∧ ∃ row, row.recurringScheduleId = none ∧
      ∀ row', row' ∈ t.schedules ↔ row' ∈ s.schedules ∨ row' = row := by
  simp only [create, bind_ok, ensure_ok, require_ok, pure_ok] at h
  obtain ⟨-, -, -, -, id, -, schedules, hinsert, rfl⟩ := h
  exact ⟨rfl, _, rfl, fun row' => Table.mem_insert hinsert⟩

/-- An update leaves the other rows and takes the row from its template. -/
theorem update_spec (h : update s userId id parsed = .ok t) :
    t.recurring = s.recurring ∧ (∃ row, liveRow s id = some row) ∧
      ∀ row', row' ∈ t.schedules ↔
        ∃ row ∈ s.schedules, row' = if row.id = id then parsed.apply row else row := by
  simp only [update, bind_ok, ensure_ok, require_ok, pure_ok] at h
  obtain ⟨-, -, -, -, row, hrow, -, -, rfl⟩ := h
  exact ⟨rfl, ⟨row, hrow⟩, fun row' => Table.mem_update (k := by exact ⟨fun _ => rfl⟩)⟩

/-- A removal leaves the other rows and hides the row. -/
theorem remove_spec (h : remove s now userId id = .ok t) :
    t.recurring = s.recurring ∧ (∃ row, liveRow s id = some row) ∧
      ∀ row', row' ∈ t.schedules ↔ ∃ row ∈ s.schedules,
        row' = if row.id = id ∧ row.isDeleted = false then
          { row with isDeleted := true, deletedAt := some now } else row := by
  simp only [remove, bind_ok, ensure_ok, pure_ok] at h
  obtain ⟨-, -, -, ⟨row, hrow, hid⟩, rfl⟩ := h
  exact ⟨rfl, ⟨row, liveRow_iff.mpr ⟨hrow, hid⟩⟩, fun row' => Table.mem_update (k := by exact ⟨fun _ => rfl⟩)⟩

/-- An edit adds no occurrence to a template. -/
theorem update_belongs (h : update s userId id parsed = .ok t) :
    ∀ row ∈ t.schedules, ∀ template, Belongs row template → row ∈ s.schedules := by
  intro row hrow template hbelongs
  obtain ⟨old, hold, rfl⟩ := ((update_spec h).2.2 row).mp hrow
  split at hbelongs
  · exact absurd hbelongs.recurring (Option.some_ne_none template).symm
  · rename_i hid
    rw [if_neg hid]
    exact hold

/-- A removal adds no occurrence to a template. -/
theorem remove_belongs (h : remove s now userId id = .ok t) :
    ∀ row ∈ t.schedules, ∀ template, Belongs row template → row ∈ s.schedules := by
  intro row hrow template hbelongs
  obtain ⟨old, hold, rfl⟩ := ((remove_spec h).2.2 row).mp hrow
  split at hbelongs
  · exact absurd hbelongs.live (by simp)
  · rename_i hid
    rw [if_neg hid]
    exact hold

end Steps

variable {ok : State → Command → Prop} {c : Command}

/-- The touched occurrences are not past the range. -/
def TouchedWithin (s : State) : Prop := ∀ p ∈ s.touched, p.2 ≤ lastDay (kstDay s.now)

/-- An edited or removed occurrence is within the range. -/
theorem touches_within {s : State} {id : Nat} (hs : Sound s.store s.now) (ht : TouchedWithin s) :
    ∀ p ∈ touches s.store id ++ s.touched, p.2 ≤ lastDay (kstDay s.now) := by
  intro p hp
  rcases List.mem_append.mp hp with hp | hp
  · obtain ⟨row, hrow, -, hbelongs, heq⟩ := mem_touches hp
    rw [heq]
    exact hs.within row hrow p.1 hbelongs
  · exact ht p hp

/-- A step keeps the invariant. -/
theorem exec_sound (h : exec c s = .ok t) (hs : Sound s.store s.now) (ht : TouchedWithin s) :
    Sound t.store t.now ∧ TouchedWithin t := by
  cases c with
  | wait later =>
    simp only [exec, bind_ok, ensure_ok, pure_ok] at h
    obtain ⟨-, hlater, rfl⟩ := h
    refine ⟨hs.mono hlater rfl fun row hrow _ _ => hrow, fun p hp => (ht p hp).trans ?_⟩
    exact lastDay_mono (kstDay_mono hlater)
  | bind ownerId enabled =>
    obtain rfl := pure_ok.mp h
    exact ⟨hs.mono (Int.le_refl _) rfl fun row hrow _ _ => hrow, ht⟩
  | save userId schedules =>
    simp only [exec, bind_ok, pure_ok] at h
    obtain ⟨store, hsave, rfl⟩ := h
    obtain ⟨saved, rows, new, hsaved, hnew, hrows⟩ := save_spec hs hsave
    refine ⟨hnew.sound hsaved fun template htemplate => ?_, ht⟩
    obtain ⟨hmem, hactive⟩ := List.mem_filter.mp htemplate
    exact ⟨(hrows template).mpr hmem, hactive⟩
  | refresh =>
    simp only [exec, bind_ok, pure_ok] at h
    obtain ⟨store, hrefresh, rfl⟩ := h
    obtain ⟨new, hnew | rfl⟩ := refreshUpcoming_spec hrefresh
    · exact ⟨hnew.sound hs fun template => Table.mem_select.mp, ht⟩
    · exact ⟨hs, ht⟩
  | create userId title startAt parsed =>
    simp only [exec, bind_ok, pure_ok] at h
    obtain ⟨store, hcreate, rfl⟩ := h
    obtain ⟨hrecurring, row, hnone, hmem⟩ := create_spec hcreate
    refine ⟨hs.mono (Int.le_refl _) hrecurring fun row' hrow id hid => ?_, ht⟩
    rcases (hmem row').mp hrow with hold | rfl
    · exact hold
    · exact absurd (hnone.symm.trans hid.recurring) (Option.some_ne_none id).symm
  | update userId id parsed =>
    simp only [exec, bind_ok, pure_ok] at h
    obtain ⟨store, hupdate, rfl⟩ := h
    exact ⟨hs.mono (Int.le_refl _) (update_spec hupdate).1 (update_belongs hupdate),
      touches_within hs ht⟩
  | remove userId id =>
    simp only [exec, bind_ok, pure_ok] at h
    obtain ⟨store, hremove, rfl⟩ := h
    exact ⟨hs.mono (Int.le_refl _) (remove_spec hremove).1 (remove_belongs hremove),
      touches_within hs ht⟩

/-- Every run keeps a channel sound. -/
theorem reachable_sound (h : (recurringSystem ok).Reachable s) :
    Sound s.store s.now ∧ TouchedWithin s := by
  refine h.induct (P := fun s => Sound s.store s.now ∧ TouchedWithin s)
    ⟨?_, ?_⟩
  case refine_2 =>
    intro s t c _ hs hstep
    exact exec_sound hstep.1 hs.1 hs.2
  rintro s ⟨hnone, htouched⟩
  have hbelongs : ∀ row ∈ s.store.schedules, ∀ id, ¬Belongs row id := fun row hrow id hid =>
    absurd ((hnone row hrow).symm.trans hid.recurring) (Option.some_ne_none id).symm
  refine ⟨⟨?_, ?_, ?_⟩, ?_⟩
  · exact fun row hrow id hid => absurd hid (hbelongs row hrow id)
  · exact fun row hrow id hid => absurd hid (hbelongs row hrow id)
  · exact fun row hrow _ _ id hid => absurd hid (hbelongs row hrow id)
  · intro p hp
    rw [htouched] at hp
    exact absurd hp List.not_mem_nil

end Rogichat.Recurring
