import Rogichat.Recurring.Model

/-!
# What a generation does

A generation adds an occurrence on every day of its range that a template is for and no live row
starts with. Nothing else changes, and a second one finds every start taken.

* **`generate_spec`** — the rows a generation adds.
* **`refreshUpcoming_idem`** — refreshing twice is refreshing once.
-/

namespace Rogichat.Recurring

open Lib

/-! ## Days -/

/-- An occurrence starts within its day. -/
theorem startAt_bounds (template : Template) (day : Int) :
    kstMidnight day ≤ template.startAt day ∧
      template.startAt day ≤ kstMidnight day + (23 * 60 + 59) * 60000 := by
  unfold Template.startAt
  split
  · rename_i time _
    have hhour := time.hour.isLt
    have hminute := time.minute.isLt
    omega
  · omega

/-- An occurrence is on the day it was made for. -/
@[simp] theorem kstDay_startAt (template : Template) (day : Int) :
    kstDay (template.startAt day) = day := by
  have hbounds := startAt_bounds template day
  unfold kstMidnight MS_PER_DAY at hbounds
  unfold kstDay MS_PER_DAY
  omega

/-- The end of the range never moves back. -/
theorem lastDay_mono {today later : Int} (h : today ≤ later) : lastDay today ≤ lastDay later := by
  unfold lastDay
  omega

/-- The days of a generation. -/
def Upcoming (now day : Int) : Prop := kstDay now < day ∧ day ≤ lastDay (kstDay now)

/-- The loop goes through the midnights of the range. -/
theorem mem_days {now current : Int} :
    current ∈ steps (generationRange now).1 (generationRange now).2 MS_PER_DAY ↔
      ∃ day, Upcoming now day ∧ current = kstMidnight day := by
  rw [mem_steps (by decide)]
  unfold generationRange Upcoming kstMidnight
  constructor
  · rintro ⟨i, rfl, hi⟩
    unfold MS_PER_DAY at *
    exact ⟨kstDay now + 1 + i, by omega, by omega⟩
  · rintro ⟨day, hday, rfl⟩
    unfold MS_PER_DAY at *
    exact ⟨(day - (kstDay now + 1)).toNat, by omega, by omega⟩

/-- The range holds exactly the starts of its days. -/
theorem startAt_range {now day : Int} (template : Template) (h : Upcoming now day) :
    (generationRange now).1 ≤ template.startAt day ∧
      template.startAt day ≤ (generationRange now).2 := by
  have hbounds := startAt_bounds template day
  unfold Upcoming at h
  unfold generationRange kstMidnight MS_PER_DAY at *
  simp only
  omega

/-! ## A round -/

/-- The occurrence of a template on a day. -/
structure Occurrence (template : ChannelRecurringSchedule) (day : Int) (row : ChannelSchedule) :
    Prop where
  recurring : row.recurringScheduleId = some template.id
  live : row.isDeleted = false
  dayOfWeek : dayOfWeek day = template.dayOfWeek
  startAt : row.startAt = template.startAt day

variable {author : Uuid} {byDay : List ChannelRecurringSchedule} {g g' : Generation}

/-- What rounds over some days add. -/
structure Rounds (byDay : List ChannelRecurringSchedule) (days : List Int) (g g' : Generation)
    (new : List ChannelSchedule) : Prop where
  created : g'.created = g.created ++ new
  starts : ∀ start, start ∈ g'.starts ↔ start ∈ g.starts ∨ ∃ row ∈ new, row.startAt = start
  occurrence : ∀ row ∈ new, ∃ current ∈ days, ∃ template ∈ byDay,
    Occurrence template (kstDay current) row
  free : ∀ row ∈ new, row.startAt ∉ g.starts
  apart : new.Pairwise fun row row' => row.startAt ≠ row'.startAt
  filled : ∀ current ∈ days, ∀ template,
    Keyed.at? (fun row => row.dayOfWeek) byDay (dayOfWeek (kstDay current)) = some template →
    template.startAt (kstDay current) ∈ g'.starts

/-- A day of the loop adds the rows of that day. -/
theorem generateDay_rounds {current : Int}
    (h : generateDay author byDay g current = .ok g') :
    ∃ new, Rounds byDay [current] g g' new := by
  unfold generateDay at h
  simp only at h
  cases hfound : Keyed.at? (fun row => row.dayOfWeek) byDay (dayOfWeek (kstDay current)) with
  | none =>
    rw [hfound] at h
    obtain rfl := pure_ok.mp h
    refine ⟨[], ⟨(List.append_nil _).symm, by simp, by simp, by simp, .nil, ?_⟩⟩
    intro day hday template htemplate
    rw [List.mem_singleton.mp hday, hfound] at htemplate
    exact absurd htemplate (Option.some_ne_none _).symm
  | some template =>
    rw [hfound] at h
    simp only at h
    have hthis : ∀ day ∈ [current], ∀ template',
        Keyed.at? (fun row => row.dayOfWeek) byDay (dayOfWeek (kstDay day)) = some template' →
          template'.startAt (kstDay day) = template.startAt (kstDay current) := by
      intro day hday template' htemplate
      rw [List.mem_singleton.mp hday, hfound] at htemplate
      rw [List.mem_singleton.mp hday, Option.some.inj htemplate]
    -- a start that is taken is not generated twice
    by_cases htaken : template.startAt (kstDay current) ∈ g.starts
    · rw [if_pos htaken] at h
      obtain rfl := pure_ok.mp h
      refine ⟨[], ⟨(List.append_nil _).symm, by simp, by simp, by simp, .nil, ?_⟩⟩
      intro day hday template' htemplate
      rw [hthis day hday template' htemplate]
      exact htaken
    · rw [if_neg htaken, bind_ok] at h
      obtain ⟨id, -, h⟩ := h
      obtain rfl := pure_ok.mp h
      obtain ⟨hmem, hday⟩ := Keyed.mem_of_at? hfound
      refine ⟨[_], ⟨rfl, ?_, ?_, ?_, List.pairwise_singleton _ _, ?_⟩⟩
      · intro start
        simp only [List.mem_cons, List.not_mem_nil, or_false, exists_eq_left]
        rw [or_comm, eq_comm]
      · intro row hrow
        obtain rfl := List.mem_singleton.mp hrow
        exact ⟨current, List.mem_singleton_self _, template, hmem, rfl, rfl, hday.symm, rfl⟩
      · intro row hrow
        obtain rfl := List.mem_singleton.mp hrow
        exact htaken
      · intro day hday template' htemplate
        rw [hthis day hday template' htemplate]
        exact List.mem_cons_self

/-- The loop adds the rows of its days. -/
theorem generateDays_rounds {days : List Int}
    (h : days.foldlM (generateDay author byDay) g = .ok g') :
    ∃ new, Rounds byDay days g g' new := by
  induction days generalizing g with
  | nil =>
    obtain rfl := pure_ok.mp h
    exact ⟨[], ⟨(List.append_nil _).symm, by simp, by simp, by simp, .nil, by simp⟩⟩
  | cons current days ih =>
    rw [List.foldlM_cons, bind_ok] at h
    obtain ⟨g₁, hfirst, hrest⟩ := h
    obtain ⟨new, hnew⟩ := generateDay_rounds hfirst
    obtain ⟨new', hnew'⟩ := ih hrest
    refine ⟨new ++ new', ⟨?_, ?_, ?_, ?_, ?_, ?_⟩⟩
    · rw [hnew'.created, hnew.created, List.append_assoc]
    · intro start
      rw [hnew'.starts, hnew.starts, or_assoc]
      simp only [List.mem_append, or_and_right, exists_or]
    · intro row hrow
      rcases List.mem_append.mp hrow with hrow | hrow
      · obtain ⟨day, hday, hoccurrence⟩ := hnew.occurrence row hrow
        exact ⟨day, List.mem_singleton.mp hday ▸ List.mem_cons_self, hoccurrence⟩
      · obtain ⟨day, hday, hoccurrence⟩ := hnew'.occurrence row hrow
        exact ⟨day, List.mem_cons_of_mem _ hday, hoccurrence⟩
    · intro row hrow
      rcases List.mem_append.mp hrow with hrow | hrow
      · exact hnew.free row hrow
      · exact fun hold => hnew'.free row hrow ((hnew.starts _).mpr (.inl hold))
    · rw [List.pairwise_append]
      refine ⟨hnew.apart, hnew'.apart, fun row hrow row' hrow' heq => ?_⟩
      exact hnew'.free row' hrow' ((hnew.starts _).mpr (.inr ⟨row, hrow, heq⟩))
    · intro day hday template htemplate
      rcases List.mem_cons.mp hday with rfl | hday
      · exact (hnew'.starts _).mpr
          (.inl (hnew.filled day (List.mem_singleton_self _) template htemplate))
      · exact hnew'.filled day hday template htemplate

/-- Where every start is taken, the loop does nothing. -/
theorem generateDays_filled {days : List Int} (h : ∀ current ∈ days, ∀ template,
    Keyed.at? (fun row => row.dayOfWeek) byDay (dayOfWeek (kstDay current)) = some template →
      template.startAt (kstDay current) ∈ g.starts) :
    days.foldlM (generateDay author byDay) g = .ok g := by
  induction days with
  | nil => rfl
  | cons current days ih =>
    have hfirst : generateDay author byDay g current = .ok g := by
      unfold generateDay
      simp only
      cases hfound :
          Keyed.at? (fun row => row.dayOfWeek) byDay (dayOfWeek (kstDay current)) with
      | none => rfl
      | some template => exact if_pos (h current List.mem_cons_self template hfound)
    rw [List.foldlM_cons, hfirst, ok_bind]
    exact ih fun day hday => h day (List.mem_cons_of_mem _ hday)

/-! ## A generation -/

/-- A live row starts then. -/
def Taken (s : Store) (start : Int) : Prop :=
  ∃ row ∈ s.schedules, row.isDeleted = false ∧ row.startAt = start

/-- What a generation adds to the rows. -/
structure Generated (s t : Store) (now : Int) (templates : List ChannelRecurringSchedule)
    (new : List ChannelSchedule) : Prop where
  recurring : t.recurring = s.recurring
  ownerId : t.ownerId = s.ownerId
  rows : ∀ row, row ∈ t.schedules ↔ row ∈ s.schedules ∨ row ∈ new
  fresh : ∀ row ∈ new, row ∉ s.schedules
  occurrence : ∀ row ∈ new, ∃ day, Upcoming now day ∧ ∃ template ∈ templates,
    Occurrence template day row
  free : ∀ row ∈ new, ¬Taken s row.startAt
  apart : new.Pairwise fun row row' => row.startAt ≠ row'.startAt
  filled : ∀ template ∈ templates, ∀ day, Upcoming now day → dayOfWeek day = template.dayOfWeek →
    Taken t (template.startAt day)

section Generate

variable {s t : Store} {now : Int} {templates : List ChannelRecurringSchedule}

/-- The starts the loop begins with are those taken by live rows. -/
theorem mem_starts {from_ to_ start : Int} :
    start ∈ (s.schedules.select fun row =>
        row.isDeleted = false ∧ from_ ≤ row.startAt ∧ row.startAt ≤ to_).map
      ChannelSchedule.startAt ↔ Taken s start ∧ from_ ≤ start ∧ start ≤ to_ := by
  rw [List.mem_map]
  constructor
  · rintro ⟨row, hrow, rfl⟩
    obtain ⟨hmem, hlive, hrange⟩ := Table.mem_select.mp hrow
    exact ⟨⟨row, hmem, hlive, rfl⟩, hrange⟩
  · rintro ⟨⟨row, hmem, hlive, rfl⟩, hrange⟩
    exact ⟨row, Table.mem_select.mpr ⟨hmem, hlive, hrange⟩, rfl⟩

/-- What `generate` does to the store. -/
theorem generate_spec (hdays : (templates.map fun row => row.dayOfWeek).Nodup)
    (h : generate s author templates (generationRange now).1 (generationRange now).2 = .ok t) :
    ∃ new, Generated s t now templates new := by
  simp only [generate, bind_ok, require_ok, pure_ok] at h
  obtain ⟨g, hrounds, schedules, hinsert, rfl⟩ := h
  rw [Keyed.ofList_of_nodup hdays] at hrounds
  obtain ⟨new, hnew⟩ := generateDays_rounds hrounds
  have hcreated : g.created = new := hnew.created
  have hoccurrence : ∀ row ∈ new, ∃ day, Upcoming now day ∧ ∃ template ∈ templates,
      Occurrence template day row := by
    intro row hrow
    obtain ⟨current, hcurrent, template, htemplate, hrow⟩ := hnew.occurrence row hrow
    obtain ⟨day, hday, rfl⟩ := mem_days.mp hcurrent
    rw [kstDay_kstMidnight] at hrow
    exact ⟨day, hday, template, htemplate, hrow⟩
  refine ⟨new, ⟨rfl, rfl, fun row => ?_, ?_, hoccurrence, ?_, hnew.apart, ?_⟩⟩
  · rw [← hcreated]
    exact Table.mem_insertAll hinsert
  · intro row hrow hold
    exact Table.fresh_of_insertAll hinsert (hcreated ▸ hrow) hold
      ⟨row.id, List.mem_singleton_self _, List.mem_singleton_self _⟩
  · intro row hrow htaken
    obtain ⟨day, hday, template, -, hrow'⟩ := hoccurrence row hrow
    apply hnew.free row hrow
    rw [mem_starts, hrow'.startAt]
    exact ⟨hrow'.startAt ▸ htaken, startAt_range template.toTemplate hday⟩
  · intro template htemplate day hday hweek
    have hfound : Keyed.at? (fun row : ChannelRecurringSchedule => row.dayOfWeek) templates
        (dayOfWeek day) = some template := hweek ▸ Keyed.at?_of_mem hdays htemplate
    have hstart := hnew.filled (kstMidnight day) (mem_days.mpr ⟨day, hday, rfl⟩) template
    rw [kstDay_kstMidnight] at hstart
    rcases (hnew.starts _).mp (hstart hfound) with hold | ⟨row, hrow, heq⟩
    · obtain ⟨⟨row, hmem, hlive, heq⟩, -⟩ := mem_starts.mp hold
      exact ⟨row, (Table.mem_insertAll hinsert).mpr (.inl hmem), hlive, heq⟩
    · obtain ⟨day', -, template', -, hrow'⟩ := hoccurrence row hrow
      exact ⟨row, (Table.mem_insertAll hinsert).mpr (.inr (hcreated ▸ hrow)), hrow'.live, heq⟩

/-- A generation changes nothing where every start is taken. -/
theorem generate_filled (hdays : (templates.map fun row => row.dayOfWeek).Nodup)
    (h : ∀ template ∈ templates, ∀ day, Upcoming now day → dayOfWeek day = template.dayOfWeek →
      Taken s (template.startAt day)) :
    generate s author templates (generationRange now).1 (generationRange now).2 = .ok s := by
  have hfilled := @generateDays_filled author templates
    ⟨(s.schedules.select fun row => row.isDeleted = false ∧
        (generationRange now).1 ≤ row.startAt ∧ row.startAt ≤ (generationRange now).2).map
      ChannelSchedule.startAt, s.counter, []⟩
    (steps (generationRange now).1 (generationRange now).2 MS_PER_DAY) (by
      intro current hcurrent template hfound
      obtain ⟨day, hday, rfl⟩ := mem_days.mp hcurrent
      obtain ⟨hmem, hweek⟩ := Keyed.mem_of_at? hfound
      rw [kstDay_kstMidnight] at hweek ⊢
      rw [mem_starts]
      exact ⟨h template hmem day hday hweek.symm, startAt_range template.toTemplate hday⟩)
  unfold generate
  simp only [Keyed.ofList_of_nodup hdays]
  rw [hfilled]
  rfl

/-- Templates are for different days. -/
theorem days_nodup (p : ChannelRecurringSchedule → Prop) [DecidablePred p] :
    ((s.recurring.select p).map fun row => row.dayOfWeek).Nodup := by
  have hrows : (s.recurring.rows.map fun row => row.dayOfWeek).Nodup := by
    rw [List.Nodup, List.pairwise_map]
    refine s.recurring.unique.imp fun hclash heq => hclash ?_
    exact ⟨_, List.mem_cons_of_mem _ List.mem_cons_self,
      heq ▸ List.mem_cons_of_mem _ List.mem_cons_self⟩
  exact hrows.sublist (List.filter_sublist.map _)

/-- A refresh generates for the active templates, or does nothing without an owner. -/
theorem refreshUpcoming_spec (h : refreshUpcoming s now = .ok t) :
    ∃ new, Generated s t now (s.recurring.select fun row => row.isActive = true) new ∨
      t = s := by
  unfold refreshUpcoming at h
  cases howner : s.ownerId with
  | none =>
    rw [howner] at h
    exact ⟨[], .inr (pure_ok.mp h).symm⟩
  | some ownerId =>
    rw [howner] at h
    simp only at h
    by_cases hempty : (s.recurring.select fun row => row.isActive = true).isEmpty
    · rw [if_pos hempty] at h
      exact ⟨[], .inr (pure_ok.mp h).symm⟩
    · rw [if_neg hempty] at h
      obtain ⟨new, hnew⟩ := generate_spec (days_nodup _) h
      exact ⟨new, .inl hnew⟩

/-- A second refresh changes nothing. -/
theorem refreshUpcoming_idem (h : refreshUpcoming s now = .ok t) :
    refreshUpcoming t now = .ok t := by
  obtain ⟨new, hnew | rfl⟩ := refreshUpcoming_spec h
  · unfold refreshUpcoming
    cases howner : t.ownerId with
    | none => rfl
    | some ownerId =>
      simp only
      rw [hnew.recurring]
      by_cases hempty : (s.recurring.select fun row => row.isActive = true).isEmpty
      · rw [if_pos hempty]
        rfl
      · rw [if_neg hempty]
        exact generate_filled (days_nodup _) hnew.filled
  · exact h

end Generate

end Rogichat.Recurring
