import Rogichat.Recurring.System

/-!
# The owner's edits and later refreshes

A refresh compares the starts of live rows only. An occurrence the owner removed or edited stays
gone as long as some live row holds its start; once none does, the next refresh brings it back.

* **`refreshUpcoming_untouched`**, **`refreshUpcoming_recreates`** — when a refresh creates a
  touched occurrence again.
* **`exec_filled`** — commands that take no last row away keep the starts held.
* **`refreshes`** — every run.
-/

namespace Rogichat.Recurring

open Lib

variable {s t : State} {now : Int} {ok : State → Command → Prop} {c : Command}

/-- An occurrence of an active template that is still to come. -/
structure ToCome (s : State) (template : ChannelRecurringSchedule) (day : Int) : Prop where
  mem : template ∈ s.store.recurring
  active : template.isActive = true
  later : kstDay s.now < day
  dayOfWeek : dayOfWeek day = template.dayOfWeek

/-- Some live row holds the start of every touched occurrence to come. -/
def Filled (s : State) : Prop :=
  ∀ p ∈ s.touched, ∀ template, ToCome s template p.2 → template.id = p.1 →
    Taken s.store (template.startAt p.2)

/-- The only live row at the start of an occurrence to come that is touched, or is this row. -/
def LastAt (s : State) (row : ChannelSchedule) : Prop :=
  ∃ template day, ToCome s template day ∧ row.startAt = template.startAt day ∧
    (row.recurringScheduleId = some template.id ∨ (template.id, day) ∈ s.touched) ∧
    ∀ other ∈ s.store.schedules, other.isDeleted = false → other.startAt = row.startAt →
      other = row

/-- The command removes or moves no such row. -/
def KeepsStarts (s : State) : Command → Prop
  | .update _ id parsed => ∀ row, liveRow s.store id = some row →
    parsed.startAt.getD row.startAt ≠ row.startAt → ¬LastAt s row
  | .remove _ id => ∀ row, liveRow s.store id = some row → ¬LastAt s row
  | _ => True

/-! ## A refresh -/

section Refresh

variable {store : Store}

/-- No refresh creates a touched occurrence whose start is held. -/
theorem refreshUpcoming_untouched (hs : Filled s)
    (h : refreshUpcoming s.store s.now = .ok store) {row : ChannelSchedule}
    (hrow : row ∈ store.schedules) (hnew : row ∉ s.store.schedules) {id : Nat}
    (hid : row.recurringScheduleId = some id) : (id, kstDay row.startAt) ∉ s.touched := by
  obtain ⟨new, hgenerated | rfl⟩ := refreshUpcoming_spec h
  · have hcreated := ((hgenerated.rows row).mp hrow).resolve_left hnew
    obtain ⟨day, hday, template, htemplate, hoccurrence⟩ := hgenerated.occurrence row hcreated
    obtain ⟨hmem, hactive⟩ := Table.mem_select.mp htemplate
    intro htouched
    apply hgenerated.free row hcreated
    rw [hoccurrence.startAt]
    rw [hoccurrence.kstDay] at htouched
    exact hs _ htouched template ⟨hmem, hactive, hday.1, hoccurrence.dayOfWeek⟩
      (Option.some.inj (hoccurrence.recurring.symm.trans hid))
  · exact absurd hrow hnew

/-- A refresh creates every occurrence of its range whose start no live row holds. -/
theorem refreshUpcoming_recreates {template : ChannelRecurringSchedule} {day : Int}
    (howner : s.store.ownerId ≠ none) (h : refreshUpcoming s.store s.now = .ok store)
    (hcome : ToCome s template day) (hday : day ≤ lastDay (kstDay s.now))
    (hfree : ¬Taken s.store (template.startAt day)) :
    ∃ row ∈ store.schedules, row ∉ s.store.schedules ∧ row.recurringScheduleId = some template.id ∧
      kstDay row.startAt = day := by
  have hselected : template ∈ s.store.recurring.select fun row => row.isActive = true :=
    Table.mem_select.mpr ⟨hcome.mem, hcome.active⟩
  unfold refreshUpcoming at h
  cases hbound : s.store.ownerId with
  | none => exact absurd hbound howner
  | some ownerId =>
    rw [hbound] at h
    simp only at h
    rw [if_neg (by rw [List.isEmpty_iff]; exact List.ne_nil_of_mem hselected)] at h
    obtain ⟨new, hnew⟩ := generate_spec (days_nodup _) h
    obtain ⟨row, hrow, hlive, hstart⟩ :=
      hnew.filled template hselected day ⟨hcome.later, hday⟩ hcome.dayOfWeek
    have hcreated : row ∉ s.store.schedules := fun hold => hfree ⟨row, hold, hlive, hstart⟩
    obtain ⟨day', -, template', htemplate', hoccurrence⟩ :=
      hnew.occurrence row (((hnew.rows row).mp hrow).resolve_left hcreated)
    have hsame : day' = day := by
      rw [← hoccurrence.kstDay, hstart, kstDay_startAt]
    subst hsame
    obtain rfl : template' = template := Table.eq_of_key (Table.mem_select.mp htemplate').1
      hcome.mem (k := .inr template'.dayOfWeek) (List.mem_cons_of_mem _ List.mem_cons_self)
      (by rw [← hoccurrence.dayOfWeek, hcome.dayOfWeek]
          exact List.mem_cons_of_mem _ List.mem_cons_self)
    exact ⟨row, hrow, hcreated, hoccurrence.recurring, hoccurrence.kstDay⟩

end Refresh

/-! ## A step -/

/-- More rows hold more starts. -/
theorem Filled.mono {store : Store} {later : Int} (h : Filled s) (hlater : s.now ≤ later)
    (hrecurring : store.recurring = s.store.recurring)
    (hrows : ∀ row ∈ s.store.schedules, row ∈ store.schedules) :
    Filled { s with store, now := later } := by
  intro p hp template hcome hid
  have hnow := kstDay_mono hlater
  obtain ⟨row, hrow, hheld⟩ := h p hp template
    ⟨hrecurring ▸ hcome.mem, hcome.active, lt_of_le_of_lt hnow hcome.later, hcome.dayOfWeek⟩ hid
  exact ⟨row, hrows row hrow, hheld⟩

/-- A touched occurrence to come is held before the row is edited, if need be by the row. -/
theorem held_before {id : Nat} (hs : Sound s.store s.now) (hf : Filled s) {p : Nat × Int}
    (hp : p ∈ touches s.store id ++ s.touched) {template : ChannelRecurringSchedule}
    (hcome : ToCome s template p.2) (hid : template.id = p.1) :
    ∃ row ∈ s.store.schedules, row.isDeleted = false ∧ row.startAt = template.startAt p.2 ∧
      (row.id = id → row.recurringScheduleId = some template.id ∨
        (template.id, p.2) ∈ s.touched) := by
  rcases List.mem_append.mp hp with hp | hp
  · obtain ⟨row, hrow, -, hbelongs, hday⟩ := mem_touches hp
    obtain ⟨template', hmem, -, hoccurrence⟩ :=
      hs.upcoming row hrow p.1 hbelongs (hday ▸ hcome.later)
    have hsame : template'.id = template.id :=
      (Option.some.inj (hoccurrence.recurring.symm.trans hbelongs.recurring)).trans hid.symm
    obtain rfl : template' = template := Table.eq_of_key hmem hcome.mem
      (k := .inl template'.id) List.mem_cons_self (hsame ▸ List.mem_cons_self)
    exact ⟨row, hrow, hbelongs.live, hday ▸ hoccurrence.startAt,
      fun _ => .inl hoccurrence.recurring⟩
  · obtain ⟨row, hrow, hlive, hstart⟩ := hf p hp template hcome hid
    exact ⟨row, hrow, hlive, hstart, fun _ => .inr (hid ▸ hp)⟩

/-- An edit of one row keeps the starts held unless the row was the last one at its start. -/
theorem filled_edit {store : Store} {id : Nat} {row : ChannelSchedule}
    (hs : Sound s.store s.now) (hf : Filled s) (hrow : liveRow s.store id = some row)
    (hrecurring : store.recurring = s.store.recurring)
    (hothers : ∀ other ∈ s.store.schedules, other.id ≠ id → other ∈ store.schedules)
    (hkeeps : Taken store row.startAt ∨ ¬LastAt s row) :
    Filled { s with store, touched := touches s.store id ++ s.touched } := by
  intro p hp template hcome hid
  have hbefore : ToCome s template p.2 :=
    ⟨hrecurring ▸ hcome.mem, hcome.active, hcome.later, hcome.dayOfWeek⟩
  obtain ⟨held, hheld, hlive, hstart, htouched⟩ := held_before hs hf hp hbefore hid
  by_cases hsame : held.id = id
  · obtain rfl : held = row :=
      Option.some.inj ((liveRow_iff.mpr ⟨hheld, hsame, hlive⟩).symm.trans hrow)
    rcases hkeeps with htaken | hnot
    · exact hstart ▸ htaken
    · -- another live row starts then, and an edit leaves it
      by_contra hgone
      refine hnot ⟨template, p.2, hbefore, hstart, htouched hsame, fun other hother hlive' heq => ?_⟩
      by_cases hother' : other.id = id
      · exact Option.some.inj ((liveRow_iff.mpr ⟨hother, hother', hlive'⟩).symm.trans hrow)
      · exact absurd ⟨other, hothers other hother hother', hlive', heq.trans hstart⟩ hgone
  · exact ⟨held, hothers held hheld hsame, hlive, hstart⟩

/-- A step keeps the starts held, unless it takes the last row of one away. -/
theorem exec_filled (h : exec c s = .ok t) (hok : KeepsStarts s c) (hs : Sound s.store s.now)
    (hw : TouchedWithin s) (hf : Filled s) : Filled t := by
  cases c with
  | wait later =>
    simp only [exec, bind_ok, ensure_ok, pure_ok] at h
    obtain ⟨-, hlater, rfl⟩ := h
    exact hf.mono hlater rfl fun row hrow => hrow
  | bind ownerId enabled =>
    obtain rfl := pure_ok.mp h
    exact hf.mono (Int.le_refl _) rfl fun row hrow => hrow
  | save userId schedules =>
    simp only [exec, bind_ok, pure_ok] at h
    obtain ⟨store, hsave, rfl⟩ := h
    obtain ⟨saved, rows, new, -, hnew, hrows⟩ := save_spec hs hsave
    -- saving clears what is to come and generates it anew
    intro p hp template hcome hid
    have hmem : template ∈ saved.recurring := hnew.recurring ▸ hcome.mem
    exact hnew.filled template
      (List.mem_filter.mpr ⟨(hrows template).mp hmem, hcome.active⟩) p.2
      ⟨hcome.later, hw p hp⟩ hcome.dayOfWeek
  | refresh =>
    simp only [exec, bind_ok, pure_ok] at h
    obtain ⟨store, hrefresh, rfl⟩ := h
    obtain ⟨new, hnew | rfl⟩ := refreshUpcoming_spec hrefresh
    · exact hf.mono (Int.le_refl _) hnew.recurring fun row hrow => (hnew.rows row).mpr (.inl hrow)
    · exact hf
  | create userId title startAt parsed =>
    simp only [exec, bind_ok, pure_ok] at h
    obtain ⟨store, hcreate, rfl⟩ := h
    obtain ⟨hrecurring, row, -, hmem⟩ := create_spec hcreate
    exact hf.mono (Int.le_refl _) hrecurring fun row' hrow => (hmem row').mpr (.inl hrow)
  | update userId id parsed =>
    simp only [exec, bind_ok, pure_ok] at h
    obtain ⟨store, hupdate, rfl⟩ := h
    obtain ⟨hrecurring, ⟨row, hrow⟩, hmem⟩ := update_spec hupdate
    obtain ⟨hold, hid, hlive⟩ := liveRow_iff.mp hrow
    -- only a day whose own row is moved can lose its start
    refine filled_edit hs hf hrow hrecurring
      (fun other hother hne => (hmem other).mpr ⟨other, hother, (if_neg hne).symm⟩) ?_
    by_cases hmoved : parsed.startAt.getD row.startAt = row.startAt
    · exact .inl ⟨parsed.apply row, (hmem _).mpr ⟨row, hold, (if_pos hid).symm⟩, hlive, hmoved⟩
    · exact .inr (hok row hrow hmoved)
  | remove userId id =>
    simp only [exec, bind_ok, pure_ok] at h
    obtain ⟨store, hremove, rfl⟩ := h
    obtain ⟨hrecurring, ⟨row, hrow⟩, hmem⟩ := remove_spec hremove
    refine filled_edit hs hf hrow hrecurring
      (fun other hother hne => (hmem other).mpr
        ⟨other, hother, (if_neg fun hsame => hne hsame.1).symm⟩) (.inr (hok row hrow))

/-! ## Runs -/

/-- In a run of such steps every start to come stays held. -/
theorem reachable_filled (hok : ∀ s c, ok s c → KeepsStarts s c)
    (h : (recurringSystem ok).Reachable s) : Filled s := by
  refine h.induct (P := Filled) ⟨?_, ?_⟩
  · rintro s ⟨-, htouched⟩ p hp
    rw [htouched] at hp
    exact absurd hp List.not_mem_nil
  · intro s t c hs hf hstep
    obtain ⟨hsound, hwithin⟩ := reachable_sound hs
    exact exec_filled hstep.1 (hok s c hstep.2) hsound hwithin hf

/-- In every run a second refresh changes nothing and a template has at most one live occurrence a
day; where no command takes the last row from the start of a touched occurrence to come, no refresh
creates one again. -/
theorem refreshes (h : (recurringSystem ok).Reachable s) :
    (∀ store, refreshUpcoming s.store s.now = .ok store →
      refreshUpcoming store s.now = .ok store) ∧
    OneLive s.store ∧
    ((∀ s c, ok s c → KeepsStarts s c) → ∀ store, refreshUpcoming s.store s.now = .ok store →
      ∀ row ∈ store.schedules, row ∉ s.store.schedules → ∀ id,
        row.recurringScheduleId = some id → (id, kstDay row.startAt) ∉ s.touched) := by
  refine ⟨fun store => refreshUpcoming_idem, (reachable_sound h).1.one, ?_⟩
  intro hok store hrefresh row hrow hnew id hid
  exact refreshUpcoming_untouched (reachable_filled hok h) hrefresh hrow hnew hid

/-- The commands that move and remove nothing. -/
def Stays (_ : State) : Command → Prop
  | .update _ _ parsed => parsed.startAt = none
  | .remove _ _ => False
  | _ => True

instance (s : State) (c : Command) : Decidable (Stays s c) := by
  unfold Stays
  split <;> infer_instance

/-- A command where it is allowed. -/
def execWhere (ok : State → Command → Prop) [∀ s c, Decidable (ok s c)] (c : Command) (s : State) :
    Option State :=
  if ok s c then (exec c s).toOption else none

theorem reachable_of_play [∀ s c, Decidable (ok s c)] {cs : List Command}
    (hs : (∀ row ∈ s.store.schedules, row.recurringScheduleId = none) ∧ s.touched = [])
    (h : System.play (execWhere ok) cs s = some t) : (recurringSystem ok).Reachable t := by
  refine (System.Run.of_play (fun c s t h => ?_) h).reachable (.init hs)
  unfold execWhere at h
  by_cases hok : ok s c
  · rw [if_pos hok, toOption_eq_some] at h
    exact ⟨h, hok⟩
  · rw [if_neg hok] at h
    exact absurd h (Option.some_ne_none _).symm

/-- A channel that streams on Mondays at eight in the evening, on a Friday. -/
def mondays : State where
  store :=
    { ownerId := some 1, enabled := true
      recurring := (Table.empty.insert
        { id := 1, dayOfWeek := 1, title := "정기 방송", startTime := some ⟨20, 0⟩, status := .LIVE
          isActive := true }).getD .empty
      counter := 1 }
  now := kstMidnight 20000

/-- A command that edits or removes no occurrence keeps the starts held. -/
theorem Stays.keepsStarts (s : State) (c : Command) (h : Stays s c) : KeepsStarts s c := by
  cases c with
  | update userId id parsed =>
    intro row _ hmoved
    have hstart : parsed.startAt = none := h
    exact absurd (by rw [hstart]; rfl) hmoved
  | remove userId id => exact absurd h not_false
  | _ => trivial

/-- An occurrence was renamed, and a refresh follows. -/
theorem refreshes_renamed : ∃ s store, (recurringSystem Stays).Reachable s ∧
    s.touched = [(1, 20003)] ∧ refreshUpcoming s.store s.now = .ok store ∧
    ∀ row ∈ store.schedules, row ∉ s.store.schedules → ∀ id,
      row.recurringScheduleId = some id → (id, kstDay row.startAt) ∉ s.touched := by
  let commands : List Command := [.refresh, .update 1 2 { title := some "합방" }]
  obtain ⟨s, store, hs, htouched, hstore⟩ : ∃ s store,
      System.play (execWhere Stays) commands mondays = some s ∧ s.touched = [(1, 20003)] ∧
        refreshUpcoming s.store s.now = .ok store := ⟨_, _, rfl, rfl, rfl⟩
  have hreachable : (recurringSystem Stays).Reachable s := reachable_of_play (by decide) hs
  exact ⟨s, store, hreachable, htouched, hstore,
    (refreshes hreachable).2.2 Stays.keepsStarts store hstore⟩

/-- An occurrence the owner removed comes back with the next refresh. -/
theorem removed_returns : ¬∀ s, (recurringSystem fun _ _ => True).Reachable s → ∀ store,
    refreshUpcoming s.store s.now = .ok store → ∀ row ∈ store.schedules,
      row ∉ s.store.schedules → ∀ id, row.recurringScheduleId = some id →
        (id, kstDay row.startAt) ∉ s.touched := by
  intro hclaim
  let commands : List Command := [.refresh, .remove 1 2]
  obtain ⟨s, store, hs, hstore, row, hrow, hnew, hid, htouched⟩ : ∃ s store,
      System.play (execWhere fun _ _ => True) commands mondays = some s ∧
        refreshUpcoming s.store s.now = .ok store ∧
        ∃ row ∈ store.schedules.rows, row ∉ s.store.schedules.rows ∧
          row.recurringScheduleId = some 1 ∧ (1, kstDay row.startAt) ∈ s.touched :=
    ⟨_, _, rfl, rfl, by decide +kernel⟩
  have hreachable : (recurringSystem fun _ _ => True).Reachable s :=
    reachable_of_play (by decide) hs
  exact hclaim s hreachable store hstore row hrow hnew 1 hid htouched

end Rogichat.Recurring
