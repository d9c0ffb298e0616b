import Rogichat.Web.Timeline

/-!
# What the timeline holds

The guarantees of the list between two snapshots. All but the order of the list are about
one id at a time, so they are proved of a slot and taken back to the list by `pass_slots`.

* **`Slot.again`** — a page that went through a slot leaves it as it is when it comes again.
* **`exec_newest`** — what one command leaves at an id, against what it received.
* **`timeline_fold`** — the guarantees over whole runs.
-/

namespace Rogichat.Web

open Lib

variable {B : Type}

/-! ## Slots -/

/-- The messages a page brings. -/
def upserts (es : List (MessageEvent B)) : List (ServerMessage B) :=
  es.filterMap fun e =>
    match e with
    | .upsert m => some m
    | .deleted .. => none

theorem mem_upserts {es : List (MessageEvent B)} {m : ServerMessage B} :
    m ∈ upserts es ↔ .upsert m ∈ es := by
  rw [upserts, List.mem_filterMap]
  constructor
  · rintro ⟨e, he, hm⟩
    cases e with
    | upsert x =>
      cases hm
      exact he
    | deleted id version => cases hm
  · exact fun h => ⟨_, h, rfl⟩

/-- A slot whose message was deleted. -/
def Slot.Dead (s : Slot B) : Prop := s.held = none ∧ s.gone.isSome = true

theorem Slot.event_dead {s t : Slot B} {e : MessageEvent B} (hs : s.Dead)
    (h : s.event e = .ok t) : t.Dead := by
  cases e with
  | deleted id version =>
    by_cases hdeletes : Deletes s.held s.gone version
    · rw [Slot.event, if_pos hdeletes] at h
      cases h
      exact ⟨rfl, rfl⟩
    · rw [Slot.event, if_neg hdeletes] at h
      cases h
      exact hs
  | upsert m =>
    obtain ⟨T, hT⟩ := Option.isSome_iff_exists.mp hs.2
    simp only [Slot.event, hT, bind_ok, ensure_ok, pure_ok] at h
    obtain ⟨_, -, rfl⟩ := h
    exact hs

theorem Slot.events_dead {es : List (MessageEvent B)} {s t : Slot B} (hs : s.Dead)
    (h : es.foldlM Slot.event s = .ok t) : t.Dead := by
  induction es generalizing s with
  | nil =>
    rw [List.foldlM_nil, pure_ok] at h
    exact h ▸ hs
  | cons e es ih =>
    rw [List.foldlM_cons, bind_ok] at h
    obtain ⟨u, hstep, hrest⟩ := h
    exact ih (event_dead hs hstep) hrest

/-- A deletion that is not older than what is held kills the slot. -/
theorem Slot.event_kills {s t : Slot B} {id : String} {version : Nat}
    (hversion : ∀ m ∈ s.held, m.version ≤ version) (h : s.event (.deleted id version) = .ok t) :
    t.Dead := by
  by_cases hdeletes : Deletes s.held s.gone version
  · rw [Slot.event, if_pos hdeletes] at h
    cases h
    exact ⟨rfl, rfl⟩
  · rw [Slot.event, if_neg hdeletes] at h
    cases h
    -- what was newer is an earlier deletion, and nothing is held beside it
    cases hheld : s.held with
    | some m =>
      rw [Deletes, hheld] at hdeletes
      exact absurd (hversion m hheld) hdeletes
    | none =>
      refine ⟨hheld, ?_⟩
      cases hgone : s.gone with
      | some T => rfl
      | none =>
        rw [Deletes, hheld, hgone] at hdeletes
        exact absurd (Nat.zero_le _) hdeletes

/-- A slot with no deletion in the end merged the messages, and nothing else. -/
theorem Slot.events_alive {es : List (MessageEvent B)} {s t : Slot B}
    (h : es.foldlM Slot.event s = .ok t) (ht : t.gone = none) :
    s.gone = none ∧ (upserts es).foldlM take s.held = .ok t.held := by
  induction es generalizing s with
  | nil =>
    rw [List.foldlM_nil, pure_ok] at h
    subst h
    exact ⟨ht, rfl⟩
  | cons e es ih =>
    rw [List.foldlM_cons, bind_ok] at h
    obtain ⟨u, hstep, hrest⟩ := h
    obtain ⟨hu, htakes⟩ := ih hrest
    cases e with
    | deleted id version =>
      by_cases hdeletes : Deletes s.held s.gone version
      · rw [Slot.event, if_pos hdeletes] at hstep
        cases hstep
        cases hu
      · rw [Slot.event, if_neg hdeletes] at hstep
        cases hstep
        exact ⟨hu, htakes⟩
    | upsert m =>
      cases hgone : s.gone with
      | some T =>
        simp only [Slot.event, hgone, bind_ok, pure_ok] at hstep
        obtain ⟨_, -, rfl⟩ := hstep
        rw [hgone] at hu
        cases hu
      | none =>
        simp only [Slot.event, hgone, bind_ok, pure_ok] at hstep
        obtain ⟨kept, htake, rfl⟩ := hstep
        refine ⟨rfl, ?_⟩
        rw [show upserts (MessageEvent.upsert m :: es) = m :: upserts es from rfl,
          List.foldlM_cons, htake, ok_bind]
        exact htakes

/-! ### A page that comes again -/

/-- What a slot says about the events it has seen. -/
structure Slot.Seen (es : List (MessageEvent B)) (s : Slot B) : Prop where
  alive : s.gone = none → (∀ m, .upsert m ∈ es → ∃ x ∈ s.held, m.version ≤ x.version ∧
      m.createdAt = x.createdAt) ∧
    ∀ id version, .deleted id version ∈ es → ∃ x ∈ s.held, version < x.version
  dead : ∀ T ∈ s.gone, s.held = none ∧
    (∀ m, .upsert m ∈ es → ∀ c ∈ T.createdAt, c = m.createdAt) ∧
    ∀ id version, .deleted id version ∈ es → version ≤ T.version

theorem Slot.Seen.start {s : Slot B} (h : s.gone = none ∨ s.held = none) : s.Seen [] where
  alive _ := by simp
  dead T hT := by
    refine ⟨?_, by simp, by simp⟩
    rcases h with h | h
    · rw [Option.mem_def.mp hT] at h
      cases h
    · exact h

/-- An applied deletion has seen all that came before it. -/
theorem Slot.Seen.deleted {es : List (MessageEvent B)} {s : Slot B} (h : s.Seen es) {id : String}
    {version : Nat} (hdeletes : Deletes s.held s.gone version) :
    Slot.Seen (es ++ [.deleted id version])
      { held := none, gone := some (buried s.held s.gone version) } where
  alive hnone := (by cases hnone)
  dead T hT := by
    obtain rfl := Option.mem_some.mp hT
    refine ⟨rfl, ?_, ?_⟩
    · intro m hm c hc
      have hm : .upsert m ∈ es := by simpa using hm
      cases hgone : s.gone with
      | none =>
        obtain ⟨x, hx, -, hcreated⟩ := (h.alive hgone).1 m hm
        rw [Option.mem_def.mp hx] at hc
        exact (Option.some.inj hc).symm.trans hcreated.symm
      | some T =>
        obtain ⟨hheld, hupserts, -⟩ := h.dead T hgone
        rw [hheld, hgone] at hc
        exact hupserts m hm c hc
    · intro id' v hv
      show v ≤ version
      rcases List.mem_append.mp hv with hv | hv
      · cases hgone : s.gone with
        | none =>
          obtain ⟨x, hx, hlt⟩ := (h.alive hgone).2 id' v hv
          rw [Option.mem_def.mp hx] at hdeletes
          exact hlt.le.trans hdeletes
        | some T =>
          obtain ⟨hheld, -, hdeleted⟩ := h.dead T hgone
          rw [hheld, hgone] at hdeletes
          exact (hdeleted id' v hv).trans hdeletes
      · cases List.mem_singleton.mp hv
        exact Nat.le_refl _

/-- A deletion that is not applied is older than what is held or was deleted. -/
theorem Slot.Seen.skipped {es : List (MessageEvent B)} {s : Slot B} (h : s.Seen es) {id : String}
    {version : Nat} (hdeletes : ¬Deletes s.held s.gone version) :
    s.Seen (es ++ [.deleted id version]) where
  alive hnone := by
    obtain ⟨hupserts, hdeleted⟩ := h.alive hnone
    refine ⟨fun m hm => hupserts m (by simpa using hm), fun id' v hv => ?_⟩
    rcases List.mem_append.mp hv with hv | hv
    · exact hdeleted id' v hv
    · cases List.mem_singleton.mp hv
      cases hheld : s.held with
      | some x =>
        rw [Deletes, hheld] at hdeletes
        exact ⟨x, rfl, not_le.mp hdeletes⟩
      | none =>
        rw [Deletes, hheld, hnone] at hdeletes
        exact absurd (Nat.zero_le _) hdeletes
  dead T hT := by
    obtain ⟨hheld, hupserts, hdeleted⟩ := h.dead T hT
    refine ⟨hheld, fun m hm => hupserts m (by simpa using hm), fun id' v hv => ?_⟩
    rcases List.mem_append.mp hv with hv | hv
    · exact hdeleted id' v hv
    · cases List.mem_singleton.mp hv
      rw [Deletes, hheld, Option.mem_def.mp hT] at hdeletes
      exact (not_le.mp hdeletes).le

theorem Slot.Seen.event {es : List (MessageEvent B)} {s t : Slot B} (h : s.Seen es)
    {e : MessageEvent B} (hstep : s.event e = .ok t) : t.Seen (es ++ [e]) := by
  cases e with
  | deleted id version =>
    by_cases hdeletes : Deletes s.held s.gone version
    · rw [Slot.event, if_pos hdeletes] at hstep
      cases hstep
      exact h.deleted hdeletes
    · rw [Slot.event, if_neg hdeletes] at hstep
      cases hstep
      exact h.skipped hdeletes
  | upsert m =>
    cases hgone : s.gone with
    | some T =>
      simp only [Slot.event, hgone, bind_ok, ensure_ok, pure_ok] at hstep
      obtain ⟨_, hsame, rfl⟩ := hstep
      refine ⟨fun hnone => ?_, fun T' hT' => ?_⟩
      · rw [hgone] at hnone
        cases hnone
      · obtain ⟨hheld, hupserts, hdeleted⟩ := h.dead T' hT'
        rw [hgone] at hT'
        cases hT'
        refine ⟨hheld, fun x hx => ?_, fun id v hv => hdeleted id v (by simpa using hv)⟩
        rcases List.mem_append.mp hx with hx | hx
        · exact hupserts x hx
        · cases List.mem_singleton.mp hx
          exact hsame
    | none =>
      simp only [Slot.event, hgone, bind_ok, pure_ok] at hstep
      obtain ⟨kept, htake, rfl⟩ := hstep
      obtain ⟨hsame, rfl⟩ := take_ok.mp htake
      obtain ⟨hupserts, hdeleted⟩ := h.alive hgone
      -- what is kept is not older than what was held, and not older than `m`
      have hkept : ∃ y ∈ keep s.held m, m.version ≤ y.version ∧ m.createdAt = y.createdAt ∧
          ∀ x ∈ s.held, x.version ≤ y.version ∧ x.createdAt = y.createdAt := by
        rcases keep_cases s.held m with hk | ⟨p, hp, hk, hlt⟩
        · refine ⟨m, hk, Nat.le_refl _, rfl, fun x hx => ⟨?_, hsame x hx⟩⟩
          obtain ⟨r, hr, hle⟩ : ∃ r ∈ keep s.held m, x.version ≤ r.version := le_keep (.inl hx)
          rw [hk] at hr
          exact Option.mem_some.mp hr ▸ hle
        · refine ⟨p, hk, hlt.le, (hsame p hp).symm, fun x hx => ?_⟩
          rw [Option.mem_def.mp hx] at hp
          cases hp
          exact ⟨Nat.le_refl _, rfl⟩
      obtain ⟨y, hy, hversion, hcreated, hheld⟩ := hkept
      refine ⟨fun _ => ⟨fun x hx => ?_, fun id v hv => ?_⟩, fun T hT => (by cases hT)⟩
      · rcases List.mem_append.mp hx with hx | hx
        · obtain ⟨z, hz, hle, heq⟩ := hupserts x hx
          obtain ⟨hle', heq'⟩ := hheld z hz
          exact ⟨y, hy, hle.trans hle', heq.trans heq'⟩
        · cases List.mem_singleton.mp hx
          exact ⟨y, hy, hversion, hcreated⟩
      · obtain ⟨z, hz, hlt⟩ := hdeleted id v (by simpa using hv)
        exact ⟨y, hy, hlt.trans_le (hheld z hz).1⟩

theorem Slot.Seen.events {es : List (MessageEvent B)} {s t : Slot B}
    (hs : s.gone = none ∨ s.held = none) (h : es.foldlM Slot.event s = .ok t) : t.Seen es := by
  have hrun : ∀ (es seen : List (MessageEvent B)) (s : Slot B), s.Seen seen →
      es.foldlM Slot.event s = .ok t → t.Seen (seen ++ es) := by
    intro es
    induction es with
    | nil =>
      intro seen s hseen h
      rw [List.foldlM_nil, pure_ok] at h
      rw [List.append_nil]
      exact h ▸ hseen
    | cons e es ih =>
      intro seen s hseen h
      rw [List.foldlM_cons, bind_ok] at h
      obtain ⟨u, hstep, hrest⟩ := h
      rw [List.append_cons]
      exact ih _ u (hseen.event hstep) hrest
  exact hrun es [] s (.start hs) h

/-- A deleted slot that has seen the events is left as it is by them. -/
theorem Slot.Seen.again_dead {es seen : List (MessageEvent B)} {s : Slot B} (h : s.Seen seen)
    {T : Tombstone} (hT : s.gone = some T) (hes : ∀ e ∈ es, e ∈ seen) :
    es.foldlM Slot.event s = .ok s := by
  obtain ⟨hheld, hupserts, hdeleted⟩ := h.dead T hT
  induction es with
  | nil => rfl
  | cons e es ih =>
    have hsame : s.event e = .ok s := by
      have he := hes e List.mem_cons_self
      cases e with
      | deleted id version =>
        by_cases hdeletes : Deletes s.held s.gone version
        · rw [Slot.event, if_pos hdeletes]
          rw [Deletes, hheld, hT] at hdeletes
          have hversion : version = T.version :=
            Nat.le_antisymm (hdeleted id version he) hdeletes
          rw [hheld, hT, hversion]
          cases s
          cases hheld
          cases hT
          rfl
        · rw [Slot.event, if_neg hdeletes]
      | upsert m =>
        simp only [Slot.event, hT]
        rw [ensure_pos (hupserts m he), ok_bind]
        rfl
    rw [List.foldlM_cons, hsame, ok_bind]
    exact ih fun x hx => hes x (List.mem_cons_of_mem _ hx)

/-- A slot whose message is at least as new as the events merges them again. -/
theorem Slot.again_alive {es : List (MessageEvent B)} {s : Slot B} {x : ServerMessage B}
    (hgone : s.gone = none) (hheld : s.held = some x)
    (hupserts : ∀ m, .upsert m ∈ es → m.version ≤ x.version ∧ m.createdAt = x.createdAt)
    (hdeleted : ∀ id version, .deleted id version ∈ es → version < x.version) :
    es.foldlM Slot.event s = .ok { held := (upserts es).foldl keep s.held, gone := none } := by
  induction es generalizing s x with
  | nil =>
    rw [← hgone]
    rfl
  | cons e es ih =>
    have hrest : ∀ m, .upsert m ∈ es → m.version ≤ x.version ∧ m.createdAt = x.createdAt :=
      fun m hm => hupserts m (List.mem_cons_of_mem _ hm)
    have hrest' : ∀ id version, .deleted id version ∈ es → version < x.version :=
      fun id version hm => hdeleted id version (List.mem_cons_of_mem _ hm)
    cases e with
    | deleted id version =>
      have hlt := hdeleted id version List.mem_cons_self
      have hskip : ¬Deletes s.held s.gone version := by
        rw [Deletes, hheld]
        exact not_le.mpr hlt
      rw [List.foldlM_cons, Slot.event, if_neg hskip, ok_bind]
      exact ih hgone hheld hrest hrest'
    | upsert m =>
      obtain ⟨hle, hcreated⟩ := hupserts m List.mem_cons_self
      have htake : take s.held m = .ok (keep s.held m) := by
        refine take_ok.mpr ⟨?_, rfl⟩
        intro p hp
        rw [hheld] at hp
        cases hp
        exact hcreated.symm
      rw [List.foldlM_cons]
      simp only [Slot.event, hgone]
      rw [htake, ok_bind]
      show es.foldlM Slot.event { held := keep s.held m, gone := none } = _
      -- what is kept is as new as what was held
      rcases keep_cases s.held m with hk | ⟨p, hp, hk, hlt⟩
      · have hversion : m.version = x.version := by
          refine Nat.le_antisymm hle ?_
          obtain ⟨r, hr, hxr⟩ : ∃ r ∈ keep s.held m, x.version ≤ r.version :=
            le_keep (.inl (Option.mem_def.mpr hheld))
          rw [hk] at hr
          exact Option.mem_some.mp hr ▸ hxr
        refine ih (x := m) rfl hk ?_ ?_
        · intro y hy
          rw [hversion, hcreated]
          exact hrest y hy
        · intro id v hv
          rw [hversion]
          exact hrest' id v hv
      · rw [hheld] at hp
        cases hp
        exact ih (x := x) rfl hk hrest hrest'

/-- A page that went through leaves the slot as it is when it comes again. -/
theorem Slot.again {es : List (MessageEvent B)} {s t : Slot B}
    (hs : s.gone = none ∨ s.held = none) (h : es.foldlM Slot.event s = .ok t) :
    es.foldlM Slot.event t = .ok t := by
  have hseen := Slot.Seen.events hs h
  cases hgone : t.gone with
  | some T => exact hseen.again_dead hgone fun e he => he
  | none =>
    obtain ⟨hupserts, hdeleted⟩ := hseen.alive hgone
    obtain ⟨-, htakes⟩ := events_alive h hgone
    obtain ⟨-, hheld⟩ := takes_iff.mp htakes
    cases hx : t.held with
    | none =>
      -- nothing is held, so the page was empty
      have hnil : es = [] := by
        cases es with
        | nil => rfl
        | cons e es =>
          cases e with
          | deleted id version =>
            obtain ⟨x, hmem, -⟩ := hdeleted id version List.mem_cons_self
            rw [hx] at hmem
            cases hmem
          | upsert m =>
            obtain ⟨x, hmem, -⟩ := hupserts m List.mem_cons_self
            rw [hx] at hmem
            cases hmem
      rw [hnil]
      rfl
    | some x =>
      rw [again_alive hgone hx]
      · rw [hheld, foldl_keep_idem, ← hheld, ← hgone]
      · intro m hm
        obtain ⟨y, hy, hle⟩ := hupserts m hm
        rw [hx] at hy
        cases hy
        exact hle
      · intro id version hv
        obtain ⟨y, hy, hlt⟩ := hdeleted id version hv
        rw [hx] at hy
        cases hy
        exact hlt

/-! ## Pages and slots -/

/-- What a timeline knows of an id. -/
def Timeline.slot (s : Timeline B) (id : String) : Slot B := ⟨held s.messages id, s.tombstones id⟩

/-- The loop over a page, as every id sees it. -/
theorem pass_slots {s : Timeline B} {page : List (MessageEvent B)} {p : Pass B}
    (hs : Ordered s.messages) (h : s.pass page = .ok p) : Ordered p.messages ∧
      ∀ id, (page.filter fun e => e.id = id).foldlM Slot.event (s.slot id) = .ok (p.slot id) :=
  apply_acts.foldlM_ok (s := ⟨s.messages, s.tombstones, false⟩) hs h

/-- A removal is a deletion of an id that had no tombstone. -/
theorem pass_removed {page : List (MessageEvent B)} {p q : Pass B}
    (h : page.foldlM Pass.apply p = .ok q) :
    (q.removed = true → p.removed = true ∨ ∃ id, p.tombstones id = none ∧ q.tombstones id ≠ none) ∧
    ∀ id, p.tombstones id ≠ none → q.tombstones id ≠ none := by
  refine foldlM_rel (R := fun p q : Pass B => (q.removed = true → p.removed = true ∨
    ∃ id, p.tombstones id = none ∧ q.tombstones id ≠ none) ∧
    ∀ id, p.tombstones id ≠ none → q.tombstones id ≠ none) ?_ ?_ ?_ h
  · exact fun p => ⟨.inl, fun _ h => h⟩
  · rintro p q u ⟨hpq, hkept⟩ ⟨hqu, hkept'⟩
    refine ⟨fun hu => ?_, fun id hid => hkept' id (hkept id hid)⟩
    rcases hqu hu with hq | ⟨id, hnone, hsome⟩
    · rcases hpq hq with hp | ⟨id, hnone, hsome⟩
      · exact .inl hp
      · exact .inr ⟨id, hnone, hkept' id hsome⟩
    · refine .inr ⟨id, ?_, hsome⟩
      by_contra hne
      exact hkept id hne hnone
  · intro e _ p q hstep
    cases e with
    | deleted messageId version =>
      simp only [Pass.apply] at hstep
      split at hstep
      · cases hstep
        constructor
        · intro hremoved
          rw [Bool.or_eq_true, Option.isNone_iff_eq_none] at hremoved
          rcases hremoved with hp | hnone
          · exact .inl hp
          · exact .inr ⟨messageId, hnone, by simp⟩
        · intro id hid
          by_cases heq : id = messageId
          · simp [heq]
          · simpa [Function.update_of_ne heq] using hid
      · cases hstep
        exact ⟨.inl, fun _ h => h⟩
    | upsert message =>
      simp only [Pass.apply] at hstep
      split at hstep
      · simp only [bind_ok, pure_ok] at hstep
        obtain ⟨_, -, rfl⟩ := hstep
        exact ⟨.inl, fun _ h => h⟩
      · simp only [bind_ok, pure_ok] at hstep
        obtain ⟨_, -, rfl⟩ := hstep
        exact ⟨.inl, fun _ h => h⟩

/-! ## Re-reads -/

theorem reread_ok {item : ServerMessage B} {answer : String × Answer B}
    {row : Option (ServerMessage B)} (h : reread item answer = .ok row) :
    (answer = (item.id, .missing) ∧ row = none) ∨ ∃ value, answer = (item.id, .found value) ∧
      row = some value ∧ value.id = item.id ∧ value.createdAt = item.createdAt ∧
      item.version ≤ value.version := by
  obtain ⟨id, a⟩ := answer
  simp only [reread, bind_ok, ensure_ok] at h
  obtain ⟨_, rfl, h⟩ := h
  cases a with
  | found value =>
    simp only [bind_ok, ensure_ok, pure_ok] at h
    obtain ⟨_, ⟨hid, hcreated, hversion⟩, rfl⟩ := h
    exact .inr ⟨value, rfl, rfl, hid, hcreated, hversion⟩
  | missing =>
    rw [pure_ok] at h
    exact .inl ⟨rfl, h.symm⟩
  | failed => cases h

/-- What the re-reads leave: of every message its new row, or nothing where it was missing. -/
theorem rereads_ok {items rows : List (ServerMessage B)} {answers : List (String × Answer B)}
    (h : rereads items answers = .ok rows) :
    (rows.map ServerMessage.id).Sublist (items.map ServerMessage.id) ∧
    (∀ id value, (id, .found value) ∈ answers → value ∈ rows ∧ value.id = id) ∧
    (∀ value ∈ rows, (value.id, .found value) ∈ answers) ∧
    ∀ item ∈ items, (item.id, .missing) ∈ answers ∨ ∃ value ∈ rows, value.id = item.id ∧
      value.createdAt = item.createdAt ∧ item.version ≤ value.version := by
  induction items generalizing answers rows with
  | nil =>
    cases answers with
    | nil =>
      cases h
      exact ⟨List.Sublist.slnil, by simp, by simp, by simp⟩
    | cons answer answers => cases h
  | cons item items ih =>
    cases answers with
    | nil => cases h
    | cons answer answers =>
      simp only [rereads, bind_ok, pure_ok] at h
      obtain ⟨row, hrow, rest, hrest, rfl⟩ := h
      obtain ⟨hsub, hfound, hrows, hitems⟩ := ih hrest
      -- the server has lost the message, or answers a version of it
      rcases reread_ok hrow with ⟨rfl, rfl⟩ | ⟨value, rfl, rfl, hid, hcreated, hversion⟩
      · refine ⟨hsub.cons _, ?_, ?_, ?_⟩
        · intro id v hv
          rcases List.mem_cons.mp hv with heq | hv
          · cases heq
          · exact hfound id v hv
        · intro v hv
          exact List.mem_cons_of_mem _ (hrows v hv)
        · intro x hx
          rcases List.mem_cons.mp hx with rfl | hx
          · exact .inl List.mem_cons_self
          · exact (hitems x hx).imp_left (List.mem_cons_of_mem _)
      · refine ⟨?_, ?_, ?_, ?_⟩
        · rw [List.map_cons, ← hid]
          exact hsub.cons_cons _
        · intro id v hv
          rcases List.mem_cons.mp hv with heq | hv
          · cases heq
            exact ⟨List.mem_cons_self, hid⟩
          · obtain ⟨hmem, hvid⟩ := hfound id v hv
            exact ⟨List.mem_cons_of_mem _ hmem, hvid⟩
        · intro v hv
          rcases List.mem_cons.mp hv with rfl | hv
          · rw [hid]
            exact List.mem_cons_self
          · exact List.mem_cons_of_mem _ (hrows v hv)
        · intro x hx
          rcases List.mem_cons.mp hx with rfl | hx
          · exact .inr ⟨value, List.mem_cons_self, hid, hcreated, hversion⟩
          · rcases hitems x hx with hmissing | ⟨v, hv, hrest⟩
            · exact .inl (List.mem_cons_of_mem _ hmissing)
            · exact .inr ⟨v, List.mem_cons_of_mem _ hv, hrest⟩

theorem rereads_keys {items rows : List (ServerMessage B)} {answers : List (String × Answer B)}
    (h : rereads items answers = .ok rows) :
    answers.map Prod.fst = items.map ServerMessage.id := by
  induction items generalizing answers rows with
  | nil =>
    cases answers with
    | nil => rfl
    | cons answer answers => cases h
  | cons item items ih =>
    cases answers with
    | nil => cases h
    | cons answer answers =>
      simp only [rereads, bind_ok] at h
      obtain ⟨row, hrow, rest, hrest, -⟩ := h
      have hfirst : answer.1 = item.id := by
        rcases reread_ok hrow with ⟨rfl, -⟩ | ⟨value, rfl, -⟩
        · rfl
        · rfl
      rw [List.map_cons, List.map_cons, hfirst, ih hrest]

/-- Ordering messages without a repeated id. -/
theorem merge_rows {rows ms : List (ServerMessage B)} (hrows : (rows.map ServerMessage.id).Nodup)
    (h : mergeMessages [] rows = .ok ms) : Ordered ms ∧ ∀ id, held ms id = held rows id := by
  obtain ⟨hms, hparts⟩ := merge_iff.mp h
  refine ⟨hms, fun id => ?_⟩
  rw [(hparts id).2]
  show (ofId id rows).foldl keep none = held rows id
  clear h hparts
  induction rows with
  | nil => rfl
  | cons m rows ih =>
    rw [List.map_cons, List.nodup_cons] at hrows
    rw [held, Keyed.at?_cons]
    by_cases hid : m.id = id
    · have hnone : ofId id rows = [] := by
        refine List.filter_eq_nil_iff.mpr fun x hx => ?_
        rw [decide_eq_true_eq]
        rintro rfl
        exact hrows.1 (hid ▸ List.mem_map_of_mem hx)
      rw [if_pos hid, ofId, List.filter_cons_of_pos (by simpa using hid),
        show rows.filter _ = [] from hnone]
      rfl
    · rw [if_neg hid, ofId, List.filter_cons_of_neg (by simpa using hid)]
      exact ih hrows.2

/-- The list a page leaves. -/
theorem finish_ok {p : Pass B} (hp : Ordered p.messages) {answers : List (String × Answer B)}
    {ms : List (ServerMessage B)} (h : p.finish answers = .ok ms) :
    Ordered ms ∧ ∀ id,
      (∀ m ∈ held ms id, m ∈ held p.messages id ∨ (id, .found m) ∈ answers) ∧
      (p.tombstones id ≠ none → held p.messages id = none → held ms id = none) ∧
      (p.tombstones id = none → (id, .missing) ∉ answers →
        (∀ x ∈ held p.messages id, ∃ m ∈ held ms id, x.version ≤ m.version) ∧
        ∀ k x, (k, .found x) ∈ answers → x.id = id → ∃ m ∈ held ms id, x.version ≤ m.version) := by
  -- a pass that removed a message rereads those that are left
  by_cases hremoved : p.removed = true
  · rw [Pass.finish, if_pos hremoved] at h
    simp only [bind_ok] at h
    obtain ⟨rows, hrereads, hmerge⟩ := h
    obtain ⟨hsub, hfound, hrows, hitems⟩ := rereads_ok hrereads
    have hnodup : (rows.map ServerMessage.id).Nodup := hp.ids.sublist hsub
    have hnodup' : ((rows.filter fun m => (p.tombstones m.id).isNone).map ServerMessage.id).Nodup :=
      hnodup.sublist (List.filter_sublist.map _)
    obtain ⟨hms, hheld⟩ := merge_rows hnodup' hmerge
    have hread : ∀ id m, held ms id = some m ↔
        m ∈ rows ∧ p.tombstones m.id = none ∧ m.id = id := by
      intro id m
      rw [hheld, held, Keyed.at?_iff hnodup', List.mem_filter, Option.isNone_iff_eq_none, and_assoc]
    refine ⟨hms, fun id => ⟨?_, ?_, ?_⟩⟩
    · intro m hm
      obtain ⟨hmem, -, rfl⟩ := (hread id m).mp hm
      exact .inr (hrows m hmem)
    · intro hsome _
      rw [Option.eq_none_iff_forall_not_mem]
      intro m hm
      obtain ⟨-, hnone, rfl⟩ := (hread id m).mp hm
      exact hsome hnone
    · intro hnone hmissing
      constructor
      · intro x hx
        obtain ⟨hmem, rfl⟩ := Keyed.mem_of_at? hx
        -- lost by the server, which the answer says, or answered at no older version
        rcases hitems x hmem with h404 | ⟨v, hv, hid, -, hle⟩
        · exact absurd h404 hmissing
        · exact ⟨v, (hread x.id v).mpr ⟨hv, hid ▸ hnone, hid⟩, hle⟩
      · rintro k x hx rfl
        obtain ⟨hmem, -⟩ := hfound k x hx
        exact ⟨x, (hread x.id x).mpr ⟨hmem, hnone, rfl⟩, Nat.le_refl _⟩
  · rw [Pass.finish, if_neg hremoved] at h
    split at h
    · rename_i hanswers
      cases h
      subst hanswers
      refine ⟨hp, fun id => ⟨fun m hm => .inl hm, fun _ hheld => hheld, fun _ _ => ⟨?_, ?_⟩⟩⟩
      · exact fun x hx => ⟨x, hx, Nat.le_refl _⟩
      · exact fun k x hx => absurd hx List.not_mem_nil
    · cases h

/-- A message that a re-read did not find is dropped. -/
theorem finish_drops {p : Pass B} (hp : Ordered p.messages) {answers : List (String × Answer B)}
    {ms : List (ServerMessage B)} (h : p.finish answers = .ok ms) {id : String}
    (hmissing : (id, .missing) ∈ answers) : held ms id = none := by
  by_cases hremoved : p.removed = true
  · rw [Pass.finish, if_pos hremoved] at h
    simp only [bind_ok] at h
    obtain ⟨rows, hrereads, hmerge⟩ := h
    obtain ⟨hsub, -, hrows, -⟩ := rereads_ok hrereads
    have hnodup : (rows.map ServerMessage.id).Nodup := hp.ids.sublist hsub
    obtain ⟨-, hheld⟩ := merge_rows (hnodup.sublist (List.filter_sublist.map _)) hmerge
    rw [hheld, held, Keyed.at?_eq_none]
    rintro m hm rfl
    have hfound := hrows m (List.mem_of_mem_filter hm)
    -- one answer to every re-read
    have hkeys : (answers.map Prod.fst).Nodup := rereads_keys hrereads ▸ hp.ids
    cases List.inj_on_of_nodup_map hkeys hmissing hfound rfl
  · rw [Pass.finish, if_neg hremoved] at h
    split at h
    · rename_i hanswers
      rw [hanswers] at hmissing
      cases hmissing
    · cases h

/-- What is held after the re-reads was held before them, created then, and was not newer. -/
theorem finish_from {p : Pass B} (hp : Ordered p.messages) {answers : List (String × Answer B)}
    {ms : List (ServerMessage B)} (h : p.finish answers = .ok ms) {id : String}
    {y : ServerMessage B} (hy : held ms id = some y) :
    ∃ x, held p.messages id = some x ∧ y.createdAt = x.createdAt ∧ x.version ≤ y.version := by
  by_cases hremoved : p.removed = true
  · rw [Pass.finish, if_pos hremoved] at h
    simp only [bind_ok] at h
    obtain ⟨rows, hrereads, hmerge⟩ := h
    obtain ⟨hsub, -, hrows, hitems⟩ := rereads_ok hrereads
    have hnodup : (rows.map ServerMessage.id).Nodup := hp.ids.sublist hsub
    obtain ⟨-, hheld⟩ := merge_rows (hnodup.sublist (List.filter_sublist.map _)) hmerge
    rw [hheld] at hy
    obtain ⟨hrow, hyid⟩ := Keyed.mem_of_at? hy
    replace hrow := List.mem_of_mem_filter hrow
    obtain ⟨x, hx, hxid⟩ := List.mem_map.mp (hsub.subset (List.mem_map_of_mem hrow))
    refine ⟨x, (Keyed.at?_iff hp.ids).mpr ⟨hx, hxid.trans hyid⟩, ?_⟩
    rcases hitems x hx with hmissing | ⟨v, hv, hvid, hcreated, hle⟩
    · -- one answer to every re-read
      have hkeys : (answers.map Prod.fst).Nodup := rereads_keys hrereads ▸ hp.ids
      rw [hxid] at hmissing
      cases List.inj_on_of_nodup_map hkeys hmissing (hrows y hrow) rfl
    · obtain rfl : v = y := List.inj_on_of_nodup_map hnodup hv hrow (hvid.trans hxid)
      exact ⟨hcreated, hle⟩
  · rw [Pass.finish, if_neg hremoved] at h
    split at h
    · cases h
      exact ⟨y, hy, rfl, Nat.le_refl _⟩
    · cases h

/-! ## History -/

theorem undeleted_iff {tombstones : String → Option Tombstone}
    {rows incoming : List (ServerMessage B)} :
    undeleted tombstones rows = .ok incoming ↔
      incoming = rows.filter (fun m => (tombstones m.id).isNone) ∧
      ∀ m ∈ rows, ∀ d ∈ tombstones m.id, ∀ t ∈ d.createdAt, t = m.createdAt := by
  induction rows generalizing incoming with
  | nil =>
    rw [undeleted]
    constructor
    · rintro ⟨⟩
      exact ⟨rfl, by simp⟩
    · rintro ⟨rfl, -⟩
      rfl
  | cons m rows ih =>
    rw [undeleted, List.forall_mem_cons]
    cases hgone : tombstones m.id with
    | some d =>
      simp only [bind_ok, ensure_ok, ih, List.filter_cons, hgone, Option.isNone_some,
        Bool.false_eq_true, if_false, Option.mem_def, Option.some.injEq, forall_eq']
      constructor
      · rintro ⟨_, hsame, rfl, hrest⟩
        exact ⟨rfl, hsame, hrest⟩
      · rintro ⟨rfl, hsame, hrest⟩
        exact ⟨(), hsame, rfl, hrest⟩
    | none =>
      simp only [bind_ok, pure_ok, ih, List.filter_cons, hgone, Option.isNone_none, if_true,
        Option.mem_def, reduceCtorEq, false_implies, implies_true, true_and]
      constructor
      · rintro ⟨rest, ⟨rfl, hrest⟩, rfl⟩
        exact ⟨rfl, hrest⟩
      · rintro ⟨rfl, hrest⟩
        exact ⟨_, ⟨rfl, hrest⟩, rfl⟩

/-! ## Commands -/

/-- The messages a command receives. -/
def Command.received : Command B → List (ServerMessage B)
  | .quote value => [value]
  | .events page answers => upserts page ++ answers.filterMap fun answer =>
      match answer.2 with
      | .found value => some value
      | _ => none
  | .history rows => rows

/-- A re-read of the id was answered with 404. -/
def Command.Drops : Command B → String → Prop
  | .events _ answers, id => (id, .missing) ∈ answers
  | _, _ => False

theorem mem_received {page : List (MessageEvent B)} {answers : List (String × Answer B)}
    {m : ServerMessage B} : m ∈ (Command.events page answers).received ↔
      m ∈ upserts page ∨ ∃ id, (id, .found m) ∈ answers := by
  rw [Command.received, List.mem_append, List.mem_filterMap]
  refine or_congr_right ?_
  constructor
  · rintro ⟨⟨id, a⟩, ha, hm⟩
    cases a with
    | found value =>
      cases hm
      exact ⟨id, ha⟩
    | missing => cases hm
    | failed => cases hm
  · rintro ⟨id, ha⟩
    exact ⟨(id, .found m), ha, rfl⟩

/-- The newest of what was held and what came: as new as each, and one of them. -/
def Newest (o : Option (ServerMessage B)) (ms : List (ServerMessage B))
    (o' : Option (ServerMessage B)) : Prop :=
  (∀ x, x ∈ o ∨ x ∈ ms → ∃ m ∈ o', x.version ≤ m.version) ∧ ∀ m ∈ o', m ∈ o ∨ m ∈ ms

theorem newest_keep (o : Option (ServerMessage B)) (ms : List (ServerMessage B)) :
    Newest o ms (ms.foldl keep o) :=
  ⟨fun _ hx => le_foldl_keep hx, fun _ hm => foldl_keep_mem hm⟩

theorem Newest.refl (o : Option (ServerMessage B)) : Newest o [] o := newest_keep o []

theorem Newest.trans {o o' o'' : Option (ServerMessage B)} {ms ns : List (ServerMessage B)}
    (h : Newest o ms o') (h' : Newest o' ns o'') : Newest o (ms ++ ns) o'' := by
  constructor
  · intro x hx
    rw [List.mem_append, ← or_assoc] at hx
    rcases hx with hx | hx
    · obtain ⟨m, hm, hle⟩ := h.1 x hx
      obtain ⟨m', hm', hle'⟩ := h'.1 m (.inl hm)
      exact ⟨m', hm', hle.trans hle'⟩
    · exact h'.1 x (.inr hx)
  · intro m hm
    rw [List.mem_append, ← or_assoc]
    exact (h'.2 m hm).imp_left (h.2 m)

theorem upserts_filter (page : List (MessageEvent B)) (id : String) :
    upserts (page.filter fun e => e.id = id) = ofId id (upserts page) := by
  induction page with
  | nil => rfl
  | cons e page ih =>
    cases e with
    | deleted messageId version =>
      rw [List.filter_cons]
      split
      · exact ih
      · exact ih
    | upsert m =>
      show upserts (List.filter _ (.upsert m :: page)) = ofId id (m :: upserts page)
      by_cases hid : m.id = id
      · rw [List.filter_cons_of_pos (by exact decide_eq_true hid), ofId,
          List.filter_cons_of_pos (by simpa using hid)]
        exact congrArg (m :: ·) ih
      · rw [List.filter_cons_of_neg (by exact fun h => hid (of_decide_eq_true h)), ofId,
          List.filter_cons_of_neg (by simpa using hid)]
        exact ih

theorem exec_quote {s t : Timeline B} {value : ServerMessage B}
    (h : exec (.quote value) s = .ok t) : s.fresh = true ∧ ∃ messages,
      mergeMessages s.messages [value] = .ok messages ∧ t = { s with messages := messages } := by
  simp only [exec, bind_ok, ensure_ok, pure_ok] at h
  obtain ⟨_, hfresh, messages, hmerge, rfl⟩ := h
  exact ⟨hfresh, messages, hmerge, rfl⟩

theorem exec_events {s t : Timeline B} {page : List (MessageEvent B)}
    {answers : List (String × Answer B)} (h : exec (.events page answers) s = .ok t) :
    ∃ p messages, s.pass page = .ok p ∧ p.finish answers = .ok messages ∧
      t = { messages := messages, tombstones := p.tombstones, fresh := false } := by
  simp only [exec, bind_ok, pure_ok] at h
  obtain ⟨p, hpass, messages, hfinish, rfl⟩ := h
  exact ⟨p, messages, hpass, hfinish, rfl⟩

theorem exec_history {s t : Timeline B} {rows : List (ServerMessage B)}
    (h : exec (.history rows) s = .ok t) : ∃ incoming messages,
      undeleted s.tombstones rows = .ok incoming ∧
      mergeMessages s.messages incoming = .ok messages ∧
      t = { s with messages := messages, fresh := false } := by
  simp only [exec, bind_ok, pure_ok] at h
  obtain ⟨incoming, hincoming, messages, hmerge, rfl⟩ := h
  exact ⟨incoming, messages, hincoming, hmerge, rfl⟩

/-- Every command leaves the messages in display order. -/
theorem exec_ordered {s t : Timeline B} {c : Command B} (hs : Ordered s.messages)
    (h : exec c s = .ok t) : Ordered t.messages := by
  cases c with
  | quote value =>
    obtain ⟨-, messages, hmerge, rfl⟩ := exec_quote h
    exact (merge_iff.mp hmerge).1
  | events page answers =>
    obtain ⟨p, messages, hpass, hfinish, rfl⟩ := exec_events h
    exact (finish_ok (pass_slots hs hpass).1 hfinish).1
  | history rows =>
    obtain ⟨incoming, messages, -, hmerge, rfl⟩ := exec_history h
    exact (merge_iff.mp hmerge).1

theorem ordered_of_reachable {s : Timeline B} (hs : (timeline B).Reachable s) :
    Ordered s.messages :=
  hs.induct (P := fun s => Ordered s.messages)
    { init := fun _ hinit => And.left hinit
      step := fun _ _ _ _ hs hstep => exec_ordered hs hstep }

/-- What one command leaves at an id that it does not drop and that has no tombstone. -/
theorem exec_newest {s t : Timeline B} {c : Command B} {id : String} (hs : Ordered s.messages)
    (h : exec c s = .ok t) (hgone : t.tombstones id = none) (hdrops : ¬c.Drops id) :
    s.tombstones id = none ∧
      Newest (held s.messages id) (ofId id c.received) (held t.messages id) := by
  cases c with
  | quote value =>
    obtain ⟨-, messages, hmerge, rfl⟩ := exec_quote h
    refine ⟨hgone, ?_⟩
    have hid := ((merge_iff.mp hmerge).2 id).2
    rw [hs.entry] at hid
    exact hid ▸ newest_keep _ _
  | events page answers =>
    obtain ⟨p, messages, hpass, hfinish, rfl⟩ := exec_events h
    obtain ⟨hp, hslots⟩ := pass_slots hs hpass
    obtain ⟨hmessages, hids⟩ := finish_ok hp hfinish
    obtain ⟨hbefore, htakes⟩ := Slot.events_alive (hslots id) hgone
    obtain ⟨-, hheld⟩ := takes_iff.mp htakes
    rw [upserts_filter] at hheld
    replace hheld : held p.messages id = (ofId id (upserts page)).foldl keep (held s.messages id) :=
      hheld
    have hloop := newest_keep (held s.messages id) (ofId id (upserts page))
    rw [← hheld] at hloop
    obtain ⟨hfrom, -, hkept⟩ := hids id
    obtain ⟨hheld', hfound⟩ := hkept hgone hdrops
    refine ⟨hbefore, ?_, ?_⟩
    · intro x hx
      have hcase : (x ∈ held s.messages id ∨ x ∈ ofId id (upserts page)) ∨
          ∃ k, (k, .found x) ∈ answers ∧ x.id = id := by
        rcases hx with hx | hx
        · exact .inl (.inl hx)
        · obtain ⟨hx, hxid⟩ := List.mem_filter.mp hx
          rcases mem_received.mp hx with hup | ⟨k, hk⟩
          · exact .inl (.inr (List.mem_filter.mpr ⟨hup, hxid⟩))
          · exact .inr ⟨k, hk, of_decide_eq_true hxid⟩
      rcases hcase with hx | ⟨k, hk, hxid⟩
      · obtain ⟨m, hm, hle⟩ := hloop.1 x hx
        obtain ⟨m', hm', hle'⟩ := hheld' m hm
        exact ⟨m', hm', hle.trans hle'⟩
      · exact hfound k x hk hxid
    · intro m hm
      rcases hfrom m hm with hp | hanswer
      · refine (hloop.2 m hp).imp_right fun hmem => ?_
        obtain ⟨hmem, hid⟩ := List.mem_filter.mp hmem
        exact List.mem_filter.mpr ⟨mem_received.mpr (.inl hmem), hid⟩
      · obtain ⟨-, hid⟩ := Keyed.mem_of_at? hm
        exact .inr (List.mem_filter.mpr ⟨mem_received.mpr (.inr ⟨id, hanswer⟩), by simpa using hid⟩)
  | history rows =>
    obtain ⟨incoming, messages, hincoming, hmerge, rfl⟩ := exec_history h
    obtain ⟨rfl, -⟩ := undeleted_iff.mp hincoming
    replace hgone : s.tombstones id = none := hgone
    refine ⟨hgone, ?_⟩
    have hid := ((merge_iff.mp hmerge).2 id).2
    -- the rows of an id that has no tombstone all come through
    have hrows : ofId id (rows.filter fun m => (s.tombstones m.id).isNone) = ofId id rows := by
      rw [ofId, List.filter_filter]
      refine List.filter_congr fun m _ => ?_
      by_cases hm : m.id = id
      · simp [hm, hgone]
      · simp [hm]
    rw [hs.entry, hrows] at hid
    exact hid ▸ newest_keep _ _

/-- Over a run: the newest of what was held and of everything received. -/
theorem run_newest {s t : Timeline B} {cs : List (Command B)} {id : String}
    (hs : Ordered s.messages) (h : (timeline B).Run s cs t) (hgone : t.tombstones id = none)
    (hdrops : ∀ c ∈ cs, ¬c.Drops id) : s.tombstones id = none ∧
      Newest (held s.messages id) (ofId id (cs.flatMap Command.received)) (held t.messages id) := by
  induction h with
  | nil s => exact ⟨hgone, .refl _⟩
  | @cons s u t c cs hstep hrest ih =>
    obtain ⟨hu, hafter⟩ := ih (exec_ordered hs hstep) hgone
      fun d hd => hdrops d (List.mem_cons_of_mem _ hd)
    obtain ⟨hbefore, hone⟩ := exec_newest hs hstep hu (hdrops c List.mem_cons_self)
    refine ⟨hbefore, ?_⟩
    rw [List.flatMap_cons, ofId, List.filter_append]
    exact hone.trans hafter

/-- What a re-read did not find is not held any more. -/
theorem exec_drops {s t : Timeline B} {c : Command B} {id : String} (hs : Ordered s.messages)
    (h : exec c s = .ok t) (hdrops : c.Drops id) : held t.messages id = none := by
  cases c with
  | quote value => exact hdrops.elim
  | history rows => exact hdrops.elim
  | events page answers =>
    obtain ⟨p, messages, hpass, hfinish, rfl⟩ := exec_events h
    obtain ⟨hp, -⟩ := pass_slots hs hpass
    exact finish_drops hp hfinish hdrops

/-! ## Deleted messages -/

/-- Once the list is not the snapshot's any more, what was deleted stays deleted. -/
theorem exec_dead {s t : Timeline B} {c : Command B} {id : String} (hs : Ordered s.messages)
    (hfresh : s.fresh = false) (hdead : (s.slot id).Dead) (h : exec c s = .ok t) :
    t.fresh = false ∧ (t.slot id).Dead := by
  cases c with
  | quote value =>
    obtain ⟨htrue, -⟩ := exec_quote h
    rw [hfresh] at htrue
    cases htrue
  | events page answers =>
    obtain ⟨p, messages, hpass, hfinish, rfl⟩ := exec_events h
    obtain ⟨hp, hslots⟩ := pass_slots hs hpass
    obtain ⟨hnone, hsome⟩ := Slot.events_dead hdead (hslots id)
    obtain ⟨-, hids⟩ := finish_ok hp hfinish
    refine ⟨rfl, (hids id).2.1 ?_ hnone, hsome⟩
    exact fun heq => Option.isSome_iff_ne_none.mp hsome heq
  | history rows =>
    obtain ⟨incoming, messages, hincoming, hmerge, rfl⟩ := exec_history h
    obtain ⟨rfl, -⟩ := undeleted_iff.mp hincoming
    obtain ⟨hnone, hsome⟩ := hdead
    refine ⟨rfl, ?_, hsome⟩
    have hid := ((merge_iff.mp hmerge).2 id).2
    have hrows : ofId id (rows.filter fun m => (s.tombstones m.id).isNone) = [] := by
      rw [ofId, List.filter_filter]
      refine List.filter_eq_nil_iff.mpr fun m _ => ?_
      by_cases hm : m.id = id
      · have hgone : (s.tombstones id).isSome = true := hsome
        simp [hm, Option.isNone_eq_false_iff.mpr hgone]
      · simp [hm]
    rw [hs.entry, hrows] at hid
    exact hid.trans hnone

theorem run_dead {s t : Timeline B} {cs : List (Command B)} {id : String}
    (hs : Ordered s.messages) (hfresh : s.fresh = false) (hdead : (s.slot id).Dead)
    (h : (timeline B).Run s cs t) : (t.slot id).Dead := by
  induction h with
  | nil s => exact hdead
  | cons hstep hrest ih =>
    obtain ⟨hfresh', hdead'⟩ := exec_dead hs hfresh hdead hstep
    exact ih (exec_ordered hs hstep) hfresh' hdead'

/-- A page with a deletion that is not older than what is held when it comes. -/
theorem exec_deleted {s t : Timeline B} {p : Pass B} {pre post : List (MessageEvent B)}
    {id : String} {version : Nat} {answers : List (String × Answer B)} (hs : Ordered s.messages)
    (hpre : s.pass pre = .ok p) (hversion : ∀ m ∈ held p.messages id, m.version ≤ version)
    (h : exec (.events (pre ++ .deleted id version :: post) answers) s = .ok t) :
    t.fresh = false ∧ (t.slot id).Dead := by
  obtain ⟨q, messages, hpass, hfinish, rfl⟩ := exec_events h
  obtain ⟨hq, hslots⟩ := pass_slots hs hpass
  have hid := hslots id
  have hfilter : (pre ++ MessageEvent.deleted id version :: post).filter (fun e => e.id = id) =
      pre.filter (fun e => e.id = id) ++
        .deleted id version :: post.filter (fun e => e.id = id) := by
    rw [List.filter_append, List.filter_cons_of_pos (by simp [MessageEvent.id])]
  rw [hfilter, List.foldlM_append, (pass_slots hs hpre).2 id, ok_bind, List.foldlM_cons,
    bind_ok] at hid
  obtain ⟨u, hstep, hrest⟩ := hid
  obtain ⟨hnone, hsome⟩ := Slot.events_dead (Slot.event_kills hversion hstep) hrest
  obtain ⟨-, hids⟩ := finish_ok hq hfinish
  refine ⟨rfl, (hids id).2.1 ?_ hnone, hsome⟩
  exact fun heq => Option.isSome_iff_ne_none.mp hsome heq

/-! ## The same page again -/

/-- Messages that are all older than what is held. -/
theorem foldl_keep_older {x : ServerMessage B} {ms : List (ServerMessage B)}
    (h : ∀ m ∈ ms, m.version < x.version) : ms.foldl keep (some x) = some x := by
  induction ms with
  | nil => rfl
  | cons m ms ih =>
    have hm : ¬x.version ≤ m.version := not_le.mpr (h m List.mem_cons_self)
    rw [List.foldl_cons, keep, if_neg hm]
    exact ih fun y hy => h y (List.mem_cons_of_mem _ hy)

/-- A page that went through leaves the slot as it is, also where a re-read has since brought
a newer message. -/
theorem Slot.again_newer {es : List (MessageEvent B)} {s t : Slot B} {x y : ServerMessage B}
    (hs : s.gone = none ∨ s.held = none) (h : es.foldlM Slot.event s = .ok t)
    (hgone : t.gone = none) (hx : t.held = some x) (hcreated : y.createdAt = x.createdAt)
    (hversion : x.version ≤ y.version) (hnewer : ∀ m ∈ upserts es, m.version < y.version) :
    es.foldlM Slot.event { t with held := some y } = .ok { t with held := some y } := by
  obtain ⟨hupserts, hdeleted⟩ := (Slot.Seen.events hs h).alive hgone
  have hagain : es.foldlM Slot.event { t with held := some y } =
      .ok { held := (upserts es).foldl keep (some y), gone := none } := by
    refine again_alive hgone rfl ?_ ?_
    · intro m hm
      obtain ⟨z, hz, -, heq⟩ := hupserts m hm
      rw [hx] at hz
      cases hz
      exact ⟨(hnewer m (mem_upserts.mpr hm)).le, heq.trans hcreated.symm⟩
    · intro id version hv
      obtain ⟨z, hz, hlt⟩ := hdeleted id version hv
      rw [hx] at hz
      cases hz
      exact hlt.trans_le hversion
  rw [hagain, foldl_keep_older hnewer, ← hgone]

/-- The events leave a slot as it is only if its message is the one they left before, or newer
than all of theirs. -/
theorem Slot.again_only {es : List (MessageEvent B)} {s t : Slot B} {o : Option (ServerMessage B)}
    (hes : es ≠ []) (h : es.foldlM Slot.event s = .ok t) (hgone : t.gone = none)
    (hfrom : ∀ y ∈ o, ∃ x, t.held = some x ∧ y.createdAt = x.createdAt ∧ x.version ≤ y.version)
    (hagain : es.foldlM Slot.event { t with held := o } = .ok { t with held := o }) :
    o = t.held ∨ ∃ y ∈ o, ∀ m ∈ upserts es, m.version < y.version := by
  have hgone' : Slot.gone { t with held := o } = none := hgone
  obtain ⟨hupserts, hdeleted⟩ := (Slot.Seen.events (.inl hgone') hagain).alive hgone
  -- some message is held, for the events leave none of an id they have seen
  obtain ⟨y, hy⟩ : ∃ y, o = some y := by
    obtain ⟨e, he⟩ := List.exists_mem_of_ne_nil es hes
    cases e with
    | upsert m =>
      obtain ⟨y, hy, -⟩ := hupserts m he
      exact ⟨y, hy⟩
    | deleted id version =>
      obtain ⟨y, hy, -⟩ := hdeleted id version he
      exact ⟨y, hy⟩
  by_cases hnewer : ∀ m ∈ upserts es, m.version < y.version
  · exact .inr ⟨y, hy, hnewer⟩
  · push Not at hnewer
    obtain ⟨m, hm, hle⟩ := hnewer
    obtain ⟨-, htakes⟩ := events_alive hagain hgone
    obtain ⟨-, hheld⟩ := takes_iff.mp htakes
    obtain ⟨-, htakes'⟩ := events_alive h hgone
    obtain ⟨-, hheld'⟩ := takes_iff.mp htakes'
    obtain ⟨x, hx, -, hxy⟩ := hfrom y hy
    -- the newest of the events' messages won both times
    refine .inl ?_
    rw [hheld']
    refine Eq.trans hheld (foldl_keep_eq hm ?_ ?_)
    · intro z hz
      rw [hy] at hz
      cases hz
      exact hle
    · intro z hz
      obtain ⟨r, hr, hzr⟩ : ∃ r ∈ (upserts es).foldl keep s.held, z.version ≤ r.version :=
        le_foldl_keep (.inl hz)
      rw [← hheld', hx] at hr
      cases hr
      exact hzr.trans (hxy.trans hle)

/-- What the re-reads of a page brought to the ids it has events for: to each what its loop
left, or a message newer than those of the page. -/
def Refreshed (page : List (MessageEvent B)) (p : Pass B) (ms : List (ServerMessage B)) : Prop :=
  ∀ e ∈ page, held ms e.id = held p.messages e.id ∨
    ∃ y ∈ held ms e.id, ∀ m ∈ upserts page, m.id = e.id → m.version < y.version

/-- What the page leaves at every id when it comes again. -/
theorem slot_again_iff {s : Timeline B} {page : List (MessageEvent B)} {p : Pass B}
    {answers : List (String × Answer B)} {ms : List (ServerMessage B)} (hs : Ordered s.messages)
    (hone : ∀ e ∈ page, s.tombstones e.id = none ∨ held s.messages e.id = none)
    (hpass : s.pass page = .ok p) (hfinish : p.finish answers = .ok ms) :
    (∀ id, (page.filter fun e => e.id = id).foldlM Slot.event ⟨held ms id, p.tombstones id⟩ =
      .ok ⟨held ms id, p.tombstones id⟩) ↔ Refreshed page p ms := by
  obtain ⟨hp, hslots⟩ := pass_slots hs hpass
  have hof : ∀ {e : MessageEvent B}, e ∈ page → e ∈ page.filter fun x => x.id = e.id :=
    fun he => List.mem_filter.mpr ⟨he, decide_eq_true rfl⟩
  have hups : ∀ {id : String} {m : ServerMessage B},
      m ∈ upserts (page.filter fun e => e.id = id) ↔ m ∈ upserts page ∧ m.id = id := by
    intro id m
    rw [upserts_filter, ofId, List.mem_filter, decide_eq_true_iff]
  constructor
  · intro hagain e he
    have hseen := Slot.Seen.events (hone e he) (hslots e.id)
    cases hgone : p.tombstones e.id with
    | some T =>
      have hnone : held p.messages e.id = none := (hseen.dead T hgone).1
      obtain ⟨-, hids⟩ := finish_ok hp hfinish
      exact .inl (((hids e.id).2.1 (by simp [hgone]) hnone).trans hnone.symm)
    | none =>
      refine (Slot.again_only (List.ne_nil_of_mem (hof he)) (hslots e.id) hgone
        (fun y hy => finish_from hp hfinish hy) (hagain e.id)).imp id ?_
      rintro ⟨y, hy, hnewer⟩
      exact ⟨y, hy, fun m hm hid => hnewer m (hups.mpr ⟨hm, hid⟩)⟩
  · intro hread id
    -- an id the page does not name has nothing to fold
    by_cases hid : ∃ e ∈ page, e.id = id
    · obtain ⟨e, he, rfl⟩ := hid
      rcases hread e he with heq | ⟨y, hy, hnewer⟩
      · rw [heq]
        exact Slot.again (hone e he) (hslots e.id)
      · obtain ⟨x, hx, hcreated, hle⟩ := finish_from hp hfinish hy
        rw [Option.mem_def.mp hy]
        have hgone : (p.slot e.id).gone = none := by
          by_contra hne
          obtain ⟨T, hT⟩ := Option.ne_none_iff_exists'.mp hne
          have hnone := ((Slot.Seen.events (hone e he) (hslots e.id)).dead T hT).1
          rw [show (p.slot e.id).held = some x from hx] at hnone
          cases hnone
        refine Slot.again_newer (hone e he) (hslots e.id) hgone hx hcreated hle fun m hm => ?_
        obtain ⟨hm, hmid⟩ := hups.mp hm
        exact hnewer m hm hmid
    · rw [List.filter_eq_nil_iff.mpr fun e he => by simpa using fun heq => hid ⟨e, he, heq⟩]
      rfl

/-- The page again: there is nothing to re-read this time. -/
theorem exec_again_iff {s t : Timeline B} {page : List (MessageEvent B)}
    {answers again : List (String × Answer B)} {p : Pass B} (hs : Ordered s.messages)
    (hone : ∀ e ∈ page, s.tombstones e.id = none ∨ held s.messages e.id = none)
    (hpass : s.pass page = .ok p) (h : exec (.events page answers) s = .ok t) :
    exec (.events page again) t = .ok t ↔ again = [] ∧ Refreshed page p t.messages := by
  obtain ⟨p', messages, hpass', hfinish, rfl⟩ := exec_events h
  obtain rfl := Except.ok.inj (hpass.symm.trans hpass')
  have ht := exec_ordered hs h
  refine Iff.trans ?_ (and_congr_right fun _ => slot_again_iff hs hone hpass hfinish)
  change _ ↔ again = [] ∧ ∀ id, (page.filter fun e => e.id = id).foldlM Slot.event
    (Timeline.slot ⟨messages, p.tombstones, false⟩ id) =
      .ok (Timeline.slot ⟨messages, p.tombstones, false⟩ id)
  generalize hnext : Timeline.mk messages p.tombstones false = t at h ht ⊢
  have hfresh : t.fresh = false := by rw [← hnext]
  -- no id was deleted that had no tombstone
  have hremoved : ∀ {q : Pass B}, t.pass page = .ok q → q.tombstones = t.tombstones →
      ¬q.removed = true := by
    intro q hq htombstones htrue
    rcases (pass_removed hq).1 htrue with hfalse | ⟨id, hnone, hsome⟩
    · cases hfalse
    · exact hsome (by rw [htombstones]; exact hnone)
  constructor
  · intro hagain
    obtain ⟨q, ms, hq, hfinish', heq⟩ := exec_events hagain
    have htombstones : q.tombstones = t.tombstones := by rw [heq]
    rw [Pass.finish, if_neg (hremoved hq htombstones)] at hfinish'
    by_cases hnil : again = []
    · rw [if_pos hnil] at hfinish'
      have hmessages : q.messages = t.messages := by
        rw [heq]
        exact Except.ok.inj hfinish'
      refine ⟨hnil, fun id => ?_⟩
      have hresult := (pass_slots ht hq).2 id
      rwa [Pass.slot, hmessages, htombstones] at hresult
    · rw [if_neg hnil] at hfinish'
      cases hfinish'
  · rintro ⟨rfl, hsame⟩
    obtain ⟨q, hq⟩ := apply_acts.foldlM_total (s := ⟨t.messages, t.tombstones, false⟩) ht
      fun id => ⟨t.slot id, hsame id⟩
    obtain ⟨hordered, hresult⟩ := pass_slots (s := t) ht hq
    have hslots : ∀ id, q.slot id = t.slot id :=
      fun id => Except.ok.inj ((hresult id).symm.trans (hsame id))
    have hmessages : q.messages = t.messages :=
      hordered.ext ht fun id => congrArg Slot.held (hslots id)
    have htombstones : q.tombstones = t.tombstones :=
      funext fun id => congrArg Slot.gone (hslots id)
    have hq : t.pass page = .ok q := hq
    simp only [exec, hq, ok_bind, Pass.finish, if_neg (hremoved hq htombstones), if_true, pure_ok]
    rw [hmessages, htombstones, ← hfresh]

theorem exec_history_again {s t : Timeline B} {rows : List (ServerMessage B)}
    (h : exec (.history rows) s = .ok t) : exec (.history rows) t = .ok t := by
  obtain ⟨incoming, messages, hincoming, hmerge, rfl⟩ := exec_history h
  have hagain := merge_again hmerge
  simp only [exec, hincoming, hagain, ok_bind, pure_ok]

theorem exec_quote_again {s t : Timeline B} {value : ServerMessage B}
    (h : exec (.quote value) s = .ok t) : exec (.quote value) t = .ok t := by
  obtain ⟨hfresh, messages, hmerge, rfl⟩ := exec_quote h
  have hagain := merge_again hmerge
  simp only [exec, ensure_pos hfresh, hagain, ok_bind, pure_ok]

/-! ## Creation times -/

/-- What an id holds, what is remembered of its deletion and what arrives was all created at
one time. -/
def Slot.OneTime (s : Slot B) (ms : List (ServerMessage B)) : Prop :=
  ∃ c, (∀ p ∈ s.held, p.createdAt = c) ∧ (∀ T ∈ s.gone, ∀ d ∈ T.createdAt, d = c) ∧
    ∀ m ∈ ms, m.createdAt = c

/-- A page goes through a slot where the creation times agree. -/
theorem Slot.events_total {es : List (MessageEvent B)} {s : Slot B} (h : s.OneTime (upserts es)) :
    ∃ t, es.foldlM Slot.event s = .ok t := by
  obtain ⟨c, hheld, hgone, hupserts⟩ := h
  induction es generalizing s with
  | nil => exact ⟨s, rfl⟩
  | cons e es ih =>
    rw [List.foldlM_cons]
    cases e with
    | deleted id version =>
      by_cases hdeletes : Deletes s.held s.gone version
      · rw [Slot.event, if_pos hdeletes, ok_bind]
        refine ih (by simp) ?_ hupserts
        rintro T ⟨⟩ d hd
        cases hs : s.held with
        | some p =>
          rw [hs] at hd
          exact Option.some.inj hd ▸ hheld p hs
        | none =>
          rw [hs] at hd
          obtain ⟨T, hT, hd⟩ := Option.bind_eq_some_iff.mp hd
          exact hgone T hT d hd
      · rw [Slot.event, if_neg hdeletes, ok_bind]
        exact ih hheld hgone hupserts
    | upsert m =>
      rw [show upserts (MessageEvent.upsert m :: es) = m :: upserts es from rfl,
        List.forall_mem_cons] at hupserts
      obtain ⟨hm, hrest⟩ := hupserts
      cases hs : s.gone with
      | some T =>
        have hsame : ∀ d ∈ T.createdAt, d = m.createdAt :=
          fun d hd => (hgone T hs d hd).trans hm.symm
        simp only [Slot.event, hs, ensure_pos hsame, ok_bind]
        exact ih hheld hgone hrest
      | none =>
        have htake : take s.held m = .ok (keep s.held m) :=
          take_ok.mpr ⟨fun p hp => (hheld p hp).trans hm.symm, rfl⟩
        simp only [Slot.event, hs, htake, ok_bind]
        refine ih ?_ (by simp) hrest
        intro p hp
        rcases keep_mem hp with hp | rfl
        · exact hheld p hp
        · exact hm

theorem pass_total {s : Timeline B} {page : List (MessageEvent B)} (hs : Ordered s.messages)
    (h : ∀ id, (s.slot id).OneTime (ofId id (upserts page))) : ∃ p, s.pass page = .ok p :=
  apply_acts.foldlM_total (s := ⟨s.messages, s.tombstones, false⟩) hs fun id =>
    Slot.events_total (by rw [upserts_filter]; exact h id)

theorem history_total {s : Timeline B} {rows : List (ServerMessage B)} (hs : Ordered s.messages)
    (h : ∀ id, (s.slot id).OneTime (ofId id rows)) : ∃ t, exec (.history rows) s = .ok t := by
  have hrow : ∀ m ∈ rows, m ∈ ofId m.id rows :=
    fun m hm => List.mem_filter.mpr ⟨hm, decide_eq_true rfl⟩
  have hundeleted : undeleted s.tombstones rows =
      .ok (rows.filter fun m => (s.tombstones m.id).isNone) := by
    refine undeleted_iff.mpr ⟨rfl, ?_⟩
    intro m hm d hd t ht
    obtain ⟨c, -, hgone, hms⟩ := h m.id
    exact (hgone d hd t ht).trans (hms m (hrow m hm)).symm
  have hagree : ∀ id, Agree (entry s.messages id)
      (ofId id (rows.filter fun m => (s.tombstones m.id).isNone)) := by
    intro id
    obtain ⟨c, hheld, -, hms⟩ := h id
    rw [hs.entry]
    refine ⟨c, hheld, fun m hm => hms m ?_⟩
    obtain ⟨hm, hid⟩ := List.mem_filter.mp hm
    exact List.mem_filter.mpr ⟨List.mem_of_mem_filter hm, hid⟩
  obtain ⟨messages, hmerge⟩ := merge_total hagree
  exact ⟨{ s with messages := messages, fresh := false }, by
    simp only [exec, hundeleted, hmerge, ok_bind, pure_ok]⟩

/-! ## The timeline -/

/-- The list between two snapshots. It stays strictly in display order. At an id without a
tombstone a run leaves the newest of what it held and of everything received, as long as no
re-read of the id is answered with 404, which drops it. History and quotes leave everything as
it is when they come again; so does a page of events where it has no event for an id both held
and deleted before it, exactly if its re-reads brought to its ids what its loop left them or a
message newer than its own. Two merges may change places where they have no version of an id
in common; a merge fails for a second creation time of an id only. What a page deleted, no
later command brings back. -/
theorem timeline_fold :
    (∀ s : Timeline B, (timeline B).Reachable s → Ordered s.messages) ∧
    (∀ (s t : Timeline B) (cs : List (Command B)) (id : String), (timeline B).Reachable s →
      (timeline B).Run s cs t → t.tombstones id = none → (∀ c ∈ cs, ¬c.Drops id) →
      Newest (held s.messages id) (ofId id (cs.flatMap Command.received)) (held t.messages id)) ∧
    (∀ (s t : Timeline B) (c : Command B) (id : String), (timeline B).Reachable s →
      exec c s = .ok t → c.Drops id → held t.messages id = none) ∧
    (∀ (s t : Timeline B) (rows : List (ServerMessage B)), exec (.history rows) s = .ok t →
      exec (.history rows) t = .ok t) ∧
    (∀ (s t : Timeline B) (value : ServerMessage B), exec (.quote value) s = .ok t →
      exec (.quote value) t = .ok t) ∧
    (∀ (s t : Timeline B) (p : Pass B) (page : List (MessageEvent B))
      (answers again : List (String × Answer B)), (timeline B).Reachable s →
      (∀ e ∈ page, s.tombstones e.id = none ∨ held s.messages e.id = none) →
      s.pass page = .ok p → exec (.events page answers) s = .ok t →
      (exec (.events page again) t = .ok t ↔ again = [] ∧ Refreshed page p t.messages)) ∧
    (∀ current p q : List (ServerMessage B),
      (∀ a ∈ p, ∀ b ∈ q, a.id = b.id → a.version ≠ b.version) →
      (mergeMessages current p >>= fun ms => mergeMessages ms q) =
        (mergeMessages current q >>= fun ms => mergeMessages ms p)) ∧
    (∀ (current incoming : List (ServerMessage B)) (e : ChatError),
      mergeMessages current incoming = .error e → ∃ a ∈ incoming, ∃ b ∈ current ++ incoming,
        b.id = a.id ∧ b.createdAt ≠ a.createdAt) ∧
    (∀ (s : Timeline B) (page : List (MessageEvent B)) (rows : List (ServerMessage B)),
      (timeline B).Reachable s →
      ((∀ id, (s.slot id).OneTime (ofId id (upserts page))) → ∃ p, s.pass page = .ok p) ∧
      ((∀ id, (s.slot id).OneTime (ofId id rows)) → ∃ t, exec (.history rows) s = .ok t)) ∧
    ∀ (s t u : Timeline B) (p : Pass B) (pre post : List (MessageEvent B)) (id : String)
      (version : Nat) (answers : List (String × Answer B)) (cs : List (Command B)),
      (timeline B).Reachable s → s.pass pre = .ok p →
      (∀ m ∈ held p.messages id, m.version ≤ version) →
      exec (.events (pre ++ .deleted id version :: post) answers) s = .ok t →
      (timeline B).Run t cs u → held u.messages id = none := by
  refine ⟨fun s hs => ordered_of_reachable hs, ?_, ?_, ?_, ?_, ?_, ?_, ?_, ?_, ?_⟩
  · intro s t cs id hs hrun hgone hdrops
    exact (run_newest (ordered_of_reachable hs) hrun hgone hdrops).2
  · intro s t c id hs hstep hdrops
    exact exec_drops (ordered_of_reachable hs) hstep hdrops
  · exact fun s t rows => exec_history_again
  · exact fun s t value => exec_quote_again
  · intro s t p page answers again hs hone hpass hstep
    exact exec_again_iff (ordered_of_reachable hs) hone hpass hstep
  · exact fun current p q => merge_comm
  · exact fun current incoming e h => (merge_refused h).2
  · intro s page rows hs
    have hordered := ordered_of_reachable hs
    exact ⟨pass_total hordered, history_total hordered⟩
  · intro s t u p pre post id version answers cs hs hpre hversion hstep hrun
    have hordered := ordered_of_reachable hs
    obtain ⟨hfresh, hdead⟩ := exec_deleted hordered hpre hversion hstep
    exact (run_dead (exec_ordered hordered hstep) hfresh hdead hrun).1

/-! ### A short run -/

theorem mergeMessages_nil : mergeMessages ([] : List (ServerMessage B)) [] = .ok [] := by
  simp [mergeMessages, Keyed.ofList]

theorem mergeMessages_one (m : ServerMessage B) : mergeMessages [] [m] = .ok [m] := by
  simp [mergeMessages, mergeOne, Keyed.ofList, Keyed.at?, Keyed.set]

theorem mergeMessages_kept (m : ServerMessage B) : mergeMessages [m] [] = .ok [m] := by
  simp [mergeMessages, Keyed.ofList, Keyed.at?, Keyed.set]

theorem mergeMessages_again {m m' : ServerMessage B} (hid : m'.id = m.id)
    (hcreated : m.createdAt = m'.createdAt) (hversion : m'.version = m.version) :
    mergeMessages [m] [m'] = .ok [m'] := by
  simp [mergeMessages, mergeOne, Keyed.ofList, Keyed.at?, Keyed.set, hid, hcreated, hversion,
    ensure]

def saved (id : String) (version : Nat) : ServerMessage Bool :=
  { id := id, version := version, createdAt := "2024-01-01T00:00:00.000Z", body := false }

/-- Two messages of a snapshot. -/
def seed : Timeline Bool where
  messages := [saved "m" 5, saved "x" 1]
  tombstones _ := none
  fresh := true

theorem seed_init : (timeline Bool).init seed := by
  refine ⟨⟨by simp [seed, saved], ?_⟩, rfl⟩
  simp only [seed, List.pairwise_cons, List.mem_singleton, forall_eq, List.not_mem_nil]
  refine ⟨?_, by simp, List.Pairwise.nil⟩
  rw [displayKey, displayKey, Prod.Lex.toLex_lt_toLex]
  exact .inr ⟨rfl, by decide⟩

/-- What is left of the seed when its second message is deleted. -/
def seedPass : Pass Bool where
  messages := [saved "m" 5]
  tombstones := Function.update (fun _ => none) "x" (some ⟨1, some "2024-01-01T00:00:00.000Z"⟩)
  removed := true

theorem seed_pass : seed.pass [.deleted "x" 1] = .ok seedPass := rfl

/-- The page that deletes it, with the answer to the re-read of the first. -/
theorem seed_deletes (answer : Answer Bool) (rows : List (ServerMessage Bool))
    (hrows : rereads [saved "m" 5] [("m", answer)] = .ok rows)
    {ms : List (ServerMessage Bool)}
    (hmerge : mergeMessages [] (rows.filter fun m => (seedPass.tombstones m.id).isNone) = .ok ms) :
    exec (.events [.deleted "x" 1] [("m", answer)]) seed =
      .ok { messages := ms, tombstones := seedPass.tombstones, fresh := false } := by
  have hfinish : seedPass.finish [("m", answer)] = .ok ms := by
    rw [Pass.finish, if_pos (show seedPass.removed = true from rfl),
      show seedPass.messages = [saved "m" 5] from rfl, hrows, ok_bind]
    exact hmerge
  simp only [exec, seed_pass, hfinish, ok_bind, pure_ok]

/-- The deleted message does not come back with a late page of history, and the other one is
the newest there was. -/
theorem timeline_fold_late : ∃ t : Timeline Bool,
    (timeline Bool).Run seed [.events [.deleted "x" 1] [("m", .found (saved "m" 6))],
      .history [saved "x" 2]] t ∧
    Newest (held seed.messages "m") [saved "m" 6] (held t.messages "m") ∧
    held t.messages "x" = none := by
  have hdelete := seed_deletes (.found (saved "m" 6)) [saved "m" 6] rfl
    (mergeMessages_one (saved "m" 6))
  have hlate : exec (.history [saved "x" 2])
      { messages := [saved "m" 6], tombstones := seedPass.tombstones, fresh := false } =
      .ok { messages := [saved "m" 6], tombstones := seedPass.tombstones, fresh := false } := by
    have hundeleted : undeleted seedPass.tombstones [saved "x" 2] = .ok [] := rfl
    simp only [exec, hundeleted, mergeMessages_kept, ok_bind, pure_ok]
  have hrun : (timeline Bool).Run seed _ _ := .cons hdelete (.single hlate)
  have hreach := System.Reachable.init seed_init
  obtain ⟨-, hnewest, -, -, -, -, -, -, -, hdeleted⟩ := timeline_fold (B := Bool)
  refine ⟨_, hrun, ?_, ?_⟩
  · exact hnewest _ _ _ "m" hreach hrun rfl (by simp [Command.Drops])
  · exact hdeleted seed _ _ _ [] [] "x" 1 _ _ hreach rfl (by decide) hdelete (.single hlate)

/-- A re-read answered with 404 forgets the version: what comes later is held, however old. -/
theorem seed_forgets : ∃ t : Timeline Bool,
    (timeline Bool).Run seed [.events [.deleted "x" 1] [("m", .missing)],
      .history [saved "m" 3]] t ∧ held t.messages "m" = some (saved "m" 3) := by
  have hdrop := seed_deletes .missing [] rfl mergeMessages_nil
  have hlate : exec (.history [saved "m" 3])
      { messages := [], tombstones := seedPass.tombstones, fresh := false } =
      .ok { messages := [saved "m" 3], tombstones := seedPass.tombstones, fresh := false } := by
    have hundeleted : undeleted seedPass.tombstones [saved "m" 3] = .ok [saved "m" 3] := rfl
    simp only [exec, hundeleted, mergeMessages_one, ok_bind, pure_ok]
  exact ⟨_, .cons hdrop (.single hlate), rfl⟩

/-- A page brings a version of a message, and its re-read another body at that version: the
page again brings the first body back. -/
theorem seed_rereads : ∃ t : Timeline Bool,
    exec (.events [.deleted "x" 1, .upsert (saved "m" 5)]
      [("m", .found { saved "m" 5 with body := true })]) seed = .ok t ∧
    ∀ again, exec (.events [.deleted "x" 1, .upsert (saved "m" 5)] again) t ≠ .ok t := by
  let read : ServerMessage Bool := { saved "m" 5 with body := true }
  have hpass : seed.pass [.deleted "x" 1, .upsert (saved "m" 5)] = .ok seedPass := by
    have hmerge : mergeMessages [saved "m" 5] [saved "m" 5] = .ok [saved "m" 5] :=
      mergeMessages_again rfl rfl rfl
    have happly : seedPass.apply (.upsert (saved "m" 5)) = .ok seedPass := by
      simp only [Pass.apply, show seedPass.tombstones (saved "m" 5).id = none from rfl,
        show seedPass.messages = [saved "m" 5] from rfl, hmerge, ok_bind]
      rfl
    exact happly
  have hfinish : seedPass.finish [("m", .found read)] = .ok [read] := mergeMessages_one read
  have hstep : exec (.events [.deleted "x" 1, .upsert (saved "m" 5)] [("m", .found read)]) seed =
      .ok ⟨[read], seedPass.tombstones, false⟩ := by
    simp only [exec, hpass, hfinish, ok_bind, pure_ok]
  refine ⟨_, hstep, fun again hagain => ?_⟩
  have hordered := seed_init.1
  obtain ⟨-, hread⟩ := (exec_again_iff hordered (fun _ _ => .inl rfl) hpass hstep).mp hagain
  rcases hread (.upsert (saved "m" 5)) (by simp) with heq | ⟨y, hy, hnewer⟩
  · exact absurd (congrArg (Option.map ServerMessage.body) heq) (by decide)
  · have hlt := hnewer (saved "m" 5) (by simp [upserts]) rfl
    cases hy
    exact absurd hlt (by decide)

/-- A snapshot's message that was remembered as deleted, with no creation time. -/
def returned : Timeline Bool where
  messages := [saved "m" 5]
  tombstones := Function.update (fun _ => none) "m" (some ⟨3, none⟩)
  fresh := true

/-- A page with another creation time of it, which is not merged, and then its deletion. -/
def late : List (MessageEvent Bool) :=
  [.upsert { saved "m" 4 with createdAt := "2024-01-02T00:00:00.000Z" }, .deleted "m" 5]

theorem returned_init : (timeline Bool).init returned :=
  ⟨⟨by simp [returned], by simp [returned]⟩, rfl⟩

/-- The page again fails, for now the deletion has the creation time. -/
theorem returned_late : ∃ p t, returned.pass late = .ok p ∧
    exec (.events late []) returned = .ok t ∧ Refreshed late p t.messages ∧
    ∀ again, exec (.events late again) t ≠ .ok t := by
  refine ⟨_, _, rfl, rfl, fun e he => .inl rfl, fun again hagain => ?_⟩
  obtain ⟨q, ms, hq, -, -⟩ := exec_events hagain
  cases hq

/-- Versions go back, and pages are not idempotent: the second for a list where nothing held
was deleted before it, the third for re-reads that change nothing. -/
theorem timeline_forgets :
    (¬∀ (s t : Timeline Bool) (cs : List (Command Bool)), (timeline Bool).init s →
      (timeline Bool).Run s cs t → ∀ x ∈ s.messages ++ cs.flatMap Command.received,
        ∀ m ∈ held t.messages x.id, x.version ≤ m.version) ∧
    (¬∀ (s t : Timeline Bool) (page : List (MessageEvent Bool))
      (answers : List (String × Answer Bool)), (timeline Bool).init s →
      (∀ id, s.tombstones id = none ∨ held s.messages id = none) →
      exec (.events page answers) s = .ok t → ∃ again, exec (.events page again) t = .ok t) ∧
    ¬∀ (s t : Timeline Bool) (p : Pass Bool) (page : List (MessageEvent Bool))
      (answers : List (String × Answer Bool)), (timeline Bool).init s → s.pass page = .ok p →
      exec (.events page answers) s = .ok t → Refreshed page p t.messages →
      ∃ again, exec (.events page again) t = .ok t := by
  refine ⟨fun hall => ?_, fun hall => ?_, fun hall => ?_⟩
  · obtain ⟨t, hrun, hheld⟩ := seed_forgets
    have hle := hall _ _ _ seed_init hrun (saved "m" 5) (by simp [seed]) (saved "m" 3) hheld
    exact absurd hle (by decide)
  · obtain ⟨t, hstep, hagain⟩ := seed_rereads
    obtain ⟨again, hsame⟩ := hall _ _ _ _ seed_init (fun _ => .inl rfl) hstep
    exact hagain again hsame
  · obtain ⟨p, t, hpass, hstep, hread, hagain⟩ := returned_late
    obtain ⟨again, hsame⟩ := hall _ _ _ _ _ returned_init hpass hstep hread
    exact hagain again hsame

end Rogichat.Web
