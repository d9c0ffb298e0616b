import Rogichat.Restore.Observation

/-!
# A release is taken once

The invariant is about a run's row and the log of what committed: the row's observation is
the last one recorded, a run is authorized when its release was consumed, and no write of
`prepare` is newer than that. Every transaction locks the row and looks at its phase, so a
step of one run leaves the rows of the others alone.
-/

namespace Rogichat.Restore

open Lib Ledger

variable {c : Crypto} {s t : Sys}

/-! ## The log -/

/-- The newest observation that was ready, with the tables it was made of. -/
def lastRecorded (runId : String) : List Event → Option (Domain × Observation)
  | [] => none
  | .observed r true domain o :: log =>
    if r = runId then some (domain, o) else lastRecorded runId log
  | _ :: log => lastRecorded runId log

/-- The newest observation, ready or not. -/
def lastObserved (runId : String) : List Event → Option (Domain × Observation)
  | [] => none
  | .observed r _ domain o :: log => if r = runId then some (domain, o) else lastObserved runId log
  | _ :: log => lastObserved runId log

def isConsumed (runId : String) : Event → Bool
  | .consumed r => r = runId
  | _ => false

/-- The observation was made of these tables. -/
structure Measured (c : Crypto) (d : Domain) (o : Observation) : Prop where
  state : d.observation c = .ok o.state
  apple : d.readiness o.apple.providerConfigured = o.apple
  bound : o.mediaBound = true → d.media ≠ none ∧ d.media.map c.sha256 = o.media.snapshotSha256

/-- What the log says is measured, bound and consumed at most once. -/
structure LogOk (c : Crypto) (log : List Event) : Prop where
  measured : ∀ runId recorded d o, Event.observed runId recorded d o ∈ log →
    Measured c d o ∧ (recorded = true → o.mediaBound = true)
  single : ∀ runId, log.countP (isConsumed runId) ≤ 1
  quiet : ∀ runId newer older, log = newer ++ .consumed runId :: older →
    Event.mutated runId ∉ newer

/-- A mutation may be logged while nothing was consumed. -/
theorem LogOk.mutated {log : List Event} (h : LogOk c log) {runId : String}
    (hfresh : Event.consumed runId ∉ log) : LogOk c (.mutated runId :: log) := by
  refine ⟨?_, ?_, ?_⟩
  · intro r b d o hmem
    rcases List.mem_cons.mp hmem with heq | hmem
    · cases heq
    · exact h.measured r b d o hmem
  · intro r
    rw [List.countP_cons_of_neg (by simp [isConsumed])]
    exact h.single r
  · intro r newer older hlog hmem
    cases newer with
    | nil => cases hlog
    | cons e newer =>
      obtain ⟨rfl, rfl⟩ := List.cons.inj hlog
      rcases List.mem_cons.mp hmem with heq | hmem
      · cases heq
        exact hfresh (List.mem_append_right _ List.mem_cons_self)
      · exact h.quiet r newer older rfl hmem

/-- A measurement may be logged when it is of the database's content. -/
theorem LogOk.observed {log : List Event} (h : LogOk c log) {runId : String} {recorded : Bool}
    {d : Domain} {o : Observation} (hmeasured : Measured c d o)
    (hbound : recorded = true → o.mediaBound = true) :
    LogOk c (.observed runId recorded d o :: log) := by
  refine ⟨?_, ?_, ?_⟩
  · intro r b d' o' hmem
    rcases List.mem_cons.mp hmem with heq | hmem
    · cases heq
      exact ⟨hmeasured, hbound⟩
    · exact h.measured r b d' o' hmem
  · intro r
    rw [List.countP_cons_of_neg (by simp [isConsumed])]
    exact h.single r
  · intro r newer older hlog hmem
    cases newer with
    | nil => cases hlog
    | cons e newer =>
      obtain ⟨rfl, rfl⟩ := List.cons.inj hlog
      rcases List.mem_cons.mp hmem with heq | hmem
      · cases heq
      · exact h.quiet r newer older rfl hmem

/-- A release may be logged once. -/
theorem LogOk.consumed {log : List Event} (h : LogOk c log) {runId : String}
    (hfresh : Event.consumed runId ∉ log) : LogOk c (.consumed runId :: log) := by
  have hnone : log.countP (isConsumed runId) = 0 := by
    rw [List.countP_eq_zero]
    intro e he hconsumed
    cases e with
    | consumed r =>
      have hr : r = runId := of_decide_eq_true hconsumed
      rw [hr] at he
      exact hfresh he
    | mutated r => cases hconsumed
    | observed r b d o => cases hconsumed
  refine ⟨?_, ?_, ?_⟩
  · intro r b d o hmem
    rcases List.mem_cons.mp hmem with heq | hmem
    · cases heq
    · exact h.measured r b d o hmem
  · intro r
    by_cases hr : runId = r
    · subst hr
      rw [List.countP_cons, hnone]
      split <;> omega
    · rw [List.countP_cons_of_neg (by simp [isConsumed, hr])]
      exact h.single r
  · intro r newer older hlog hmem
    cases newer with
    | nil => exact absurd hmem List.not_mem_nil
    | cons e newer =>
      obtain ⟨rfl, rfl⟩ := List.cons.inj hlog
      rcases List.mem_cons.mp hmem with heq | hmem
      · cases heq
      · exact h.quiet r newer older rfl hmem

/-! ## The rows -/

/-- A checkpoint row agrees with the log. -/
structure RowOk (c : Crypto) (log : List Event) (r : CheckpointRow) : Prop where
  started : r.phase ≠ .new
  recorded : r.phase = .observed ∨ r.phase = .releaseAuthorized →
    ∃ d o, lastRecorded r.runId log = some (d, o) ∧ r.observationSha256 = some (o.digest c)
  consumed : Event.consumed r.runId ∈ log ↔ r.phase = .releaseAuthorized

/-- The proofs of an attempt were verified when it was opened. -/
structure Attempt.Ok (c : Crypto) (now : Time) (a : Attempt) : Prop where
  boundary : ∃ envelope, ∃ opened ≤ now,
    a.settings.verifier.boundary c envelope a.settings.scope ((opened / 1000 : Nat) : Int) =
      .ok a.boundary
  release : ∀ release, a.verb = .consume release →
    release.payload.boundarySha256 = a.boundary.sha256 ∧ ∃ envelope, ∃ opened ≤ now,
      a.settings.verifier.release c envelope a.settings.scope ((opened / 1000 : Nat) : Int) =
        .ok release

/-- The rows agree with the log, and the attempts with their verifiers. -/
structure Inv (c : Crypto) (s : Sys) : Prop where
  rows : ∀ r ∈ s.checkpoints, RowOk c s.log r
  log : LogOk c s.log
  tracked : ∀ runId, Event.consumed runId ∈ s.log → ∃ r ∈ s.checkpoints, r.runId = runId
  attempts : ∀ id a, s.attempts id = some a → a.Ok c s.now

/-- One move of a phase, or none. -/
def Moves (p q : RestorePhase) : Prop :=
  p = q ∨ (p = .new ∧ q = .quarantined) ∨ (p = .quarantined ∧ q = .observed) ∨
    (p = .observed ∧ q = .releaseAuthorized)

/-- No row is lost, each moves at most one phase on, and a new one is quarantined. -/
structure Moved (s t : Sys) : Prop where
  kept : ∀ r ∈ s.checkpoints, ∃ r' ∈ t.checkpoints, r'.runId = r.runId ∧ Moves r.phase r'.phase
  fresh : ∀ r' ∈ t.checkpoints, (∃ r ∈ s.checkpoints, r.runId = r'.runId) ∨ r'.phase = .quarantined

theorem Moved.of_eq (h : t.checkpoints = s.checkpoints) : Moved s t := by
  refine ⟨?_, ?_⟩
  · rw [h]
    exact fun r hr => ⟨r, hr, rfl, .inl rfl⟩
  · rw [h]
    exact fun r hr => .inl ⟨r, hr, rfl⟩

/-- A run has one row. -/
theorem row_eq {r r' : CheckpointRow} (hr : r ∈ s.checkpoints) (hr' : r' ∈ s.checkpoints)
    (hid : r.runId = r'.runId) : r = r' :=
  Table.eq_of_key hr hr' (k := (0, r.runId)) (by simp [Row.keys]) (by simp [Row.keys, hid])

/-- Rewriting the row of a run leaves the other runs alone. -/
theorem mem_updateRow {runId : String} {f : CheckpointRow → CheckpointRow} {k : Table.Keeps f}
    {r' : CheckpointRow} : r' ∈ (s.updateRow runId f k).checkpoints ↔
      ∃ r ∈ s.checkpoints, r' = if r.runId = runId then f r else r :=
  Table.mem_update (k := k)

/-- A locked row is the attempt's own, under its boundary and its custody. -/
theorem lock_ok {a : Attempt} {held : Held} {row : CheckpointRow}
    (h : s.lock c a held = .ok row) :
    row ∈ s.checkpoints ∧ row.runId = a.settings.scope.restoreRunId ∧
      row.boundarySha256 = a.boundary.sha256 := by
  simp only [Sys.lock, bind_ok, require_ok, check_ok] at h
  obtain ⟨r, hfind, -, ⟨-, -, hboundary, -⟩, hrow⟩ := h
  rw [pure_ok] at hrow
  subst hrow
  exact ⟨Table.mem_of_find? hfind, Table.holds_of_find?
    (p := fun r : CheckpointRow => r.runId = a.settings.scope.restoreRunId) hfind, hboundary⟩

/-- A row's phase says whether its run was consumed. -/
theorem Inv.unconsumed (h : Inv c s) {row : CheckpointRow} (hrow : row ∈ s.checkpoints)
    (hphase : row.phase ≠ .releaseAuthorized) : Event.consumed row.runId ∉ s.log := by
  intro hmem
  exact hphase ((h.rows row hrow).consumed.mp hmem)

/-! ## Steps that only open, close or feed an attempt -/

/-- An attempt stays in order as time goes on. -/
theorem Attempt.Ok.later {now now' : Time} {a : Attempt} (h : a.Ok c now) (hle : now ≤ now') :
    a.Ok c now' := by
  obtain ⟨envelope, opened, hopened, hok⟩ := h.boundary
  refine ⟨⟨envelope, opened, Nat.le_trans hopened hle, hok⟩, ?_⟩
  intro release hverb
  obtain ⟨hboundary, envelope, opened, hopened, hok⟩ := h.release release hverb
  exact ⟨hboundary, envelope, opened, Nat.le_trans hopened hle, hok⟩

/-- The same proofs, further on. -/
theorem Attempt.Ok.congr {now : Time} {a b : Attempt} (h : a.Ok c now)
    (hsettings : b.settings = a.settings) (hverb : b.verb = a.verb)
    (hboundary : b.boundary = a.boundary) : b.Ok c now := by
  refine ⟨?_, ?_⟩
  · rw [hsettings, hboundary]
    exact h.boundary
  · rw [hsettings, hboundary, hverb]
    exact h.release

/-- A step that leaves the rows and the log alone. -/
theorem Inv.of_same (h : Inv c s) (hcheckpoints : t.checkpoints = s.checkpoints)
    (hlog : t.log = s.log) (hattempts : ∀ id a, t.attempts id = some a → a.Ok c t.now) :
    Inv c t ∧ Moved s t := by
  refine ⟨⟨?_, ?_, ?_, hattempts⟩, Moved.of_eq hcheckpoints⟩
  · rw [hcheckpoints, hlog]
    exact h.rows
  · rw [hlog]
    exact h.log
  · rw [hcheckpoints, hlog]
    exact h.tracked

/-- An attempt may be set to one in order. -/
theorem Inv.setAttempt (h : Inv c s) (id : Nat) {a : Attempt} (ha : a.Ok c s.now) :
    Inv c (s.setAttempt id a) := by
  refine ⟨h.rows, h.log, h.tracked, ?_⟩
  intro id' b hb
  by_cases hid : id' = id
  · subst hid
    have hb : Function.update s.attempts id' (some a) id' = some b := hb
    rw [Function.update_self] at hb
    rw [← Option.some.inj hb]
    exact ha
  · have hb : Function.update s.attempts id (some a) id' = some b := hb
    rw [Function.update_of_ne hid] at hb
    exact h.attempts id' b hb

theorem attempt_ok {id : Nat} {a : Attempt} (h : s.attempt id = .ok a) : s.attempts id = some a :=
  require_ok.mp h

/-- Opening an attempt verifies its boundary. -/
theorem open_step {id : Nat} {settings : Settings} {prepare : Bool} {envelope : Envelope}
    (h : Inv c s) (hstep : open_ c s id settings prepare envelope = .ok t) :
    Inv c t ∧ Moved s t := by
  simp only [open_, bind_ok, check_ok] at hstep
  obtain ⟨-, -, boundary, hboundary, ht⟩ := hstep
  rw [pure_ok] at ht
  subst ht
  refine ⟨h.setAttempt id ?_, Moved.of_eq rfl⟩
  refine ⟨⟨envelope, s.now, Nat.le_refl _, hboundary⟩, ?_⟩
  intro release hverb
  split at hverb <;> cases hverb

/-- Opening a consumption verifies boundary and release. -/
theorem openConsume_step {id : Nat} {settings : Settings} {envelope releaseEnvelope : Envelope}
    (h : Inv c s) (hstep : openConsume c s id settings envelope releaseEnvelope = .ok t) :
    Inv c t ∧ Moved s t := by
  simp only [openConsume, bind_ok, check_ok] at hstep
  obtain ⟨-, -, boundary, hboundary, release, hrelease, -, hsame, ht⟩ := hstep
  rw [pure_ok] at ht
  subst ht
  refine ⟨h.setAttempt id ?_, Moved.of_eq rfl⟩
  refine ⟨⟨envelope, s.now, Nat.le_refl _, hboundary⟩, ?_⟩
  intro release' hverb
  cases hverb
  exact ⟨hsame, releaseEnvelope, s.now, Nat.le_refl _, hrelease⟩

/-- An inventory is received and checked against the boundary. -/
theorem receive_step {id : Nat} {listing : List (Option String)} {stored : String → Option String}
    (h : Inv c s) (hstep : receive s id listing stored = .ok t) : Inv c t ∧ Moved s t := by
  simp only [receive, bind_ok, check_ok] at hstep
  obtain ⟨a, ha, -, -, -, -, -, -, ht⟩ := hstep
  rw [pure_ok] at ht
  subst ht
  exact ⟨h.setAttempt id ((h.attempts id a (attempt_ok ha)).congr rfl rfl rfl), Moved.of_eq rfl⟩

/-- The custody check answers for the attempt it is asked for. -/
theorem assertHeld_step {id : Nat} {held : Held} (h : Inv c s)
    (hstep : assertHeld s id held = .ok t) : Inv c t ∧ Moved s t := by
  simp only [assertHeld, bind_ok, check_ok] at hstep
  obtain ⟨a, ha, -, -, -, -, ht⟩ := hstep
  rw [pure_ok] at ht
  subst ht
  exact ⟨h.setAttempt id ((h.attempts id a (attempt_ok ha)).congr rfl rfl rfl), Moved.of_eq rfl⟩

/-- A measurement is logged with what it measured. -/
theorem measure_step {id : Nat} {evidence : RestoreMediaEvidence} {held : Held}
    (h : Inv c s) (hstep : measure s id evidence held = .ok t) : Inv c t ∧ Moved s t := by
  simp only [measure, bind_ok, check_ok] at hstep
  obtain ⟨a, ha, -, -, -, -, -, -, -, -, -, -, ht⟩ := hstep
  rw [pure_ok] at ht
  subst ht
  exact ⟨h.setAttempt id ((h.attempts id a (attempt_ok ha)).congr rfl rfl rfl), Moved.of_eq rfl⟩

/-! ## Transactions -/

/-- The run an event belongs to. -/
def Event.runId : Event → String
  | .mutated r | .observed r _ _ _ | .consumed r => r

/-- Only a recorded measurement counts. -/
theorem lastRecorded_skip {runId : String} {e : Event} {log : List Event}
    (h : ∀ d o, e ≠ .observed runId true d o) :
    lastRecorded runId (e :: log) = lastRecorded runId log := by
  cases e with
  | observed r recorded d o =>
    cases recorded with
    | false => rfl
    | true =>
      rw [lastRecorded, if_neg]
      rintro rfl
      exact h d o rfl
  | mutated r => rfl
  | consumed r => rfl

/-- An event that neither records an observation of the row's run nor consumes it. -/
theorem RowOk.skip {log : List Event} {r : CheckpointRow} (h : RowOk c log r) {e : Event}
    (hrecorded : ∀ d o, e ≠ .observed r.runId true d o) (hconsumed : e ≠ .consumed r.runId) :
    RowOk c (e :: log) r := by
  refine ⟨h.started, ?_, ?_⟩
  · rw [lastRecorded_skip hrecorded]
    exact h.recorded
  · rw [← h.consumed, List.mem_cons]
    constructor
    · rintro (heq | hmem)
      · exact absurd heq.symm hconsumed
      · exact hmem
    · exact .inr

/-- Events of another run leave a row in order. -/
theorem RowOk.other {log : List Event} {r : CheckpointRow} (h : RowOk c log r) {e : Event}
    (hne : e.runId ≠ r.runId) : RowOk c (e :: log) r := by
  refine h.skip ?_ ?_
  · rintro d o rfl
    exact hne rfl
  · rintro rfl
    exact hne rfl

/-- A row that differs in its provider's cursor only. -/
theorem RowOk.congr {log : List Event} {r r' : CheckpointRow} (h : RowOk c log r)
    (hid : r'.runId = r.runId) (hphase : r'.phase = r.phase)
    (hobservation : r'.observationSha256 = r.observationSha256) : RowOk c log r' := by
  refine ⟨?_, ?_, ?_⟩
  · rw [hphase]
    exact h.started
  · rw [hphase, hid, hobservation]
    exact h.recorded
  · rw [hphase, hid]
    exact h.consumed

/-- A step that changes the row of one run, and logs it. -/
theorem Inv.transition (h : Inv c s) {runId : String} {f : CheckpointRow → CheckpointRow}
    {k : Table.Keeps f} {e : Event} {d : Domain} (he : e.runId = runId)
    (hid : ∀ r, (f r).runId = r.runId) (hlog : LogOk c (e :: s.log))
    (hrow : ∀ r ∈ s.checkpoints, r.runId = runId →
      RowOk c (e :: s.log) (f r) ∧ Moves r.phase (f r).phase)
    (hconsumed : e = .consumed runId → ∃ r ∈ s.checkpoints, r.runId = runId) :
    Inv c { s.updateRow runId f k with domain := d, log := e :: s.log } ∧
      Moved s { s.updateRow runId f k with domain := d, log := e :: s.log } := by
  refine ⟨⟨?_, hlog, ?_, h.attempts⟩, ?_, ?_⟩
  · intro r' hr'
    obtain ⟨r, hr, rfl⟩ := (mem_updateRow (k := k)).mp hr'
    by_cases hrun : r.runId = runId
    · rw [if_pos hrun]
      exact (hrow r hr hrun).1
    · rw [if_neg hrun]
      exact (h.rows r hr).other (by rw [he]; exact Ne.symm hrun)
  · intro runId' hmem
    have hold : ∃ r ∈ s.checkpoints, r.runId = runId' := by
      rcases List.mem_cons.mp hmem with heq | hmem
      · rw [← heq] at he
        obtain rfl : runId' = runId := he
        exact hconsumed heq.symm
      · exact h.tracked runId' hmem
    obtain ⟨r, hr, hrun⟩ := hold
    refine ⟨_, (mem_updateRow (k := k)).mpr ⟨r, hr, rfl⟩, ?_⟩
    split
    · exact (hid r).trans hrun
    · exact hrun
  · intro r hr
    refine ⟨_, (mem_updateRow (k := k)).mpr ⟨r, hr, rfl⟩, ?_⟩
    split
    · rename_i hrun
      exact ⟨hid r, (hrow r hr hrun).2⟩
    · exact ⟨rfl, .inl rfl⟩
  · intro r' hr'
    obtain ⟨r, hr, rfl⟩ := (mem_updateRow (k := k)).mp hr'
    refine .inl ⟨r, hr, ?_⟩
    split
    · exact (hid r).symm
    · rfl

/-- What leaves the rows alone adds no move. -/
theorem Moved.trans_eq {u : Sys} (h : Moved s t) (hu : u.checkpoints = t.checkpoints) :
    Moved s u := by
  refine ⟨?_, ?_⟩
  · rw [hu]
    exact h.kept
  · rw [hu]
    exact h.fresh

/-- A page moves the provider's cursor, not the phase. -/
theorem page_step {id : Nat} (h : Inv c s) (hstep : page c s id = .ok t) :
    Inv c t ∧ Moved s t := by
  simp only [page, bind_ok, check_ok] at hstep
  obtain ⟨a, ha, -, -, held, -, -, -, row, hlock, -, hphase, ht⟩ := hstep
  have hattempt := h.attempts id a (attempt_ok ha)
  obtain ⟨hrow, -, -⟩ := lock_ok hlock
  split at ht
  · rw [pure_ok] at ht
    subst ht
    exact ⟨h.setAttempt id (hattempt.congr rfl rfl rfl), Moved.of_eq rfl⟩
  · rw [pure_ok] at ht
    have hfresh := h.unconsumed hrow hphase
    have hmoved := h.transition (e := .mutated row.runId)
      (d := (s.domain.applePage row.providerPhase row.providerAfterId 100 s.now).domain)
      (f := fun r =>
        { r with
          providerPhase :=
            if (s.domain.applePage row.providerPhase row.providerAfterId 100 s.now).hasMore
            then row.providerPhase else row.providerPhase.next
          providerAfterId :=
            if (s.domain.applePage row.providerPhase row.providerAfterId 100 s.now).hasMore
            then (s.domain.applePage row.providerPhase row.providerAfterId 100 s.now).lastId
            else none })
      (k := ⟨fun _ => rfl⟩) rfl (fun _ => rfl) (h.log.mutated hfresh)
      (fun r hr _ => ⟨((h.rows r hr).skip (fun _ _ => Event.noConfusion)
        Event.noConfusion).congr rfl rfl rfl, .inl rfl⟩)
      (fun heq => (by cases heq))
    subst ht
    exact ⟨hmoved.1.setAttempt id (hattempt.congr rfl rfl rfl), hmoved.2.trans_eq rfl⟩

/-- A receipt is applied while the run is not authorized. -/
theorem restoreMutation_step {id : Nat} {result : Domain} (h : Inv c s)
    (hstep : restoreMutation c s id result = .ok t) : Inv c t ∧ Moved s t := by
  simp only [restoreMutation, bind_ok, check_ok] at hstep
  obtain ⟨a, ha, -, -, held, -, -, -, row, hlock, -, hphase, ht⟩ := hstep
  rw [pure_ok] at ht
  subst ht
  obtain ⟨hrow, -, -⟩ := lock_ok hlock
  have hfresh : Event.consumed row.runId ∉ s.log := by
    refine h.unconsumed hrow ?_
    rcases hphase with hphase | hphase <;> rw [hphase] <;> exact RestorePhase.noConfusion
  have hattempt := h.attempts id a (attempt_ok ha)
  have hwritten : Inv c { s with domain := result, log := .mutated row.runId :: s.log } := by
    refine ⟨?_, h.log.mutated hfresh, ?_, h.attempts⟩
    · intro r hr
      exact (h.rows r hr).skip (fun _ _ => Event.noConfusion) Event.noConfusion
    · intro runId hmem
      rcases List.mem_cons.mp hmem with heq | hmem
      · cases heq
      · exact h.tracked runId hmem
  exact ⟨hwritten.setAttempt id (hattempt.congr rfl rfl rfl), Moved.of_eq rfl⟩

/-- The run's row is one that exists, or a new one. -/
theorem begin_ok {a : Attempt} {held : Held} {s' : Sys} {row : CheckpointRow}
    (h : s.begin_ c a held = .ok (s', row)) : row.runId = a.settings.scope.restoreRunId ∧
      (s' = s ∧ row ∈ s.checkpoints ∨
        ∃ checkpoints, s.checkpoints.insert row = some checkpoints ∧
          s' = { s with checkpoints := checkpoints } ∧ row.phase = .new) := by
  simp only [Sys.begin_, bind_ok] at h
  obtain ⟨row', hlock, hpair⟩ := h
  rw [pure_ok, Prod.mk.injEq] at hpair
  obtain ⟨rfl, rfl⟩ := hpair
  obtain ⟨hrow, hrun, -⟩ := lock_ok hlock
  refine ⟨hrun, ?_⟩
  cases hins : s.checkpoints.insert
      { runId := a.settings.scope.restoreRunId
        targetId := targetIdentity c a.settings.scope.targetId held.mysqlServerUuid
        contextSha256 := contextSha256 c a.settings.scope (a.binding held)
        boundarySha256 := a.boundary.sha256
        boundaryIssuer := a.boundary.issuer
        epoch := (a.binding held).authorizationEpoch } with
  | none =>
    rw [hins] at hrow
    exact .inl ⟨rfl, hrow⟩
  | some checkpoints =>
    rw [hins] at hrow
    -- the row of that run is the one just made
    have hnew := Table.eq_of_key hrow ((Table.mem_insert hins).mpr (.inr rfl))
      (k := (0, a.settings.scope.restoreRunId)) (by simp [Row.keys, hrun]) (by simp [Row.keys])
    rw [hnew]
    exact .inr ⟨checkpoints, hins, rfl, rfl⟩

/-- The first transaction of `prepare`: the row it makes is quarantined in it. -/
theorem begin_step {id : Nat} (h : Inv c s) (hstep : begin_ c s id = .ok t) :
    Inv c t ∧ Moved s t := by
  simp only [begin_, bind_ok, check_ok] at hstep
  obtain ⟨a, ha, -, -, held, -, -, -, ⟨s', row⟩, hbegin, -, hphase, ht⟩ := hstep
  rw [pure_ok] at ht
  have hattempt := h.attempts id a (attempt_ok ha)
  -- the run's row is there from an earlier attempt, or is inserted now
  rcases (begin_ok hbegin).2 with ⟨rfl, hrow⟩ | ⟨checkpoints, hins, rfl, hnew⟩
  · rw [if_neg (h.rows row hrow).started] at ht
    subst ht
    exact ⟨h.setAttempt id (hattempt.congr rfl rfl rfl), Moved.of_eq rfl⟩
  · rw [if_pos hnew] at ht
    have hother : ∀ r ∈ s.checkpoints, r.runId ≠ row.runId := by
      intro r hr heq
      exact Table.fresh_of_insert hins hr
        ⟨(0, r.runId), by simp [Row.keys], by simp [Row.keys, heq]⟩
    -- a new run id was never consumed, as each consumption has a row
    have hfresh : Event.consumed row.runId ∉ s.log := by
      intro hmem
      obtain ⟨r, hr, hrun⟩ := h.tracked row.runId hmem
      exact hother r hr hrun
    have hrows : ∀ r', r' ∈ ({ s with checkpoints := checkpoints }.updateRow row.runId
        fun r => { r with phase := .quarantined }).checkpoints ↔
          r' ∈ s.checkpoints ∨ r' = { row with phase := .quarantined } := by
      intro r'
      refine mem_updateRow.trans ?_
      constructor
      · rintro ⟨r, hr, rfl⟩
        rcases (Table.mem_insert hins).mp hr with hr | rfl
        · rw [if_neg (hother r hr)]
          exact .inl hr
        · exact .inr (if_pos rfl)
      · rintro (hr | rfl)
        · exact ⟨r', (Table.mem_insert hins).mpr (.inl hr), (if_neg (hother r' hr)).symm⟩
        · exact ⟨row, (Table.mem_insert hins).mpr (.inr rfl), (if_pos rfl).symm⟩
    have hinv : Inv c
        { { s with checkpoints := checkpoints }.updateRow row.runId fun r =>
            { r with phase := .quarantined } with
          domain := s.domain.quarantine s.now
          log := .mutated row.runId :: s.log } := by
      refine ⟨?_, h.log.mutated hfresh, ?_, h.attempts⟩
      · intro r' hr'
        rcases (hrows r').mp hr' with hr | rfl
        · exact (h.rows r' hr).skip (fun _ _ => Event.noConfusion) Event.noConfusion
        · refine ⟨RestorePhase.noConfusion, ?_, ?_⟩
          · rintro (hphase | hphase) <;> cases hphase
          · constructor
            · intro hmem
              rcases List.mem_cons.mp hmem with heq | hmem
              · cases heq
              · exact absurd hmem hfresh
            · intro hphase
              cases hphase
      · intro runId hmem
        rcases List.mem_cons.mp hmem with heq | hmem
        · cases heq
        · obtain ⟨r, hr, hrun⟩ := h.tracked runId hmem
          exact ⟨r, (hrows r).mpr (.inl hr), hrun⟩
    subst ht
    refine ⟨hinv.setAttempt id (hattempt.congr rfl rfl rfl), ?_, ?_⟩
    · intro r hr
      exact ⟨r, (hrows r).mpr (.inl hr), rfl, .inl rfl⟩
    · intro r' hr'
      rcases (hrows r').mp hr' with hr | rfl
      · exact .inl ⟨r', hr, rfl⟩
      · exact .inr rfl

/-- What both `observe` and `consume` make is made of the tables they find. -/
theorem observation_ok {a : Attempt} {row : CheckpointRow} {evidence : RestoreMediaEvidence}
    {held : Held} {o : Observation} (h : s.observation c a row evidence held = .ok o) :
    Measured c s.domain o ∧ o.media = evidence ∧ o.scope = a.settings.scope ∧
      o.boundarySha256 = a.boundary.sha256 ∧
      o.apple = s.domain.readiness a.settings.providerConfigured ∧
      o.mediaBound = bindMedia c a.settings.store s.domain evidence ∧
      o.state.violations = s.domain.violations := by
  simp only [Sys.observation, bind_ok] at h
  obtain ⟨state, hstate, ho⟩ := h
  rw [pure_ok] at ho
  subst ho
  have hviolations : state.violations = s.domain.violations := by
    simp only [Domain.observation, bind_ok] at hstate
    obtain ⟨-, -, manifest, -, hstate⟩ := hstate
    rw [pure_ok] at hstate
    rw [← hstate]
  refine ⟨⟨hstate, rfl, ?_⟩, rfl, rfl, rfl, rfl, rfl, hviolations⟩
  intro hbound
  obtain ⟨-, -, -, hmedia⟩ := of_decide_eq_true hbound
  exact hmedia

/-- A ready observation of a run that is not authorized becomes the run's. -/
theorem observe_step {id : Nat} (h : Inv c s) (hstep : observe c s id = .ok t) :
    Inv c t ∧ Moved s t := by
  simp only [observe, bind_ok, check_ok, require_ok] at hstep
  obtain ⟨a, ha, -, -, ⟨evidence, held⟩, -, -, -, row, hlock, -, hphase, o, ho, ht⟩ := hstep
  obtain ⟨hrow, -, -⟩ := lock_ok hlock
  obtain ⟨hmeasured, -⟩ := observation_ok ho
  split at ht
  · rename_i hrecorded
    rw [pure_ok] at ht
    have hmoved := h.transition (d := s.domain)
      (e := .observed row.runId (decide (o.Ready c a.boundary.payload.inventory ∧
        row.phase ≠ .releaseAuthorized)) s.domain o)
      (f := fun r => { r with phase := .observed, observationSha256 := some (o.digest c) })
      (k := ⟨fun _ => rfl⟩) rfl (fun _ => rfl)
      (h.log.observed hmeasured fun _ => hrecorded.1.2.1)
      (by
        intro r hr hrun
        have hsame := row_eq hr hrow hrun
        subst hsame
        refine ⟨⟨RestorePhase.noConfusion, fun _ => ⟨s.domain, o, ?_, rfl⟩, ?_⟩, ?_⟩
        · show lastRecorded r.runId (.observed r.runId (decide _) s.domain o :: s.log) = _
          rw [decide_eq_true hrecorded, lastRecorded, if_pos rfl]
        · constructor
          · intro hmem
            rcases List.mem_cons.mp hmem with heq | hmem
            · cases heq
            · have hfresh : Event.consumed r.runId ∉ s.log := h.unconsumed hr hrecorded.2
              exact absurd hmem hfresh
          · intro hphase
            cases hphase
        · -- the row was quarantined or observed
          show Moves r.phase .observed
          have hnew := (h.rows r hr).started
          have hauthorized := hrecorded.2
          cases hcase : r.phase with
          | new => exact absurd hcase hnew
          | quarantined => exact .inr (.inr (.inl ⟨rfl, rfl⟩))
          | observed => exact .inl rfl
          | releaseAuthorized => exact absurd hcase hauthorized)
      (fun heq => (by cases heq))
    subst ht
    exact hmoved
  · rename_i hrecorded
    rw [pure_ok] at ht
    subst ht
    refine ⟨⟨?_, h.log.observed hmeasured fun hready => ?_, ?_, h.attempts⟩, Moved.of_eq rfl⟩
    · intro r hr
      refine (h.rows r hr).skip ?_ Event.noConfusion
      intro d o' heq
      obtain ⟨-, hready, -, -⟩ := Event.observed.inj heq
      exact hrecorded (of_decide_eq_true hready)
    · exact absurd (of_decide_eq_true hready) hrecorded
    · intro runId hmem
      rcases List.mem_cons.mp hmem with heq | hmem
      · cases heq
      · exact h.tracked runId hmem

/-- What `consume` has checked when it commits. -/
theorem consume_ok {id : Nat} (h : consume c s id = .ok t) :
    ∃ a release evidence held row o, s.attempts id = some a ∧ a.verb = .consume release ∧
      s.lock c a held = .ok row ∧ row.phase = .observed ∧ row.providerPhase = .complete ∧
      s.observation c a row evidence held = .ok o ∧ o.Ready c a.boundary.payload.inventory ∧
      row.observationSha256 = some (o.digest c) ∧
      release.payload.observationSha256 = o.digest c ∧
      (s.now : Int) < release.payload.expiresAt * 1000 ∧
      t = { s with log := .consumed row.runId :: s.log }.updateRow row.runId fun r =>
        { r with
          phase := .releaseAuthorized
          releaseNonce := some release.payload.nonce
          releaseSha256 := some release.sha256 } := by
  simp only [consume, bind_ok] at h
  obtain ⟨a, ha, h⟩ := h
  split at h
  · rename_i release hverb
    simp only [pure_bind, bind_ok, check_ok, require_ok] at h
    obtain ⟨⟨evidence, held⟩, -, -, -, row, hlock, -, ⟨hphase, hprovider⟩, o, ho, -, hready, -,
      ⟨hrecorded, hsigned, hunexpired⟩, -, -, -, -, ht⟩ := h
    rw [pure_ok] at ht
    exact ⟨a, release, evidence, held, row, o, attempt_ok ha, hverb, hlock, hphase, hprovider, ho,
      hready, hrecorded, hsigned, hunexpired, ht.symm⟩
  · cases h

/-- A consumption keeps the invariant. -/
theorem consume_step {id : Nat} (h : Inv c s) (hstep : consume c s id = .ok t) :
    Inv c t ∧ Moved s t := by
  obtain ⟨a, release, evidence, held, row, o, -, -, hlock, hphase, -, -, -, -, -, -, ht⟩ :=
    consume_ok hstep
  obtain ⟨hrow, -, -⟩ := lock_ok hlock
  have hfresh : Event.consumed row.runId ∉ s.log := by
    refine h.unconsumed hrow ?_
    rw [hphase]
    exact RestorePhase.noConfusion
  have hmoved := h.transition (d := s.domain)
    (e := .consumed row.runId)
    (f := fun r =>
      { r with
        phase := .releaseAuthorized
        releaseNonce := some release.payload.nonce
        releaseSha256 := some release.sha256 })
    (k := ⟨fun _ => rfl⟩) rfl (fun _ => rfl) (h.log.consumed hfresh)
    (by
      intro r hr hrun
      have hsame := row_eq hr hrow hrun
      subst hsame
      refine ⟨⟨RestorePhase.noConfusion, fun _ => ?_, ?_⟩, ?_⟩
      · exact (h.rows r hr).recorded (.inl hphase)
      · exact ⟨fun _ => rfl, fun _ => List.mem_cons_self⟩
      · exact .inr (.inr (.inr ⟨hphase, rfl⟩)))
    (fun _ => ⟨row, hrow, rfl⟩)
  subst ht
  exact hmoved

/-- Every step keeps the invariant, and moves each phase at most one on. -/
theorem inv_step {command : Command} (h : Inv c s) (hstep : exec c command s = .ok t) :
    Inv c t ∧ Moved s t := by
  cases command with
  | open_ id settings prepare envelope => exact open_step h hstep
  | openConsume id settings envelope releaseEnvelope => exact openConsume_step h hstep
  | receive id listing stored => exact receive_step h hstep
  | assertHeld id held => exact assertHeld_step h hstep
  | begin_ id => exact begin_step h hstep
  | page id => exact page_step h hstep
  | restoreMutation id result => exact restoreMutation_step h hstep
  | measure id evidence held => exact measure_step h hstep
  | observe id => exact observe_step h hstep
  | consume id => exact consume_step h hstep
  | abandon id =>
    obtain rfl := pure_ok.mp hstep
    refine h.of_same rfl rfl ?_
    intro id' a ha
    by_cases hid : id' = id
    · subst hid
      have ha : Function.update s.attempts id' none id' = some a := ha
      rw [Function.update_self] at ha
      cases ha
    · have ha : Function.update s.attempts id none id' = some a := ha
      rw [Function.update_of_ne hid] at ha
      exact h.attempts id' a ha
  | drift domain =>
    obtain rfl := pure_ok.mp hstep
    exact h.of_same rfl rfl h.attempts
  | tick elapsed =>
    obtain rfl := pure_ok.mp hstep
    exact h.of_same rfl rfl fun id a ha => (h.attempts id a ha).later (Nat.le_add_right _ _)
  | custody custody =>
    obtain rfl := pure_ok.mp hstep
    exact h.of_same rfl rfl h.attempts

/-- The invariant holds in every run, whatever else writes to the database. -/
theorem inv_reachable (h : (system c).Reachable s) : Inv c s := by
  refine System.Reachable.induct (P := Inv c) ⟨?_, ?_⟩ h
  · rintro s ⟨hcheckpoints, hattempts, hlog⟩
    refine ⟨?_, ⟨?_, ?_, ?_⟩, ?_, ?_⟩
    · intro r hr
      rw [hcheckpoints] at hr
      exact absurd hr (Table.not_mem_empty r)
    · intro runId recorded d o hmem
      rw [hlog] at hmem
      exact absurd hmem List.not_mem_nil
    · intro runId
      rw [hlog]
      exact Nat.zero_le _
    · intro runId newer older hsplit
      rw [hlog] at hsplit
      exact absurd hsplit.symm (by simp)
    · intro runId hmem
      rw [hlog] at hmem
      exact absurd hmem List.not_mem_nil
    · intro id a ha
      rw [hattempts] at ha
      cases ha
  · intro s t command _ hinv hstep
    exact (inv_step hinv hstep).1

end Rogichat.Restore
