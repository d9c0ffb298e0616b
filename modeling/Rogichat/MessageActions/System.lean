import Rogichat.Lib.Trace
import Rogichat.MessageActions.Records

/-!
# Runs of the two owners

One process at a time owns the journals: it selects messages and rooms, begins actions, claims
and finishes the permits it handed out, and takes in what the server answers. A restart leaves the
journals and nothing else. A state also remembers what happened so far, which no command reads.

* **`Journaled`** — every record was begun, under an id of its own, and is kept.
* **`Permitted`**, **`UnblockPermitted`** — an unclaimed permit has not been claimed, and one of
  the current generation was handed out under the current selection.
* **`Paged`** — the pages on the screen are the ones heard since the list was asked for.
* **`Unseen`** — a block that counts as undone was missing from a complete list asked for later.
* **`actions_neverReplayed`** — what holds of every run.
-/

namespace Rogichat.MessageActions

open Lib

/-- A block list that was answered to its end. -/
structure CompleteList where
  room : Environment × Uuid × Uuid
  actors : List Uuid
  /-- When its first page was asked for. -/
  requestedAt : Nat

/-- The two states, their journals, the permits handed out and what has happened so far. -/
structure State where
  actions : Table ActionRecord := .empty
  unblocks : Table UnblockRecord := .empty
  owner : MessageActionState := {}
  permits : Table ActionPermit := .empty
  blocks : ActorBlocksState := {}
  unblockPermits : Table UnblockPermit := .empty
  /-- How many commands ran. -/
  now : Nat := 0
  /-- When a message was last selected or the process last started. -/
  selectedAt : Nat := 0
  /-- When a room's blocks were last selected or the process last started. -/
  viewedAt : Nat := 0
  /-- The records that were begun, each with its time. -/
  begun : List (Nat × ActionRecord) := []
  unblocked : List (Nat × UnblockRecord) := []
  claims : List Uuid := []
  unblockClaims : List Uuid := []
  /-- When the list being read was asked for. -/
  requestedAt : Nat := 0
  /-- The actors on its pages so far. -/
  heard : List Uuid := []
  listed : List CompleteList := []

/-- What the user, the network and the server's lists do. -/
inductive Command
  | select (value : Option ActionSelection)
  | begin (token : ActionViewToken) (action : MessageAction) (emoji : Option String)
      (reportReason : Option ReportReason) (id : Uuid)
  | claim (id : Uuid)
  | finish (id : Uuid) (result : ActionResult)
  | deleted (scope : ActionScope) (messageId : Uuid)
  | reportStatus (token : ActionViewToken) (recordId reportId : Uuid)
  | publicationStatus (token : ActionViewToken) (recordId : Uuid) (result : Publication)
  | selectBlocks (value : Option BlockScope)
  | refresh
  | more
  | fail (token : BlockPageToken)
  | accept (token : BlockPageToken) (page : BlockPage)
  | unblock (token : BlockViewToken) (actorId id : Uuid)
  | claimUnblock (id : Uuid)
  | finishUnblock (id : Uuid) (outcome : UnblockOutcome)
  | dispatchEnded (id : Uuid) (enqueued : Bool)
  | restart

namespace State

def permit (s : State) (id : Uuid) : Except ActionError ActionPermit :=
  require (s.permits.find? fun p => p.record.id = id) .refused

def unblockPermit (s : State) (id : Uuid) : Except ActionError UnblockPermit :=
  require (s.unblockPermits.find? fun p => p.record.id = id) .refused

/-- What the view has heard once a page is answered. -/
def hears (s : State) (token : BlockPageToken) (page : BlockPage) : List Uuid :=
  if s.blocks.Takes token then s.heard ++ page.blocks.map BlockedActor.actorId else s.heard

end State

/-- A command in a state, before the clock ticks. -/
def run : Command → State → Except ActionError State
  | .select value, s =>
    pure { s with owner := s.owner.select s.actions value, selectedAt := s.now }
  | .begin token action emoji reportReason id, s => do
    let (actions, owner, permit) ← s.owner.begin s.actions token action emoji reportReason id
    pure { s with
      actions
      owner
      permits := s.permits.put permit
      begun := (s.now, permit.record) :: s.begun }
  | .claim id, s => do
    let permit ← s.owner.claim (← s.permit id)
    pure { s with permits := s.permits.put permit, claims := id :: s.claims }
  | .finish id result, s => do
    let permit ← s.permit id
    pure { s with
      actions := (s.owner.finish s.actions permit result).1
      owner := (s.owner.finish s.actions permit result).2.1 }
  | .deleted scope messageId, s =>
    pure { s with
      actions := (s.owner.deleted s.actions scope messageId).1
      owner := (s.owner.deleted s.actions scope messageId).2
      selectedAt := if (s.owner.deleted s.actions scope messageId).2.generation =
        s.owner.generation then s.selectedAt else s.now }
  | .reportStatus token recordId reportId, s =>
    pure { s with
      actions := (s.owner.reportStatus s.actions token recordId reportId).1
      owner := (s.owner.reportStatus s.actions token recordId reportId).2.1 }
  | .publicationStatus token recordId result, s =>
    pure { s with
      actions := (s.owner.publicationStatus s.actions token recordId result).1
      owner := (s.owner.publicationStatus s.actions token recordId result).2.1 }
  | .selectBlocks value, s => pure { s with blocks := s.blocks.select value, viewedAt := s.now }
  | .refresh, s => do
    let (blocks, _) ← require (s.blocks.refresh s.actions) .refused
    pure { s with blocks, requestedAt := s.now, heard := [] }
  | .more, s => do
    let (blocks, _) ← require s.blocks.more .refused
    pure { s with blocks }
  | .fail token, s => pure { s with blocks := s.blocks.fail token }
  | .accept token page, s => do
    let (unblocks, actions, blocks, reset) ← s.blocks.accept s.unblocks s.actions token page
    pure { s with
      unblocks
      actions
      blocks
      heard := s.hears token page
      listed := (reset.map fun scope =>
        ⟨scope.partition, s.hears token page, s.requestedAt⟩).toList ++ s.listed }
  | .unblock token actorId id, s => do
    let (unblocks, blocks, permit) ← s.blocks.unblock s.unblocks token actorId id
    pure { s with
      unblocks
      blocks
      unblockPermits := s.unblockPermits.put permit
      unblocked := (s.now, permit.record) :: s.unblocked }
  | .claimUnblock id, s => do
    let permit ← s.blocks.claim (← s.unblockPermit id)
    pure { s with
      unblockPermits := s.unblockPermits.put permit
      unblockClaims := id :: s.unblockClaims }
  | .finishUnblock id outcome, s => do
    let permit ← s.unblockPermit id
    pure { s with
      unblocks := (s.blocks.finish s.unblocks permit outcome).1
      blocks := (s.blocks.finish s.unblocks permit outcome).2.1 }
  | .dispatchEnded id enqueued, s => do
    let permit ← s.unblockPermit id
    pure { s with blocks := s.blocks.dispatchEndedWithoutPersistence permit enqueued }
  | .restart, s =>
    pure { s with
      owner := {}
      permits := .empty
      blocks := {}
      unblockPermits := .empty
      selectedAt := s.now
      viewedAt := s.now }

/-- A random id is new. -/
def Fresh (s : State) : Command → Prop
  | .begin _ _ _ _ id => ∀ e ∈ s.begun, e.2.id ≠ id
  | .unblock _ _ id => ∀ e ∈ s.unblocked, e.2.id ≠ id
  | _ => True

instance (s : State) : (c : Command) → Decidable (Fresh s c)
  | .begin _ _ _ _ id => inferInstanceAs (Decidable (∀ e ∈ s.begun, e.2.id ≠ id))
  | .unblock _ _ id => inferInstanceAs (Decidable (∀ e ∈ s.unblocked, e.2.id ≠ id))
  | .select .. | .claim .. | .finish .. | .deleted .. | .reportStatus .. | .publicationStatus ..
  | .selectBlocks .. | .refresh | .more | .fail .. | .accept .. | .claimUnblock ..
  | .finishUnblock .. | .dispatchEnded .. | .restart => .isTrue trivial

/-- A command with fresh ids; a refused one changes nothing. -/
def exec (c : Command) (s : State) : Except ActionError State := do
  ensure (Fresh s c) .refused
  let t ← run c s
  pure { t with now := s.now + 1 }

/-- From empty journals on. -/
def actionSystem : System State Command where
  init s := s = {}
  step c s t := exec c s = .ok t

/-- A step is a run of its command and a tick. -/
theorem step_ok {s t : State} {c : Command} (h : actionSystem.step c s t) :
    Fresh s c ∧ ∃ u, run c s = .ok u ∧ t = { u with now := s.now + 1 } := by
  have hexec : exec c s = .ok t := h
  simp only [exec, bind_ok, ensure_ok, pure_ok] at hexec
  obtain ⟨-, hfresh, u, hrun, rfl⟩ := hexec
  exact ⟨hfresh, u, hrun, rfl⟩

/-! ## What a command does to the actions -/

/-- The record of a begun action is added. -/
structure Adds (s t : State) (token : ActionViewToken) (action : MessageAction) (id : Uuid)
    (permit : ActionPermit) : Prop where
  begins : s.owner.Begins s.actions token action id t.actions t.owner permit
  fresh : ∀ e ∈ s.begun, e.2.id ≠ id
  begun : t.begun = (s.now, permit.record) :: s.begun
  listed : t.listed = s.listed

/-- A complete list is shown to the records of its room. -/
structure Shows (s t : State) (token : BlockPageToken) (page : BlockPage) : Prop where
  takes : s.blocks.Takes token
  baseline : s.blocks.currentActorRecords s.actions = s.blocks.baseline
  actions : t.actions = s.actions.putAll ((s.actions.select fun r => r.action = .blockActor ∧
    r.selection.scope.room = token.view.scope.partition).map
      (ActorBlocksState.observeBlock ((s.blocks.paged token page).blocks.map (·.actorId))))
  begun : t.begun = s.begun
  listed : t.listed =
    ⟨token.view.scope.partition, s.hears token page, s.requestedAt⟩ :: s.listed

/-- Records are rewritten in place. -/
structure Rewrites (s t : State) : Prop where
  actions : Table.Carried ActionRecord.Settled s.actions t.actions
  begun : t.begun = s.begun
  listed : t.listed = s.listed

/-- A command that leaves the journal alone rewrites nothing. -/
theorem Rewrites.same {s t : State} (hactions : t.actions = s.actions) (hbegun : t.begun = s.begun)
    (hlisted : t.listed = s.listed) : Rewrites s t :=
  ⟨hactions ▸ .refl ActionRecord.Settled.refl s.actions, hbegun, hlisted⟩

/-- What a command does to the records of actions. -/
theorem step_actions {s t : State} {c : Command} (h : actionSystem.step c s t) :
    Rewrites s t ∨
      (∃ token action emoji reportReason id permit,
        c = .begin token action emoji reportReason id ∧ Adds s t token action id permit) ∨
      ∃ token page, c = .accept token page ∧ Shows s t token page := by
  -- only begin adds a record and only the last page of a list shows one
  obtain ⟨hfresh, u, hrun, rfl⟩ := step_ok h
  cases c with
  | begin token action emoji reportReason id =>
    simp only [run, bind_ok, pure_ok] at hrun
    obtain ⟨⟨actions, owner, permit⟩, hbegin, rfl⟩ := hrun
    exact .inr (.inl ⟨token, action, emoji, reportReason, id, permit, rfl,
      MessageActionState.begin_ok hbegin, hfresh, rfl, rfl⟩)
  | accept token page =>
    simp only [run, bind_ok, pure_ok] at hrun
    obtain ⟨⟨unblocks, actions, blocks, reset⟩, haccept, rfl⟩ := hrun
    rcases ActorBlocksState.accept_cases haccept with ⟨-, rfl, rfl, rfl, rfl⟩ | ⟨htakes, hcases⟩
    · exact .inl (.same rfl rfl rfl)
    cases hcases with
    | drifted => exact .inl (.same rfl rfl rfl)
    | more => exact .inl (.same rfl rfl rfl)
    | last hsame _ => exact .inr (.inr ⟨token, page, rfl, htakes, hsame, rfl, rfl, rfl⟩)
  | finish id result =>
    simp only [run, bind_ok, pure_ok] at hrun
    obtain ⟨permit, -, rfl⟩ := hrun
    exact .inl ⟨MessageActionState.finish_carried _ _ permit result, rfl, rfl⟩
  | deleted scope messageId =>
    cases hrun
    exact .inl ⟨MessageActionState.deleted_carried _ _ scope messageId, rfl, rfl⟩
  | reportStatus token recordId reportId =>
    cases hrun
    exact .inl ⟨MessageActionState.reportStatus_carried _ _ token recordId reportId, rfl, rfl⟩
  | publicationStatus token recordId result =>
    cases hrun
    exact .inl ⟨MessageActionState.publicationStatus_carried _ _ token recordId result, rfl, rfl⟩
  | select value =>
    cases hrun
    exact .inl (.same rfl rfl rfl)
  | claim id =>
    simp only [run, bind_ok, pure_ok] at hrun
    obtain ⟨_, _, _, _, rfl⟩ := hrun
    exact .inl (.same rfl rfl rfl)
  | selectBlocks value =>
    cases hrun
    exact .inl (.same rfl rfl rfl)
  | refresh =>
    simp only [run, bind_ok, pure_ok] at hrun
    obtain ⟨_, _, rfl⟩ := hrun
    exact .inl (.same rfl rfl rfl)
  | more =>
    simp only [run, bind_ok, pure_ok] at hrun
    obtain ⟨_, _, rfl⟩ := hrun
    exact .inl (.same rfl rfl rfl)
  | fail token =>
    cases hrun
    exact .inl (.same rfl rfl rfl)
  | unblock token actorId id =>
    simp only [run, bind_ok, pure_ok] at hrun
    obtain ⟨_, _, rfl⟩ := hrun
    exact .inl (.same rfl rfl rfl)
  | claimUnblock id =>
    simp only [run, bind_ok, pure_ok] at hrun
    obtain ⟨_, _, _, _, rfl⟩ := hrun
    exact .inl (.same rfl rfl rfl)
  | finishUnblock id outcome =>
    simp only [run, bind_ok, pure_ok] at hrun
    obtain ⟨_, _, rfl⟩ := hrun
    exact .inl (.same rfl rfl rfl)
  | dispatchEnded id enqueued =>
    simp only [run, bind_ok, pure_ok] at hrun
    obtain ⟨_, _, rfl⟩ := hrun
    exact .inl (.same rfl rfl rfl)
  | restart =>
    cases hrun
    exact .inl (.same rfl rfl rfl)

/-- Every step ticks. -/
theorem step_now {s t : State} {c : Command} (h : actionSystem.step c s t) : t.now = s.now + 1 := by
  obtain ⟨-, u, -, rfl⟩ := step_ok h
  rfl

end Rogichat.MessageActions
