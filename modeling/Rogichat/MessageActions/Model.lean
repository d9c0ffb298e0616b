import Mathlib.Data.List.Sort
import Rogichat.Basic
import Rogichat.Lib.Outcome
import Rogichat.Lib.Carried

/-!
# Message actions on Android

What a user does to a message, and the list of actors a user has blocked in a room. A command is
written to a durable journal before it may be sent; the two owners of this file live in memory
beside the journals and lose everything but them when the process dies.

A constructor's requirements are fields, so that no invalid value can be built. Texts that are
only compared are natural numbers. A permit is an object with its own fresh record, and the id of
the record tells it from every other; a page token is told from others by the order of their
creation.
-/

namespace Rogichat.MessageActions

open Lib

/-- A text that is only compared. -/
abbrev Token := Nat

/-! ## Selections and records -/

/-- The deployment an account belongs to. -/
inductive Environment
  | qa | prod
  deriving DecidableEq

/-- Whose action it is, in which room and under which authorization. -/
structure ActionScope where
  environment : Environment
  accountId : Uuid
  sessionEpoch : Uuid
  roomId : Uuid
  actorId : Uuid
  membershipScope : Token
  authorizationRevision : Token
  cacheEpoch : Uuid
  deriving DecidableEq

/-- What the records of one member of a room have in common. -/
def ActionScope.partition (s : ActionScope) : Environment × Uuid × Uuid × Token :=
  (s.environment, s.accountId, s.roomId, s.membershipScope)

/-- The room of an account, whatever the membership it is seen through. -/
def ActionScope.room (s : ActionScope) : Environment × Uuid × Uuid :=
  (s.environment, s.accountId, s.roomId)

/-- What the server said the viewer may do with the message. -/
structure ActionHints where
  delete : Bool
  publish : Bool
  deriving DecidableEq

/-- The message a menu was opened for, as it was shown then. -/
structure ActionSelection where
  scope : ActionScope
  messageId : Uuid
  version : Nat
  hints : ActionHints
  contentKind : String
  anonymous : Bool
  visibleActorId : Option Uuid := none
  unnamed : anonymous = true → visibleActorId = none
  fits : 0 < version ∧ version ≤ maxUnsignedBigInt
  deriving DecidableEq

inductive MessageAction
  | delete | publish | setReaction | removeReaction | report | blockActor
  deriving DecidableEq

/-- `MessageAction.entries`. -/
def MessageAction.entries : List MessageAction :=
  [.delete, .publish, .setReaction, .removeReaction, .report, .blockActor]

/-- What is known of a record's outcome; `unknown` until an answer is in. -/
inductive ActionPhase
  | unknown | reported | actorBlocked | reacted | blocked | preparing | published | revoked
  | rejected
  deriving DecidableEq

inductive ReportReason
  | spam | harassment | sexual | violence | other
  deriving DecidableEq

structure ActionRecord where
  id : Uuid
  selection : ActionSelection
  action : MessageAction
  phase : ActionPhase
  receiptId : Option Uuid := none
  publishedMessageId : Option Uuid := none
  emoji : Option String := none
  reportReason : Option ReportReason := none
  observedBlocked : Option Bool := none
  deriving DecidableEq

instance : Row ActionRecord where
  Key := Uuid
  decEq := inferInstance
  keys r := [r.id]
  keyed _ := by simp

/-- The reactions a member may choose from. -/
def reactionChoices : List String := ["👍", "❤️", "😂", "😮", "😢", "👏"]

/-- The selection of a message that is known to be deleted. -/
def ActionSelection.tombstone (s : ActionSelection) : ActionSelection :=
  { s with
    hints := ⟨false, false⟩
    contentKind := "TOMBSTONE"
    anonymous := true
    visibleActorId := none
    unnamed := fun _ => rfl }

/-- The candidates an unresolved action on the same message holds back. -/
def MessageAction.holds : MessageAction → MessageAction → Bool
  | .report, candidate => candidate = .report
  | .blockActor, _ => false
  | .setReaction, candidate => candidate ∈ [.setReaction, .removeReaction]
  | .removeReaction, candidate => candidate ∈ [.setReaction, .removeReaction]
  | .delete, candidate => candidate ∈ [.delete, .publish, .setReaction, .removeReaction]
  | .publish, candidate => candidate ∈ [.delete, .publish]

/-- A record that keeps the candidate from being sent for the same message. -/
def ActionRecord.conflicts (r : ActionRecord) (target : ActionSelection)
    (candidate : MessageAction) : Bool :=
  if r.selection.scope.room ≠ target.scope.room then false
  else if r.action = .blockActor ∧ candidate = .blockActor then
    r.selection.visibleActorId = target.visibleActorId ∧
      r.phase ∈ [.unknown, .actorBlocked] ∧ r.observedBlocked ≠ some false
  else if r.selection.messageId ≠ target.messageId then false
  else if r.phase = .blocked ∨ r.selection.contentKind = "TOMBSTONE" then true
  else if r.phase ∉ [.unknown, .preparing] then false
  else r.action.holds candidate

/-! ## Server results -/

/-- A publication as the wire reads it. -/
structure Publication where
  id : Uuid
  status : ActionPhase
  messageId : Option Uuid
  known : status ∈ [ActionPhase.preparing, .published, .revoked]

inductive ActionResult
  | deleted (requestId : Uuid)
  | publication (value : Publication)
  | reported (reportId : Uuid)
  | actorBlocked (actorId : Uuid)
  | reacted
  | rejected
  | unknown

/-- What the caller has to do after an answer. -/
inductive ActionEffect
  | accessBlocked (selection : ActionSelection)
  | refresh (selection : ActionSelection)
  | resetRoom (scope : ActionScope)
  deriving DecidableEq

inductive ActionError
  | staleAction | actionUnavailable | reconcileRequired
  /-- A failed `require`. -/
  | invalid
  /-- A failed `check` without a message. -/
  | refused
  deriving DecidableEq

/-! ## Actions on the selected message -/

/-- The right to send a record once. -/
structure ActionPermit where
  record : ActionRecord
  generation : Nat
  consumed : Bool := false

instance : Row ActionPermit where
  Key := Uuid
  decEq := inferInstance
  keys p := [p.record.id]
  keyed _ := by simp

/-- The view an action is begun from. -/
structure ActionViewToken where
  selection : ActionSelection
  generation : Nat
  deriving DecidableEq

/-- `MessageActionState`, beside the journal. -/
structure MessageActionState where
  generation : Nat := 0
  selection : Option ActionSelection := none
  /-- The record of the pending permit. -/
  pending : Option Uuid := none
  presentation : Option ActionRecord := none

namespace MessageActionState

/-- Another message is selected, or none; older views are stale from here on. -/
def select (s : MessageActionState) (journal : Table ActionRecord)
    (value : Option ActionSelection) : MessageActionState where
  generation := s.generation + 1
  selection := value
  pending := none
  presentation := value.bind fun selected =>
    (journal.select fun r => r.selection.scope.partition = selected.scope.partition ∧
      r.selection.messageId = selected.messageId).getLast?

def reset (s : MessageActionState) (journal : Table ActionRecord) : MessageActionState :=
  s.select journal none

/-- The view is the current one. -/
def Admits (s : MessageActionState) (value : ActionSelection) (expected : Nat) : Prop :=
  s.generation = expected ∧ s.selection = some value

instance (s : MessageActionState) (value : ActionSelection) (expected : Nat) :
    Decidable (s.Admits value expected) :=
  inferInstanceAs (Decidable (s.generation = expected ∧ s.selection = some value))

/-- The actions the journal keeps from being begun. -/
def blockedActions (s : MessageActionState) (journal : Table ActionRecord)
    (token : ActionViewToken) : List MessageAction :=
  if ¬s.Admits token.selection token.generation then MessageAction.entries
  else MessageAction.entries.filter fun action =>
    journal.rows.any fun r => r.conflicts token.selection action

/-- What the selected message offers. -/
def Available (captured : ActionSelection) (reportReason : Option ReportReason) :
    MessageAction → Prop
  | .report => reportReason ≠ none
  | .blockActor => captured.anonymous = false ∧ captured.visibleActorId ≠ none ∧
      captured.visibleActorId ≠ some captured.scope.actorId
  | .setReaction | .removeReaction => True
  | .delete => captured.hints.delete = true ∧ captured.anonymous = false
  | .publish => captured.hints.publish = true ∧ captured.anonymous = false ∧
      captured.contentKind ∈ ["TEXT", "PHOTO"]

instance (captured : ActionSelection) (reportReason : Option ReportReason)
    (action : MessageAction) : Decidable (Available captured reportReason action) := by
  cases action <;> (unfold Available; infer_instance)

/-- `id` is the random id the record gets. -/
def begin (s : MessageActionState) (journal : Table ActionRecord) (token : ActionViewToken)
    (action : MessageAction) (emoji : Option String) (reportReason : Option ReportReason)
    (id : Uuid) :
    Except ActionError (Table ActionRecord × MessageActionState × ActionPermit) := do
  let captured := token.selection
  ensure (s.Admits captured token.generation ∧ s.pending = none) .staleAction
  ensure (Available captured reportReason action) .actionUnavailable
  ensure (action ∉ s.blockedActions journal token) .reconcileRequired
  ensure (if action = .setReaction then ∃ e ∈ reactionChoices, emoji = some e else emoji = none)
    .invalid
  ensure (action = .report ∨ reportReason = none) .invalid
  let record : ActionRecord :=
    { id, selection := captured, action, phase := .unknown, emoji, reportReason }
  pure (journal.put record, { s with pending := some id, presentation := some record },
    { record, generation := s.generation })

/-- A permit is used once, in the view it was made for. -/
def claim (s : MessageActionState) (permit : ActionPermit) : Except ActionError ActionPermit := do
  ensure (permit.consumed = false ∧ s.Admits permit.record.selection permit.generation)
    .staleAction
  pure { permit with consumed := true }

/-- The record a result turns an unresolved one into. -/
def next (original : ActionRecord) : ActionResult → Option ActionRecord
  | .deleted requestId =>
    if original.action ≠ .delete then none
    else some { original with
      selection := original.selection.tombstone
      phase := .blocked
      receiptId := some requestId }
  | .publication value =>
    if original.action ≠ .publish then none
    else some { original with
      phase := value.status
      receiptId := some value.id
      publishedMessageId := value.messageId }
  | .reported reportId =>
    if original.action ≠ .report then none
    else some { original with phase := .reported, receiptId := some reportId }
  | .actorBlocked actorId =>
    if original.action ≠ .blockActor ∨ original.selection.visibleActorId ≠ some actorId then none
    else some { original with phase := .actorBlocked }
  | .reacted =>
    if original.action ∉ [.setReaction, .removeReaction] then none
    else some { original with phase := .reacted }
  | .rejected => some { original with phase := .rejected }
  | .unknown => some original

/-- What a phase asks of the caller. -/
def effect (selection : ActionSelection) : ActionPhase → Option ActionEffect
  | .actorBlocked => some (.resetRoom selection.scope)
  | .blocked => some (.accessBlocked selection)
  | .reacted | .published | .revoked => some (.refresh selection)
  | _ => none

/-- An answer settles the record of its permit, and shows it when it is still awaited. -/
def finish (s : MessageActionState) (journal : Table ActionRecord) (permit : ActionPermit)
    (result : ActionResult) :
    Table ActionRecord × MessageActionState × Option ActionEffect :=
  match journal.find? fun r => r.id = permit.record.id with
  | none => (journal, s, none)
  | some original =>
    if original.phase ≠ .unknown then (journal, s, none)
    else match next original result with
      | none => (journal, s, none)
      | some record =>
        if s.pending ≠ some permit.record.id ∨ s.selection ≠ some original.selection then
          (journal.put record, s, none)
        else (journal.put record, { s with pending := none, presentation := some record },
          effect original.selection record.phase)

/-- A record of a message that is gone. -/
def erased (r : ActionRecord) : ActionRecord :=
  { r with selection := r.selection.tombstone, publishedMessageId := none }

/-- The message is known to be deleted: its records lose what they show. -/
def deleted (s : MessageActionState) (journal : Table ActionRecord) (scope : ActionScope)
    (messageId : Uuid) : Table ActionRecord × MessageActionState :=
  let journal := journal.putAll ((journal.select fun r =>
    r.selection.scope.partition = scope.partition ∧ r.selection.messageId = messageId).map erased)
  if ∃ selection, s.selection = some selection ∧ selection.scope = scope ∧
      selection.messageId = messageId then (journal, s.reset journal)
  else (journal, s)

/-- A lookup found the report of a record. -/
def reportStatus (s : MessageActionState) (journal : Table ActionRecord) (token : ActionViewToken)
    (recordId reportId : Uuid) : Table ActionRecord × MessageActionState × Bool :=
  if ¬s.Admits token.selection token.generation then (journal, s, false)
  else match journal.find? fun r => r.id = recordId ∧ r.action = .report ∧
      r.selection.scope.partition = token.selection.scope.partition ∧
      r.selection.messageId = token.selection.messageId with
    | none => (journal, s, false)
    | some old =>
      if old.phase ≠ .unknown then (journal, s, false)
      else
        let record := { old with phase := .reported, receiptId := some reportId }
        (journal.put record, { s with presentation := some record }, true)

/-- A lookup found what became of a publication. -/
def publicationStatus (s : MessageActionState) (journal : Table ActionRecord)
    (token : ActionViewToken) (recordId : Uuid) (result : Publication) :
    Table ActionRecord × MessageActionState × Option ActionEffect :=
  if ¬s.Admits token.selection token.generation then (journal, s, none)
  else match journal.find? fun r => r.id = recordId ∧
      r.selection.scope.partition = token.selection.scope.partition ∧
      r.selection.messageId = token.selection.messageId with
    | none => (journal, s, none)
    | some old =>
      if old.phase ∉ [.preparing, .published] ∨ old.receiptId ≠ some result.id then
        (journal, s, none)
      else if old.phase = .published ∧ result.status = .preparing then (journal, s, none)
      else
        let record := { old with phase := result.status, publishedMessageId := result.messageId }
        (journal.put record, { s with presentation := some record },
          if record.phase ∈ [.published, .revoked] then some (.refresh token.selection) else none)

end MessageActionState

/-! ## The actors blocked in a room -/

/-- Whose list of blocks it is, and of which room. -/
structure BlockScope where
  environment : Environment
  accountId : Uuid
  sessionEpoch : Uuid
  roomId : Uuid
  viewEpoch : Uuid
  deriving DecidableEq

/-- What the lists of one account in a room have in common. -/
def BlockScope.partition (s : BlockScope) : Environment × Uuid × Uuid :=
  (s.environment, s.accountId, s.roomId)

structure BlockedActor where
  actorId : Uuid
  blockedAt : Token
  displayName : Option Token
  deriving DecidableEq

structure BlockPage where
  blocks : List BlockedActor
  next : Option Uuid

/-- What is known of an unblock's outcome. -/
inductive UnblockOutcome
  | unknown | acknowledged | rejected
  deriving DecidableEq

structure UnblockRecord where
  id : Uuid
  scope : BlockScope
  actorId : Uuid
  outcome : UnblockOutcome
  observedBlocked : Option Bool := none
  deriving DecidableEq

instance : Row UnblockRecord where
  Key := Uuid
  decEq := inferInstance
  keys r := [r.id]
  keyed _ := by simp

structure BlockViewToken where
  scope : BlockScope
  generation : Nat
  deriving DecidableEq

/-- The right to answer one request for a page. -/
structure BlockPageToken where
  serial : Nat
  view : BlockViewToken
  after : Option Uuid
  deriving DecidableEq

/-- The right to send an unblock once. -/
structure UnblockPermit where
  record : UnblockRecord
  token : BlockViewToken
  used : Bool := false

instance : Row UnblockPermit where
  Key := Uuid
  decEq := inferInstance
  keys p := [p.record.id]
  keyed _ := by simp

/-- `ActorBlocksState`, beside the two journals. -/
structure ActorBlocksState where
  scope : Option BlockScope := none
  generation : Nat := 0
  pagePending : Option BlockPageToken := none
  /-- The record of the pending permit. -/
  pending : Option Uuid := none
  blocks : List BlockedActor := []
  complete : Bool := false
  next : Option Uuid := none
  failed : Bool := false
  lastOutcome : Option UnblockOutcome := none
  baseline : List ActionRecord := []
  /-- How many page tokens were made. -/
  issued : Nat := 0

namespace ActorBlocksState

/-- Another list is shown, or none; older views are stale from here on. -/
def select (s : ActorBlocksState) (value : Option BlockScope) : ActorBlocksState where
  generation := s.generation + 1
  scope := value
  issued := s.issued

def capture (s : ActorBlocksState) : Option BlockViewToken :=
  s.scope.map fun scope => ⟨scope, s.generation⟩

/-- The view is the current one. -/
def Admits (s : ActorBlocksState) (token : BlockViewToken) : Prop :=
  some token.scope = s.scope ∧ token.generation = s.generation

instance (s : ActorBlocksState) (token : BlockViewToken) : Decidable (s.Admits token) :=
  inferInstanceAs (Decidable (some token.scope = s.scope ∧ token.generation = s.generation))

/-- The block records of a room. -/
def actorRecords (actions : Table ActionRecord) (room : Option (Environment × Uuid × Uuid)) :
    List ActionRecord :=
  (actions.select fun r => r.action = .blockActor ∧
    some r.selection.scope.room = room).insertionSort fun r r' => r.id ≤ r'.id

/-- The block records of the list's room, which a listing is compared with. -/
def currentActorRecords (s : ActorBlocksState) (actions : Table ActionRecord) :
    List ActionRecord :=
  actorRecords actions (s.scope.map BlockScope.partition)

/-- The list is read from its first page. -/
def refresh (s : ActorBlocksState) (actions : Table ActionRecord) :
    Option (ActorBlocksState × BlockPageToken) :=
  match s.pending, s.scope with
  | none, some scope =>
    let token : BlockPageToken := ⟨s.issued, ⟨scope, s.generation + 1⟩, none⟩
    some ({ s with
      baseline := s.currentActorRecords actions
      generation := s.generation + 1
      blocks := []
      complete := false
      next := none
      failed := false
      pagePending := some token
      issued := s.issued + 1 }, token)
  | _, _ => none

/-- The next page is asked for. -/
def more (s : ActorBlocksState) : Option (ActorBlocksState × BlockPageToken) :=
  if s.pending ≠ none ∨ s.pagePending ≠ none ∨ s.complete = true ∨ s.next = none then none
  else s.capture.map fun view =>
    let token : BlockPageToken := ⟨s.issued, view, s.next⟩
    ({ s with pagePending := some token, failed := false, issued := s.issued + 1 }, token)

/-- The page the view waits for. -/
def Takes (s : ActorBlocksState) (token : BlockPageToken) : Prop :=
  s.pagePending = some token ∧ s.Admits token.view

instance (s : ActorBlocksState) (token : BlockPageToken) : Decidable (s.Takes token) :=
  inferInstanceAs (Decidable (s.pagePending = some token ∧ s.Admits token.view))

/-- The page that was asked for does not come. -/
def fail (s : ActorBlocksState) (token : BlockPageToken) : ActorBlocksState :=
  if s.Takes token then { s with pagePending := none, failed := true } else s

/-- What the page of an answer must look like. -/
def checkPage (token : BlockPageToken) (page : BlockPage) : Except ActionError Unit := do
  let ids := page.blocks.map BlockedActor.actorId
  ensure (page.blocks.length ≤ 50 ∧ ids.Nodup) .invalid
  ensure (ids.IsChain (· < ·)) .invalid
  ensure (∀ after ∈ token.after, ∀ id ∈ ids, after < id) .invalid
  ensure (page.next = none ∨ page.next = ids.getLast?) .invalid

/-- The state once the page is taken in. -/
def paged (s : ActorBlocksState) (token : BlockPageToken) (page : BlockPage) :
    ActorBlocksState :=
  { s with
    blocks := if token.after = none then page.blocks else s.blocks ++ page.blocks
    next := page.next
    complete := page.next = none
    pagePending := none
    failed := false }

/-- The state after a page that cannot be trusted. -/
def drifted (s : ActorBlocksState) : ActorBlocksState :=
  { s with
    generation := s.generation + 1
    blocks := []
    complete := false
    next := none
    failed := true }

/-- An unresolved unblock as a complete list shows it. -/
def observe (actors : List Uuid) (r : UnblockRecord) : UnblockRecord :=
  { r with observedBlocked := some (r.actorId ∈ actors) }

/-- A block as a complete list shows it. -/
def observeBlock (actors : List Uuid) (r : ActionRecord) : ActionRecord :=
  { r with observedBlocked := some (r.selection.visibleActorId ∈ actors.map some) }

/-- A page of the list; the last one tells which records it contradicts. -/
def accept (s : ActorBlocksState) (unblocks : Table UnblockRecord) (actions : Table ActionRecord)
    (token : BlockPageToken) (page : BlockPage) :
    Except ActionError
      (Table UnblockRecord × Table ActionRecord × ActorBlocksState × Option BlockScope) := do
  if ¬s.Takes token then pure (unblocks, actions, s, none)
  else
    checkPage token page
    let s := s.paged token page
    -- a block was begun or answered while the page was read
    if s.currentActorRecords actions ≠ s.baseline then pure (unblocks, actions, s.drifted, none)
    else if s.complete = false then pure (unblocks, actions, s, none)
    else
      let current := token.view.scope
      let actors := s.blocks.map BlockedActor.actorId
      pure (unblocks.putAll ((unblocks.select fun r =>
          r.scope.partition = current.partition ∧ r.outcome = .unknown).map (observe actors)),
        actions.putAll ((actions.select fun r => r.action = .blockActor ∧
          r.selection.scope.room = current.partition).map (observeBlock actors)),
        s, some current)

/-- `id` is the random id the record gets. -/
def unblock (s : ActorBlocksState) (unblocks : Table UnblockRecord) (token : BlockViewToken)
    (actorId id : Uuid) :
    Except ActionError (Table UnblockRecord × ActorBlocksState × UnblockPermit) := do
  ensure (s.Admits token ∧ s.complete = true ∧ s.pending = none ∧
    actorId ∈ s.blocks.map BlockedActor.actorId) .refused
  let record : UnblockRecord := { id, scope := token.scope, actorId, outcome := .unknown }
  pure (unblocks.put record, { s with
    lastOutcome := some .unknown
    generation := s.generation + 1
    complete := false
    pagePending := none
    pending := some id }, { record, token := ⟨token.scope, s.generation + 1⟩ })

/-- A permit is used once, in the view it was made for. -/
def claim (s : ActorBlocksState) (permit : UnblockPermit) : Except ActionError UnblockPermit := do
  ensure (permit.used = false ∧ s.Admits permit.token ∧ s.pending = some permit.record.id) .refused
  pure { permit with used := true }

/-- A permit whose record was not written goes back. -/
def dispatchEndedWithoutPersistence (s : ActorBlocksState) (permit : UnblockPermit)
    (enqueued : Bool) : ActorBlocksState :=
  if ¬s.Admits permit.token ∨ s.scope ≠ some permit.record.scope ∨
      s.pending ≠ none ∧ s.pending ≠ some permit.record.id then s
  else { s with
    generation := s.generation + 1
    pending := none
    pagePending := none
    blocks := []
    complete := false
    next := none
    failed := true
    lastOutcome := if enqueued then some .unknown else none }

/-- An answer settles the unblock of its permit. -/
def finish (s : ActorBlocksState) (unblocks : Table UnblockRecord) (permit : UnblockPermit)
    (outcome : UnblockOutcome) :
    Table UnblockRecord × ActorBlocksState × Option BlockScope :=
  match unblocks.find? fun r => r.id = permit.record.id with
  | none => (unblocks, s, none)
  | some original =>
    if original.outcome ≠ .unknown then (unblocks, s, none)
    else
      let unblocks := unblocks.put { original with outcome }
      if s.pending ≠ some permit.record.id ∨ s.scope ≠ some original.scope then
        (unblocks, s, none)
      else if outcome ≠ .acknowledged then
        (unblocks, { s with pending := none, lastOutcome := some outcome }, none)
      else (unblocks, { s with
        pending := none
        lastOutcome := some outcome
        blocks := s.blocks.filter fun b => b.actorId ≠ original.actorId }, some original.scope)

end ActorBlocksState

end Rogichat.MessageActions
