import Rogichat.Chat.Messages

/-!
# Purging deleted messages

The bounded steps that erase what a deleted message left behind: the purge of one
deleted message with its copies, and the removal of a deleted account's content.
Both clear a message's dependants through `MessageDependenciesService.page`, one
kind at a time, before they delete the row.

* `Elsewhere` stands for the tables the model leaves out, the moderation reports,
  the notifications and the queue: what those stages of a page found to do.
* A `DELETE` that a foreign key of the schema forbids fails with `constraint`.
-/

namespace Rogichat

open Lib

/-- The work a page of dependencies found outside the model's tables: the reports
and notifications it cleared, and the jobs it deleted instead of the rows. -/
structure Elsewhere where
  cleared : Option Nat := none
  publicationJobs : Nat := 0
  eventJobs : Nat := 0

/-- The fields of a purge job the steps read. -/
structure PurgeLease where
  roomId : Option Uuid
  resourceId : Option Uuid
  deriving DecidableEq, Repr

namespace MessagePurgeRepository

/-- The room's content changed for every client. -/
def advanceEpoch (db : Db) (roomId : Uuid) : Db :=
  { db with
    rooms := db.rooms.update (fun r => r.id = roomId)
      fun r => { r with contentEpoch := r.contentEpoch + 1 } }

/-- The first `limit` ids of some rows. -/
def page (limit : Nat) (ids : List Uuid) : List Uuid := (ids.insertionSort (· ≤ ·)).take limit

theorem keeps_scrubbed : Table.Keeps fun r : CommandReceipt =>
    { r with deleted := true, payloadDigest := none } := ⟨fun _ => rfl⟩

/-- A batch of receipts of a deleted message loses its payload. -/
def scrubReceipts (db : Db) (roomId messageId : Uuid) (limit : Nat) : Db × Nat :=
  let ids := page limit ((db.commandReceipts.select fun r => r.roomId = roomId ∧
    r.messageId = messageId ∧ (r.deleted = false ∨ r.payloadDigest ≠ none)).map CommandReceipt.id)
  ({ db with
    commandReceipts := db.commandReceipts.update (fun r => r.id ∈ ids)
      (fun r => { r with deleted := true, payloadDigest := none }) keeps_scrubbed }, ids.length)

/-- A batch of messages stops quoting a deleted one. -/
def clearQuotes (db : Db) (roomId messageId : Uuid) (limit : Nat) : Db × Nat :=
  let ids := page limit ((db.messages.select fun m => m.roomId = roomId ∧
    m.quoteId = some messageId).map Message.id)
  if ids = [] then (db, 0)
  else (advanceEpoch { db with
    messages := db.messages.update
      (fun m => m.id ∈ ids ∧ m.roomId = roomId ∧ m.quoteId = some messageId)
      fun m => { m with quoteId := none, version := m.version + 1 } } roomId, ids.length)

/-- `publications`; the jobs of a page of publications go before the rows do. -/
def publications (db : Db) (roomId messageId : Uuid) (limit jobs : Nat) :
    Except Failure (Db × Nat) :=
  let ids := page limit ((db.messagePublications.select fun p => p.roomId = roomId ∧
    (p.sourceMessageId = messageId ∨ p.publishedMessageId = some messageId)).map
      MessagePublication.id)
  if ids = [] then return (db, 0)
  else if jobs ≠ 0 then return (db, jobs)
  else do
    ensure (¬db.publicationMedia.Has fun pm => pm.publicationId ∈ ids) .constraint
    return ({ db with
      messagePublications := db.messagePublications.delete fun p =>
        p.id ∈ ids ∧ p.roomId = roomId }, ids.length)

/-- A batch of reactions to a deleted message is removed. -/
def reactions (db : Db) (roomId messageId : Uuid) (limit : Nat) : Db × Nat :=
  let ids := page limit ((db.messageReactions.select fun r => r.roomId = roomId ∧
    r.messageId = messageId).map MessageReaction.id)
  ({ db with
    messageReactions := db.messageReactions.delete fun r =>
      r.id ∈ ids ∧ r.roomId = roomId ∧ r.messageId = messageId }, ids.length)

/-- The sticker of a deleted message is removed. -/
def sticker (db : Db) (roomId messageId : Uuid) : Db × Nat :=
  ({ db with
    messageStickers := db.messageStickers.delete fun l =>
      l.roomId = roomId ∧ l.messageId = messageId },
    (db.messageStickers.select fun l => l.roomId = roomId ∧ l.messageId = messageId).length)

/-- A batch of events of a deleted message is removed. -/
def events (db : Db) (roomId messageId : Uuid) (limit jobs : Nat) : Db × Nat :=
  let ids := page limit ((db.roomEvents.select fun e => e.roomId = roomId ∧
    e.messageId = messageId).map RoomEvent.id)
  if ids = [] then (db, 0)
  else if jobs ≠ 0 then (db, jobs)
  else (advanceEpoch { db with
    roomEvents := db.roomEvents.delete fun e =>
      e.id ∈ ids ∧ e.roomId = roomId ∧ e.messageId = messageId } roomId, ids.length)

/-- A row of the message's table, or of one that refers to it, still names the message. -/
def Referenced (db : Db) (roomId messageId : Uuid) : Prop :=
  db.messages.Has (fun m => m.roomId = roomId ∧
      (m.quoteId = some messageId ∨ m.deletionRootId = some messageId)) ∨
    db.roomEvents.Has (fun e => e.roomId = roomId ∧ e.messageId = messageId) ∨
    db.messagePublications.Has (fun p => p.roomId = roomId ∧
      (p.sourceMessageId = messageId ∨ p.publishedMessageId = some messageId)) ∨
    db.messageReactions.Has (fun r => r.roomId = roomId ∧ r.messageId = messageId) ∨
    db.messageAttachments.Has (fun x => x.roomId = roomId ∧ x.messageId = messageId) ∨
    db.messageStickers.Has (fun l => l.roomId = roomId ∧ l.messageId = messageId)

instance (db : Db) (roomId messageId : Uuid) : Decidable (Referenced db roomId messageId) :=
  inferInstanceAs (Decidable (_ ∨ _ ∨ _ ∨ _ ∨ _ ∨ _))

/-- Delete a row of `messages` that nothing refers to. -/
def deleteMessage (db : Db) (roomId : Uuid) (m : Message) : Except Failure Db := do
  ensure (¬Referenced db roomId m.id) .constraint
  return { db with messages := db.messages.delete fun x => x.id = m.id ∧ x.roomId = roomId }

def remove (db : Db) (roomId : Uuid) (m : Message) : Except Failure Db := do
  ensure (m.deletedAt ≠ none) (.error "message_purge_row_conflict")
  deleteMessage (advanceEpoch db roomId) roomId m

/-- A message with the account of its sender. -/
def message (db : Db) (roomId id : Uuid) : Option (Message × Uuid) := do
  let m ← db.messages.find? fun m => m.roomId = roomId ∧ m.id = id
  let s ← db.roomMembers.find? fun s => s.roomId = m.roomId ∧ s.id = m.senderMemberId
  return (m, s.userId)

/-- A copy of a deleted message that is left. -/
def copy (db : Db) (roomId targetId : Uuid) : Option Message :=
  db.messages.first? (fun m => m.roomId = roomId ∧ m.deletionRootId = some targetId)
    fun m n => m.id ≤ n.id

/-- The message or one of its copies keeps media whose bytes are not accounted for. -/
def unsupported (db : Db) (roomId targetId : Uuid) : Prop :=
  let scope := fun m : Message => m.roomId = roomId ∧
    (m.id = targetId ∨ m.deletionRootId = some targetId)
  db.messages.Has (fun m => scope m ∧ m.contentKind ≠ .text ∧ m.contentKind ≠ .sticker) ∨
    db.messageAttachments.Has (fun x => x.roomId = roomId ∧
      db.messages.Has fun m => m.id = x.messageId ∧ scope m) ∨
    db.publicationMedia.Has (fun pm => pm.roomId = roomId ∧ db.messagePublications.Has fun p =>
      p.roomId = pm.roomId ∧ p.id = pm.publicationId ∧ db.messages.Has fun m =>
        (m.id = p.sourceMessageId ∨ p.publishedMessageId = some m.id) ∧ scope m)

instance (db : Db) (roomId targetId : Uuid) : Decidable (unsupported db roomId targetId) :=
  inferInstanceAs (Decidable (_ ∨ _ ∨ _))

/-- The deletion request belongs to the intent. -/
def RequestMatches (intent : DeletionIntent) (request : DeletionRequest) : Prop :=
  request.actorUserId = intent.actorUserId ∧ intent.roomId = some request.roomId ∧
    request.messageId = intent.targetId ∧ request.requestedAt = intent.requestedAt

instance (intent : DeletionIntent) : DecidablePred (RequestMatches intent) := fun _ =>
  inferInstanceAs (Decidable (_ ∧ _ ∧ _ ∧ _))

/-- The checkpoint was written for the intent. -/
def ProofMatches (intent : DeletionIntent) (proof : MessagePurgeCheckpoint) : Prop :=
  intent.roomId = some proof.roomId ∧ proof.targetId = intent.targetId ∧
    proof.actorUserId = intent.actorUserId ∧ proof.requestedAt = intent.requestedAt

instance (intent : DeletionIntent) : DecidablePred (ProofMatches intent) := fun _ =>
  inferInstanceAs (Decidable (_ ∧ _ ∧ _ ∧ _))

/-- An account deletion removed exactly this message's row. -/
def accountRemovalProof (db : Db) (roomId messageId : Uuid) : Prop :=
  match db.accountContentCheckpoints.find? fun c => c.roomId = roomId ∧
    c.messageId = messageId ∧ c.rowsPurgedAt ≠ none with
  | none => False
  | some proof => db.deletionIntents.Has fun i => i.requestId = proof.requestId ∧
      i.account = true ∧ i.targetId = proof.contentOwnerUserId ∧
      i.actorUserId = proof.contentOwnerUserId ∧ i.roomId = none ∧ i.blockedAt ≠ none ∧
      i.requestedAt = proof.requestedAt

instance (db : Db) (roomId messageId : Uuid) : Decidable (accountRemovalProof db roomId messageId) := by
  unfold accountRemovalProof
  split <;> infer_instance

/-- The purge checkpoints with the intent's rows gone. -/
def upsertProof (db : Db) (now : Time) (roomId : Uuid) (intent : DeletionIntent) :
    Except Failure (Table MessagePurgeCheckpoint) :=
  match db.messagePurgeCheckpoints.find? fun c => c.requestId = intent.requestId with
  | some _ => .ok (db.messagePurgeCheckpoints.update (fun c => c.requestId = intent.requestId)
      fun c => { c with rowsPurgedAt := some now })
  | none => require (db.messagePurgeCheckpoints.insert
      { requestId := intent.requestId, actorUserId := intent.actorUserId, roomId := roomId,
        targetId := intent.targetId, requestedAt := intent.requestedAt,
        rowsPurgedAt := some now }) .constraint

/-- The proof that a message is purged. -/
def recordProof (db : Db) (now : Time) (roomId : Uuid) (intent : DeletionIntent) :
    Except Failure Db := do
  let checkpoints ← upsertProof db now roomId intent
  return { db with messagePurgeCheckpoints := checkpoints }

end MessagePurgeRepository

namespace MessageDependenciesService

open MessagePurgeRepository

/-- One kind of dependants, with its number of changed rows; and whether none was left. -/
def page (db : Db) (roomId messageId : Uuid) (limit : Nat) (elsewhere : Elsewhere) :
    Except Failure (Db × Nat × Bool) := do
  match elsewhere.cleared with
  | some changed => return (db, changed, false)
  | none =>
    let (scrubbed, receipts) := scrubReceipts db roomId messageId limit
    if receipts ≠ 0 then return (scrubbed, receipts, false)
    let (unquoted, quotes) := clearQuotes db roomId messageId limit
    if quotes ≠ 0 then return (unquoted, quotes, false)
    let (unpublished, publications) ← publications db roomId messageId limit
      elsewhere.publicationJobs
    if publications ≠ 0 then return (unpublished, publications, false)
    let (unreacted, reactions) := reactions db roomId messageId limit
    if reactions ≠ 0 then return (unreacted, reactions, false)
    let (unstuck, stickers) := sticker db roomId messageId
    if stickers ≠ 0 then return (unstuck, stickers, false)
    let (uneventful, events) := events db roomId messageId limit elsewhere.eventJobs
    if events ≠ 0 then return (uneventful, events, false)
    return (db, 0, true)

end MessageDependenciesService

namespace MessagePurgeService

open MessagePurgeRepository

/-- What a purge step has done. -/
inductive Status
  | progress | rowsPurged | deferred
  deriving DecidableEq, Repr

/-- A purge that found the row gone records it, unless an earlier step did. -/
def proveAbsence (db : Db) (now : Time) (roomId : Uuid) (intent : DeletionIntent) (proved : Bool) :
    Except Failure Db :=
  if proved then return db else recordProof db now roomId intent

/-- The step of a target whose row is gone. -/
def stepAbsent (db : Db) (now : Time) (roomId : Uuid) (intent : DeletionIntent)
    (request : Option DeletionRequest) (proof : Option MessagePurgeCheckpoint) (limit : Nat)
    (elsewhere : Elsewhere) : Except Failure (Db × Status × Nat) := do
  let proved := proof.any fun p => p.rowsPurgedAt ≠ none
  if intent.blockedAt = none ∨ copy db roomId intent.targetId ≠ none then return (db, .deferred, 0)
  else if proved = false ∧ ¬((request.any fun r => RequestMatches intent r) = true ∧
      accountRemovalProof db roomId intent.targetId) then return (db, .deferred, 0)
  else do
    let db ← proveAbsence db now roomId intent proved
    let (db, changed, done) ← MessageDependenciesService.page db roomId intent.targetId limit
      elsewhere
    return (db, if done then .rowsPurged else .progress, if done then 0 else changed)

/-- The step of a target whose row is there: its copies go first. -/
def stepPresent (db : Db) (now : Time) (roomId : Uuid) (intent : DeletionIntent) (root : Message)
    (senderUserId : Uuid) (request : Option DeletionRequest) (limit : Nat) (elsewhere : Elsewhere) :
    Except Failure (Db × Status × Nat) := do
  if intent.blockedAt = none ∨ ¬(request.any fun r => RequestMatches intent r) = true ∨
      root.deletedAt = none ∨ senderUserId ≠ intent.actorUserId ∨
      unsupported db roomId intent.targetId then return (db, .deferred, 0)
  else do
    let candidate := copy db roomId intent.targetId
    let message := match candidate with
      | none => some root
      | some c => (MessagePurgeRepository.message db roomId c.id).map Prod.fst
    match message.filter fun m => m.deletedAt ≠ none ∧
        m.contentOwnerUserId = root.contentOwnerUserId ∧
        (candidate = none ∨ m.deletionRootId = some intent.targetId) ∧
        (candidate = none ∨ ¬db.deletionRequests.Has fun r => r.roomId = roomId ∧
          r.messageId = m.id) with
    | none => return (db, .deferred, 0)
    | some m => do
      let (db, changed, done) ← MessageDependenciesService.page db roomId m.id limit elsewhere
      if done = false then return (db, .progress, changed)
      else do
        let db ← MessagePurgeRepository.remove db roomId m
        if candidate ≠ none then return (db, .progress, 1)
        else do
          let db ← recordProof db now roomId intent
          return (db, .rowsPurged, 1)

/-- The step, for whichever of the two the target is. -/
def stepTarget (db : Db) (now : Time) (roomId : Uuid) (intent : DeletionIntent)
    (root : Option (Message × Uuid)) (proof : Option MessagePurgeCheckpoint) (limit : Nat)
    (elsewhere : Elsewhere) : Except Failure (Db × Status × Nat) :=
  let request := db.deletionRequests.find? fun r => r.id = intent.requestId
  match root with
  | none => stepAbsent db now roomId intent request proof limit elsewhere
  | some (root, senderUserId) =>
    stepPresent db now roomId intent root senderUserId request limit elsewhere

/-- A step of the purge: it writes at most its limit of rows. -/
def step (db : Db) (now : Time) (lease : PurgeLease) (leaseHeld : Bool) (limit : Nat)
    (elsewhere : Elsewhere) : Except Failure (Db × Status × Nat) := do
  let roomId ← require lease.roomId (.error "invalid_message_purge_input")
  let resourceId ← require lease.resourceId (.error "invalid_message_purge_input")
  ensure (1 ≤ limit ∧ limit ≤ 500) (.error "invalid_message_purge_input")
  let intent ← require (db.deletionIntents.find? fun i => i.requestId = resourceId)
    (.error "invalid_message_purge_intent")
  ensure (intent.account = false ∧ intent.roomId = some roomId)
    (.error "invalid_message_purge_intent")
  let root := (MessagesRepository.room db roomId).bind fun _ =>
    MessagePurgeRepository.message db roomId intent.targetId
  let proof := db.messagePurgeCheckpoints.find? fun c => c.requestId = intent.requestId
  ensure (∀ p ∈ proof, ProofMatches intent p) (.error "message_purge_checkpoint_conflict")
  let result ← stepTarget db now roomId intent root proof limit elsewhere
  ensure (leaseHeld = true) (.error "message_purge_lease_lost")
  return result

end MessagePurgeService

/-! ## The content of a deleted account -/

namespace AccountMediaRepository

/-- Another account's content still uses the asset. -/
def shared (db : Db) (assetId userId : Uuid) : Prop :=
  db.stickerCatalog.Has (fun s => s.assetId = assetId ∧ s.approvedAt ≠ none) ∨
    db.messageAttachments.Has (fun a => a.assetId = assetId ∧ db.messages.Has fun m =>
      m.roomId = a.roomId ∧ m.id = a.messageId ∧ m.contentOwnerUserId ≠ userId) ∨
    db.userProfiles.Has (fun p => p.avatarAssetId = some assetId ∧ p.userId ≠ userId) ∨
    db.publicationMedia.Has fun pm =>
      (pm.sourceAssetId = assetId ∨ pm.destinationAssetId = assetId) ∧
        db.messagePublications.Has fun p => p.roomId = pm.roomId ∧ p.id = pm.publicationId ∧
          db.messages.Has fun m => m.roomId = p.roomId ∧ m.id = p.sourceMessageId ∧
            m.contentOwnerUserId ≠ userId

instance (db : Db) (assetId userId : Uuid) : Decidable (shared db assetId userId) :=
  inferInstanceAs (Decidable (_ ∨ _ ∨ _ ∨ _))

theorem keeps_deletedAt (now : Time) : Table.Keeps fun a : MediaAsset =>
    { a with deletedAt := some now } := ⟨fun _ => rfl⟩

/-- `admit` for a reference of a room's message. -/
def admitAsset (db : Db) (now : Time) (userId assetId roomId : Uuid) : Except Failure Db := do
  let asset ← require (db.mediaAssets.find? fun a => a.id = assetId) (.error "account_media_scope")
  ensure (asset.roomId = some roomId) (.error "account_media_scope")
  if shared db assetId userId then return db
  else return { db with
    mediaAssets := (db.mediaAssets.update (fun a => a.id = assetId ∧ a.deletedAt = none)
        (fun a => { a with deletedAt := some now }) (keeps_deletedAt now)).update
      (fun a => a.id = assetId ∧ a.state ≠ .deleted)
      fun a => { a with state := .deleting, uploadToken := none, uploadUntil := none }
    mediaCleanupCheckpoints := (db.mediaCleanupCheckpoints.insert { assetId := assetId }).getD
      db.mediaCleanupCheckpoints }

end AccountMediaRepository

/-- The authority for a page: the deletion is admitted, its account is blocked, and the removal is
still owed. -/
def AccountCleanupRepository.authorize (db : Db) (intent : DeletionIntent) :
    Except Failure Unit := do
  ensure (intent.account = true ∧
    db.deletionIntents.Has fun i => i.requestId = intent.requestId ∧ i.account = true ∧
      i.actorUserId = intent.actorUserId ∧ i.targetId = intent.targetId ∧ i.roomId = none ∧
      i.requestedAt = intent.requestedAt ∧ i.blockedAt ≠ none)
    (.error "account_cleanup_not_admitted")
  ensure (db.users.Has fun u => u.id = intent.targetId ∧ u.status.leaving = true)
    (.error "account_cleanup_not_blocked")
  ensure (db.accountDeletionObligations.Has fun o => o.userId = intent.targetId ∧
      o.requestId = intent.requestId ∧ o.requestedAt = intent.requestedAt ∧ o.blockedAt ≠ none ∧
      o.guardCoverage = true ∧ (o.state = .blocked ∨ o.state = .purging))
    (.error "account_cleanup_obligation_unavailable")

namespace AccountContentRepository

/-- Copies first: `ORDER BY deletion_root_id DESC, id`, with missing roots last. -/
def candidateOrder (m n : Message) : Prop :=
  match m.deletionRootId, n.deletionRootId with
  | some x, some y => y < x ∨ x = y ∧ m.id ≤ n.id
  | some _, none => True
  | none, some _ => False
  | none, none => m.id ≤ n.id

instance : DecidableRel candidateOrder := fun m n => by
  unfold candidateOrder
  split <;> infer_instance

/-- The next message of an account that is deleted. -/
def candidate (db : Db) (userId : Uuid) : Option Message :=
  db.messages.first? (fun m => m.contentOwnerUserId = userId) candidateOrder

/-- A proved removal whose receipts came back without the message. -/
def restoredDependencies (db : Db) (intent : DeletionIntent) : Option AccountContentCheckpoint :=
  db.accountContentCheckpoints.first? (fun c => c.requestId = intent.requestId ∧
      c.rowsPurgedAt ≠ none ∧
      ¬db.messages.Has (fun m => m.roomId = c.roomId ∧ m.id = c.messageId) ∧
      db.commandReceipts.Has fun r => r.roomId = c.roomId ∧ r.messageId = c.messageId ∧
        (r.deleted = false ∨ r.payloadDigest ≠ none))
    fun c d => c.messageId ≤ d.messageId

/-- The checkpoint belongs to this deletion of this row. -/
def CheckpointMatches (intent : DeletionIntent) (m : Message) (c : AccountContentCheckpoint) : Prop :=
  c.roomId = m.roomId ∧ c.contentOwnerUserId = intent.targetId ∧
    c.deletionRootId = m.deletionRootId ∧ c.requestedAt = intent.requestedAt

instance (intent : DeletionIntent) (m : Message) : DecidablePred (CheckpointMatches intent m) :=
  fun _ => inferInstanceAs (Decidable (_ ∧ _ ∧ _ ∧ _))

/-- The checkpoint of this deletion and this row. -/
def ownCheckpoint (intent : DeletionIntent) (m : Message) (c : AccountContentCheckpoint) : Prop :=
  c.requestId = intent.requestId ∧ c.messageId = m.id

instance (intent : DeletionIntent) (m : Message) : DecidablePred (ownCheckpoint intent m) :=
  fun _ => inferInstanceAs (Decidable (_ ∧ _))

/-- The checkpoints with one for this row, not purged yet. -/
def upsertCheckpoint (db : Db) (intent : DeletionIntent) (m : Message) :
    Except Failure (Table AccountContentCheckpoint) :=
  match db.accountContentCheckpoints.find? (ownCheckpoint intent m) with
  | some c => do
    ensure (CheckpointMatches intent m c) (.error "account_content_checkpoint_conflict")
    .ok (db.accountContentCheckpoints.update (ownCheckpoint intent m)
      fun c => { c with rowsPurgedAt := none })
  | none => require (db.accountContentCheckpoints.insert
      { requestId := intent.requestId, messageId := m.id, roomId := m.roomId,
        deletionRootId := m.deletionRootId, contentOwnerUserId := intent.targetId,
        requestedAt := intent.requestedAt }) .constraint

/-- The account's deletion remembers the message. -/
def checkpoint (db : Db) (intent : DeletionIntent) (m : Message) : Except Failure Db := do
  let checkpoints ← upsertCheckpoint db intent m
  return { db with accountContentCheckpoints := checkpoints }

/-- A message of the account is tombstoned with its content. -/
def tombstone (db : Db) (now : Time) (m : Message) (userId : Uuid) : Db :=
  { db with
    messages := db.messages.update (fun x => x.id = m.id ∧ x.contentOwnerUserId = userId ∧
        x.deletedAt = none)
      fun x => { x with deletedAt := some now, textContent := none, version := x.version + 1,
                        contentRevision := x.contentRevision + 1 } }

/-- The next attachment, or the next media row of one of the message's publications. -/
def attachment (db : Db) (m : Message) : Option MessageAttachment :=
  db.messageAttachments.first? (fun x => x.roomId = m.roomId ∧ x.messageId = m.id)
    fun x y => x.id ≤ y.id

/-- The first media row of a publication the message is the source or the copy of. -/
def publication (db : Db) (m : Message) : Option PublicationMedia :=
  db.publicationMedia.first? (fun pm => pm.roomId = m.roomId ∧
      db.messagePublications.Has fun p => p.roomId = pm.roomId ∧ p.id = pm.publicationId ∧
        (p.sourceMessageId = m.id ∨ p.publishedMessageId = some m.id))
    fun x y => x.id ≤ y.id

/-- `remove`, with whether the row went. -/
def remove (db : Db) (now : Time) (intent : DeletionIntent) (m : Message) :
    Except Failure (Db × Bool) := do
  if db.messages.Has fun x => x.roomId = m.roomId ∧ x.deletionRootId = some m.id then
    return (db, false)
  else do
    ensure (m.contentOwnerUserId = intent.targetId ∧ m.deletedAt ≠ none)
      (.error "account_content_row_conflict")
    let db ← MessagePurgeRepository.deleteMessage db m.roomId m
    return ({ db with
      accountContentCheckpoints := db.accountContentCheckpoints.update
        (ownCheckpoint intent m) fun c => { c with rowsPurgedAt := some now } }, true)

end AccountContentRepository

namespace AccountContentService

open AccountContentRepository

/-- `finish`: a page that changed something advances the room's epoch. -/
def finish (db : Db) (roomId : Uuid) (changed : Nat) : Db × Nat :=
  (if changed = 0 then db else MessagePurgeRepository.advanceEpoch db roomId, changed)

/-- The page of a message the account owns. -/
def pageMessage (db : Db) (now : Time) (intent : DeletionIntent) (m : Message) (limit : Nat)
    (elsewhere : Elsewhere) : Except Failure (Db × Nat) := do
  let db ← checkpoint db intent m
  if m.deletedAt = none then return finish (tombstone db now m intent.targetId) m.roomId 1
  else match attachment db m with
  | some x => do
    let db ← AccountMediaRepository.admitAsset db now intent.targetId x.assetId m.roomId
    return finish { db with
      messageAttachments := db.messageAttachments.delete fun y =>
        y.roomId = m.roomId ∧ y.id = x.id } m.roomId 1
  | none => match publication db m with
    | some pm => do
      let db ← AccountMediaRepository.admitAsset db now intent.targetId pm.destinationAssetId m.roomId
      return finish { db with
        publicationMedia := db.publicationMedia.delete fun y =>
          y.roomId = m.roomId ∧ y.id = pm.id } m.roomId 1
    | none => do
      let (db, changed, done) ← MessageDependenciesService.page db m.roomId m.id limit elsewhere
      if done = false then return finish db m.roomId changed
      else do
        let (db, removed) ← AccountContentRepository.remove db now intent m
        return finish db m.roomId (if removed then 1 else 0)

/-- A page, with what it changed; `none` when nothing was left. -/
def page (db : Db) (now : Time) (intent : DeletionIntent) (limit : Nat) (elsewhere : Elsewhere) :
    Except Failure (Db × Option Nat) := do
  AccountCleanupRepository.authorize db intent
  match candidate db intent.targetId with
  | some m => do
    let (db, changed) ← pageMessage db now intent m limit elsewhere
    return (db, some changed)
  | none => match restoredDependencies db intent with
    | none => return (db, none)
    | some c => do
      ensure (c.contentOwnerUserId = intent.targetId ∧ c.requestedAt = intent.requestedAt)
        (.error "account_content_checkpoint_conflict")
      let (db, changed, _) ← MessageDependenciesService.page db c.roomId c.messageId limit elsewhere
      return (db, some changed)

end AccountContentService

end Rogichat
