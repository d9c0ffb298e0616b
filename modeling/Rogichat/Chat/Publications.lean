import Rogichat.Chat.Messages

/-!
# Publishing anonymous copies

A room's owner publishes a fan's private message as an anonymous copy in the
shared stream. A text is published by one worker transaction; a photo by two,
with the copying of its bytes between them, and a recovery sweep for the
publications whose job is gone.

`leaseHeld` is the answer of the job's fence inside the transaction: a worker
whose lease expired or was claimed again gets `false`, and rolls back.
-/

namespace Rogichat

open Lib

/-- The fields of a publication job the transactions read. -/
structure PublicationLease where
  roomId : Option Uuid
  resourceId : Option Uuid
  deriving DecidableEq, Repr

structure PublicationReceipt where
  publicationId : Uuid
  state : PublicationState
  messageId : Option Uuid
  deriving DecidableEq, Repr

/-- A photo that is to be copied. -/
structure PhotoSource where
  assetId : Uuid
  objectId : Uuid
  objectKey : Nat
  byteLength : Nat
  sha256 : String
  width : Nat
  height : Nat
  position : Nat
  deriving DecidableEq, Repr

/-- A source with the destination one attempt allocated for it. -/
structure PhotoAttempt extends PhotoSource where
  destinationId : Uuid
  destinationObjectId : Uuid
  key : Nat
  deriving DecidableEq, Repr

/-! ## Photo rows -/

namespace PublicationPhotoRepository

/-- The photos of a message. -/
def sources (db : Db) (roomId messageId : Uuid) : List PhotoSource :=
  let attachments := (db.messageAttachments.select fun x => x.roomId = roomId ∧
    x.messageId = messageId).insertionSort fun x y => x.position ≤ y.position
  attachments.flatMap fun x =>
    match db.mediaAssets.find? fun a => a.roomId = some x.roomId ∧ a.id = x.assetId ∧
      a.kind = .photo ∧ a.state = .ready ∧ a.deletedAt = none with
    | none => []
    | some a => (db.mediaObjects.select fun o => o.assetId = a.id ∧ o.variant = .image ∧
        o.state = .ready).map fun o =>
      { assetId := a.id, objectId := o.id, objectKey := o.objectKey,
        byteLength := o.byteLength.getD 0, sha256 := o.sha256.getD "null",
        width := o.width.getD 0, height := o.height.getD 0, position := x.position }

/-- How many attachments a message has. -/
def attachmentCount (db : Db) (roomId messageId : Uuid) : Nat :=
  (db.messageAttachments.select fun x => x.roomId = roomId ∧ x.messageId = messageId).length

/-- The copies of a publication. -/
def copies (db : Db) (publicationId : Uuid) : List PublicationMedia :=
  (db.publicationMedia.select fun pm => pm.publicationId = publicationId).insertionSort
    fun x y => x.position ≤ y.position

/-- A copy that is not needed is to be deleted. -/
def block (db : Db) (now : Time) (assetId : Uuid) : Db :=
  { db with
    mediaAssets := db.mediaAssets.update (fun a => a.id = assetId ∧ a.state ≠ .deleted)
      fun a => { a with state := .deleting, deletedAt := some now } }

/-- The budget row after `createMany … skipDuplicates`. -/
def budget (db : Db) : Table MediaBudget :=
  (db.mediaBudget.insert {}).getD db.mediaBudget

/-- Charge the shared budget, up to its limit. -/
def charge (db : Db) (bytes : Nat) : Except Failure Db := do
  let row ← require ((budget db).find? fun _ => True) (.job "TEMPORARY_UNAVAILABLE" false)
  ensure (row.reservedBytes + bytes ≤ row.limitBytes) (.job "TEMPORARY_UNAVAILABLE" false)
  return { db with
    mediaBudget := (budget db).update (fun _ => True)
      fun b => { b with reservedBytes := b.reservedBytes + bytes } }

/-- Point the publication's position at the new destination. -/
def link (db : Db) (id roomId publicationId : Uuid) (attempt : PhotoAttempt) :
    Except Failure Db := do
  let prior := db.publicationMedia.find? fun pm => pm.publicationId = publicationId ∧
    pm.position = attempt.position
  let media ← require ((db.publicationMedia.delete fun pm => pm.publicationId = publicationId ∧
    pm.position = attempt.position).insert
      { id := (prior.map PublicationMedia.id).getD id
        roomId := (prior.map PublicationMedia.roomId).getD roomId
        publicationId := publicationId, position := attempt.position,
        sourceAssetId := attempt.assetId, sourceObjectId := attempt.objectId,
        destinationAssetId := attempt.destinationId }) .constraint
  return { db with publicationMedia := media }

/-- The rows of one source's copy. Its ids are the destination, the object, the
attempt and the link; `key` is the storage key built from them. -/
def allocateOne (db : Db) (now : Time) (ids : Nat → Uuid) (roomId publicationId ownerId : Uuid)
    (source : PhotoSource) : Except Failure (Db × PhotoAttempt) := do
  let attempt : PhotoAttempt := { source with
    destinationId := ids 0, destinationObjectId := ids 1, key := ids 4 }
  let assets ← require (db.mediaAssets.insert
    { id := attempt.destinationId, ownerUserId := ownerId, roomId := some roomId, kind := .photo,
      contentType := "image/webp", state := .processing, declaredBytes := source.byteLength,
      reservedBytes := source.byteLength, expiresAt := now + 3600000, createdAt := now })
    .constraint
  let objects ← require (db.mediaObjects.insert
    { id := attempt.destinationObjectId, assetId := attempt.destinationId, attemptId := ids 2,
      variant := .image, objectKey := attempt.key }) .constraint
  let db ← link { db with mediaAssets := assets, mediaObjects := objects } (ids 3) roomId
    publicationId attempt
  return (db, attempt)

def allocateAll (db : Db) (now : Time) (ids : Nat → Uuid) (roomId publicationId ownerId : Uuid) :
    List PhotoSource → Except Failure (Db × List PhotoAttempt)
  | [] => return (db, [])
  | source :: sources => do
    let (db, attempt) ← allocateOne db now ids roomId publicationId ownerId source
    let (db, attempts) ← allocateAll db now (fun i => ids (i + 5)) roomId publicationId ownerId
      sources
    return (db, attempt :: attempts)

/-- The copies of a publication, once. -/
def allocate (db : Db) (now : Time) (ids : Nat → Uuid) (roomId publicationId ownerId : Uuid)
    (sources : List PhotoSource) : Except Failure (Db × List PhotoAttempt) := do
  let db ← charge db (sources.map PhotoSource.byteLength).sum
  allocateAll db now ids roomId publicationId ownerId sources

/-- The asset `ready` serves. -/
def Finishable (attempt : PhotoAttempt) (a : MediaAsset) : Prop :=
  a.id = attempt.destinationId ∧ a.state = .processing ∧ a.deletedAt = none

instance (attempt : PhotoAttempt) : DecidablePred (Finishable attempt) := fun _ =>
  inferInstanceAs (Decidable (_ ∧ _ ∧ _))

/-- The object `ready` stores the bytes' facts in. -/
def Storable (attempt : PhotoAttempt) (o : MediaObject) : Prop :=
  o.id = attempt.destinationObjectId ∧ o.assetId = attempt.destinationId ∧
    o.objectKey = attempt.key ∧ o.state = .allocated

instance (attempt : PhotoAttempt) : DecidablePred (Storable attempt) := fun _ =>
  inferInstanceAs (Decidable (_ ∧ _ ∧ _ ∧ _))

/-- A copy was written. -/
def ready (db : Db) (publicationId : Uuid) (attempt : PhotoAttempt) : Except Failure Db := do
  ensure (db.publicationMedia.Has fun pm => pm.publicationId = publicationId ∧
    pm.position = attempt.position ∧ pm.destinationAssetId = attempt.destinationId ∧
    pm.sourceAssetId = attempt.assetId ∧ pm.sourceObjectId = attempt.objectId)
    (.job "SOURCE_UNAVAILABLE" false)
  ensure (db.mediaAssets.Has (Finishable attempt) ∧ db.mediaObjects.Has (Storable attempt))
    (.job "SOURCE_UNAVAILABLE" false)
  return { db with
    mediaAssets := db.mediaAssets.update (Finishable attempt) fun a => { a with state := .ready }
    mediaObjects := db.mediaObjects.update (Storable attempt) fun o =>
      { o with state := .ready, byteLength := some attempt.byteLength,
               sha256 := some attempt.sha256, width := some attempt.width,
               height := some attempt.height } }

/-- All copies were written. -/
def readyAll (db : Db) (publicationId : Uuid) : List PhotoAttempt → Except Failure Db
  | [] => return db
  | attempt :: attempts => do
    let db ← ready db publicationId attempt
    readyAll db publicationId attempts

/-- The copies of a photo message, as its attachments. -/
def attach (db : Db) (ids : Nat → Uuid) (roomId messageId : Uuid) (attempts : List PhotoAttempt) :
    Except Failure Db := do
  let attachments ← require (db.messageAttachments.insertAll (attempts.mapIdx fun i attempt =>
    { id := ids i, roomId := roomId, messageId := messageId, assetId := attempt.destinationId,
      position := attempt.position })) .constraint
  return { db with
    messages := db.messages.update (fun m => m.id = messageId)
      fun m => { m with contentKind := .photo }
    messageAttachments := attachments }

end PublicationPhotoRepository

/-! ## Publication rows -/

namespace PublicationsRepository

/-- The publication of a message's revision. -/
def existing (db : Db) (roomId messageId : Uuid) (revision : Nat) : Option MessagePublication :=
  db.messagePublications.find? fun p => p.roomId = roomId ∧ p.sourceMessageId = messageId ∧
    p.sourceVersion = revision

/-- The account of a publisher, while it may chat. -/
def lockAccount (db : Db) (now : Time) (userId : Uuid) : Option User :=
  db.users.find? fun u => u.id = userId ∧ chatUser db now u

def lockPublication (db : Db) (roomId publicationId : Uuid) : Option MessagePublication :=
  db.messagePublications.find? fun p => p.roomId = roomId ∧ p.id = publicationId

theorem keeps_revoked : Table.Keeps fun p : MessagePublication => { p with state := .revoked } :=
  ⟨fun _ => rfl⟩

/-- The publication is over. -/
def revoke (db : Db) (publicationId : Uuid) : Db :=
  { db with
    messagePublications := db.messagePublications.update (fun p => p.id = publicationId)
      (fun p => { p with state := .revoked }) keeps_revoked }

def publish (db : Db) (messageId publicationId : Uuid) : Db :=
  { db with
    messagePublications := db.messagePublications.update (fun p => p.id = publicationId)
      fun p => { p with state := .published, publishedMessageId := some messageId } }

/-- The row of an anonymous copy. -/
def copyOf (now : Time) (id roomId streamId memberId ownerId sourceId : Uuid)
    (text : Option String) (order : Nat) : Message :=
  { id := id, roomId := roomId, streamId := streamId, senderMemberId := memberId,
    contentOwnerUserId := ownerId, deletionRootId := some sourceId, textContent := text,
    createdOrder := order, createdAt := now }

end PublicationsRepository

/-! ## Admission -/

namespace PublicationsCoreService

open PublicationsRepository PublicationPhotoRepository

/-- The characters of a hexadecimal digest. -/
def hexDigest (sha256 : String) : Bool :=
  sha256.length == 64 && sha256.all fun c => c.isDigit || ('a' ≤ c && c ≤ 'f')

/-- A photo that can be copied. -/
def ValidPhoto (source : PhotoSource) : Prop :=
  1 ≤ source.byteLength ∧ source.byteLength ≤ 10 * 1024 * 1024 ∧ hexDigest source.sha256 = true ∧
    1 ≤ source.width ∧ 1 ≤ source.height

instance : DecidablePred ValidPhoto := fun _ =>
  inferInstanceAs (Decidable (_ ∧ _ ∧ _ ∧ _ ∧ _))

/-- The photos of a message, all valid. -/
def photoSources (db : Db) (roomId messageId : Uuid) : Except Failure (List PhotoSource) := do
  let sources := sources db roomId messageId
  ensure (sources ≠ [] ∧ sources.length ≤ 4 ∧
    sources.length = attachmentCount db roomId messageId ∧
    sources.map PhotoSource.position = List.range sources.length ∧
    ∀ source ∈ sources, ValidPhoto source) (.api .notFound)
  return sources

/-- A source its owner may publish. -/
structure Eligible where
  viewer : ActiveMember
  source : MessageRow
  revision : Nat

/-- A fan's message from before private streams. -/
def legacyFanOriginal (source : MessageRow) : Bool :=
  source.roomMode == .fan && source.streamKind == .roomShared && source.senderRole == .fan &&
    source.deletionRootId.isNone

/-- A source whose content can be copied. -/
def Publishable (source : MessageRow) : Prop :=
  source.senderRole = .fan ∧ (source.contentKind = .text ∨ source.contentKind = .photo) ∧
    (source.contentKind = .text → source.textContent ≠ none) ∧ source.deletionRootId = none

instance : DecidablePred Publishable := fun _ =>
  inferInstanceAs (Decidable (_ ∧ _ ∧ (_ → _) ∧ _))

/-- A photo source has all its photos. -/
def requirePhotos (db : Db) (roomId : Uuid) (source : MessageRow) : Except Failure Unit :=
  if source.contentKind = .photo then do
    let _ ← photoSources db roomId source.id
    return ()
  else return ()

/-- The message the owner wants to publish. -/
def sourceForOwner (db : Db) (now : Time) (roomId userId messageId : Uuid) :
    Except Failure Eligible := do
  let room ← require (db.rooms.find? fun r => r.id = roomId) (.api .notFound)
  ensure (room.status = .active) (.api .notFound)
  let viewer ← AccessService.requireActiveMember db true now roomId userId
  let source ← require (MessagesRepository.load db true roomId messageId) (.api .notFound)
  ensure (canPublishSource (MessagesCoreService.accessFacts viewer room.ownerMemberId)
    (MessagesCoreService.messageFacts source none) (legacyFanOriginal source) = true)
    (.api .notFound)
  ensure (Publishable source) (.api .invalidRequest)
  requirePhotos db roomId source
  return { viewer := viewer, source := source, revision := source.contentRevision }

def receipt (row : MessagePublication) : PublicationReceipt :=
  { publicationId := row.id, state := row.state,
    messageId := if row.state = .published then row.publishedMessageId else none }

/-- A publication is requested once for each revision. -/
def requestPublication (db : Db) (now : Time) (ids : Nat → Uuid) (roomId userId messageId : Uuid) :
    Except Failure (Db × PublicationReceipt) := do
  let eligible ← sourceForOwner db now roomId userId messageId
  match existing db roomId messageId eligible.revision with
  | some row => return (db, receipt row)
  | none => do
    let publications ← require (db.messagePublications.insert
      { id := ids 0, roomId := roomId, sourceMessageId := eligible.source.id,
        sourceVersion := eligible.revision, publisherMemberId := eligible.viewer.id,
        createdAt := now }) .constraint
    return ({ db with messagePublications := publications },
      { publicationId := ids 0, state := .preparing, messageId := none })

/-! ## Finalizing -/

/-- The publication a worker finalizes, and its source while it may be published. -/
structure Context where
  roomId : Uuid
  publication : MessagePublication
  eligible : Option Eligible

/-- `sourceForOwner` with an `ApiError` caught. -/
def eligibleSource (db : Db) (now : Time) (account : Option User) (publication : MessagePublication) :
    Except Failure (Option Eligible) :=
  match account with
  | none => return none
  | some account =>
    match sourceForOwner db now publication.roomId account.id publication.sourceMessageId with
    | .ok eligible => return some eligible
    | .error (.api _) => return none
    | .error failure => throw failure

/-- The source is still the publisher's, and still the version that was requested. -/
def Current (publication : MessagePublication) (eligible : Eligible) : Prop :=
  eligible.viewer.id = publication.publisherMemberId ∧
    eligible.revision = publication.sourceVersion

instance (publication : MessagePublication) : DecidablePred (Current publication) := fun _ =>
  inferInstanceAs (Decidable (_ ∧ _))

/-- The publication of a lease, locked, with the publisher's account. -/
def lockedPublication (db : Db) (now : Time) (lease : PublicationLease) :
    Except Failure (Uuid × MessagePublication × Option User) := do
  let roomId ← require lease.roomId (.job "INVALID_RESOURCE" true)
  let resourceId ← require lease.resourceId (.job "INVALID_RESOURCE" true)
  let publication ← require (lockPublication db roomId resourceId) (.job "INVALID_RESOURCE" true)
  let publisher ← require (db.roomMembers.find? fun m => m.roomId = publication.roomId ∧
    m.id = publication.publisherMemberId) (.job "INVALID_RESOURCE" true)
  return (roomId, publication, lockAccount db now publisher.userId)

/-- The one shared stream of a room. -/
def sharedStream (db : Db) (roomId : Uuid) : Except Failure MessageStream :=
  match MessagesRepository.sharedStreams db roomId with
  | [s] => return s
  | _ => throw (.job "INVALID_RESOURCE" true)

/-- A photo copy's attachments; a text copy has none. -/
def attachCopies (db : Db) (ids : Nat → Uuid) (roomId messageId : Uuid) :
    Option (List PhotoAttempt) → Except Failure Db
  | none => return db
  | some attempts => attach db ids roomId messageId attempts

/-- Insert the copy, with its attachments when it is a photo, and publish it. -/
def publishCopy (db : Db) (now : Time) (ids : Nat → Uuid) (roomId publicationId : Uuid)
    (eligible : Eligible) (text : Option String) (attempts : Option (List PhotoAttempt)) :
    Except Failure Db := do
  let stream ← sharedStream db roomId
  let id := ids 0
  let (db, order) ← RoomStateService.nextOrder db roomId
  let messages ← require (db.messages.insert (copyOf now id roomId stream.id eligible.viewer.id
    eligible.source.contentOwnerUserId eligible.source.id text order)) .constraint
  let db ← attachCopies { db with messages := messages } (fun i => ids (2 + i)) roomId id attempts
  MessagesCoreService.recordEvent (publish db id publicationId) (ids 1) roomId stream.id id 1
    order .messageCreated

/-- `publishText` for a publication, up to the fence. -/
def finalizeText (db : Db) (now : Time) (ids : Nat → Uuid) (roomId : Uuid)
    (publication : MessagePublication) (account : Option User) : Except Failure Db :=
  if publication.state ≠ .preparing then return db
  else do
    let eligible ← eligibleSource db now account publication
    ensure (∀ e ∈ eligible, e.source.contentKind = .text) (.job "SOURCE_UNAVAILABLE" false)
    match eligible.filter fun e => Current publication e with
    | none => return revoke db publication.id
    | some e => publishCopy db now ids roomId publication.id e e.source.textContent none

/-- The copy of a text is published, or the publication is revoked. -/
def publishText (db : Db) (now : Time) (ids : Nat → Uuid) (lease : PublicationLease)
    (leaseHeld : Bool) : Except Failure Db := do
  let (roomId, publication, account) ← lockedPublication db now lease
  let db ← finalizeText db now ids roomId publication account
  ensure (leaseHeld = true) .staleLease
  return db

/-- The source of a publication still preparing. -/
def preparingSource (db : Db) (now : Time) (account : Option User)
    (publication : MessagePublication) : Except Failure (Option Eligible) :=
  if publication.state = .preparing then eligibleSource db now account publication
  else return none

/-- What a publication of photos is checked against. -/
def photoContext (db : Db) (now : Time) (lease : PublicationLease) : Except Failure Context := do
  let (roomId, publication, account) ← lockedPublication db now lease
  let eligible ← preparingSource db now account publication
  return { roomId := roomId, publication := publication,
           eligible := eligible.filter fun e => Current publication e }

/-- The copies of a revoked publication are to be deleted. -/
def discardCopies (db : Db) (now : Time) (publicationId : Uuid) : Db :=
  (copies db publicationId).foldl (fun db copy => block db now copy.destinationAssetId) db

inductive Prepared
  | attempts (attempts : List PhotoAttempt)
  | text
  | completed

/-- The copies of a publication are reserved. -/
def preparePhoto (db : Db) (now : Time) (ids : Nat → Uuid) (lease : PublicationLease)
    (leaseHeld : Bool) : Except Failure (Db × Prepared) := do
  let context ← photoContext db now lease
  let publication := context.publication
  match context.eligible with
  | none => do
    ensure (leaseHeld = true) .staleLease
    return (if publication.state = .published then db
      else discardCopies (revoke db publication.id) now publication.id, .completed)
  | some eligible =>
    if eligible.source.contentKind = .text then return (db, .text)
    else do
      let sources ← photoSources db context.roomId eligible.source.id
      let (db, attempts) ← allocate (discardCopies db now publication.id) now ids context.roomId
        publication.id eligible.source.contentOwnerUserId sources
      ensure (leaseHeld = true) .staleLease
      return (db, .attempts attempts)

/-- The copied bytes are those of the sources as they are now. -/
def Matches (sources : List PhotoSource) (attempts : List PhotoAttempt) : Prop :=
  sources.map (fun s => (s.assetId, s.objectId, s.sha256)) =
    attempts.map fun a => (a.assetId, a.objectId, a.sha256)

instance (sources : List PhotoSource) (attempts : List PhotoAttempt) :
    Decidable (Matches sources attempts) := inferInstanceAs (Decidable (_ = _))

/-- The photos of an eligible photo message, as they are now. -/
def currentSources (db : Db) (roomId : Uuid) (source : MessageRow) :
    Except Failure (List PhotoSource) :=
  if source.contentKind = .photo then photoSources db roomId source.id else return []

/-- `finalizePhoto` for a publication still preparing. -/
def finalizePreparing (db : Db) (now : Time) (ids : Nat → Uuid) (context : Context)
    (attempts : List PhotoAttempt) : Except Failure Db := do
  let publicationId := context.publication.id
  let discard := discardCopies (revoke db publicationId) now publicationId
  match context.eligible with
  | none => return discard
  | some eligible => do
    let sources ← currentSources db context.roomId eligible.source
    if Matches sources attempts then
      let db ← readyAll db publicationId attempts
      publishCopy db now ids context.roomId publicationId eligible none (some attempts)
    else return discard

/-- `finalizePhoto` for a publication, up to the fence. -/
def finalizeState (db : Db) (now : Time) (ids : Nat → Uuid) (context : Context)
    (attempts : List PhotoAttempt) : Except Failure Db :=
  match context.publication.state with
  | .preparing => finalizePreparing db now ids context attempts
  | .revoked => return discardCopies db now context.publication.id
  | .published => return db

/-- The written copies are published, or the publication is revoked. -/
def finalizePhoto (db : Db) (now : Time) (ids : Nat → Uuid) (lease : PublicationLease)
    (leaseHeld : Bool) (attempts : List PhotoAttempt) : Except Failure Db := do
  let context ← photoContext db now lease
  let db ← finalizeState db now ids context attempts
  ensure (leaseHeld = true) .staleLease
  return db

/-! ## Recovery -/

/-- A publication whose job will not run again. -/
def Abandoned (db : Db) (runnable : Uuid → Bool) (p : MessagePublication) : Prop :=
  p.state = .preparing ∧ db.publicationMedia.Has (fun pm => pm.publicationId = p.id) ∧
    runnable p.id = false

instance (db : Db) (runnable : Uuid → Bool) : DecidablePred (Abandoned db runnable) := fun _ =>
  inferInstanceAs (Decidable (_ ∧ _ ∧ _))

/-- The publications of the first room that has abandoned ones. -/
def abandoned (db : Db) (runnable : Uuid → Bool) : List MessagePublication :=
  match db.messagePublications.first? (Abandoned db runnable) fun p q => p.roomId ≤ q.roomId with
  | none => []
  | some first => ((db.messagePublications.select fun p => p.roomId = first.roomId ∧
      Abandoned db runnable p).insertionSort fun p q =>
        p.createdAt < q.createdAt ∨ p.createdAt = q.createdAt ∧ p.id ≤ q.id).take 20

/-- One candidate of the sweep; its job is looked up again under the asset locks. -/
def recoverOne (db : Db) (now : Time) (runnable : Uuid → Bool) (candidate : MessagePublication) :
    Db :=
  match lockPublication db candidate.roomId candidate.id with
  | none => db
  | some publication =>
    if publication.state ≠ .preparing ∨ runnable candidate.id = true then db
    else discardCopies (revoke db candidate.id) now candidate.id

/-- Publications whose job is gone are revoked. -/
def recoverPhotos (db : Db) (now : Time) (runnable recheck : Uuid → Bool) : Db :=
  (abandoned db runnable).foldl (fun db candidate => recoverOne db now recheck candidate) db

end PublicationsCoreService

end Rogichat
