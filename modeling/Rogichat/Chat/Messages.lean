import Mathlib
import Rogichat.Chat.Rooms
import Rogichat.Chat.Visibility

/-!
# Sending and removing messages

`MessagesCoreService.send`, with the stream a message goes to, and `remove`, which
blocks a message together with the copies published from it. A command's retries
are found by its receipt, which outlives the message.

* The rows of `ids` are the UUIDs of one transaction: the stream, the pair and its
  two grants, the message, its receipt, its event, and then its attachments.
* Job enqueues touch no table of the model and are left out.
-/

namespace Rogichat

open Lib

/-- A membership scope token: a keyed hash of these three, taken to be injective. -/
structure MembershipScope where
  userId : Uuid
  roomId : Uuid
  periodId : Uuid
  deriving DecidableEq, Repr

/-- A validated send request. -/
structure SendInput where
  membershipScope : MembershipScope
  clientMessageId : Uuid
  intent : Intent
  recipientActorId : Option Uuid
  quoteId : Option Uuid
  content : SendContent
  deriving DecidableEq, Repr

/-- What a receipt remembers of a send. -/
def SendInput.payload (input : SendInput) : Payload :=
  { clientMessageId := input.clientMessageId, intent := input.intent,
    recipientActorId := input.recipientActorId, quoteId := input.quoteId,
    content := input.content }

inductive SendReceipt
  | deleted (clientMessageId messageId : Uuid)
  | committed (clientMessageId messageId : Uuid) (version : Nat)
  deriving DecidableEq, Repr

/-- The message a send's answer names. -/
def SendReceipt.messageId : SendReceipt → Uuid
  | .deleted _ messageId => messageId
  | .committed _ messageId _ => messageId

/-! ## Admission of media -/

namespace RoomMediaCoreService

/-- The policy in force: a room without a policy row has the defaults. -/
def currentPolicy (db : Db) (roomId : Uuid) : Except Failure RoomMediaPolicy := do
  let _ ← require (db.rooms.find? fun r => r.id = roomId ∧ r.status = .active) (.api .notFound)
  return (db.roomMediaPolicy.find? fun p => p.roomId = roomId).getD { roomId := roomId }

/-- The room takes media of this kind and size. -/
def requireRoomMedia (db : Db) (roomId : Uuid) (kind : MediaKind) (bytes : Nat) :
    Except Failure Unit := do
  ensure (kind ≠ .avatar ∧ 1 ≤ bytes) (.api .invalidMediaIntent)
  let policy ← currentPolicy db roomId
  let enabled := match kind with
    | .photo => policy.photoEnabled
    | .video => policy.videoEnabled
    | .sticker | .avatar => policy.stickerEnabled
  ensure (enabled = true) (.api .mediaForbidden)
  let cap := match kind with
    | .photo => min policy.photoMaxBytes MEDIA_LIMITS.photoBytes
    | .video => min policy.videoMaxBytes MEDIA_LIMITS.videoBytes
    | .sticker | .avatar => MEDIA_LIMITS.stickerBytes
  ensure (bytes ≤ cap) (.api .invalidMediaIntent)

end RoomMediaCoreService

namespace StickersCoreService

/-- The sticker may be sent in the room. -/
def requireSend (db : Db) (roomId stickerId : Uuid) : Except Failure Unit := do
  let catalog ← catalog db stickerId
  ensure (catalog.status = .active ∧ catalog.approvedAt ≠ none) (.api .notFound)
  let (_, object) ← asset db catalog.assetId
  RoomMediaCoreService.requireRoomMedia db roomId .sticker (object.byteLength.getD 0)

end StickersCoreService

/-! ## The repository -/

namespace MessagesRepository

/-- The shared streams of a room. -/
def sharedStreams (db : Db) (roomId : Uuid) : List MessageStream :=
  db.messageStreams.select fun s => s.roomId = roomId ∧ s.kind = .roomShared

/-- A member a private message may be addressed to. -/
structure TargetRow where
  id : Uuid
  userId : Uuid
  role : MemberRole
  delegated : Bool
  deriving DecidableEq, Repr

/-- The member a private message is sent to. -/
def target (db : Db) (now : Time) (roomId actorId : Uuid) : Option TargetRow := do
  let m ← db.roomMembers.find? fun m => m.roomId = roomId ∧ m.id = actorId ∧ m.status = .active
  let _ ← db.membershipPeriods.find? fun p => m.activePeriodId = some p.id ∧
    p.roomId = m.roomId ∧ p.memberId = m.id ∧ p.leftAt = none
  let _ ← db.users.find? fun u => u.id = m.userId ∧ chatUser db now u
  let delegated := decide (delegatedMemberSql db now m)
  return { id := m.id, userId := m.userId, delegated := delegated
           role := if delegated then .streamer else m.role }

/-- The private stream of two members. -/
def pair (db : Db) (roomId left right : Uuid) : Option StreamPair :=
  db.streamPairs.find? fun p => p.roomId = roomId ∧ p.leftMemberId = left ∧
    p.rightMemberId = right

/-- A quoted private message is one of the same pair. -/
def quotePair (db : Db) (roomId streamId sender originalAuthor : Uuid) : Bool :=
  (db.streamPairs.find? fun p => p.roomId = roomId ∧ p.streamId = streamId ∧
    p.leftMemberId = min sender originalAuthor ∧
    p.rightMemberId = max sender originalAuthor).isSome

theorem keeps_aclEpoch : Table.Keeps fun m : RoomMember =>
    { m with aclEpoch := m.aclEpoch + 1 } := ⟨fun _ => rfl⟩

/-- A new private stream; the delegated actor gets no lasting rights in it. -/
def createPair (db : Db) (now : Time) (ids : Nat → Uuid) (roomId streamId left right : Uuid)
    (delegatedActorId : Option Uuid) : Except Failure Db := do
  let streams ← require (db.messageStreams.insert
    { id := streamId, roomId := roomId, kind := .restricted }) .constraint
  let pairs ← require (db.streamPairs.insert
    { id := ids 1, roomId := roomId, leftMemberId := left, rightMemberId := right,
      streamId := streamId }) .constraint
  let grants ← require (db.streamGrants.insertAll ([left, right].mapIdx fun i memberId =>
    { id := ids (2 + i), roomId := roomId, streamId := streamId, memberId := memberId,
      canRead := delegatedActorId ≠ some memberId, canSend := delegatedActorId ≠ some memberId,
      validFrom := now })) .constraint
  return { db with
    messageStreams := streams
    streamPairs := pairs
    streamGrants := grants
    roomMembers := db.roomMembers.update (fun m => m.roomId = roomId ∧ m.id ∈ [left, right])
      (fun m => { m with aclEpoch := m.aclEpoch + 1 }) keeps_aclEpoch }

/-- The room is bound to an owner who has not joined yet. -/
def pendingOwner (db : Db) (roomId : Uuid) : Bool :=
  (db.defaultRoomBindings.find? fun b => b.roomId = roomId ∧ b.ownerBound = false).isSome

/-- The member's unpaired private streams. -/
def inboxes (db : Db) (roomId actorId : Uuid) : List MessageStream :=
  db.messageStreams.select fun s => s.roomId = roomId ∧ s.kind = .restricted ∧
    db.streamGrants.Has (fun g => g.roomId = s.roomId ∧ g.streamId = s.id ∧
      g.memberId = actorId) ∧
    ¬db.streamPairs.Has fun p => p.roomId = s.roomId ∧ p.streamId = s.id

/-- The stream a member writes to an owner in who has not joined yet. -/
def pendingInbox (db : Db) (now : Time) (ids : Nat → Uuid) (roomId actorId : Uuid) :
    Except Failure (Db × Uuid) :=
  match inboxes db roomId actorId with
  | [] => do
    let streams ← require (db.messageStreams.insert
      { id := ids 0, roomId := roomId, kind := .restricted }) .constraint
    let grants ← require (db.streamGrants.insert
      { id := ids 1, roomId := roomId, streamId := ids 0, memberId := actorId, canRead := true,
        canSend := true, validFrom := now }) .constraint
    return ({ db with
      messageStreams := streams
      streamGrants := grants
      roomMembers := db.roomMembers.update (fun m => m.id = actorId)
        (fun m => { m with aclEpoch := m.aclEpoch + 1 }) keeps_aclEpoch }, ids 0)
  | [s] => return (db, s.id)
  | _ => throw (.error "owner_inbox_conflict")

/-- The grants of a private stream that are in force. -/
def sendGrants (db : Db) (now : Time) (roomId streamId left right : Uuid) : List StreamGrant :=
  (db.streamGrants.select fun g => g.roomId = roomId ∧ g.streamId = streamId ∧
    (g.memberId = left ∨ g.memberId = right) ∧ Effective now g).insertionSort
    fun g h => g.memberId ≤ h.memberId

def room (db : Db) (roomId : Uuid) : Option Room := db.rooms.find? fun r => r.id = roomId

def member (db : Db) (roomId userId : Uuid) : Option RoomMember :=
  db.roomMembers.find? fun m => m.roomId = roomId ∧ m.userId = userId

def receipt (db : Db) (roomId actorId clientMessageId : Uuid) : Option CommandReceipt :=
  db.commandReceipts.find? fun r => r.roomId = roomId ∧ r.actorId = actorId ∧
    r.clientMessageId = clientMessageId

/-- The declared size of an asset the sender may attach. -/
def requireAsset (db : Db) (now : Time) (roomId userId : Uuid) (kind : MediaKind)
    (assetId : Uuid) : Option Nat := do
  let a ← db.mediaAssets.find? fun a => a.roomId = some roomId ∧ a.id = assetId ∧
    a.ownerUserId = userId ∧ a.kind = kind ∧ a.state = .ready ∧ a.deletedAt = none ∧
    now < a.expiresAt
  if db.messageAttachments.Has fun x => x.assetId = assetId then none else some a.declaredBytes

end MessagesRepository

/-- The kind of a message's content. -/
def SendContent.kind : SendContent → ContentKind
  | .text _ => ContentKind.text
  | .photo _ _ => .photo
  | .video _ _ => .video
  | .sticker _ => .sticker

def SendContent.textContent : SendContent → Option String
  | .text value => some value
  | .photo _ caption => caption
  | .video _ caption => caption
  | .sticker _ => none

def SendContent.assetIds : SendContent → List Uuid
  | .photo assetIds _ => assetIds
  | .video assetIds _ => assetIds
  | .text _ => []
  | .sticker _ => []

namespace MessagesRepository

/-- The row a send inserts. -/
def newMessage (now : Time) (id roomId streamId actorId userId : Uuid) (quoteId : Option Uuid)
    (content : SendContent) (order : Nat) : Message :=
  { id := id, roomId := roomId, streamId := streamId, senderMemberId := actorId,
    contentOwnerUserId := userId, quoteId := quoteId, contentKind := content.kind,
    textContent := content.textContent, createdOrder := order, createdAt := now }

/-- The assets of a message, in their order. -/
def insertAttachments (db : Db) (ids : Nat → Uuid) (roomId messageId : Uuid)
    (assetIds : List Uuid) : Except Failure Db := do
  let attachments ← require (db.messageAttachments.insertAll (assetIds.mapIdx fun i assetId =>
    { id := ids i, roomId := roomId, messageId := messageId, assetId := assetId, position := i }))
    .constraint
  return { db with messageAttachments := attachments }

/-- A message with its attachments and its sticker. -/
def insertMessage (db : Db) (ids : Nat → Uuid) (m : Message) (content : SendContent) :
    Except Failure Db := do
  let messages ← require (db.messages.insert m) .constraint
  insertAttachments { db with messages := messages } (fun i => ids (7 + i)) m.roomId m.id
    content.assetIds

def insertReceipt (db : Db) (id roomId actorId clientMessageId messageId : Uuid)
    (payload : Payload) : Except Failure Db := do
  let receipts ← require (db.commandReceipts.insert
    { id := id, roomId := roomId, actorId := actorId, clientMessageId := clientMessageId,
      messageId := messageId, payloadDigest := some payload }) .constraint
  return { db with commandReceipts := receipts }

/-- An event of a room's stream. -/
def event (db : Db) (id : Uuid) (roomId streamId messageId : Uuid) (version order : Nat)
    (kind : EventKind) : Except Failure Db := do
  let events ← require (db.roomEvents.insert
    { id := id, roomId := roomId, streamId := streamId, messageId := messageId,
      messageVersion := version, eventOrder := order, kind := kind }) .constraint
  return { db with roomEvents := events }

/-- The next order of the room, for a deletion. -/
def nextDeletionOrder (db : Db) (roomId : Uuid) : Except Failure (Db × Nat) := do
  let counter ← require (db.roomCounters.find? fun c => c.roomId = roomId) (.error "TypeError")
  let order := counter.lastOrder + 1
  return (RoomStateRepository.advanceOrder db order roomId, order)

/-- A message together with the member row of its sender's account. -/
def ownedMessage (db : Db) (roomId messageId userId : Uuid) : Option Message := do
  let m ← db.messages.find? fun m => m.roomId = roomId ∧ m.id = messageId
  let _ ← db.roomMembers.find? fun sender => sender.roomId = m.roomId ∧
    sender.id = m.senderMemberId ∧ sender.userId = userId
  return m

/-- The request of an actor for a message. -/
def deletionRequest (db : Db) (userId messageId : Uuid) : Option DeletionRequest :=
  db.deletionRequests.find? fun r => r.actorUserId = userId ∧ r.messageId = messageId

/-- A message's tombstone. -/
def tombstone (now : Time) (m : Message) : Message :=
  { m with deletedAt := some now, textContent := none, version := m.version + 1 }

/-- The deletion requests with this one, unless it was admitted before. -/
def addRequest (db : Db) (request : DeletionRequest) (existing : Bool) :
    Except Failure (Table DeletionRequest) :=
  if existing then return db.deletionRequests
  else require (db.deletionRequests.insert request) .constraint

/-- A message and its copies are blocked for everybody. -/
def blockMessageAndCopies (db : Db) (now : Time) (request : DeletionRequest)
    (existing : Bool) : Except Failure Db := do
  let roomId := request.roomId
  let messageId := request.messageId
  let requests ← addRequest db request existing
  return { db with
    deletionRequests := requests
    messages := (db.messages.update
        (fun m => m.roomId = roomId ∧ m.id = messageId ∧ m.deletedAt = none)
        (tombstone now)).update
      (fun m => m.roomId = roomId ∧ m.deletionRootId = some messageId ∧ m.deletedAt = none)
      (tombstone now)
    commandReceipts := db.commandReceipts.update
      (fun r => r.roomId = roomId ∧ r.messageId = messageId)
      fun r => { r with deleted := true, payloadDigest := none }
    messagePublications := db.messagePublications.update
      (fun p => p.roomId = roomId ∧
        (p.sourceMessageId = messageId ∨ p.publishedMessageId = some messageId))
      fun p => { p with state := .revoked } }

def attachedAssets (db : Db) (roomId messageId : Uuid) : List Uuid :=
  (db.messageAttachments.select fun x => x.roomId = roomId ∧ db.messages.Has fun m =>
    m.roomId = x.roomId ∧ m.id = x.messageId ∧
      (m.id = messageId ∨ m.deletionRootId = some messageId)).map MessageAttachment.assetId

/-- An asset no longer served; its stored bytes are left to the media worker. -/
def blockAsset (db : Db) (now : Time) (assetId : Uuid) : Db :=
  { db with
    mediaAssets := (db.mediaAssets.update
        (fun a => a.id = assetId ∧ a.state ≠ .deleted ∧ a.deletedAt = none)
        fun a => { a with deletedAt := some now }).update
      (fun a => a.id = assetId ∧ a.state ≠ .deleted) fun a => { a with state := .deleting } }

end MessagesRepository

/-! ## Sending -/

namespace MessagesCoreService

open MessagesRepository

def membershipScope (userId roomId periodId : Uuid) : MembershipScope :=
  { userId := userId, roomId := roomId, periodId := periodId }

/-- The event of a change to a message. -/
def recordEvent (db : Db) (id : Uuid) (roomId streamId messageId : Uuid) (version order : Nat)
    (kind : EventKind) : Except Failure Db :=
  event db id roomId streamId messageId version order kind

/-- The intent a new write is admitted under: an older client's fan still sends
`SHARED` for an ordinary message. -/
def effectiveIntent (viewer : ActiveMember) (intent : Intent) : Intent :=
  if viewer.mode = .fan ∧ viewer.role = .fan ∧ intent = .shared then .roomOwner else intent

/-- The grants that admit a private send: both are in force, and each side either
holds the lasting right or is the delegated one. -/
def SendAdmitted (viewer : ActiveMember) (target : TargetRow) (grants : List StreamGrant) : Prop :=
  grants.length = 2 ∧ ∀ g ∈ grants, if g.memberId = viewer.id
    then viewer.temporaryGrantId ≠ none ∨ g.canRead = true ∧ g.canSend = true
    else target.delegated = true ∨ g.canRead = true

instance (viewer : ActiveMember) (target : TargetRow) (grants : List StreamGrant) :
    Decidable (SendAdmitted viewer target grants) := inferInstanceAs (Decidable (_ ∧ _))

/-- Who may write privately to whom in a fan room. -/
def FanPair (viewer : ActiveMember) (target : TargetRow) : Prop :=
  viewer.mode = .fan → viewer.role = .fan ∧ target.role = .streamer ∨
    viewer.role = .streamer ∧ target.role = .fan

instance (viewer : ActiveMember) (target : TargetRow) : Decidable (FanPair viewer target) :=
  inferInstanceAs (Decidable (_ → _))

/-- The stream of a pair, created with the pair at its first message. -/
def pairStream (db : Db) (now : Time) (ids : Nat → Uuid) (viewer : ActiveMember)
    (target : TargetRow) : Except Failure (Db × Uuid) :=
  let left := min viewer.id target.id
  let right := max viewer.id target.id
  match pair db viewer.roomId left right with
  | some pair => return (db, pair.streamId)
  | none => do
    let db ← createPair db now ids viewer.roomId (ids 0) left right
      (if viewer.temporaryGrantId ≠ none then some viewer.id
        else if target.delegated then some target.id else none)
    return (db, ids 0)

/-- `sendStream` for a private message. -/
def privateStream (db : Db) (now : Time) (ids : Nat → Uuid) (viewer : ActiveMember)
    (recipientActorId : Option Uuid) : Except Failure (Db × Uuid) := do
  ensure (recipientActorId ≠ some viewer.id) (.api .invalidRequest)
  let target ← require (recipientActorId.bind (target db now viewer.roomId)) (.api .notFound)
  ensure (FanPair viewer target) (.api .forbidden)
  ensure (AccessService.actorBlocked db viewer.roomId viewer.id target.id true = false)
    (.api .notFound)
  let (db, streamId) ← pairStream db now ids viewer target
  ensure (SendAdmitted viewer target (sendGrants db now viewer.roomId streamId
    (min viewer.id target.id) (max viewer.id target.id))) (.api .forbidden)
  return (db, streamId)

/-- The stream a send goes to, with its grants. -/
def sendStream (db : Db) (now : Time) (ids : Nat → Uuid) (viewer : ActiveMember) (intent : Intent)
    (recipientActorId : Option Uuid) : Except Failure (Db × Uuid) :=
  if intent = .shared then
    match sharedStreams db viewer.roomId with
    | [s] => return (db, s.id)
    | _ => throw (.api .conflict)
  else privateStream db now ids viewer recipientActorId

/-- The pending inbox of a fan, before the default room has an owner. -/
def inboxStream (db : Db) (now : Time) (ids : Nat → Uuid) (room : Room) (awaitingOwner : Bool)
    (viewer : ActiveMember) : Except Failure (Db × Uuid) := do
  ensure (awaitingOwner = true) (.api .notFound)
  let (db, streamId) ← pendingInbox db now ids room.id viewer.id
  let grants := sendGrants db now room.id streamId viewer.id viewer.id
  ensure (grants.length = 1 ∧ ∀ g ∈ grants, g.canRead = true ∧ g.canSend = true)
    (.api .forbidden)
  return (db, streamId)

/-- A delegate is on one side of the message, or the room still awaits its owner. -/
def OwnerNotNeeded (db : Db) (now : Time) (room : Room) (awaitingOwner : Bool)
    (viewer : ActiveMember) (intent : Intent) (recipientActorId : Option Uuid) : Prop :=
  viewer.temporaryGrantId ≠ none ∨
    (intent = .private_ ∧
      ((recipientActorId.bind (target db now room.id)).any TargetRow.delegated) = true) ∨
    (intent = .shared ∧ room.ownerMemberId = none ∧ awaitingOwner = true)

instance (db : Db) (now : Time) (room : Room) (awaitingOwner : Bool) (viewer : ActiveMember)
    (intent : Intent) (recipientActorId : Option Uuid) :
    Decidable (OwnerNotNeeded db now room awaitingOwner viewer intent recipientActorId) :=
  inferInstanceAs (Decidable (_ ∨ _ ∨ _))

/-- The room's owner admits new messages, where the message needs one. -/
def requireOwner (db : Db) (now : Time) (room : Room) (owner : Option RoomSendOwner)
    (awaitingOwner : Bool) (viewer : ActiveMember) (intent : Intent)
    (recipientActorId : Option Uuid) : Except Failure Unit :=
  if OwnerNotNeeded db now room awaitingOwner viewer intent recipientActorId then return ()
  else AccessService.requireRoomSendOwner db now room.id room.ownerMemberId owner

/-- Where a new message goes. A fan's ordinary message goes to the room's owner,
or, before the default room has one, to the fan's pending inbox. -/
def resolveStream (db : Db) (now : Time) (ids : Nat → Uuid) (room : Room)
    (owner : Option RoomSendOwner) (awaitingOwner : Bool) (viewer : ActiveMember) (intent : Intent)
    (recipientActorId : Option Uuid) : Except Failure (Db × Uuid) :=
  if intent = .roomOwner ∧ viewer.mode = .fan ∧ viewer.role = .fan ∧ room.ownerMemberId = none
  then inboxStream db now ids room awaitingOwner viewer
  else do
    requireOwner db now room owner awaitingOwner viewer intent recipientActorId
    ensure (intent = .roomOwner → viewer.mode = .fan ∧ viewer.role = .fan) (.api .forbidden)
    ensure (viewer.mode = .fan ∧ viewer.role = .fan ∧ intent = .private_ →
      recipientActorId = room.ownerMemberId) (.api .forbidden)
    if intent = .roomOwner then sendStream db now ids viewer .private_ room.ownerMemberId
    else sendStream db now ids viewer intent recipientActorId

/-- A delegate answers a fan out of the owner's inbox: not the quote's own audience,
but its original author, who can still read it. -/
def checkForwarded (db : Db) (now : Time) (room : Room) (viewer : ActiveMember)
    (input : SendInput) (streamId : Uuid) (quote : MessageRow) : Except Failure Unit := do
  ensure (viewer.temporaryGrantId ≠ none ∧ input.intent = .private_ ∧
    input.recipientActorId = some quote.senderMemberId ∧ quote.deletionRootId = none)
    (.api .notFound)
  let target ← require (target db now room.id quote.senderMemberId) (.api .notFound)
  ensure (target.role = .fan) (.api .notFound)
  let peer ← AccessService.requireActiveMember db true now room.id target.userId
  ensure (readable db now peer quote = true ∧
    quotePair db room.id streamId viewer.id peer.id = true) (.api .notFound)

/-- The quote of a new message is readable by its audience. -/
def checkQuote (db : Db) (now : Time) (room : Room) (viewer : ActiveMember) (input : SendInput)
    (effectiveIntent : Intent) (streamId quoteId : Uuid) : Except Failure Unit := do
  let quote ← require (load db true room.id quoteId) (.api .notFound)
  ensure (readable db now viewer quote = true) (.api .notFound)
  ensure (viewer.mode = .fan ∧ viewer.role = .streamer ∧ effectiveIntent = .private_ →
    room.ownerMemberId = some quote.senderMemberId ∨
      input.recipientActorId = some quote.senderMemberId) (.api .notFound)
  if quote.streamKind ≠ .roomShared ∧ quote.streamId ≠ streamId then
    checkForwarded db now room viewer input streamId quote
  else return ()

/-- The quoted message may be quoted in the stream. -/
def checkQuotes (db : Db) (now : Time) (room : Room) (viewer : ActiveMember) (input : SendInput)
    (streamId : Uuid) : Except Failure Unit :=
  match input.quoteId with
  | none => return ()
  | some quoteId => checkQuote db now room viewer input (effectiveIntent viewer input.intent)
      streamId quoteId

/-- The content of a new message may be sent. -/
def checkContent (db : Db) (now : Time) (roomId userId : Uuid) : SendContent → Except Failure Unit
  | .text _ => return ()
  | .sticker stickerId => StickersCoreService.requireSend db roomId stickerId
  | .photo assetIds _ => (assetIds.insertionSort (· ≤ ·)).forM (checkAsset .photo)
  | .video assetIds _ => (assetIds.insertionSort (· ≤ ·)).forM (checkAsset .video)
where
  checkAsset (kind : MediaKind) (assetId : Uuid) : Except Failure Unit := do
    let declaredBytes ← require (requireAsset db now roomId userId kind assetId) (.api .notFound)
    RoomMediaCoreService.requireRoomMedia db roomId kind declaredBytes

/-- `stickers.attach`, for a sticker message. -/
def attachSticker (db : Db) (roomId messageId : Uuid) (content : SendContent) :
    Except Failure Db :=
  match content with
  | .sticker stickerId => do
    let stickers ← require (db.messageStickers.insert
      { roomId := roomId, messageId := messageId, stickerId := stickerId }) .constraint
    return { db with messageStickers := stickers }
  | .text _ | .photo _ _ | .video _ _ => return db

/-- The rows of a new message: the message, its receipt and its event. -/
def create (db : Db) (now : Time) (ids : Nat → Uuid) (roomId userId : Uuid)
    (viewer : ActiveMember) (input : SendInput) (streamId : Uuid) :
    Except Failure (Db × SendReceipt) := do
  let id := ids 4
  let (db, order) ← RoomStateService.nextOrder db roomId
  checkContent db now roomId userId input.content
  let db ← insertMessage db ids
    (newMessage now id roomId streamId viewer.id userId input.quoteId input.content order)
    input.content
  let db ← attachSticker db roomId id input.content
  let db ← insertReceipt db (ids 5) roomId viewer.id input.clientMessageId id input.payload
  let db ← recordEvent db (ids 6) roomId streamId id 1 order .messageCreated
  return (db, .committed input.clientMessageId id 1)

/-- A command whose receipt exists. -/
def replay (db : Db) (now : Time) (roomId : Uuid) (viewer : ActiveMember) (input : SendInput)
    (receipt : CommandReceipt) : Except Failure SendReceipt :=
  if receipt.deleted then return .deleted input.clientMessageId receipt.messageId
  else do
    ensure (receipt.digestVersion = 1 ∧ receipt.payloadDigest = some input.payload)
      (.api .conflict)
    let previous ← require (load db true roomId receipt.messageId) (.api .notFound)
    ensure (readable db now viewer previous = true) (.api .notFound)
    return .committed input.clientMessageId previous.id previous.version

/-- A command without a receipt. -/
def sendNew (db : Db) (now : Time) (ids : Nat → Uuid) (room : Room) (userId : Uuid)
    (owner : Option RoomSendOwner) (awaitingOwner : Bool) (viewer : ActiveMember)
    (input : SendInput) : Except Failure (Db × SendReceipt) := do
  let (db, streamId) ← resolveStream db now ids room owner awaitingOwner viewer
    (effectiveIntent viewer input.intent) input.recipientActorId
  checkQuotes db now room viewer input streamId
  create db now ids room.id userId viewer input streamId

/-- What a send checks before it looks for its receipt. -/
structure Admission where
  room : Room
  member : RoomMember
  viewer : ActiveMember

/-- The checks of a send, and the receipt of an earlier one. -/
def admitSend (db : Db) (now : Time) (roomId userId : Uuid) (input : SendInput) :
    Except Failure Admission := do
  let room ← require (room db roomId) (.api .notFound)
  let member ← require (member db roomId userId) (.api .notFound)
  ensure (room.status = .active) (.api .notFound)
  let viewer ← AccessService.requireActiveMember db true now roomId userId
  ensure (input.membershipScope = membershipScope userId roomId viewer.activePeriodId)
    (.api .membershipScopeMismatch)
  return { room := room, member := member, viewer := viewer }

/-- A send: a message and its receipt, or the answer the receipt remembers. -/
def send (db : Db) (now : Time) (ids : Nat → Uuid) (roomId userId : Uuid) (input : SendInput) :
    Except Failure (Db × SendReceipt) := do
  let awaitingOwner := decide (input.intent = .roomOwner ∨ input.intent = .shared) &&
    pendingOwner db roomId
  let owner := MembershipRepository.lockRoomSendOwner db roomId
  let admission ← admitSend db now roomId userId input
  match receipt db roomId admission.member.id input.clientMessageId with
  | some receipt => do
    let reply ← replay db now roomId admission.viewer input receipt
    return (db, reply)
  | none => sendNew db now ids admission.room userId owner awaitingOwner admission.viewer input

/-! ## Removing -/

/-- The deletion's event, unless the message was deleted before. -/
def deletionEvent (db : Db) (ids : Nat → Uuid) (roomId : Uuid) (row : Message) :
    Except Failure Db :=
  if row.deletedAt = none then do
    let (db, order) ← nextDeletionOrder db roomId
    recordEvent db (ids 0) roomId row.streamId row.id (row.version + 1) order .messageDeleted
  else return db

/-- `remove`, once it has found the actor's message. -/
def removeRow (db : Db) (now : Time) (ids : Nat → Uuid) (intent : DeletionIntent) (roomId : Uuid)
    (row : Message) : Except Failure Db := do
  let prior := deletionRequest db intent.actorUserId intent.targetId
  ensure (∀ p ∈ prior, p.id = intent.requestId ∧ p.requestedAt = intent.requestedAt)
    (.error "deletion_receipt_conflict")
  let db ← blockMessageAndCopies db now
    { id := intent.requestId, actorUserId := intent.actorUserId, roomId := roomId,
      messageId := intent.targetId, requestedAt := intent.requestedAt } prior.isSome
  let db := (attachedAssets db roomId intent.targetId).foldl (fun db a => blockAsset db now a) db
  deletionEvent db ids roomId row

/-- A deletion commits: message and copies are hidden. -/
def remove (db : Db) (now : Time) (ids : Nat → Uuid) (intent : DeletionIntent) :
    Except Failure (Db × Bool) := do
  ensure (intent.account = false) (.error "unsupported_deletion_scope")
  let roomId ← require intent.roomId (.error "unsupported_deletion_scope")
  match room db roomId, ownedMessage db roomId intent.targetId intent.actorUserId with
  | some _, some row => do
    let db ← removeRow db now ids intent roomId row
    return (db, true)
  | _, _ => return (db, false)

/-! ## Revoked stickers -/

/-- A live message that shows a revoked sticker of this asset. -/
def Invalidated (db : Db) (assetId : Uuid) (m : Message) : Prop :=
  m.contentKind = .sticker ∧ m.moderated = false ∧ m.deletedAt = none ∧
    db.messageStickers.Has fun ms => ms.roomId = m.roomId ∧ ms.messageId = m.id ∧
      db.stickerCatalog.Has fun sc => sc.id = ms.stickerId ∧ sc.assetId = assetId ∧
        sc.status = .revoked

instance (db : Db) (assetId : Uuid) : DecidablePred (Invalidated db assetId) := fun _ =>
  inferInstanceAs (Decidable (_ ∧ _ ∧ _ ∧ _))

/-- The row `moderateSticker` changes. -/
def Moderatable (row m : Message) : Prop :=
  m.roomId = row.roomId ∧ m.id = row.id ∧ m.moderated = false ∧ m.deletedAt = none ∧
    m.contentKind = .sticker

instance (row : Message) : DecidablePred (Moderatable row) := fun _ =>
  inferInstanceAs (Decidable (_ ∧ _ ∧ _ ∧ _ ∧ _))

/-- A message with a revoked sticker is moderated. -/
def moderateSticker (db : Db) (row : Message) : Db :=
  { db with
    messages := db.messages.update (Moderatable row)
      fun m => { m with moderated := true, version := m.version + 1 } }

/-- Moderate the rows one by one, each with its deletion event. -/
def invalidateRows (db : Db) (ids : Nat → Uuid) : List Message → Except Failure Db
  | [] => return db
  | row :: rows => do
    ensure (db.messages.Has (Moderatable row)) (.error "sticker_invalidation_conflict")
    let db := moderateSticker db row
    let (db, order) ← nextDeletionOrder db row.roomId
    let db ← recordEvent db (ids 0) row.roomId row.streamId row.id (row.version + 1) order
      .messageDeleted
    invalidateRows db (fun i => ids (i + 1)) rows

/-- The next message with a revoked sticker is moderated. -/
def invalidateRevokedSticker (db : Db) (ids : Nat → Uuid) (assetId : Uuid) :
    Except Failure (Db × Option Uuid) :=
  match db.messages.first? (Invalidated db assetId)
    fun m n => m.roomId < n.roomId ∨ m.roomId = n.roomId ∧ m.id ≤ n.id with
  | none => return (db, none)
  | some candidate => do
    let _ ← require (room db candidate.roomId) (.error "room_unavailable")
    let rows := (((db.messages.select fun m => m.roomId = candidate.roomId ∧
      Invalidated db assetId m).insertionSort fun m n => m.id ≤ n.id).take 50)
    let db ← invalidateRows db ids rows
    return (db, some ((rows.getLast?.map Message.id).getD candidate.id))

end MessagesCoreService

end Rogichat
