import Rogichat.Basic
import Rogichat.Lib.Table

/-!
# The chat tables

The rows of `schema.prisma` the chat service reads and writes, each with its
unique indexes, and the database they make up. A row keeps the columns some
modelled function reads or writes; defaults are those of the schema.

* Enumerated columns are inductive types. `content_kind` and the media states are
  texts in the schema and keep a constructor for any other text.
* `payload_digest` is a keyed hash of the command's payload; the model stores the
  payload itself, which is the hash taken to be injective.
* Columns of `BINARY` or free text that are only compared (object keys, provider
  subjects) are identifiers.
-/

namespace Rogichat

open Lib

/-- A key of a unique index: which index of the table, and the column values. -/
abbrev IndexKey := Nat × List Nat

/-! ## Accounts -/

inductive UserStatus
  | active | suspended | deleting | deleted
  deriving DecidableEq, Repr

/-- `status IN ('DELETING','DELETED')`. -/
def UserStatus.leaving : UserStatus → Bool
  | .deleting | .deleted => true
  | .active | .suspended => false

/-- A row of `users`. -/
structure User where
  id : Uuid
  status : UserStatus := .active
  membershipGeneration : Nat := 0
  reviewerExpiresAt : Option Time := none
  deriving DecidableEq, Repr

instance : Row User where
  Key := IndexKey
  decEq := inferInstance
  keys r := [(0, [r.id])]
  keyed _ := List.cons_ne_nil _ _

/-- A row of `user_profiles`. -/
structure UserProfile where
  userId : Uuid
  nickname : String
  avatarAssetId : Option Uuid := none
  deriving DecidableEq, Repr

instance : Row UserProfile where
  Key := IndexKey
  decEq := inferInstance
  keys r := [(0, [r.userId])]
  keyed _ := List.cons_ne_nil _ _

inductive LinkStatus
  | verified | revoked
  deriving DecidableEq, Repr

/-- A row of `platform_soop`. -/
structure PlatformSoop where
  id : Uuid
  userId : Uuid
  providerSubject : Nat
  status : LinkStatus := .verified
  deriving DecidableEq, Repr

instance : Row PlatformSoop where
  Key := IndexKey
  decEq := inferInstance
  keys r := [(0, [r.id]), (1, [r.userId]), (2, [r.providerSubject])]
  keyed _ := List.cons_ne_nil _ _

/-- An external identity. `apple` is `provider='apple'` with Apple's issuer. -/
structure AuthIdentity where
  id : Uuid
  userId : Uuid
  apple : Bool
  status : LinkStatus := .verified
  revokedAt : Option Time := none
  deriving DecidableEq, Repr

instance : Row AuthIdentity where
  Key := IndexKey
  decEq := inferInstance
  keys r := [(0, [r.id])]
  keyed _ := List.cons_ne_nil _ _

/-- A row of `admin_capabilities`. -/
structure AdminCapability where
  userId : Uuid
  manageRooms : Bool := false
  manageStickers : Bool := false
  manageTestAccess : Bool := false
  deriving DecidableEq, Repr

instance : Row AdminCapability where
  Key := IndexKey
  decEq := inferInstance
  keys r := [(0, [r.userId])]
  keyed _ := List.cons_ne_nil _ _

/-- A row of `creator_accounts`. -/
structure CreatorAccount where
  userId : Uuid
  enabled : Bool := false
  deriving DecidableEq, Repr

instance : Row CreatorAccount where
  Key := IndexKey
  decEq := inferInstance
  keys r := [(0, [r.userId])]
  keyed _ := List.cons_ne_nil _ _

/-! ## Rooms and membership -/

/-- In a FAN room the owner speaks to fans; in a GROUP room all members speak to each other. -/
inductive RoomMode
  | fan | group
  deriving DecidableEq, Repr

inductive RoomStatus
  | active | closed
  deriving DecidableEq, Repr

/-- What a new member sees of the past. -/
inductive HistoryPolicy
  | allAvailable | sinceJoin
  deriving DecidableEq, Repr

inductive JoinPolicy
  | openAuthenticated | inviteOnly | approval | password
  deriving DecidableEq, Repr

inductive MemberRole
  | fan | streamer | member
  deriving DecidableEq, Repr

inductive MemberStatus
  | active | left | banned
  deriving DecidableEq, Repr

/-- A row of `rooms`. -/
structure Room where
  id : Uuid
  name : String
  mode : RoomMode
  status : RoomStatus := .active
  policyVersion : Nat := 1
  historyPolicy : HistoryPolicy := .sinceJoin
  joinPolicy : JoinPolicy := .openAuthenticated
  ownerMemberId : Option Uuid := none
  contentEpoch : Nat := 1
  deriving DecidableEq, Repr

instance : Row Room where
  Key := IndexKey
  decEq := inferInstance
  keys r := [(0, [r.id])]
  keyed _ := List.cons_ne_nil _ _

/-- A row of `room_counters`. -/
structure RoomCounter where
  roomId : Uuid
  lastOrder : Nat := 0
  deriving DecidableEq, Repr

instance : Row RoomCounter where
  Key := IndexKey
  decEq := inferInstance
  keys r := [(0, [r.roomId])]
  keyed _ := List.cons_ne_nil _ _

/-- A row of `room_members`. -/
structure RoomMember where
  id : Uuid
  roomId : Uuid
  userId : Uuid
  role : MemberRole
  status : MemberStatus := .active
  activePeriodId : Option Uuid := none
  aclEpoch : Nat := 0
  deriving DecidableEq, Repr

instance : Row RoomMember where
  Key := IndexKey
  decEq := inferInstance
  keys r := [(0, [r.id]), (1, [r.roomId, r.userId])]
  keyed _ := List.cons_ne_nil _ _

/-- A row of `membership_periods`. -/
structure MembershipPeriod where
  id : Uuid
  roomId : Uuid
  memberId : Uuid
  policyVersion : Nat
  historyPolicy : HistoryPolicy
  visibleFromOrder : Nat
  leftAt : Option Time := none
  deriving DecidableEq, Repr

instance : Row MembershipPeriod where
  Key := IndexKey
  decEq := inferInstance
  keys r := [(0, [r.id])]
  keyed _ := List.cons_ne_nil _ _

/-- A temporary delegation of the owner's role for one membership period. -/
structure RoomTestGrant where
  id : Uuid
  roomId : Uuid
  memberId : Uuid
  periodId : Uuid
  requestId : Uuid
  createdAt : Time
  expiresAt : Time
  revokedAt : Option Time := none
  deriving DecidableEq, Repr

instance : Row RoomTestGrant where
  Key := IndexKey
  decEq := inferInstance
  keys r := [(0, [r.id]), (1, [r.memberId, r.requestId])]
  keyed _ := List.cons_ne_nil _ _

/-- A row of `actor_blocks`. -/
structure ActorBlock where
  roomId : Uuid
  blockerActorId : Uuid
  targetActorId : Uuid
  deriving DecidableEq, Repr

instance : Row ActorBlock where
  Key := IndexKey
  decEq := inferInstance
  keys r := [(0, [r.roomId, r.blockerActorId, r.targetActorId])]
  keyed _ := List.cons_ne_nil _ _

/-- The binding of the key `primary`, the only one the service ever writes. -/
structure DefaultRoomBinding where
  roomId : Uuid
  ownerSubject : Option Nat := none
  ownerBound : Bool := false
  deriving DecidableEq, Repr

instance : Row DefaultRoomBinding where
  Key := IndexKey
  decEq := inferInstance
  keys r := [(0, []), (1, [r.roomId])]
  keyed _ := List.cons_ne_nil _ _

/-! ## Streams -/

/-- A stream is the room's or that of two members. -/
inductive StreamKind
  | roomShared | restricted
  deriving DecidableEq, Repr

/-- A row of `message_streams`. -/
structure MessageStream where
  id : Uuid
  roomId : Uuid
  kind : StreamKind
  deriving DecidableEq, Repr

instance : Row MessageStream where
  Key := IndexKey
  decEq := inferInstance
  keys r := [(0, [r.id])]
  keyed _ := List.cons_ne_nil _ _

/-- A row of `stream_grants`. -/
structure StreamGrant where
  id : Uuid
  roomId : Uuid
  streamId : Uuid
  memberId : Uuid
  canRead : Bool := false
  canSend : Bool := false
  validFrom : Time
  expiresAt : Option Time := none
  revokedAt : Option Time := none
  deriving DecidableEq, Repr

instance : Row StreamGrant where
  Key := IndexKey
  decEq := inferInstance
  keys r := [(0, [r.id]), (1, [r.streamId, r.memberId])]
  keyed _ := List.cons_ne_nil _ _

/-- A row of `stream_pairs`. -/
structure StreamPair where
  id : Uuid
  roomId : Uuid
  leftMemberId : Uuid
  rightMemberId : Uuid
  streamId : Uuid
  deriving DecidableEq, Repr

instance : Row StreamPair where
  Key := IndexKey
  decEq := inferInstance
  keys r := [(0, [r.id]), (1, [r.streamId]), (2, [r.roomId, r.leftMemberId, r.rightMemberId])]
  keyed _ := List.cons_ne_nil _ _

/-! ## Messages -/

inductive ContentKind
  | text | sticker | photo | video | other (name : String)
  deriving DecidableEq, Repr

/-- A row of `messages`. -/
structure Message where
  id : Uuid
  roomId : Uuid
  streamId : Uuid
  senderMemberId : Uuid
  contentOwnerUserId : Uuid
  deletionRootId : Option Uuid := none
  quoteId : Option Uuid := none
  contentKind : ContentKind := .text
  textContent : Option String := none
  version : Nat := 1
  contentRevision : Nat := 1
  createdOrder : Nat
  createdAt : Time
  deletedAt : Option Time := none
  moderated : Bool := false
  deriving DecidableEq, Repr

instance : Row Message where
  Key := IndexKey
  decEq := inferInstance
  keys r := [(0, [r.id])]
  keyed _ := List.cons_ne_nil _ _

inductive PublicationState
  | preparing | published | revoked
  deriving DecidableEq, Repr

/-- A row of `message_publications`. -/
structure MessagePublication where
  id : Uuid
  roomId : Uuid
  sourceMessageId : Uuid
  sourceVersion : Nat
  publisherMemberId : Uuid
  publishedMessageId : Option Uuid := none
  state : PublicationState := .preparing
  createdAt : Time
  deriving DecidableEq, Repr

instance : Row MessagePublication where
  Key := IndexKey
  decEq := inferInstance
  keys r := [(0, [r.id]), (1, [r.roomId, r.sourceMessageId, r.sourceVersion])]
  keyed _ := List.cons_ne_nil _ _

/-- A row of `message_attachments`. -/
structure MessageAttachment where
  id : Uuid
  roomId : Uuid
  messageId : Uuid
  assetId : Uuid
  position : Nat
  deriving DecidableEq, Repr

instance : Row MessageAttachment where
  Key := IndexKey
  decEq := inferInstance
  keys r := [(0, [r.id]), (1, [r.roomId, r.messageId, r.position])]
  keyed _ := List.cons_ne_nil _ _

inductive StickerStatus
  | draft | active | retired | revoked
  deriving DecidableEq, Repr

/-- A row of `sticker_catalog`. -/
structure Sticker where
  id : Uuid
  assetId : Uuid
  status : StickerStatus := .draft
  approvedAt : Option Time := none
  deriving DecidableEq, Repr

instance : Row Sticker where
  Key := IndexKey
  decEq := inferInstance
  keys r := [(0, [r.id]), (1, [r.assetId])]
  keyed _ := List.cons_ne_nil _ _

/-- A row of `message_stickers`. -/
structure MessageSticker where
  roomId : Uuid
  messageId : Uuid
  stickerId : Uuid
  deriving DecidableEq, Repr

instance : Row MessageSticker where
  Key := IndexKey
  decEq := inferInstance
  keys r := [(0, [r.roomId, r.messageId])]
  keyed _ := List.cons_ne_nil _ _

/-- A row of `message_reactions`. -/
structure MessageReaction where
  id : Uuid
  roomId : Uuid
  messageId : Uuid
  memberId : Uuid
  emoji : String
  deriving DecidableEq, Repr

instance : Row MessageReaction where
  Key := IndexKey
  decEq := inferInstance
  keys r := [(0, [r.id]), (1, [r.roomId, r.messageId, r.memberId])]
  keyed _ := List.cons_ne_nil _ _

inductive EventKind
  | messageCreated | messageUpdated | messageDeleted
  deriving DecidableEq, Repr

/-- A row of `room_events`. -/
structure RoomEvent where
  id : Uuid
  roomId : Uuid
  streamId : Uuid
  messageId : Uuid
  messageVersion : Nat
  eventOrder : Nat
  kind : EventKind
  deriving DecidableEq, Repr

instance : Row RoomEvent where
  Key := IndexKey
  decEq := inferInstance
  keys r := [(0, [r.id]), (1, [r.roomId, r.eventOrder])]
  keyed _ := List.cons_ne_nil _ _

/-- A row of `deletion_requests`. -/
structure DeletionRequest where
  id : Uuid
  actorUserId : Uuid
  roomId : Uuid
  messageId : Uuid
  requestedAt : Time
  deriving DecidableEq, Repr

instance : Row DeletionRequest where
  Key := IndexKey
  decEq := inferInstance
  keys r := [(0, [r.id]), (1, [r.actorUserId, r.messageId])]
  keyed _ := List.cons_ne_nil _ _

/-! ## Durable deletion -/

/-- An admitted intent of the deletion ledger; `account` is its scope. -/
structure DeletionIntent where
  requestId : Uuid
  actorUserId : Uuid
  account : Bool
  targetId : Uuid
  roomId : Option Uuid
  requestedAt : Time
  blockedAt : Option Time := none
  deriving DecidableEq, Repr

instance : Row DeletionIntent where
  Key := IndexKey
  decEq := inferInstance
  keys r := [(0, [r.requestId])]
  keyed _ := List.cons_ne_nil _ _

inductive ObligationState
  | blocked | purging | other (name : String)
  deriving DecidableEq, Repr

/-- A row of `account_deletion_obligations`. -/
structure AccountDeletionObligation where
  userId : Uuid
  requestId : Uuid
  requestedAt : Time
  blockedAt : Option Time := none
  guardCoverage : Bool := false
  state : ObligationState
  deriving DecidableEq, Repr

instance : Row AccountDeletionObligation where
  Key := IndexKey
  decEq := inferInstance
  keys r := [(0, [r.userId])]
  keyed _ := List.cons_ne_nil _ _

/-- Proof that the rows of one message deletion are gone. -/
structure MessagePurgeCheckpoint where
  requestId : Uuid
  actorUserId : Uuid
  roomId : Uuid
  targetId : Uuid
  requestedAt : Time
  rowsPurgedAt : Option Time := none
  deriving DecidableEq, Repr

instance : Row MessagePurgeCheckpoint where
  Key := IndexKey
  decEq := inferInstance
  keys r := [(0, [r.requestId])]
  keyed _ := List.cons_ne_nil _ _

/-- A row of `account_content_checkpoints`. -/
structure AccountContentCheckpoint where
  requestId : Uuid
  messageId : Uuid
  roomId : Uuid
  deletionRootId : Option Uuid
  contentOwnerUserId : Uuid
  requestedAt : Time
  rowsPurgedAt : Option Time := none
  deriving DecidableEq, Repr

instance : Row AccountContentCheckpoint where
  Key := IndexKey
  decEq := inferInstance
  keys r := [(0, [r.requestId, r.messageId])]
  keyed _ := List.cons_ne_nil _ _

/-! ## Commands -/

/-- The audience a sender asks for. -/
inductive Intent
  | shared | private_ | roomOwner
  deriving DecidableEq, Repr

inductive SendContent
  | text (text : String)
  | photo (assetIds : List Uuid) (caption : Option String)
  | video (assetIds : List Uuid) (caption : Option String)
  | sticker (stickerId : Uuid)
  deriving DecidableEq, Repr

/-- The payload a receipt's digest covers. -/
structure Payload where
  clientMessageId : Uuid
  intent : Intent
  recipientActorId : Option Uuid
  quoteId : Option Uuid
  content : SendContent
  deriving DecidableEq, Repr

/-- A row of `command_receipts`. -/
structure CommandReceipt where
  id : Uuid
  roomId : Uuid
  actorId : Uuid
  clientMessageId : Uuid
  messageId : Uuid
  digestVersion : Nat := 1
  payloadDigest : Option Payload
  deleted : Bool := false
  deriving DecidableEq, Repr

instance : Row CommandReceipt where
  Key := IndexKey
  decEq := inferInstance
  keys r := [(0, [r.id]), (1, [r.roomId, r.actorId, r.clientMessageId])]
  keyed _ := List.cons_ne_nil _ _

/-! ## Media -/

inductive MediaKind
  | photo | avatar | sticker | video
  deriving DecidableEq, Repr

inductive AssetState
  | reserved | uploading | processing | ready | deleting | deleted | other (name : String)
  deriving DecidableEq, Repr

/-- A row of `media_assets`. -/
structure MediaAsset where
  id : Uuid
  ownerUserId : Uuid
  roomId : Option Uuid
  kind : MediaKind
  contentType : String
  state : AssetState := .reserved
  declaredBytes : Nat
  reservedBytes : Nat
  uploadToken : Option Uuid := none
  uploadUntil : Option Time := none
  expiresAt : Time
  createdAt : Time
  deletedAt : Option Time := none
  deriving DecidableEq, Repr

instance : Row MediaAsset where
  Key := IndexKey
  decEq := inferInstance
  keys r := [(0, [r.id])]
  keyed _ := List.cons_ne_nil _ _

inductive ObjectState
  | allocated | stored | ready | deleted
  deriving DecidableEq, Repr

inductive Variant
  | input | image | video | poster
  deriving DecidableEq, Repr

/-- The variants' order as texts: `image < input < poster < video`. -/
def Variant.rank : Variant → Nat
  | .image => 0
  | .input => 1
  | .poster => 2
  | .video => 3

/-- A row of `media_objects`. -/
structure MediaObject where
  id : Uuid
  assetId : Uuid
  attemptId : Uuid
  variant : Variant
  objectKey : Nat
  state : ObjectState := .allocated
  byteLength : Option Nat := none
  sha256 : Option String := none
  width : Option Nat := none
  height : Option Nat := none
  deriving DecidableEq, Repr

instance : Row MediaObject where
  Key := IndexKey
  decEq := inferInstance
  keys r := [(0, [r.id]), (1, [r.objectKey]), (2, [r.assetId, r.attemptId, r.variant.rank])]
  keyed _ := List.cons_ne_nil _ _

/-- A row of `publication_media`. -/
structure PublicationMedia where
  id : Uuid
  roomId : Uuid
  publicationId : Uuid
  position : Nat
  sourceAssetId : Uuid
  sourceObjectId : Uuid
  destinationAssetId : Uuid
  deriving DecidableEq, Repr

instance : Row PublicationMedia where
  Key := IndexKey
  decEq := inferInstance
  keys r := [(0, [r.id]), (1, [r.destinationAssetId]), (2, [r.publicationId, r.position])]
  keyed _ := List.cons_ne_nil _ _

/-- A row of `room_media_policy`. -/
structure RoomMediaPolicy where
  roomId : Uuid
  photoEnabled : Bool := true
  videoEnabled : Bool := true
  stickerEnabled : Bool := true
  photoMaxBytes : Nat := 10485760
  videoMaxBytes : Nat := 52428800
  deriving DecidableEq, Repr

instance : Row RoomMediaPolicy where
  Key := IndexKey
  decEq := inferInstance
  keys r := [(0, [r.roomId])]
  keyed _ := List.cons_ne_nil _ _

/-- The one row `global` of `media_budget`. -/
structure MediaBudget where
  reservedBytes : Nat := 0
  limitBytes : Nat := 10737418240
  deriving DecidableEq, Repr

instance : Row MediaBudget where
  Key := IndexKey
  decEq := inferInstance
  keys _ := [(0, [])]
  keyed _ := List.cons_ne_nil _ _

/-- A row of `media_daily_usage`. -/
structure MediaDailyUsage where
  userId : Uuid
  day : Nat
  inputBytes : Nat := 0
  deriving DecidableEq, Repr

instance : Row MediaDailyUsage where
  Key := IndexKey
  decEq := inferInstance
  keys r := [(0, [r.userId, r.day])]
  keyed _ := List.cons_ne_nil _ _

/-- A row of `media_cleanup_checkpoints`. -/
structure MediaCleanupCheckpoint where
  assetId : Uuid
  objectCursor : Option Uuid := none
  deriving DecidableEq, Repr

instance : Row MediaCleanupCheckpoint where
  Key := IndexKey
  decEq := inferInstance
  keys r := [(0, [r.assetId])]
  keyed _ := List.cons_ne_nil _ _

/-- A row of `media_cleanup_attempts`. -/
structure MediaCleanupAttempt where
  objectId : Uuid
  assetId : Uuid
  attemptId : Uuid
  objectKey : Nat
  writerAcknowledged : Bool := false
  deleteObservedAt : Option Time := none
  deriving DecidableEq, Repr

instance : Row MediaCleanupAttempt where
  Key := IndexKey
  decEq := inferInstance
  keys r := [(0, [r.objectId])]
  keyed _ := List.cons_ne_nil _ _

/-! ## The database -/

structure Db where
  users : Table User := .empty
  userProfiles : Table UserProfile := .empty
  platformSoop : Table PlatformSoop := .empty
  authIdentities : Table AuthIdentity := .empty
  adminCapabilities : Table AdminCapability := .empty
  creatorAccounts : Table CreatorAccount := .empty
  rooms : Table Room := .empty
  roomCounters : Table RoomCounter := .empty
  roomMembers : Table RoomMember := .empty
  membershipPeriods : Table MembershipPeriod := .empty
  roomTestGrants : Table RoomTestGrant := .empty
  actorBlocks : Table ActorBlock := .empty
  defaultRoomBindings : Table DefaultRoomBinding := .empty
  messageStreams : Table MessageStream := .empty
  streamGrants : Table StreamGrant := .empty
  streamPairs : Table StreamPair := .empty
  messages : Table Message := .empty
  messagePublications : Table MessagePublication := .empty
  messageAttachments : Table MessageAttachment := .empty
  stickerCatalog : Table Sticker := .empty
  messageStickers : Table MessageSticker := .empty
  messageReactions : Table MessageReaction := .empty
  roomEvents : Table RoomEvent := .empty
  deletionRequests : Table DeletionRequest := .empty
  deletionIntents : Table DeletionIntent := .empty
  accountDeletionObligations : Table AccountDeletionObligation := .empty
  messagePurgeCheckpoints : Table MessagePurgeCheckpoint := .empty
  accountContentCheckpoints : Table AccountContentCheckpoint := .empty
  commandReceipts : Table CommandReceipt := .empty
  mediaAssets : Table MediaAsset := .empty
  mediaObjects : Table MediaObject := .empty
  publicationMedia : Table PublicationMedia := .empty
  roomMediaPolicy : Table RoomMediaPolicy := .empty
  mediaBudget : Table MediaBudget := .empty
  mediaDailyUsage : Table MediaDailyUsage := .empty
  mediaCleanupCheckpoints : Table MediaCleanupCheckpoint := .empty
  mediaCleanupAttempts : Table MediaCleanupAttempt := .empty

/-! ## The tables by name -/

inductive TableName
  | users | userProfiles | platformSoop | authIdentities | adminCapabilities | creatorAccounts
  | rooms | roomCounters | roomMembers | membershipPeriods | roomTestGrants | actorBlocks
  | defaultRoomBindings | messageStreams | streamGrants | streamPairs | messages
  | messagePublications | messageAttachments | stickerCatalog | messageStickers
  | messageReactions | roomEvents | deletionRequests | deletionIntents
  | accountDeletionObligations | messagePurgeCheckpoints | accountContentCheckpoints
  | commandReceipts | mediaAssets | mediaObjects | publicationMedia | roomMediaPolicy
  | mediaBudget | mediaDailyUsage | mediaCleanupCheckpoints | mediaCleanupAttempts
  deriving DecidableEq, Repr

/-- The rows a table holds. -/
def TableName.Rows : TableName → Type
  | .users => Table User
  | .userProfiles => Table UserProfile
  | .platformSoop => Table PlatformSoop
  | .authIdentities => Table AuthIdentity
  | .adminCapabilities => Table AdminCapability
  | .creatorAccounts => Table CreatorAccount
  | .rooms => Table Room
  | .roomCounters => Table RoomCounter
  | .roomMembers => Table RoomMember
  | .membershipPeriods => Table MembershipPeriod
  | .roomTestGrants => Table RoomTestGrant
  | .actorBlocks => Table ActorBlock
  | .defaultRoomBindings => Table DefaultRoomBinding
  | .messageStreams => Table MessageStream
  | .streamGrants => Table StreamGrant
  | .streamPairs => Table StreamPair
  | .messages => Table Message
  | .messagePublications => Table MessagePublication
  | .messageAttachments => Table MessageAttachment
  | .stickerCatalog => Table Sticker
  | .messageStickers => Table MessageSticker
  | .messageReactions => Table MessageReaction
  | .roomEvents => Table RoomEvent
  | .deletionRequests => Table DeletionRequest
  | .deletionIntents => Table DeletionIntent
  | .accountDeletionObligations => Table AccountDeletionObligation
  | .messagePurgeCheckpoints => Table MessagePurgeCheckpoint
  | .accountContentCheckpoints => Table AccountContentCheckpoint
  | .commandReceipts => Table CommandReceipt
  | .mediaAssets => Table MediaAsset
  | .mediaObjects => Table MediaObject
  | .publicationMedia => Table PublicationMedia
  | .roomMediaPolicy => Table RoomMediaPolicy
  | .mediaBudget => Table MediaBudget
  | .mediaDailyUsage => Table MediaDailyUsage
  | .mediaCleanupCheckpoints => Table MediaCleanupCheckpoint
  | .mediaCleanupAttempts => Table MediaCleanupAttempt

/-- A table of the database. -/
def Db.table : (t : TableName) → Db → t.Rows
  | .users, db => db.users
  | .userProfiles, db => db.userProfiles
  | .platformSoop, db => db.platformSoop
  | .authIdentities, db => db.authIdentities
  | .adminCapabilities, db => db.adminCapabilities
  | .creatorAccounts, db => db.creatorAccounts
  | .rooms, db => db.rooms
  | .roomCounters, db => db.roomCounters
  | .roomMembers, db => db.roomMembers
  | .membershipPeriods, db => db.membershipPeriods
  | .roomTestGrants, db => db.roomTestGrants
  | .actorBlocks, db => db.actorBlocks
  | .defaultRoomBindings, db => db.defaultRoomBindings
  | .messageStreams, db => db.messageStreams
  | .streamGrants, db => db.streamGrants
  | .streamPairs, db => db.streamPairs
  | .messages, db => db.messages
  | .messagePublications, db => db.messagePublications
  | .messageAttachments, db => db.messageAttachments
  | .stickerCatalog, db => db.stickerCatalog
  | .messageStickers, db => db.messageStickers
  | .messageReactions, db => db.messageReactions
  | .roomEvents, db => db.roomEvents
  | .deletionRequests, db => db.deletionRequests
  | .deletionIntents, db => db.deletionIntents
  | .accountDeletionObligations, db => db.accountDeletionObligations
  | .messagePurgeCheckpoints, db => db.messagePurgeCheckpoints
  | .accountContentCheckpoints, db => db.accountContentCheckpoints
  | .commandReceipts, db => db.commandReceipts
  | .mediaAssets, db => db.mediaAssets
  | .mediaObjects, db => db.mediaObjects
  | .publicationMedia, db => db.publicationMedia
  | .roomMediaPolicy, db => db.roomMediaPolicy
  | .mediaBudget, db => db.mediaBudget
  | .mediaDailyUsage, db => db.mediaDailyUsage
  | .mediaCleanupCheckpoints, db => db.mediaCleanupCheckpoints
  | .mediaCleanupAttempts, db => db.mediaCleanupAttempts

/-! ## Errors -/

/-- The codes of `ApiError`, each with one HTTP status. -/
inductive ApiErrorCode
  | notFound | forbidden | conflict | invalidRequest | membershipScopeMismatch
  | rateLimited | mediaCapacity | mediaState | invalidMediaIntent | mediaForbidden
  deriving DecidableEq, Repr

/-- How a transaction stops. -/
inductive Failure
  /-- An `ApiError`. -/
  | api (code : ApiErrorCode)
  /-- A `JobFailure`; `terminal` failures are not retried. -/
  | job (code : String) (terminal : Bool)
  /-- Any other thrown error, by its message. -/
  | error (message : String)
  /-- `ServiceUnavailableException`. -/
  | unavailable
  /-- A unique index or a foreign key the database refused. -/
  | constraint
  /-- The worker's lease is gone, and the transaction rolls back. -/
  | staleLease
  deriving DecidableEq, Repr

end Rogichat
