import Mathlib.Data.Prod.Lex
import Mathlib.Data.String.Basic
import Rogichat.Chat.Visibility
import Rogichat.Lib.Keyed

/-!
# What a reader is sent of a message

`projectMessageDto` builds the answer from a read model without spreading a row, so that
nothing else of the database gets into it. The hints beside a message, whom a reply goes to
and which actions are offered, and its reactions are read in batches, once for a page.

The instant of `createdAt` stands for its ISO text.
-/

namespace Rogichat

open Lib

/-! ## The answer -/

namespace MessageDto

inductive Audience
  | shared | private_
  deriving DecidableEq, Repr

inductive Author
  | anonymous
  | member (actorId : Uuid) (nickname : String) (avatar : Option Uuid)
  deriving DecidableEq, Repr

structure Attachment where
  assetId : Uuid
  width : Nat
  height : Nat
  variant : Variant
  deriving DecidableEq, Repr

inductive Content
  | text (text : Option String)
  | photo (attachments : List Attachment) (caption : Option String)
  | video (attachments : List Attachment) (caption : Option String)
  | sticker (sticker : StickerContent)
  deriving DecidableEq, Repr

/-- What the viewer may do with a message. -/
structure AllowedActions where
  reply : Bool := false
  publish : Bool := false
  delete : Bool := false
  deriving DecidableEq, Repr

structure Reactions where
  counts : List (String × Nat)
  mine : Option String
  deriving DecidableEq, Repr

structure Quote where
  id : Uuid
  authorName : String
  text : Option String
  deriving DecidableEq, Repr

end MessageDto

/-- A message as the viewer sees it. -/
structure MessageDto where
  id : Uuid
  version : Nat
  createdAt : Time
  audience : MessageDto.Audience
  author : MessageDto.Author
  content : MessageDto.Content
  counterpart : Option Uuid
  allowedActions : MessageDto.AllowedActions
  reactions : MessageDto.Reactions
  quote : Option MessageDto.Quote
  deriving DecidableEq, Repr

/-- The name shown for an author without one. -/
def unnamed : String := "사용자"

/-- The name shown for the author of a published copy. -/
def published : String := "공개된 메시지"

namespace MessageReadModel

inductive Author
  | anonymous
  | member (actorId : Uuid) (nickname : Option String) (avatar : Option Uuid)
  deriving DecidableEq, Repr

structure Quote where
  id : Uuid
  authorName : Option String
  text : Option String
  deriving DecidableEq, Repr

end MessageReadModel

/-- `counterpart` and `allowedActions` of a read model. -/
structure MessageEligibility where
  counterpart : Option Uuid := none
  allowedActions : MessageDto.AllowedActions := {}
  deriving DecidableEq, Repr

/-- A message before it is projected. -/
structure MessageReadModel extends MessageEligibility where
  id : Uuid
  version : Nat
  createdAt : Time
  audience : MessageDto.Audience
  author : MessageReadModel.Author
  content : MessageDto.Content
  reactions : Option MessageDto.Reactions
  quote : Option MessageReadModel.Quote
  deriving DecidableEq, Repr

/-- `name || '사용자'`: an empty name counts as none. -/
def nameOr (name : Option String) : String :=
  match name with
  | none => unnamed
  | some name => if name = "" then unnamed else name

/-- A message without what its viewer is not told. -/
def projectMessageDto (model : MessageReadModel) : MessageDto :=
  { id := model.id
    version := model.version
    createdAt := model.createdAt
    audience := model.audience
    author := match model.author with
      | .anonymous => .anonymous
      | .member actorId nickname avatar => .member actorId (nickname.getD unnamed) avatar
    content := model.content
    counterpart := model.counterpart
    allowedActions := model.allowedActions
    reactions := model.reactions.getD { counts := [], mine := none }
    quote := model.quote.map fun q => { id := q.id, authorName := nameOr q.authorName,
                                         text := q.text } }

/-- The audience label of a message. -/
def audienceLabel (kind : StreamKind) (mode : RoomMode) (deletionRootId : Option Uuid)
    (publishedActive : Bool) (senderMemberId : Uuid) (ownerMemberId : Option Uuid) :
    MessageDto.Audience :=
  if kind = .roomShared ∧ (mode ≠ .fan ∨ deletionRootId ≠ none ∧ publishedActive = true ∨
      deletionRootId = none ∧ some senderMemberId = ownerMemberId) then .shared
  else .private_

/-! ## Reactions -/

namespace MessagesQueryRepository

/-- The reactions counted: those of members whose account is not leaving and whom the
viewer has not blocked. -/
def Counted (db : Db) (roomId : Uuid) (ids blockedActors : List Uuid) (r : MessageReaction) :
    Prop :=
  r.roomId = roomId ∧ r.messageId ∈ ids ∧ r.memberId ∉ blockedActors ∧
    db.roomMembers.Has fun m => m.id = r.memberId ∧ m.roomId = r.roomId ∧
      db.users.Has fun u => u.id = m.userId ∧ u.status.leaving = false

instance (db : Db) (roomId : Uuid) (ids blockedActors : List Uuid) :
    DecidablePred (Counted db roomId ids blockedActors) := fun r =>
  inferInstanceAs (Decidable (r.roomId = roomId ∧ _))

/-- `GROUP BY r.message_id, BINARY r.emoji ORDER BY` the same: the groups and their sizes. -/
def reactionGroups (db : Db) (roomId : Uuid) (ids blockedActors : List Uuid) :
    List (Uuid × String × Nat) :=
  let rows := (db.messageReactions.select (Counted db roomId ids blockedActors)).map fun r =>
    (r.messageId, r.emoji)
  (rows.dedup.insertionSort fun a b => toLex a ≤ toLex b).map fun g =>
    (g.1, g.2, rows.count g)

/-- The member's own reaction to a message. -/
def mine (db : Db) (roomId memberId messageId : Uuid) : Option String :=
  (db.messageReactions.find? fun r => r.roomId = roomId ∧ r.messageId = messageId ∧
      r.memberId = memberId ∧ db.roomMembers.Has fun m => m.id = r.memberId ∧
        m.roomId = r.roomId ∧ db.users.Has fun u => u.id = m.userId ∧
          u.status.leaving = false).map MessageReaction.emoji

/-- The reactions of some messages, without those of blocked actors. -/
def reactions (db : Db) (roomId memberId : Uuid) (ids blockedActors : List Uuid) :
    List (Uuid × MessageDto.Reactions) :=
  Keyed.ofList Prod.fst (ids.map fun id => (id,
    { counts := (reactionGroups db roomId ids blockedActors).filterMap fun g =>
        if g.1 = id then some g.2 else none
      mine := mine db roomId memberId id }))

end MessagesQueryRepository

/-! ## Hints -/

namespace MessageEligibilityRepository

/-- The blocks that concern a member. -/
def blocks (db : Db) (roomId actorId : Uuid) : List ActorBlock :=
  db.actorBlocks.select fun b => b.roomId = roomId ∧
    (b.blockerActorId = actorId ∨ b.targetActorId = actorId)

/-- A message with its sender and its stream. -/
structure EligibleFacts where
  id : Uuid
  senderMemberId : Uuid
  deletionRootId : Option Uuid
  contentKind : ContentKind
  textContent : Option String
  senderUserId : Uuid
  senderRole : MemberRole
  stream : MessageStream
  pair : Option StreamPair
  deriving DecidableEq, Repr

/-- What decides what the viewer may do with a message. -/
def factsOf (db : Db) (m : Message) : Option EligibleFacts := do
  let sender ← db.roomMembers.find? fun s => s.roomId = m.roomId ∧ s.id = m.senderMemberId
  let stream ← db.messageStreams.find? fun s => s.roomId = m.roomId ∧ s.id = m.streamId
  return { id := m.id, senderMemberId := m.senderMemberId, deletionRootId := m.deletionRootId,
           contentKind := m.contentKind, textContent := m.textContent,
           senderUserId := sender.userId, senderRole := sender.role, stream := stream,
           pair := db.streamPairs.find? fun p => p.roomId = stream.roomId ∧
             p.streamId = stream.id }

def messages (db : Db) (roomId : Uuid) (ids : List Uuid) : List EligibleFacts :=
  (db.messages.select fun m => m.roomId = roomId ∧ m.id ∈ ids).filterMap (factsOf db)

/-- An active member entitled to chat, with its open period and its room. -/
structure Member where
  id : Uuid
  userId : Uuid
  role : MemberRole
  activePeriodId : Uuid
  periodMemberId : Uuid
  visibleFromOrder : Nat
  mode : RoomMode
  ownerMemberId : Option Uuid
  delegated : Bool := false
  deriving DecidableEq, Repr

/-- A member of an active room. -/
def memberOf (db : Db) (now : Time) (m : RoomMember) : Option Member := do
  let room ← db.rooms.find? fun r => r.id = m.roomId ∧ r.status = .active
  let _ ← db.users.find? fun u => u.id = m.userId ∧ chatUser db now u
  let period ← db.membershipPeriods.find? fun p => m.activePeriodId = some p.id ∧
    p.roomId = m.roomId ∧ p.memberId = m.id ∧ p.leftAt = none
  return { id := m.id, userId := m.userId, role := m.role, activePeriodId := period.id,
           periodMemberId := period.memberId, visibleFromOrder := period.visibleFromOrder,
           mode := room.mode, ownerMemberId := room.ownerMemberId }

/-- The live delegations of one of the members found, as a fan of a fan room. -/
def Delegation (db : Db) (now : Time) (roomId : Uuid) (rows : List Member) (g : RoomTestGrant) :
    Prop :=
  g.roomId = roomId ∧ g.revokedAt = none ∧ now < g.expiresAt ∧
    (∃ row ∈ rows, g.memberId = row.id ∧ g.periodId = row.activePeriodId) ∧
    db.roomMembers.Has fun m => m.roomId = g.roomId ∧ m.id = g.memberId ∧ m.role = .fan ∧
      (db.rooms.Has fun r => r.id = m.roomId ∧ r.mode = .fan) ∧
      db.adminCapabilities.Has fun a => a.userId = m.userId ∧ a.manageTestAccess = true

instance (db : Db) (now : Time) (roomId : Uuid) (rows : List Member) :
    DecidablePred (Delegation db now roomId rows) := fun g =>
  inferInstanceAs (Decidable (g.roomId = roomId ∧ _))

/-- The members the facts name. -/
def members (db : Db) (now : Time) (roomId : Uuid) (ids : List Uuid) :
    Except Failure (List Member) := do
  let rows := (db.roomMembers.select fun m => m.roomId = roomId ∧ m.id ∈ ids ∧
    m.status = .active).filterMap (memberOf db now)
  let grants := db.roomTestGrants.select (Delegation db now roomId rows)
  ensure (grants.length ≤ 10000) .unavailable
  return rows.map fun row => if row.id ∈ grants.map RoomTestGrant.memberId then
    { row with role := .streamer, delegated := true } else row

/-- The private streams the viewer shares with the targets. -/
def pairs (db : Db) (roomId viewerId : Uuid) (targets : List Uuid) : List StreamPair :=
  db.streamPairs.select fun p => p.roomId = roomId ∧
    (db.messageStreams.Has fun s => s.id = p.streamId ∧ s.roomId = roomId ∧
      s.kind = .restricted) ∧
    (p.leftMemberId = viewerId ∧ p.rightMemberId ∈ targets ∨
      p.rightMemberId = viewerId ∧ p.leftMemberId ∈ targets)

def grants (db : Db) (now : Time) (roomId : Uuid) (streamIds members : List Uuid) :
    List StreamGrant :=
  db.streamGrants.select fun g => g.roomId = roomId ∧ g.streamId ∈ streamIds ∧
    g.memberId ∈ members ∧ MessagesRepository.Effective now g

end MessageEligibilityRepository

/-- A random UUID: its version is 4 and its variant that of the standard. -/
def actorUuid (id : Uuid) : Bool :=
  decide (id < 2 ^ 128 ∧ id / 2 ^ 76 % 16 = 4 ∧ id / 2 ^ 62 % 4 = 2)

namespace MessageEligibilityService

open MessageEligibilityRepository

/-- The viewer among the members found, while its membership is the one it was read with. -/
def currentOf (viewer : ActiveMember) (members : List Member) : Option Member :=
  members.find? fun member => member.id = viewer.id ∧ member.userId = viewer.userId ∧
    member.activePeriodId = viewer.activePeriodId ∧ member.periodMemberId = viewer.id ∧
    member.visibleFromOrder = viewer.visibleFromOrder

/-- What the hints of a batch are decided on. -/
structure Batch where
  blocked : List Uuid
  members : List Member
  current : Option Member
  pairs : List StreamPair
  grants : List StreamGrant

/-- Whom a hint of the message may name. -/
def targetIds (viewer : ActiveMember) (messages : List EligibleFacts) : List Uuid :=
  (messages.flatMap fun message =>
    if message.deletionRootId ≠ none then []
    else if message.stream.kind = .roomShared ∨ viewer.temporaryGrantId ≠ none then
      [message.senderMemberId]
    else match message.pair with
      | none => []
      | some pair => [pair.leftMemberId, pair.rightMemberId]).filter fun id => id ≠ viewer.id

/-- The reads a batch begins with. -/
def batch (db : Db) (now : Time) (viewer : ActiveMember) (targets : List Uuid) :
    Except Failure Batch := do
  let blocks := MessageEligibilityRepository.blocks db viewer.roomId viewer.id
  let members ← members db now viewer.roomId (viewer.id :: targets)
  let current := currentOf viewer members
  let pairs := if current.isSome then pairs db viewer.roomId viewer.id targets else []
  let grants := if pairs ≠ [] then
    grants db now viewer.roomId (pairs.map StreamPair.streamId) (viewer.id :: targets) else []
  return { blocked := blocks.map fun b =>
             if b.blockerActorId = viewer.id then b.targetActorId else b.blockerActorId
           members := members, current := current, pairs := pairs, grants := grants }

/-- The grants of an existing pair let the two write to each other. -/
def paired (b : Batch) (viewer : ActiveMember) (current target : Member) (pair : StreamPair) :
    Bool :=
  let ownGrant := b.grants.find? fun g => g.streamId = pair.streamId ∧ g.memberId = viewer.id
  let peerGrant := b.grants.find? fun g => g.streamId = pair.streamId ∧ g.memberId = target.id
  (ownGrant.any fun own => current.delegated || own.canRead && own.canSend) &&
    peerGrant.any fun peer => target.delegated || peer.canRead

/-- The viewer may write to the target. -/
def eligibleTarget (b : Batch) (viewer : ActiveMember) (targetId : Uuid)
    (requiredStream : Option Uuid) : Bool :=
  match b.current, b.members.find? fun member => member.id = targetId ∧
      member.periodMemberId = targetId with
  | some current, some target =>
    decide (targetId ∉ b.blocked ∧ targetId ≠ viewer.id ∧ actorUuid targetId = true ∧
      (current.mode = .fan → (current.role = .fan ∧ target.role = .streamer ∨
        current.role = .streamer ∧ target.role = .fan)) ∧
      (current.mode = .fan ∧ current.role = .fan → some target.id = current.ownerMemberId)) &&
    match b.pairs.find? fun p => p.leftMemberId = viewer.id ∧ p.rightMemberId = targetId ∨
        p.rightMemberId = viewer.id ∧ p.leftMemberId = targetId with
    | none => requiredStream == none
    | some pair => (requiredStream.all fun stream => pair.streamId = stream) &&
      paired b viewer current target pair
  | _, _ => false

/-- Whom a reply to the message goes to, and whether it is offered. -/
def reply (b : Batch) (viewer : ActiveMember) (message : EligibleFacts) : Option Uuid × Bool :=
  if message.deletionRootId ≠ none ∨ message.stream.roomId ≠ viewer.roomId then (none, false)
  else if message.stream.kind = .roomShared then
    (none, eligibleTarget b viewer message.senderMemberId none)
  else if viewer.temporaryGrantId ≠ none ∧ message.senderMemberId ≠ viewer.id ∧
      eligibleTarget b viewer message.senderMemberId none = true then
    (some message.senderMemberId, true)
  else match message.pair with
    | none => (none, false)
    | some pair =>
      if pair.roomId = viewer.roomId ∧ pair.streamId = message.stream.id ∧
          (pair.leftMemberId = message.senderMemberId ∨
            pair.rightMemberId = message.senderMemberId) then
        let opposite := if pair.leftMemberId = viewer.id then some pair.rightMemberId
          else if pair.rightMemberId = viewer.id then some pair.leftMemberId else none
        match opposite with
        | none => (none, false)
        | some opposite =>
          if eligibleTarget b viewer opposite (some message.stream.id) = true then
            (some opposite, true)
          else (none, false)
      else (none, false)

/-- What the viewer may do with one message. -/
def hints (b : Batch) (viewer : ActiveMember) (message : EligibleFacts) : MessageEligibility :=
  let (counterpart, reply) := reply b viewer message
  { counterpart := counterpart
    allowedActions :=
      { reply := reply
        delete := decide (message.senderUserId = viewer.userId)
        publish := b.current.any fun current => decide (current.role = .streamer ∧
          (current.ownerMemberId = some viewer.id ∨ viewer.temporaryGrantId ≠ none) ∧
          (message.stream.kind = .restricted ∨
            current.mode = .fan ∧ message.stream.kind = .roomShared) ∧
          message.senderRole = .fan ∧ message.deletionRootId = none ∧
          (message.contentKind = .photo ∨
            message.contentKind = .text ∧ message.textContent ≠ none)) } }

/-- What the viewer may do with some messages. -/
def project (db : Db) (now : Time) (viewer : ActiveMember) (ids : List Uuid) :
    Except Failure (List (Uuid × MessageEligibility)) := do
  let result := Keyed.ofList Prod.fst (ids.map fun id => (id, ({} : MessageEligibility)))
  if ids = [] then return result
  let messages := messages db viewer.roomId ids
  let b ← batch db now viewer (targetIds viewer messages)
  return messages.foldl (fun result message =>
    Keyed.set Prod.fst result (message.id, hints b viewer message)) result

end MessageEligibilityService

end Rogichat
