import Rogichat.Chat.Access

/-!
# Who can read a message

The visibility law twice over: `MessagesCoreService.readable`, which loads one
message and decides in TypeScript, and the SQL fragments `MessagesQueryRepository`
filters whole pages with. Sticker messages also need their catalogue entry.

A `LEFT JOIN` is an optional lookup and an inner join an existence over the
joined table; every join is on a primary key, so that it multiplies no rows.
-/

namespace Rogichat

open Lib

/-! ## Stickers -/

namespace MEDIA_LIMITS

def photoBytes : Nat := 10 * 1024 * 1024
def stickerBytes : Nat := 1024 * 1024
def videoBytes : Nat := 50 * 1024 * 1024

end MEDIA_LIMITS

namespace StickersRepository

/-- `serviceAsset`: a published sticker image and its stored objects. -/
def serviceAsset (db : Db) (assetId : Uuid) : List (MediaAsset × MediaObject) :=
  match db.mediaAssets.find? fun a => a.id = assetId ∧ a.kind = .sticker ∧ a.roomId = none ∧
    a.state = .ready ∧ a.deletedAt = none with
  | none => []
  | some a => (db.mediaObjects.select fun o => o.assetId = a.id ∧ o.variant = .image ∧
      o.state = .ready).map fun o => (a, o)

end StickersRepository

structure StickerContent where
  stickerId : Uuid
  assetId : Uuid
  width : Nat
  height : Nat
  deriving DecidableEq, Repr

namespace StickersCoreService

/-- The size limits `asset` enforces. A column without a value counts as zero. -/
def WithinLimits (row : MediaAsset × MediaObject) : Prop :=
  1 ≤ row.2.byteLength.getD 0 ∧ row.2.byteLength.getD 0 ≤ MEDIA_LIMITS.stickerBytes ∧
    row.1.declaredBytes ≤ MEDIA_LIMITS.stickerBytes ∧
    1 ≤ row.2.width.getD 0 ∧ row.2.width.getD 0 ≤ 512 ∧
    1 ≤ row.2.height.getD 0 ∧ row.2.height.getD 0 ≤ 512

instance (row : MediaAsset × MediaObject) : Decidable (WithinLimits row) :=
  inferInstanceAs (Decidable (_ ∧ _ ∧ _ ∧ _ ∧ _ ∧ _ ∧ _))

/-- The published image of a sticker, once. -/
def asset (db : Db) (assetId : Uuid) : Except Failure (MediaAsset × MediaObject) :=
  match StickersRepository.serviceAsset db assetId with
  | [row] => do
    ensure (WithinLimits row) (.api .notFound)
    return row
  | _ => throw (.api .notFound)

/-- The sticker of an id, or `NOT_FOUND`. -/
def catalog (db : Db) (stickerId : Uuid) : Except Failure Sticker :=
  require (db.stickerCatalog.find? fun s => s.id = stickerId) (.api .notFound)

def messageContent (db : Db) (roomId messageId : Uuid) : Except Failure StickerContent := do
  let link ← require (db.messageStickers.find? fun l => l.roomId = roomId ∧
    l.messageId = messageId) (.api .notFound)
  let catalog ← catalog db link.stickerId
  ensure ((catalog.status = .active ∨ catalog.status = .retired) ∧ catalog.approvedAt ≠ none)
    (.api .notFound)
  let (_, object) ← asset db catalog.assetId
  return { stickerId := catalog.id, assetId := catalog.assetId,
           width := object.width.getD 0, height := object.height.getD 0 }

end StickersCoreService

/-! ## Loading a message -/

/-- A message with the facts `load` joins to it. -/
structure MessageRow extends Message where
  senderRole : MemberRole
  senderUserId : Uuid
  streamKind : StreamKind
  roomMode : RoomMode
  ownerMemberId : Option Uuid
  publishedActive : Bool
  nickname : Option String
  contentOwnerStatus : UserStatus
  rootBlocked : Bool
  avatarId : Option Uuid
  deriving DecidableEq, Repr

namespace MessagesRepository

/-- The root of a copy may not be read any more, or is gone. -/
def rootBlocked (db : Db) (m : Message) : Bool :=
  match m.deletionRootId with
  | none => false
  | some id =>
    match db.messages.find? fun root => root.roomId = m.roomId ∧ root.id = id with
    | none => true
    | some root => root.deletedAt.isSome || root.moderated ||
        (db.users.find? fun ru => ru.id = root.contentOwnerUserId).any fun ru => ru.status.leaving

/-- The sender's avatar, while it may be shown. -/
def avatarId (db : Db) (sender : RoomMember) : Option Uuid := do
  let p ← db.userProfiles.find? fun p => p.userId = sender.userId
  let assetId ← p.avatarAssetId
  let av ← db.mediaAssets.find? fun av => av.id = assetId ∧ av.ownerUserId = p.userId ∧
    av.kind = .avatar ∧ av.roomId = none ∧ av.state = .ready ∧ av.deletedAt = none
  let _ ← db.users.find? fun su => su.id = sender.userId ∧ su.status = .active
  return av.id

/-- `load`. A read fills in an empty nickname where a command keeps it missing. -/
def load (db : Db) (writable : Bool) (roomId messageId : Uuid) : Option MessageRow := do
  let m ← db.messages.find? fun m => m.roomId = roomId ∧ m.id = messageId
  let s ← db.messageStreams.find? fun s => s.roomId = m.roomId ∧ s.id = m.streamId
  let r ← db.rooms.find? fun r => r.id = m.roomId
  let sender ← db.roomMembers.find? fun sender => sender.roomId = m.roomId ∧
    sender.id = m.senderMemberId
  let u ← db.users.find? fun u => u.id = m.contentOwnerUserId
  let nickname := (db.userProfiles.find? fun p => p.userId = sender.userId).map UserProfile.nickname
  return { m with
    senderRole := sender.role
    senderUserId := sender.userId
    streamKind := s.kind
    roomMode := r.mode
    ownerMemberId := r.ownerMemberId
    publishedActive := decide (publishedCopySql db m false)
    nickname := if writable then nickname else some (nickname.getD "")
    contentOwnerStatus := u.status
    rootBlocked := rootBlocked db m
    avatarId := avatarId db sender }

/-- A grant that is in force. -/
def Effective (now : Time) (g : StreamGrant) : Prop :=
  g.revokedAt = none ∧ g.validFrom ≤ now ∧ (g.expiresAt.all fun t => now < t) = true

instance (now : Time) : DecidablePred (Effective now) := fun g =>
  inferInstanceAs (Decidable (g.revokedAt = none ∧ _))

/-- The grant of a member in a stream that is in force. -/
def grant (db : Db) (now : Time) (roomId streamId memberId : Uuid) : Option StreamGrant :=
  db.streamGrants.find? fun g => g.roomId = roomId ∧ g.streamId = streamId ∧
    g.memberId = memberId ∧ Effective now g

/-- The rows behind a loaded message. -/
structure Loaded (db : Db) (roomId messageId : Uuid) (row : MessageRow) : Prop where
  message : row.toMessage ∈ db.messages
  roomId_eq : row.roomId = roomId
  id_eq : row.id = messageId
  stream : ∃ s ∈ db.messageStreams, s.roomId = roomId ∧ s.id = row.streamId ∧
    s.kind = row.streamKind
  room : ∃ r ∈ db.rooms, r.id = roomId ∧ r.mode = row.roomMode ∧
    r.ownerMemberId = row.ownerMemberId
  sender : ∃ sender ∈ db.roomMembers, sender.roomId = roomId ∧
    sender.id = row.senderMemberId ∧ sender.role = row.senderRole ∧
    sender.userId = row.senderUserId
  owner : ∃ u ∈ db.users, u.id = row.contentOwnerUserId ∧ u.status = row.contentOwnerStatus
  published : row.publishedActive = decide (publishedCopySql db row.toMessage false)
  root : row.rootBlocked = rootBlocked db row.toMessage

theorem load_some {db : Db} {w : Bool} {roomId messageId : Uuid} {row : MessageRow}
    (h : load db w roomId messageId = some row) : Loaded db roomId messageId row := by
  simp only [load, Option.bind_eq_bind, Option.bind_eq_some_iff, Option.pure_def,
    Option.some.injEq] at h
  obtain ⟨m, hm, s, hs, r, hr, sender, hsender, u, hu, rfl⟩ := h
  have hmessage := Table.holds_of_find? hm
  have hstream := Table.holds_of_find? hs
  have hroom := Table.holds_of_find? hr
  have hsend := Table.holds_of_find? hsender
  have howner := Table.holds_of_find? hu
  exact
    { message := Table.mem_of_find? hm
      roomId_eq := hmessage.1
      id_eq := hmessage.2
      stream := ⟨s, Table.mem_of_find? hs, hstream.1.trans hmessage.1, hstream.2, rfl⟩
      room := ⟨r, Table.mem_of_find? hr, hroom.trans hmessage.1, rfl, rfl⟩
      sender := ⟨sender, Table.mem_of_find? hsender, hsend.1.trans hmessage.1, hsend.2, rfl, rfl⟩
      owner := ⟨u, Table.mem_of_find? hu, howner, rfl⟩
      published := rfl
      root := rfl }

end MessagesRepository

/-! ## Reading one message -/

namespace MessagesCoreService

/-- The actor's facts; the ones the caller checked are `true`. -/
def accessFacts (viewer : ActiveMember) (ownerMemberId : Option Uuid) : AccessFacts :=
  { accountActive := true, chatEnabled := true, roomId := viewer.roomId, roomActive := true,
    memberId := viewer.id, memberRoomId := viewer.roomId, memberActive := true,
    periodActive := true, visibleFrom := viewer.visibleFromOrder, role := viewer.role,
    ownerMemberId := ownerMemberId, delegated := viewer.temporaryGrantId.isSome }

/-- The facts of a row for writing. -/
def messageFacts (row : MessageRow) (grant : Option StreamGrant) : MessageFacts :=
  { roomId := row.roomId, streamId := row.streamId, streamRoomId := row.roomId,
    streamKind := row.streamKind, order := row.createdOrder, deleted := row.deletedAt.isSome,
    moderated := row.moderated,
    deletionRootBlocked := row.rootBlocked || row.contentOwnerStatus.leaving,
    grant := grant.map fun g =>
      { memberId := g.memberId, roomId := g.roomId, streamId := g.streamId, canRead := g.canRead,
        active := true } }

/-- The grant `readable` loads: only a private message has one. -/
def loadedGrant (db : Db) (now : Time) (viewer : ActiveMember) (row : MessageRow) :
    Option StreamGrant :=
  match row.streamKind with
  | .restricted => MessagesRepository.grant db now row.roomId row.streamId viewer.id
  | .roomShared => none

/-- The facts of a row for reading. -/
def readFacts (row : MessageRow) (grant : Option StreamGrant) : ReadFacts :=
  { messageFacts row grant with
    roomMode := row.roomMode
    senderMemberId := row.senderMemberId
    published := row.deletionRootId.isSome
    publicationActive := row.publishedActive }

/-- `readable` before the sticker check. -/
def allowed (db : Db) (now : Time) (viewer : ActiveMember) (row : MessageRow) : Bool :=
  canReadMessage (accessFacts viewer row.ownerMemberId)
    (readFacts row (loadedGrant db now viewer row))

/-- The viewer may read the row. -/
def readable (db : Db) (now : Time) (viewer : ActiveMember) (row : MessageRow) : Bool :=
  if AccessService.actorBlocked db row.roomId viewer.id row.senderMemberId false then false
  else allowed db now viewer row && (row.contentKind != .sticker ||
    match StickersCoreService.messageContent db row.roomId row.id with
      | .ok _ => true
      | .error _ => false)

theorem readable_allowed {db : Db} {now : Time} {viewer : ActiveMember} {row : MessageRow}
    (h : readable db now viewer row = true) : allowed db now viewer row = true := by
  unfold readable at h
  split at h
  · cases h
  · rw [Bool.and_eq_true] at h
    exact h.1

/-- The reasons for reading a message, whatever its stream. -/
structure Available (viewer : ActiveMember) (row : MessageRow) : Prop where
  room : viewer.roomId = row.roomId
  live : row.deletedAt = none
  unmoderated : row.moderated = false
  root : row.rootBlocked = false
  owner : row.contentOwnerStatus.leaving = false
  boundary : viewer.visibleFromOrder ≤ row.createdOrder

theorem available_iff {viewer : ActiveMember} {row : MessageRow} {g : Option StreamGrant} :
    (available (accessFacts viewer row.ownerMemberId) (readFacts row g).toMessageFacts = true ∧
      (accessFacts viewer row.ownerMemberId).visibleFrom ≤ (readFacts row g).order) ↔
      Available viewer row := by
  simp only [available, accessFacts, readFacts, messageFacts, AccessFacts.present,
    Bool.and_eq_true, Bool.not_eq_true', Bool.or_eq_false_iff, beq_iff_eq,
    Option.isSome_eq_false_iff, Option.isNone_iff_eq_none, and_self, and_true, true_and]
  constructor
  · rintro ⟨⟨⟨⟨hroom, hdel⟩, hmod⟩, hroot, howner⟩, horder⟩
    exact ⟨hroom, hdel, hmod, hroot, howner, horder⟩
  · rintro ⟨hroom, hdel, hmod, hroot, howner, horder⟩
    exact ⟨⟨⟨⟨hroom, hdel⟩, hmod⟩, hroot, howner⟩, horder⟩

theorem allowed_available {db : Db} {now : Time} {viewer : ActiveMember} {row : MessageRow}
    (h : allowed db now viewer row = true) : Available viewer row :=
  available_iff.mp (canReadMessage_iff.mp h).1

/-- A private message is read through a delegation or an effective read grant. -/
theorem allowed_restricted {db : Db} {now : Time} {viewer : ActiveMember} {row : MessageRow}
    (hkind : row.streamKind = .restricted) (h : allowed db now viewer row = true) :
    viewer.temporaryGrantId.isSome = true ∨ ∃ g ∈ db.streamGrants, g.roomId = row.roomId ∧
      g.streamId = row.streamId ∧ g.memberId = viewer.id ∧
      MessagesRepository.Effective now g ∧ g.canRead = true := by
  rcases (canReadMessage_iff.mp h).2 with ⟨hshared, -⟩ | ⟨-, hdelegated | hgranted⟩
  · simp only [readFacts, messageFacts, hkind] at hshared
    cases hshared
  · exact .inl hdelegated
  · right
    cases hg : MessagesRepository.grant db now row.roomId row.streamId viewer.id with
    | none => simp [MessageFacts.granted, readFacts, messageFacts, loadedGrant, hkind, hg] at hgranted
    | some g =>
      simp only [MessageFacts.granted, readFacts, messageFacts, loadedGrant, hkind, hg,
        Option.map_some, Option.any_some, Bool.and_eq_true] at hgranted
      have hholds := Table.holds_of_find? hg
      exact ⟨g, Table.mem_of_find? hg, hholds.1, hholds.2.1, hholds.2.2.1, hholds.2.2.2,
        hgranted.1.1.1.2⟩

end MessagesCoreService

/-! ## Reading pages -/

namespace MessagesQueryRepository

/-- The fragment `grant`. -/
def grantSql (db : Db) (now : Time) (m : Message) (actorId : Uuid) : Prop :=
  db.roomMembers.Has fun rm => rm.roomId = m.roomId ∧ rm.id = actorId ∧
    (delegatedMemberSql db now rm ∨ db.streamGrants.Has fun g => g.roomId = m.roomId ∧
      g.streamId = m.streamId ∧ g.memberId = rm.id ∧ g.canRead = true ∧
      MessagesRepository.Effective now g)

instance (db : Db) (now : Time) (m : Message) (actorId : Uuid) :
    Decidable (grantSql db now m actorId) := inferInstanceAs (Decidable (Table.Has _ _))

/-- The fragment `personal`. -/
def personalSql (db : Db) (m : Message) (actorId : Uuid) : Prop :=
  ¬db.actorBlocks.Has fun b => b.roomId = m.roomId ∧ b.blockerActorId = actorId ∧
    b.targetActorId = m.senderMemberId

instance (db : Db) (m : Message) (actorId : Uuid) : Decidable (personalSql db m actorId) :=
  inferInstanceAs (Decidable ¬_)

/-- The fragments `audience` and, with `includeRevoked`, `previouslyVisibleAudience`. -/
def audienceOf (db : Db) (now : Time) (actorId : Uuid) (visibleFrom : Nat) (includeRevoked : Bool)
    (m : Message) (s : MessageStream) (r : Room) : Prop :=
  visibleFrom ≤ m.createdOrder ∧
    (s.kind = .roomShared ∧ fanSharedVisibleSql db m r actorId includeRevoked ∨
      s.kind = .restricted ∧ grantSql db now m actorId)

instance (db : Db) (now : Time) (actorId : Uuid) (visibleFrom : Nat) (b : Bool) (m : Message)
    (s : MessageStream) (r : Room) : Decidable (audienceOf db now actorId visibleFrom b m s r) :=
  inferInstanceAs (Decidable (_ ∧ _))

/-- The fragment `eventAudience`; a deletion may use the former audience. -/
def eventAudienceOf (db : Db) (now : Time) (actorId : Uuid) (visibleFrom : Nat) (e : RoomEvent)
    (m : Message) (s : MessageStream) (r : Room) : Prop :=
  visibleFrom ≤ m.createdOrder ∧
    (s.kind = .roomShared ∧ (fanSharedVisibleSql db m r actorId false ∨
        e.kind = .messageDeleted ∧ m.deletedAt ≠ none ∧ fanSharedVisibleSql db m r actorId true) ∨
      s.kind = .restricted ∧ grantSql db now m actorId)

instance (db : Db) (now : Time) (actorId : Uuid) (visibleFrom : Nat) (e : RoomEvent) (m : Message)
    (s : MessageStream) (r : Room) : Decidable (eventAudienceOf db now actorId visibleFrom e m s r) :=
  inferInstanceAs (Decidable (_ ∧ _))

/-- A message joined to its stream and its room. -/
def Joined (db : Db) (m : Message) (p : MessageStream → Room → Prop) : Prop :=
  db.messageStreams.Has fun s => s.id = m.streamId ∧ s.roomId = m.roomId ∧
    db.rooms.Has fun r => r.id = m.roomId ∧ p s r

instance (db : Db) (m : Message) (p : MessageStream → Room → Prop)
    [∀ s r, Decidable (p s r)] : Decidable (Joined db m p) :=
  inferInstanceAs (Decidable (Table.Has _ _))

/-- `audience` of a message of the database. -/
def audience (db : Db) (now : Time) (actorId : Uuid) (visibleFrom : Nat) (m : Message) : Prop :=
  Joined db m (audienceOf db now actorId visibleFrom false m)

instance (db : Db) (now : Time) (actorId : Uuid) (visibleFrom : Nat) (m : Message) :
    Decidable (audience db now actorId visibleFrom m) := inferInstanceAs (Decidable (Joined _ _ _))

/-- A sticker message whose catalogue entry and image are served. -/
def stickerServed (db : Db) (m : Message) : Prop :=
  db.messageStickers.Has fun ms => ms.roomId = m.roomId ∧ ms.messageId = m.id ∧
    db.stickerCatalog.Has fun sc => sc.id = ms.stickerId ∧
      (sc.status = .active ∨ sc.status = .retired) ∧ sc.approvedAt ≠ none ∧
      db.mediaAssets.Has fun sa => sa.id = sc.assetId ∧ sa.kind = .sticker ∧ sa.roomId = none ∧
        sa.state = .ready ∧ sa.deletedAt = none ∧
        db.mediaObjects.Has fun so => so.assetId = sa.id ∧ so.variant = .image ∧ so.state = .ready

instance (db : Db) (m : Message) : Decidable (stickerServed db m) :=
  inferInstanceAs (Decidable (Table.Has _ _))

/-- The fragment `blocked`. -/
def blocked (db : Db) (m : Message) : Prop :=
  m.deletedAt ≠ none ∨ m.moderated = true ∨
    db.users.Has (fun u => u.id = m.contentOwnerUserId ∧ u.status.leaving = true) ∨
    MessagesRepository.rootBlocked db m = true ∨
    (m.contentKind = .sticker ∧ ¬stickerServed db m)

instance (db : Db) (m : Message) : Decidable (blocked db m) :=
  inferInstanceAs (Decidable (_ ∨ _ ∨ _ ∨ _ ∨ _))

end MessagesQueryRepository

end Rogichat
