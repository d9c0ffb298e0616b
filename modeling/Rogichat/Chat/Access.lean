import Rogichat.Chat.Schema
import Rogichat.Lib.Outcome

/-!
# Membership, delegation and blocks

Who counts as a member of a room and what that member may see, as the access
module decides it. Every check exists in two forms, a TypeScript one over loaded
facts and an SQL one composed into larger queries; both are here, under the
source's names, and the SQL forms are propositions over rows of the database.

A `NULL` in an SQL comparison is not equal to anything, which `some` and `none`
model; every clock of a transaction is the one `now` it is run at.
-/

namespace Rogichat

open Lib

/-! ## Chat entitlement -/

/-- `chatAccountSql`: SOOP, an unexpired reviewer entitlement, or Apple. -/
def chatAccountSql (db : Db) (now : Time) (user : User) : Prop :=
  db.platformSoop.Has (fun s => s.userId = user.id ∧ s.status = .verified) ∨
    (user.reviewerExpiresAt.any fun t => now < t) = true ∨
    db.authIdentities.Has (fun ai => ai.userId = user.id ∧ ai.apple = true ∧
      ai.status = .verified ∧ ai.revokedAt = none)

instance (db : Db) (now : Time) (user : User) : Decidable (chatAccountSql db now user) :=
  inferInstanceAs (Decidable (_ ∨ _ ∨ _))

/-- `chatUser`: an active account with a chat entitlement. -/
def chatUser (db : Db) (now : Time) (user : User) : Prop :=
  user.status = .active ∧ chatAccountSql db now user

instance (db : Db) (now : Time) (user : User) : Decidable (chatUser db now user) :=
  inferInstanceAs (Decidable (_ ∧ _))

/-! ## Delegation -/

/-- `delegatedMemberSql`: a live test grant for the member's active period. -/
def delegatedMemberSql (db : Db) (now : Time) (m : RoomMember) : Prop :=
  db.roomTestGrants.Has (fun dg => dg.roomId = m.roomId ∧ dg.memberId = m.id ∧
      m.activePeriodId = some dg.periodId ∧ dg.revokedAt = none ∧ dg.createdAt ≤ now ∧
      now < dg.expiresAt) ∧
    db.adminCapabilities.Has (fun da => da.userId = m.userId ∧ da.manageTestAccess = true) ∧
    db.users.Has (fun du => du.id = m.userId ∧ du.status = .active)

instance (db : Db) (now : Time) (m : RoomMember) : Decidable (delegatedMemberSql db now m) :=
  inferInstanceAs (Decidable (_ ∧ _ ∧ _))

/-! ## Shared messages of a fan room -/

/-- `publishedCopySql`. -/
def publishedCopySql (db : Db) (m : Message) (includeRevoked : Bool) : Prop :=
  db.messagePublications.Has fun publication => publication.roomId = m.roomId ∧
    publication.publishedMessageId = some m.id ∧
    (publication.state = .published ∨ includeRevoked = true ∧ publication.state = .revoked)

instance (db : Db) (m : Message) (b : Bool) : Decidable (publishedCopySql db m b) :=
  inferInstanceAs (Decidable (Table.Has _ _))

/-- `fanSharedVisibleSql`. -/
def fanSharedVisibleSql (db : Db) (m : Message) (room : Room) (viewerId : Uuid)
    (includeRevoked : Bool) : Prop :=
  room.mode ≠ .fan ∨ m.senderMemberId = viewerId ∨ room.ownerMemberId = some viewerId ∨
    (m.deletionRootId = none ∧ room.ownerMemberId = some m.senderMemberId) ∨
    (m.deletionRootId ≠ none ∧ publishedCopySql db m includeRevoked)

instance (db : Db) (m : Message) (room : Room) (viewerId : Uuid) (b : Bool) :
    Decidable (fanSharedVisibleSql db m room viewerId b) :=
  inferInstanceAs (Decidable (_ ∨ _ ∨ _ ∨ _ ∨ _))

/-- What decides who sees a shared message of a FAN room. -/
structure FanSharedFacts where
  roomMode : RoomMode
  senderMemberId : Uuid
  viewerMemberId : Uuid
  ownerMemberId : Option Uuid
  published : Bool
  publicationActive : Bool

/-- In a FAN room a shared message is seen by its sender and the owner, and by all when the owner
sent or published it. -/
def fanSharedVisible (facts : FanSharedFacts) : Bool :=
  facts.roomMode != .fan || facts.senderMemberId == facts.viewerMemberId ||
    facts.ownerMemberId == some facts.viewerMemberId ||
    (!facts.published && some facts.senderMemberId == facts.ownerMemberId) ||
    (facts.published && facts.publicationActive)

/-! ## The read and publish policies -/

/-- What is known of a member who wants to read or write. -/
structure AccessFacts where
  accountActive : Bool
  chatEnabled : Bool
  roomId : Uuid
  roomActive : Bool
  memberId : Uuid
  memberRoomId : Uuid
  memberActive : Bool
  periodActive : Bool
  visibleFrom : Nat
  role : MemberRole
  ownerMemberId : Option Uuid
  delegated : Bool

/-- What is known of a stream grant. -/
structure GrantFacts where
  memberId : Uuid
  roomId : Uuid
  streamId : Uuid
  canRead : Bool
  active : Bool

/-- What is known of the message. -/
structure MessageFacts where
  roomId : Uuid
  streamId : Uuid
  streamRoomId : Uuid
  streamKind : StreamKind
  order : Nat
  deleted : Bool
  moderated : Bool
  deletionRootBlocked : Bool
  grant : Option GrantFacts

/-- The member may use the room at all. -/
def AccessFacts.present (actor : AccessFacts) : Bool :=
  actor.accountActive && actor.chatEnabled && actor.roomActive && actor.memberActive &&
    actor.periodActive && actor.roomId == actor.memberRoomId

/-- The message is in the member's room and nothing of it is blocked. -/
def available (actor : AccessFacts) (message : MessageFacts) : Bool :=
  actor.present && actor.roomId == message.roomId && message.roomId == message.streamRoomId &&
    !message.deleted && !message.moderated && !message.deletionRootBlocked

/-- The facts only the read policy looks at. -/
structure ReadFacts extends MessageFacts where
  roomMode : RoomMode
  senderMemberId : Uuid
  published : Bool
  publicationActive : Bool

/-- The facts `canReadMessage` hands to `fanSharedVisible`. -/
def ReadFacts.shared (message : ReadFacts) (actor : AccessFacts) : FanSharedFacts :=
  { roomMode := message.roomMode, senderMemberId := message.senderMemberId,
    viewerMemberId := actor.memberId, ownerMemberId := actor.ownerMemberId,
    published := message.published, publicationActive := message.publicationActive }

/-- The message's grant lets this actor read. -/
def MessageFacts.granted (message : MessageFacts) (actor : AccessFacts) : Bool :=
  message.grant.any fun grant => grant.active && grant.canRead &&
    grant.memberId == actor.memberId && grant.roomId == actor.roomId &&
    grant.streamId == message.streamId

/-- The member may read the message. -/
def canReadMessage (actor : AccessFacts) (message : ReadFacts) : Bool :=
  if !available actor message.toMessageFacts || message.order < actor.visibleFrom then false
  else match message.streamKind with
    | .roomShared => fanSharedVisible (message.shared actor)
    | .restricted => actor.delegated || message.granted actor

/-- The member may publish the message. -/
def canPublishSource (actor : AccessFacts) (message : MessageFacts) (legacyFanOriginal : Bool) :
    Bool :=
  available actor message && actor.role == .streamer &&
    (actor.ownerMemberId == some actor.memberId ||
      actor.delegated && decide (actor.visibleFrom ≤ message.order)) &&
    (message.streamKind == .restricted || legacyFanOriginal)

theorem canReadMessage_iff {actor : AccessFacts} {message : ReadFacts} :
    canReadMessage actor message = true ↔
      (available actor message.toMessageFacts = true ∧ actor.visibleFrom ≤ message.order) ∧
        (message.streamKind = .roomShared ∧ fanSharedVisible (message.shared actor) = true ∨
          message.streamKind = .restricted ∧
            (actor.delegated = true ∨ message.granted actor = true)) := by
  unfold canReadMessage
  cases message.streamKind <;> simp

/-! ## Membership -/

/-- An active membership, with the role it has in effect. -/
structure ActiveMember where
  id : Uuid
  roomId : Uuid
  userId : Uuid
  role : MemberRole
  mode : RoomMode
  activePeriodId : Uuid
  visibleFromOrder : Nat
  temporaryGrantId : Option Uuid := none
  temporaryExpiresAt : Option Time := none
  deriving DecidableEq, Repr

/-- The owner a send discovered before it locked the room. -/
structure RoomSendOwner where
  memberId : Uuid
  userId : Uuid
  status : UserStatus
  deriving DecidableEq, Repr

namespace MembershipRepository

/-- `ORDER BY expires_at DESC, id`. -/
def grantOrder (g h : RoomTestGrant) : Prop :=
  h.expiresAt < g.expiresAt ∨ h.expiresAt = g.expiresAt ∧ g.id ≤ h.id

instance : DecidableRel grantOrder := fun g h =>
  inferInstanceAs (Decidable (h.expiresAt < g.expiresAt ∨ h.expiresAt = g.expiresAt ∧ g.id ≤ h.id))

/-- The grants `project` chooses from. A read also requires the account to be
active; a command has checked the account before. -/
def LiveGrant (db : Db) (writable : Bool) (now : Time) (member : ActiveMember)
    (g : RoomTestGrant) : Prop :=
  g.roomId = member.roomId ∧ g.memberId = member.id ∧ g.periodId = member.activePeriodId ∧
    g.revokedAt = none ∧ now < g.expiresAt ∧
    db.adminCapabilities.Has (fun a => a.userId = member.userId ∧ a.manageTestAccess = true) ∧
    (writable = true ∨ db.users.Has (fun u => u.id = member.userId ∧ u.status = .active))

instance (db : Db) (writable : Bool) (now : Time) (member : ActiveMember) :
    DecidablePred (LiveGrant db writable now member) := fun g =>
  inferInstanceAs (Decidable (g.roomId = member.roomId ∧ _))

/-- In a FAN room a fan with a live test grant acts as a streamer until it expires. -/
def project (db : Db) (writable : Bool) (now : Time) (member : ActiveMember) : ActiveMember :=
  if member.mode ≠ .fan ∨ member.role ≠ .fan then member
  else match db.roomTestGrants.first? (LiveGrant db writable now member) grantOrder with
    | none => member
    | some grant => { member with
        role := .streamer, temporaryGrantId := some grant.id,
        temporaryExpiresAt := some grant.expiresAt }

/-- The rows `findActive` joins: the member, its room and its open period. -/
def activeRow (db : Db) (roomId userId : Uuid) : Option (RoomMember × Room × MembershipPeriod) := do
  let m ← db.roomMembers.find? fun m =>
    m.roomId = roomId ∧ m.userId = userId ∧ m.status = .active
  let r ← db.rooms.find? fun r => r.id = m.roomId ∧ r.status = .active
  let p ← db.membershipPeriods.find? fun p => m.activePeriodId = some p.id ∧
    p.roomId = m.roomId ∧ p.memberId = m.id ∧ p.leftAt = none
  return (m, r, p)

/-- The active member of an active account in an active room. -/
def findActive (db : Db) (writable : Bool) (now : Time) (roomId userId : Uuid) :
    Option ActiveMember :=
  (activeRow db roomId userId).map fun (m, r, p) => project db writable now
    { id := m.id, roomId := m.roomId, userId := m.userId, role := m.role, mode := r.mode,
      activePeriodId := p.id, visibleFromOrder := p.visibleFromOrder }

/-- The owner of a room, as a send names it. -/
def lockRoomSendOwner (db : Db) (roomId : Uuid) : Option RoomSendOwner := do
  let room ← db.rooms.find? fun r => r.id = roomId
  let ownerMemberId ← room.ownerMemberId
  let owner ← db.roomMembers.find? fun m => m.id = ownerMemberId ∧ m.roomId = roomId
  let account ← db.users.find? fun u => u.id = owner.userId
  return { memberId := owner.id, userId := owner.userId, status := account.status }

/-- The owner is an active member still. -/
def currentRoomSendOwner (db : Db) (now : Time) (roomId : Uuid) (owner : RoomSendOwner) : Bool :=
  match findActive db true now roomId owner.userId with
  | none => false
  | some member => member.id == owner.memberId && member.role == .streamer

/-- `project` changes a member's role, and only that of a fan in a fan room. -/
theorem project_eq (db : Db) (writable : Bool) (now : Time) (member : ActiveMember) :
    project db writable now member = member ∨
      member.mode = .fan ∧ member.role = .fan ∧ ∃ g ∈ db.roomTestGrants,
        LiveGrant db writable now member g ∧
        project db writable now member = { member with
          role := .streamer, temporaryGrantId := some g.id,
          temporaryExpiresAt := some g.expiresAt } := by
  unfold project
  split
  · exact .inl rfl
  · rename_i hfan
    push Not at hfan
    split
    · exact .inl rfl
    · rename_i g hg
      obtain ⟨hmem, hlive⟩ := Table.first?_some hg
      exact .inr ⟨hfan.1, hfan.2, g, hmem, hlive, rfl⟩

@[simp] theorem project_id (db : Db) (w : Bool) (now : Time) (m : ActiveMember) :
    (project db w now m).id = m.id := by
  rcases project_eq db w now m with h | ⟨-, -, g, -, -, h⟩ <;> rw [h]

@[simp] theorem project_roomId (db : Db) (w : Bool) (now : Time) (m : ActiveMember) :
    (project db w now m).roomId = m.roomId := by
  rcases project_eq db w now m with h | ⟨-, -, g, -, -, h⟩ <;> rw [h]

@[simp] theorem project_mode (db : Db) (w : Bool) (now : Time) (m : ActiveMember) :
    (project db w now m).mode = m.mode := by
  rcases project_eq db w now m with h | ⟨-, -, g, -, -, h⟩ <;> rw [h]

@[simp] theorem project_activePeriodId (db : Db) (w : Bool) (now : Time) (m : ActiveMember) :
    (project db w now m).activePeriodId = m.activePeriodId := by
  rcases project_eq db w now m with h | ⟨-, -, g, -, -, h⟩ <;> rw [h]

@[simp] theorem project_visibleFromOrder (db : Db) (w : Bool) (now : Time) (m : ActiveMember) :
    (project db w now m).visibleFromOrder = m.visibleFromOrder := by
  rcases project_eq db w now m with h | ⟨-, -, g, -, -, h⟩ <;> rw [h]

/-- The rows behind an active membership. -/
structure ActiveRow (db : Db) (roomId userId : Uuid) (m : RoomMember) (r : Room)
    (p : MembershipPeriod) : Prop where
  member : m ∈ db.roomMembers
  room : r ∈ db.rooms
  period : p ∈ db.membershipPeriods
  memberRoom : m.roomId = roomId
  memberUser : m.userId = userId
  memberActive : m.status = .active
  roomId_eq : r.id = roomId
  roomActive : r.status = .active
  points : m.activePeriodId = some p.id
  periodRoom : p.roomId = roomId
  periodMember : p.memberId = m.id
  periodOpen : p.leftAt = none

theorem activeRow_some {db : Db} {roomId userId : Uuid} {m : RoomMember} {r : Room}
    {p : MembershipPeriod} (h : activeRow db roomId userId = some (m, r, p)) :
    ActiveRow db roomId userId m r p := by
  simp only [activeRow, Option.bind_eq_bind, Option.bind_eq_some_iff, Option.pure_def,
    Option.some.injEq, Prod.mk.injEq] at h
  obtain ⟨m', hm, r', hr, p', hp, rfl, rfl, rfl⟩ := h
  have hmem := Table.holds_of_find? hm
  have hroom := Table.holds_of_find? hr
  have hperiod := Table.holds_of_find? hp
  exact
    { member := Table.mem_of_find? hm
      room := Table.mem_of_find? hr
      period := Table.mem_of_find? hp
      memberRoom := hmem.1
      memberUser := hmem.2.1
      memberActive := hmem.2.2
      roomId_eq := hroom.1.trans hmem.1
      roomActive := hroom.2
      points := hperiod.1
      periodRoom := hperiod.2.1.trans hmem.1
      periodMember := hperiod.2.2.1
      periodOpen := hperiod.2.2.2 }

/-- What an active membership is made of. -/
theorem findActive_some {db : Db} {w : Bool} {now : Time} {roomId userId : Uuid}
    {viewer : ActiveMember} (h : findActive db w now roomId userId = some viewer) :
    ∃ m r p, ActiveRow db roomId userId m r p ∧ viewer = project db w now
      { id := m.id, roomId := m.roomId, userId := m.userId, role := m.role, mode := r.mode,
        activePeriodId := p.id, visibleFromOrder := p.visibleFromOrder } := by
  simp only [findActive, Option.map_eq_some_iff] at h
  obtain ⟨⟨m, r, p⟩, hrow, rfl⟩ := h
  exact ⟨m, r, p, activeRow_some hrow, rfl⟩

end MembershipRepository

/-! ## Blocks -/

namespace BlockPolicyRepository

/-- The other member of a private stream. -/
def privateCounterpart (db : Db) (roomId actorId streamId : Uuid) : Option Uuid := do
  let row ← db.streamPairs.find? fun p => p.roomId = roomId ∧ p.streamId = streamId
  if row.leftMemberId = actorId then some row.rightMemberId
  else if row.rightMemberId = actorId then some row.leftMemberId
  else none

/-- Whom the actor has blocked, or who has blocked it as well. -/
def targets (db : Db) (roomId actorId : Uuid) (bilateral : Bool) : List Uuid :=
  (db.actorBlocks.select fun b => b.roomId = roomId ∧
      (b.blockerActorId = actorId ∨ b.targetActorId = actorId ∧ bilateral = true)).map fun b =>
    if b.blockerActorId = actorId then b.targetActorId else b.blockerActorId

end BlockPolicyRepository

namespace AccessService

/-- One member has blocked the other, or either has. -/
def actorBlocked (db : Db) (roomId actorId targetId : Uuid) (bilateral : Bool) : Bool :=
  (BlockPolicyRepository.targets db roomId actorId bilateral).contains targetId

/-- The members of a private stream may not write to each other. -/
def privateInteractionBlocked (db : Db) (roomId actorId streamId : Uuid) : Bool :=
  match BlockPolicyRepository.privateCounterpart db roomId actorId streamId with
  | none => false
  | some counterpart => actorBlocked db roomId actorId counterpart true

/-- The active member, or `NOT_FOUND`. -/
def requireActiveMember (db : Db) (writable : Bool) (now : Time) (roomId userId : Uuid) :
    Except Failure ActiveMember :=
  require (MembershipRepository.findActive db writable now roomId userId) (.api .notFound)

/-- The owner a send to the owner names is there. -/
def requireRoomSendOwner (db : Db) (now : Time) (roomId : Uuid) (ownerMemberId : Option Uuid)
    (owner : Option RoomSendOwner) : Except Failure Unit := do
  let memberId ← require ownerMemberId (.api .notFound)
  let owner ← require owner (.api .notFound)
  ensure (memberId = owner.memberId) (.api .conflict)
  ensure (owner.status.leaving = false ∧
    MembershipRepository.currentRoomSendOwner db now roomId owner = true) (.api .notFound)

end AccessService

end Rogichat
