import Rogichat.Chat.Access

/-!
# Room commands

The transactions that create rooms and open, close and re-point membership
periods: joining and leaving, moderation, the history policy, and the default
room with its owner. Each command takes the database, the transaction's clock
where it reads one, and `ids`, the values its `randomUUID` calls return in the
order of the source; it returns the database it commits. `FOR UPDATE` reads are
plain reads, because a transaction that holds its locks runs alone.
-/

namespace Rogichat

open Lib

/-! ## Room state -/

namespace RoomStateRepository

def insertRoom (db : Db) (id : Uuid) (name : String) (mode : RoomMode) : Except Failure Db := do
  let rooms ← require (db.rooms.insert { id := id, name := name, mode := mode }) .constraint
  return { db with rooms := rooms }

/-- The room's order starts at zero. -/
def insertCounter (db : Db) (roomId : Uuid) : Except Failure Db := do
  let counters ← require (db.roomCounters.insert { roomId := roomId }) .constraint
  return { db with roomCounters := counters }

def insertSharedStream (db : Db) (id roomId : Uuid) (kind : StreamKind) : Except Failure Db := do
  let streams ← require
    (db.messageStreams.insert { id := id, roomId := roomId, kind := kind }) .constraint
  return { db with messageStreams := streams }

/-- A room starts with its policy. -/
def initialPolicy (db : Db) (roomId : Uuid) (policy : HistoryPolicy) : Db :=
  { db with
    rooms := db.rooms.update (fun r => r.id = roomId)
      fun r => { r with historyPolicy := policy } }

def assignOwner (db : Db) (roomId actorId : Uuid) : Db :=
  { db with
    roomMembers := db.roomMembers.update (fun m => m.id = actorId)
      fun m => { m with role := .streamer }
    rooms := db.rooms.update (fun r => r.id = roomId)
      fun r => { r with ownerMemberId := some actorId } }

/-- The room's order moves. -/
def advanceOrder (db : Db) (order : Nat) (roomId : Uuid) : Db :=
  { db with
    roomCounters := db.roomCounters.update (fun c => c.roomId = roomId)
      fun c => { c with lastOrder := order } }

def member (db : Db) (roomId userId : Uuid) : Option RoomMember :=
  db.roomMembers.find? fun m => m.roomId = roomId ∧ m.userId = userId

def insertMember (db : Db) (id roomId userId : Uuid) (role : MemberRole) : Except Failure Db := do
  ensure (db.users.Has fun u => u.id = userId) .constraint
  let members ← require
    (db.roomMembers.insert { id := id, roomId := roomId, userId := userId, role := role })
    .constraint
  return { db with roomMembers := members }

/-- A new membership period, visible from its boundary. -/
def insertPeriod (db : Db) (id roomId memberId : Uuid) (policyVersion : Nat)
    (history : HistoryPolicy) (boundary : Nat) : Except Failure Db := do
  let periods ← require (db.membershipPeriods.insert
    { id := id, roomId := roomId, memberId := memberId, policyVersion := policyVersion,
      historyPolicy := history, visibleFromOrder := boundary }) .constraint
  return { db with membershipPeriods := periods }

/-- The member is active in the period. -/
def activate (db : Db) (periodId memberId : Uuid) : Db :=
  { db with
    roomMembers := db.roomMembers.update (fun m => m.id = memberId) fun m =>
      { m with status := .active, activePeriodId := some periodId, aclEpoch := m.aclEpoch + 1 } }

def advanceMembership (db : Db) (userId : Uuid) : Db :=
  { db with
    users := db.users.update (fun u => u.id = userId)
      fun u => { u with membershipGeneration := u.membershipGeneration + 1 } }

/-- A period ends. -/
def closePeriod (db : Db) (now : Time) (periodId : Option Uuid) : Db :=
  { db with
    membershipPeriods := db.membershipPeriods.update
      (fun p => periodId = some p.id ∧ p.leftAt = none) fun p => { p with leftAt := some now } }

/-- The member is no longer active. -/
def leave (db : Db) (now : Time) (memberId : Uuid) : Db :=
  { db with
    roomTestGrants := db.roomTestGrants.update
      (fun g => g.memberId = memberId ∧ g.revokedAt = none)
      fun g => { g with revokedAt := some now }
    roomMembers := db.roomMembers.update (fun m => m.id = memberId) fun m =>
      { m with status := .left, activePeriodId := none, aclEpoch := m.aclEpoch + 1 } }

end RoomStateRepository

namespace RoomStateService

open RoomStateRepository

/-- A room with its counter and its stream. -/
def createRoom (db : Db) (streamId : Uuid) (name : String) (mode : RoomMode) (id : Uuid) :
    Except Failure Db := do
  let db ← insertRoom db id name mode
  let db ← insertCounter db id
  insertSharedStream db streamId id .roomShared

def lockRoom (db : Db) (roomId : Uuid) : Except Failure Room := do
  let room ← require (db.rooms.find? fun r => r.id = roomId) (.error "room_unavailable")
  ensure (room.status = .active) (.error "room_unavailable")
  return room

/-- The next order of a room. -/
def nextOrder (db : Db) (roomId : Uuid) : Except Failure (Db × Nat) := do
  let _ ← lockRoom db roomId
  let counter ← require (db.roomCounters.find? fun c => c.roomId = roomId)
    (.error "room_counter_missing")
  let next := counter.lastOrder + 1
  return (advanceOrder db next roomId, next)

/-- The rest of `joinRoom`, once the member row exists. -/
def openPeriod (db : Db) (periodId : Uuid) (room : Room) (memberId userId : Uuid) :
    Except Failure Db := do
  let (db, boundary) ← nextOrder db room.id
  let db ← insertPeriod db periodId room.id memberId room.policyVersion room.historyPolicy
    (match room.historyPolicy with
      | .allAvailable => 0
      | .sinceJoin => boundary)
  return advanceMembership (activate db periodId memberId) userId

/-- A user joins, with the history the policy gives. -/
def joinRoom (db : Db) (ids : Nat → Uuid) (roomId userId : Uuid) : Except Failure (Db × Uuid) := do
  let room ← lockRoom db roomId
  ensure (room.joinPolicy = .openAuthenticated) (.error "join_policy_unsupported")
  match member db roomId userId with
  | some existing =>
    ensure (existing.status ≠ .banned) (.error "membership_banned")
    if existing.status = .active ∧ existing.activePeriodId ≠ none then return (db, existing.id)
    else
      let db ← openPeriod db (ids 1) room existing.id userId
      return (db, existing.id)
  | none =>
    let db ← insertMember db (ids 0) roomId userId (if room.mode = .fan then .fan else .member)
    let db ← openPeriod db (ids 1) room (ids 0) userId
    return (db, ids 0)

/-- A room whose owner joins it at once. -/
def createOwnedRoom (db : Db) (ids : Nat → Uuid) (name : String) (mode : RoomMode)
    (policy : HistoryPolicy) (ownerId roomId : Uuid) : Except Failure (Db × Uuid × Uuid) := do
  let db ← createRoom db (ids 2) name mode roomId
  let (db, ownerActorId) ← joinRoom (initialPolicy db roomId policy) ids roomId ownerId
  return (assignOwner db roomId ownerActorId, roomId, ownerActorId)

/-- A member leaves; an owner cannot. -/
def leaveRoom (db : Db) (now : Time) (roomId userId : Uuid) : Except Failure Db := do
  let room ← lockRoom db roomId
  match member db roomId userId with
  | none => return db
  | some m =>
    if m.status ≠ .active then return db
    else
      ensure (room.ownerMemberId ≠ some m.id) (.error "owner_transfer_required")
      let db := closePeriod db now m.activePeriodId
      return advanceMembership (leave db now m.id) userId

end RoomStateService

/-! ## The history policy -/

namespace RoomsRepository

/-- The user may manage rooms. -/
def manager (db : Db) (userId : Uuid) : Prop :=
  db.adminCapabilities.Has fun a => a.userId = userId ∧ a.manageRooms = true

instance (db : Db) (userId : Uuid) : Decidable (manager db userId) :=
  inferInstanceAs (Decidable (Table.Has _ _))

/-- The user owns the room. -/
def activeOwner (db : Db) (ownerId : Option Uuid) (roomId userId : Uuid) : Prop :=
  db.roomMembers.Has fun m => ownerId = some m.id ∧ m.roomId = roomId ∧ m.userId = userId ∧
    m.role = .streamer ∧ m.status = .active ∧
    db.membershipPeriods.Has fun p => m.activePeriodId = some p.id ∧ p.roomId = m.roomId ∧
      p.memberId = m.id ∧ p.leftAt = none

instance (db : Db) (ownerId : Option Uuid) (roomId userId : Uuid) :
    Decidable (activeOwner db ownerId roomId userId) :=
  inferInstanceAs (Decidable (Table.Has _ _))

/-- A room's policy changes with its version. -/
def changePolicy (db : Db) (policy : HistoryPolicy) (roomId : Uuid) : Db :=
  { db with
    rooms := db.rooms.update (fun r => r.id = roomId)
      fun r => { r with historyPolicy := policy, policyVersion := r.policyVersion + 1 } }

end RoomsRepository

/-- The errors of the room state as the API reports them. -/
def domainError : Failure → Failure
  | .error "room_unavailable" => .api .notFound
  | .error "membership_banned" => .api .forbidden
  | .error "join_policy_unsupported" => .api .forbidden
  | .error "owner_transfer_required" => .api .conflict
  | error => error

namespace RoomsCoreService

/-- The owner or a manager changes what later members see. -/
def setHistoryPolicy (db : Db) (roomId userId : Uuid) (policy : HistoryPolicy) :
    Except Failure (Db × HistoryPolicy × Nat) := do
  let room ← (RoomStateService.lockRoom db roomId).mapError domainError
  ensure (RoomsRepository.activeOwner db room.ownerMemberId roomId userId ∨
    RoomsRepository.manager db userId) (.api .forbidden)
  if room.historyPolicy ≠ policy then
    return (RoomsRepository.changePolicy db policy roomId, policy, room.policyVersion + 1)
  else
    return (db, policy, room.policyVersion)

end RoomsCoreService

/-! ## Moderation -/

namespace ModerationRepository

/-- What `target` selects: the member with its account, and the open period it
points to. -/
structure Target where
  member : RoomMember
  account : User
  role : MemberRole
  chatAllowed : Bool
  validPeriod : Option MembershipPeriod

/-- The member a command is about. -/
def target (db : Db) (now : Time) (roomId actorId : Uuid) : Option Target := do
  let m ← db.roomMembers.find? fun m => m.roomId = roomId ∧ m.id = actorId
  let u ← db.users.find? fun u => u.id = m.userId
  return {
    member := m, account := u
    role := if delegatedMemberSql db now m then .streamer else m.role
    chatAllowed := decide (chatAccountSql db now u)
    validPeriod := db.membershipPeriods.find? fun p => m.activePeriodId = some p.id ∧
      p.roomId = m.roomId ∧ p.memberId = m.id }

/-- The member's access changed. -/
def invalidate (db : Db) (roomId actorId : Uuid) : Db :=
  { db with
    roomMembers := db.roomMembers.update (fun m => m.roomId = roomId ∧ m.id = actorId)
      fun m => { m with aclEpoch := m.aclEpoch + 1 } }

/-- The part of `ban` a ban runs and lifting one does not. -/
def revoke (db : Db) (now : Time) (roomId actorId : Uuid) (periodId : Option Uuid) : Db :=
  { db with
    roomTestGrants := db.roomTestGrants.update
      (fun g => g.roomId = roomId ∧ g.memberId = actorId ∧ g.revokedAt = none)
      fun g => { g with revokedAt := some now }
    membershipPeriods := db.membershipPeriods.update
      (fun p => p.roomId = roomId ∧ p.memberId = actorId ∧ periodId = some p.id ∧ p.leftAt = none)
      fun p => { p with leftAt := some now }
    streamGrants := db.streamGrants.update
      (fun g => g.roomId = roomId ∧ g.memberId = actorId ∧ g.revokedAt = none)
      fun g => { g with revokedAt := some now, canRead := false, canSend := false } }

/-- A ban ends the member's period; lifting it gives none back. -/
def ban (db : Db) (now : Time) (roomId actorId : Uuid) (periodId : Option Uuid) (banned : Bool) :
    Db :=
  let db := if banned then revoke db now roomId actorId periodId else db
  let db := { db with
    roomMembers := db.roomMembers.update (fun m => m.roomId = roomId ∧ m.id = actorId) fun m =>
      { m with status := if banned then .banned else .left, activePeriodId := none } }
  let db := invalidate db roomId actorId
  { db with
    users := db.users.update
      (fun u => db.roomMembers.Has fun m => m.userId = u.id ∧ m.roomId = roomId ∧ m.id = actorId)
      fun u => { u with membershipGeneration := u.membershipGeneration + 1 } }

/-- `setBlock`, with whether it changed anything. -/
def setBlock (db : Db) (roomId actorId targetId : Uuid) (blocked : Bool) :
    Except Failure (Db × Bool) := do
  let prior := decide (db.actorBlocks.Has fun b =>
    b.roomId = roomId ∧ b.blockerActorId = actorId ∧ b.targetActorId = targetId)
  if prior = blocked then return (db, false)
  else if blocked then
    let blocks ← require (db.actorBlocks.insert
      { roomId := roomId, blockerActorId := actorId, targetActorId := targetId }) .constraint
    return ({ db with actorBlocks := blocks }, true)
  else
    return ({ db with
      actorBlocks := db.actorBlocks.delete fun b =>
        b.roomId = roomId ∧ b.blockerActorId = actorId ∧ b.targetActorId = targetId }, true)

end ModerationRepository

namespace ModerationCoreService

open ModerationRepository

/-- The room, with the error of these commands. -/
def lockRoom (db : Db) (roomId : Uuid) : Except Failure Room :=
  (RoomStateService.lockRoom db roomId).mapError fun
    | .error "room_unavailable" => .api .notFound
    | error => error

/-- The actors a viewer may block are those whose profile it may see. -/
def Blockable (viewer : ActiveMember) (target : Target) : Prop :=
  target.member.status = .active ∧ target.member.activePeriodId ≠ none ∧
    (target.validPeriod.any fun p => p.leftAt = none) = true ∧
    target.account.status = .active ∧ target.chatAllowed = true ∧
    (viewer.mode = .fan → viewer.role = .streamer ∨ target.role = .streamer)

instance (viewer : ActiveMember) (target : Target) : Decidable (Blockable viewer target) :=
  inferInstanceAs (Decidable (_ ∧ _ ∧ _ ∧ _ ∧ _ ∧ _))

/-- The check of `block` that lifting a block does not make. -/
def requireBlockable (db : Db) (now : Time) (userId roomId actorId : Uuid) (blocked : Bool) :
    Except Failure Unit :=
  if blocked = false then return ()
  else do
    let viewer ← AccessService.requireActiveMember db true now roomId userId
    let target ← require (target db now roomId actorId) (.api .notFound)
    ensure (Blockable viewer target) (.api .notFound)

/-- Write the block, and refresh both participants if it is new. -/
def applyBlock (db : Db) (roomId memberId actorId : Uuid) (blocked : Bool) : Except Failure Db := do
  let (db, changed) ← setBlock db roomId memberId actorId blocked
  return if changed then invalidate (invalidate db roomId memberId) roomId actorId else db

/-- A member blocks another, or lifts the block. -/
def block (db : Db) (now : Time) (userId roomId actorId : Uuid) (blocked : Bool) :
    Except Failure Db := do
  let _ ← lockRoom db roomId
  let member ← require (RoomStateRepository.member db roomId userId) (.api .notFound)
  ensure (member.id ≠ actorId) (.api .notFound)
  requireBlockable db now userId roomId actorId blocked
  applyBlock db roomId member.id actorId blocked

/-- The owner or a manager bans a member, or lifts the ban. -/
def ban (db : Db) (now : Time) (userId roomId actorId : Uuid) (banned : Bool) :
    Except Failure Db := do
  let room ← lockRoom db roomId
  let viewer ← AccessService.requireActiveMember db true now roomId userId
  ensure ((room.ownerMemberId = some viewer.id ∨ viewer.temporaryGrantId ≠ none) ∧
    viewer.role = .streamer) (.api .forbidden)
  ensure (actorId ≠ viewer.id ∧ room.ownerMemberId ≠ some actorId) (.api .forbidden)
  let target ← require (target db now roomId actorId) (.api .notFound)
  if decide (target.member.status = .banned) ≠ banned then
    return ModerationRepository.ban db now roomId actorId target.member.activePeriodId banned
  else return db

end ModerationCoreService

/-! ## The default room -/

/-- The seed of the product's catalog. -/
def DEFAULT_ROOM_ID : Uuid := 0xbdcc3129e4a849ec9491ce9ca62cb5d3

/-- The deployment's settings; `identityGuardKey` tells whether one is set. -/
structure DefaultRoomConfig where
  expectedSubject : Option Nat := none
  roomId : Option Uuid := none
  identityGuardKey : Bool := false

namespace DefaultRoomRepository

/-- The binding row, and whether this call created it. -/
def claim (db : Db) (roomId : Uuid) : Except Failure (Db × DefaultRoomBinding × Bool) :=
  match db.defaultRoomBindings.insert { roomId := roomId } with
  | some bindings => return ({ db with defaultRoomBindings := bindings }, { roomId := roomId }, true)
  | none => do
    let row ← require (db.defaultRoomBindings.find? fun _ => True) (.error "default_room_conflict")
    return (db, row, false)

/-- A default room without an owner's subject takes the subject. -/
def bindSpec (db : Db) (subject : Nat) : Db :=
  { db with
    defaultRoomBindings := db.defaultRoomBindings.update (fun b => b.ownerSubject = none)
      fun b => { b with ownerSubject := some subject } }

/-- The account of a platform subject. -/
def owner (db : Db) (subject : Nat) : Option Uuid := do
  let identity ← db.platformSoop.find? fun s => s.providerSubject = subject
  let user ← db.users.find? fun u => u.id = identity.userId
  if identity.status = .verified ∧ user.status = .active ∧
      ¬db.accountDeletionObligations.Has (fun o => o.userId = user.id) ∧
      ¬db.deletionIntents.Has (fun i => i.account = true ∧ i.targetId = user.id)
  then some user.id
  else none

/-- The creator accounts with this one enabled. -/
def enableCreator (db : Db) (userId : Uuid) : Except Failure (Table CreatorAccount) :=
  match db.creatorAccounts.find? fun c => c.userId = userId with
  | some _ => .ok (db.creatorAccounts.update (fun c => c.userId = userId)
      fun c => { c with enabled := true })
  | none => require (db.creatorAccounts.insert { userId := userId, enabled := true }) .constraint

/-- The subject's account becomes a creator. -/
def activate (db : Db) (roomId userId : Uuid) : Except Failure Db := do
  let accounts ← enableCreator db userId
  return { db with
    creatorAccounts := accounts
    rooms := db.rooms.update (fun r => r.id = roomId) fun r => { r with status := .active } }

/-- The grants on restricted streams that have no pair yet. -/
def inboxes (db : Db) (roomId : Uuid) : List StreamGrant :=
  (db.streamGrants.select fun g => g.roomId = roomId ∧
      db.messageStreams.Has (fun s => s.roomId = roomId ∧ s.id = g.streamId ∧
        s.kind = .restricted) ∧
      ¬db.streamPairs.Has (fun p => p.roomId = roomId ∧ p.streamId = g.streamId)).insertionSort
    fun g h => g.streamId ≤ h.streamId

/-- Give the pending inboxes their owner: a pair and a grant each. -/
def bindInboxes (db : Db) (now : Time) (ids : Nat → Uuid) (roomId actorId : Uuid)
    (pending : List StreamGrant) : Except Failure Db := do
  let pairs ← require (db.streamPairs.insertAll (pending.mapIdx fun i row =>
    { id := ids (2 * i), roomId := roomId, streamId := row.streamId,
      leftMemberId := min actorId row.memberId, rightMemberId := max actorId row.memberId }))
    .constraint
  let grants ← require (db.streamGrants.insertAll (pending.mapIdx fun i row =>
    { id := ids (2 * i + 1), roomId := roomId, streamId := row.streamId, memberId := actorId,
      canRead := true, canSend := true, validFrom := now })) .constraint
  return { db with
    streamPairs := pairs
    streamGrants := grants
    roomMembers := db.roomMembers.update
      (fun m => m.roomId = roomId ∧ m.id ∈ pending.map StreamGrant.memberId)
      fun m => { m with aclEpoch := m.aclEpoch + 1 } }

/-- The rest of `finish`: the owner reads the whole backlog. -/
def bindOwner (db : Db) (roomId actorId : Uuid) : Db :=
  { db with
    membershipPeriods := db.membershipPeriods.update
      (fun p => p.roomId = roomId ∧ p.memberId = actorId ∧ p.leftAt = none)
      fun p => { p with visibleFromOrder := 0, historyPolicy := .allAvailable }
    roomMembers := db.roomMembers.update (fun m => m.id = actorId)
      fun m => { m with role := .streamer }
    rooms := db.rooms.update (fun r => r.id = roomId)
      fun r => { r with ownerMemberId := some actorId }
    defaultRoomBindings := db.defaultRoomBindings.update (fun _ => True)
      fun b => { b with ownerBound := true } }

/-- The owner is bound and joins its room. -/
def finish (db : Db) (now : Time) (ids : Nat → Uuid) (roomId actorId : Uuid) :
    Except Failure Db := do
  let inboxes := inboxes db roomId
  ensure (inboxes.map StreamGrant.streamId).Nodup (.error "owner_inbox_conflict")
  let db ← bindInboxes db now ids roomId actorId (inboxes.filter fun row => row.memberId ≠ actorId)
  return bindOwner db roomId actorId

end DefaultRoomRepository

namespace DefaultRoomService

open DefaultRoomRepository

/-- What a binding has come to. -/
inductive State
  | bound | awaitingOwner
  deriving DecidableEq, Repr

/-- The part of `provision` that looks for the configured owner and binds it. -/
def provisionOwner (db : Db) (now : Time) (ids : Nat → Uuid) (roomId : Uuid) (guarded : Bool)
    (subject : Nat) : Except Failure (Db × State) := do
  let db := bindSpec db subject
  ensure (guarded = false) (.error "AUTH_FAILED")
  match owner db subject with
  | none => return (db, .awaitingOwner)
  | some ownerId => do
    let db ← activate db roomId ownerId
    let (db, actor) ← RoomStateService.joinRoom db ids roomId ownerId
    let db ← finish db now (fun i => ids (i + 3)) roomId actor
    return (db, .bound)

/-- The room the binding names, created when it does not exist. A binding this
transaction created never adopts a room that was there before. -/
def existingOrNew (db : Db) (streamId : Uuid) (binding : DefaultRoomBinding) (created : Bool) :
    Except Failure Db :=
  match db.rooms.find? fun r => r.id = binding.roomId with
  | some _ => do
    ensure (created = false) (.error "default_room_conflict")
    return db
  | none => RoomStateService.createRoom db streamId "후로기" .fan binding.roomId

/-- The default room, as the catalog describes it and without an owner. -/
def openCatalog (db : Db) (streamId : Uuid) (binding : DefaultRoomBinding) (created : Bool) :
    Except Failure Db := do
  let db ← existingOrNew db streamId binding created
  let room ← require (db.rooms.find? fun r => r.id = binding.roomId)
    (.error "default_room_conflict")
  ensure (room.name = "후로기" ∧ room.mode = .fan ∧ room.status = .active ∧
    room.ownerMemberId = none) (.error "default_room_conflict")
  return db

/-- `guarded` is the identity guard's verdict on the configured subject. -/
def provision (db : Db) (now : Time) (ids : Nat → Uuid) (config : DefaultRoomConfig)
    (guarded catalogOnly : Bool) : Except Failure (Db × State) := do
  let (db, binding, created) ← claim db (config.roomId.getD DEFAULT_ROOM_ID)
  ensure (∀ id ∈ config.roomId, binding.roomId = id) (.error "default_room_conflict")
  ensure (config.expectedSubject = none ∨ config.identityGuardKey = true)
    (.error "default_room_configuration")
  ensure (∀ bound ∈ binding.ownerSubject, ∀ subject ∈ config.expectedSubject, bound = subject)
    (.error "default_room_conflict")
  if binding.ownerBound = true then return (db, .bound)
  else do
    let db ← openCatalog db (ids 2) binding created
    match config.expectedSubject with
    | none => return (db, .awaitingOwner)
    | some subject =>
      if catalogOnly = true then return (db, .awaitingOwner)
      else provisionOwner db now ids binding.roomId guarded subject

end DefaultRoomService

end Rogichat
