import Rogichat.Chat.Deletion
import Rogichat.Chat.Publications
import Rogichat.Chat.Reactions
import Rogichat.Lib.Footprint
import Rogichat.Lib.Trace

/-!
# The chat service as a system

The state is the database, and every committed transaction is one step. Any
number of clients and workers run commands in any order; each brings the clock it
read and the random ids it drew, and a transaction that fails makes no step.

The tables other modules own, accounts and their entitlements, delegations, the
sticker catalogue, stored media and admitted deletions, change by steps of their
`environment`, which may leave any contents in them.
-/

namespace Rogichat

open Lib

/-- New contents of the tables the chat commands do not own. -/
structure Environment where
  users : Table User
  userProfiles : Table UserProfile
  platformSoop : Table PlatformSoop
  authIdentities : Table AuthIdentity
  adminCapabilities : Table AdminCapability
  roomTestGrants : Table RoomTestGrant
  stickerCatalog : Table Sticker
  mediaAssets : Table MediaAsset
  mediaObjects : Table MediaObject
  roomMediaPolicy : Table RoomMediaPolicy
  deletionIntents : Table DeletionIntent
  accountDeletionObligations : Table AccountDeletionObligation

/-- The tables other services write are replaced. -/
def Environment.install (e : Environment) (db : Db) : Db :=
  { db with
    users := e.users
    userProfiles := e.userProfiles
    platformSoop := e.platformSoop
    authIdentities := e.authIdentities
    adminCapabilities := e.adminCapabilities
    roomTestGrants := e.roomTestGrants
    stickerCatalog := e.stickerCatalog
    mediaAssets := e.mediaAssets
    mediaObjects := e.mediaObjects
    roomMediaPolicy := e.roomMediaPolicy
    deletionIntents := e.deletionIntents
    accountDeletionObligations := e.accountDeletionObligations }

/-- Nothing but two active accounts. -/
def Environment.twoAccounts : Environment where
  users := ⟨[{ id := 1 }, { id := 2 }], by decide⟩
  userProfiles := .empty
  platformSoop := .empty
  authIdentities := .empty
  adminCapabilities := .empty
  roomTestGrants := .empty
  stickerCatalog := .empty
  mediaAssets := .empty
  mediaObjects := .empty
  roomMediaPolicy := .empty
  deletionIntents := .empty
  accountDeletionObligations := .empty

/-- The two accounts, both entitled to chat. -/
def Environment.twoMembers : Environment :=
  { Environment.twoAccounts with
    platformSoop := ⟨[⟨1, 1, 1, .verified⟩, ⟨2, 2, 2, .verified⟩], by decide⟩ }

/-- The transactions of the chat service, and the writes of its environment. -/
inductive Command
  | createOwnedRoom (ids : Nat → Uuid) (name : String) (mode : RoomMode) (policy : HistoryPolicy)
      (ownerId roomId : Uuid)
  | joinRoom (ids : Nat → Uuid) (roomId userId : Uuid)
  | leaveRoom (now : Time) (roomId userId : Uuid)
  | setHistoryPolicy (roomId userId : Uuid) (policy : HistoryPolicy)
  | block (now : Time) (userId roomId actorId : Uuid) (blocked : Bool)
  | ban (now : Time) (userId roomId actorId : Uuid) (banned : Bool)
  | provision (now : Time) (ids : Nat → Uuid) (config : DefaultRoomConfig)
      (guarded catalogOnly : Bool)
  | send (now : Time) (ids : Nat → Uuid) (roomId userId : Uuid) (input : SendInput)
  | remove (now : Time) (ids : Nat → Uuid) (intent : DeletionIntent)
  | invalidateRevokedSticker (ids : Nat → Uuid) (assetId : Uuid)
  | setReaction (now : Time) (ids : Nat → Uuid) (roomId userId messageId : Uuid)
      (emoji : Option String)
  | requestPublication (now : Time) (ids : Nat → Uuid) (roomId userId messageId : Uuid)
  | publishText (now : Time) (ids : Nat → Uuid) (lease : PublicationLease) (leaseHeld : Bool)
  | preparePhoto (now : Time) (ids : Nat → Uuid) (lease : PublicationLease) (leaseHeld : Bool)
  | finalizePhoto (now : Time) (ids : Nat → Uuid) (lease : PublicationLease) (leaseHeld : Bool)
      (attempts : List PhotoAttempt)
  | recoverPhotos (now : Time) (runnable recheck : Uuid → Bool)
  | purgeStep (now : Time) (lease : PurgeLease) (leaseHeld : Bool) (limit : Nat)
      (elsewhere : Elsewhere)
  | accountContentPage (now : Time) (intent : DeletionIntent) (limit : Nat)
      (elsewhere : Elsewhere)
  | environment (e : Environment)

/-- The database a command commits. -/
def Command.exec (c : Command) (db : Db) : Except Failure Db :=
  match c with
  | .createOwnedRoom ids name mode policy ownerId roomId => do
    let (db, _) ← RoomStateService.createOwnedRoom db ids name mode policy ownerId roomId
    return db
  | .joinRoom ids roomId userId => do
    let (db, _) ← RoomStateService.joinRoom db ids roomId userId
    return db
  | .leaveRoom now roomId userId => RoomStateService.leaveRoom db now roomId userId
  | .setHistoryPolicy roomId userId policy => do
    let (db, _) ← RoomsCoreService.setHistoryPolicy db roomId userId policy
    return db
  | .block now userId roomId actorId blocked =>
    ModerationCoreService.block db now userId roomId actorId blocked
  | .ban now userId roomId actorId banned =>
    ModerationCoreService.ban db now userId roomId actorId banned
  | .provision now ids config guarded catalogOnly => do
    let (db, _) ← DefaultRoomService.provision db now ids config guarded catalogOnly
    return db
  | .send now ids roomId userId input => do
    let (db, _) ← MessagesCoreService.send db now ids roomId userId input
    return db
  | .remove now ids intent => do
    let (db, _) ← MessagesCoreService.remove db now ids intent
    return db
  | .invalidateRevokedSticker ids assetId => do
    let (db, _) ← MessagesCoreService.invalidateRevokedSticker db ids assetId
    return db
  | .setReaction now ids roomId userId messageId emoji =>
    ReactionsCoreService.setReaction db now ids roomId userId messageId emoji
  | .requestPublication now ids roomId userId messageId => do
    let (db, _) ← PublicationsCoreService.requestPublication db now ids roomId userId messageId
    return db
  | .publishText now ids lease leaseHeld =>
    PublicationsCoreService.publishText db now ids lease leaseHeld
  | .preparePhoto now ids lease leaseHeld => do
    let (db, _) ← PublicationsCoreService.preparePhoto db now ids lease leaseHeld
    return db
  | .finalizePhoto now ids lease leaseHeld attempts =>
    PublicationsCoreService.finalizePhoto db now ids lease leaseHeld attempts
  | .recoverPhotos now runnable recheck =>
    return PublicationsCoreService.recoverPhotos db now runnable recheck
  | .purgeStep now lease leaseHeld limit elsewhere => do
    let (db, _) ← MessagePurgeService.step db now lease leaseHeld limit elsewhere
    return db
  | .accountContentPage now intent limit elsewhere => do
    let (db, _) ← AccountContentService.page db now intent limit elsewhere
    return db
  | .environment e => return e.install db

/-- The database a list of commands commits, when none of them fails. -/
def Db.after (db : Db) : List Command → Except Failure Db
  | [] => .ok db
  | c :: cs => do
    let db ← c.exec db
    db.after cs

/-- The service restricted to some commands, from an empty database. -/
def chatOf (allowed : Command → Prop) : System Db Command where
  init db := db = {}
  step c s t := allowed c ∧ c.exec s = .ok t

/-- The service with all its commands. -/
def chat : System Db Command := chatOf fun _ => True

/-- Executed commands are a run of the service. -/
theorem run_of_allowed {allowed : Command → Prop} {cs : List Command} {s t : Db}
    (hall : ∀ c ∈ cs, allowed c) (h : s.after cs = .ok t) : (chatOf allowed).Run s cs t := by
  induction cs generalizing s with
  | nil =>
    cases h
    exact .nil _
  | cons c cs ih =>
    simp only [Db.after, bind_ok] at h
    obtain ⟨u, hu, hrest⟩ := h
    exact .cons ⟨hall c List.mem_cons_self, hu⟩
      (ih (fun d hd => hall d (List.mem_cons_of_mem _ hd)) hrest)

theorem run_of_after {cs : List Command} {s t : Db} (h : s.after cs = .ok t) : chat.Run s cs t :=
  run_of_allowed (fun _ _ => trivial) h

end Rogichat
