import Rogichat.Android.Conversation
import Rogichat.Lib.Paging

/-!
# The room directory of the Android store

A manifest is read page by page into `staged`; its last page puts the staged rows in the place
of `memberships` and purges what was stored for rooms that are gone or whose scope or revision
changed. The store keeps one database file, of one account partition; `erase` writes a cleanup
marker before it deletes the file, and a file whose marker stands is erased before it is read.

Random ids are arguments. An operation that opens the file before its transaction may be
refused in between (`beginRefused`, `authorizeStopped`, `authorizeRefused`), and the process
may die between any two steps (`crash`) or half-way through an erasure (`eraseStopped`).
-/

namespace Rogichat.Android

open Lib

attribute [local instance] decidableMemTokens

/-- `MembershipPage.Success`: complete exactly when it has no next cursor. -/
structure ManifestPage where
  rooms : List Membership
  generation : Token
  complete : Bool
  next : Option Token
  ends : complete = true ↔ next = none
  advances : complete = true ∨ rooms ≠ []

/-- An answer to a request for memberships. -/
inductive MembershipPage
  | reset
  | success (page : ManifestPage)

/-- The device and the cache of a listing. -/
structure RoomSyncIdentity where
  deviceId : Uuid
  cacheId : Uuid

/-- A page of the rooms that may be joined. -/
structure DiscoveryPage where
  rooms : List Uuid
  next : Option Uuid

namespace Db

/-- The cursors of a listing whose pages were accepted. -/
def requestedPages (s : Db) (purpose : Purpose) : List (Option Token) :=
  (s.pages.select fun r => r.purpose = purpose).map (·.cursor)

/-! ## The manifest -/

/-- Staged rows, discovery and cursors go, and the checkpoint starts anew. -/
def beginDirectory (s : Db) (cacheId : Uuid) : Db :=
  { s with
    staged := .empty
    discovery := []
    pages := .empty
    checkpoint := some { cacheId := cacheId } }

/-- The messages of a room are dropped. -/
def clearMessages (s : Db) (room : Uuid) : Db :=
  { s with messages := s.messages.delete fun r => r.roomId = room }

/-- `clearMessages`, `clearProfiles`, `clearStaging` and `clearPages` of the room. -/
def clearRoom (s : Db) (room : Uuid) : Db :=
  { s.clearMessages room with
    profiles := s.profiles.delete fun r => r.roomId = room
    profileStaging := s.profileStaging.delete fun r => r.roomId = room
    conversationPages := s.conversationPages.delete fun r => r.roomId = room }

/-- The room is not a listed one. -/
def Absent (s : Db) (room : Uuid) : Prop := ¬s.memberships.Has fun m => m.roomId = room

instance (s : Db) : DecidablePred s.Absent := fun room =>
  inferInstanceAs (Decidable ¬s.memberships.Has fun m => m.roomId = room)

/-- Nothing stays of a room that is not listed. -/
def purgeAbsent (s : Db) : Db :=
  { s with
    anchors := s.anchors.delete fun r => s.Absent r.roomId
    media := s.media.delete fun r => s.Absent r.roomId
    outbox := s.outbox.delete fun r => s.Absent r.roomId
    messages := s.messages.delete fun r => s.Absent r.roomId
    profiles := s.profiles.delete fun r => s.Absent r.roomId
    profileStaging := s.profileStaging.delete fun r => s.Absent r.roomId
    checkpoints := s.checkpoints.delete fun r => s.Absent r.roomId
    conversationPages := s.conversationPages.delete fun r => s.Absent r.roomId }

/-- `purgeOldMedia` and `purgeOldMembership`. -/
def purgeOldScope (s : Db) (room : Uuid) (membership : Token) : Db :=
  { s with
    media := s.media.delete fun r => r.roomId = room ∧ r.membership ≠ membership
    outbox := s.outbox.delete fun r => r.roomId = room ∧ r.membership ≠ membership }

/-- The room's conversation was opened under another scope or revision. -/
def Rotated (s : Db) (member : Membership) : Prop :=
  ∃ previous ∈ s.conversationCheckpoint member.roomId,
    previous.membership ≠ member.membershipScope ∨
      previous.authorization ≠ member.authorizationRevision

instance (s : Db) (member : Membership) : Decidable (s.Rotated member) :=
  inferInstanceAs (Decidable (∃ previous ∈ s.conversationCheckpoint member.roomId, _))

/-- The anchor of an older membership is dropped. -/
def purgeAnchor (s : Db) (room : Uuid) (membership : Token) : Db :=
  { s with anchors := s.anchors.delete fun r => r.roomId = room ∧ r.membership ≠ membership }

/-- What an older scope of a membership left is dropped. -/
def purgeMember (s : Db) (member : Membership) : Db :=
  let s := (s.purgeAnchor member.roomId member.membershipScope).purgeOldScope
    member.roomId member.membershipScope
  -- Only commands with the unchanged membership survive a change of the revision alone.
  if s.Rotated member then
    { s.clearRoom member.roomId with
      checkpoints := s.checkpoints.delete fun r => r.roomId = member.roomId }
  else s

/-- The staged rows become the memberships, and stored rows follow them. -/
def installManifest (s : Db) : Db :=
  let s := { s with memberships := s.staged, staged := .empty }
  s.memberships.rows.foldl purgeMember s.purgeAbsent

/-- The last page installs what was staged. -/
def completeManifest (s : Db) (complete : Bool) : Db :=
  if complete then s.installManifest else s

/-- A page of the manifest is staged beside the current memberships. -/
def stagePage (s : Db) (checkpoint : DirectoryCheckpoint) (requested : Option Token)
    (page : ManifestPage) : Transaction Db := do
  valid (checkpoint.generation = none ∨ checkpoint.generation = some page.generation)
  let seen := s.requestedPages .manifest
  valid (requested ∉ seen ∧ ∀ n ∈ page.next, some n ∉ seen ∧ some n ≠ requested)
  let prior := s.staged.rows
  valid (prior.length + page.rooms.length ≤ 10000)
  valid (∀ room ∈ page.rooms, ∀ r ∈ prior, r.roomId ≠ room.roomId)
  let staged ← require (s.staged.insertAll page.rooms) .storage
  let pages ← require (s.pages.insert ⟨.manifest, requested⟩) .storage
  return { s with staged := staged, pages := pages }

/-- `manifest`: a page of memberships, or a reset of the listing. -/
def manifest (s : Db) (identity : RoomSyncIdentity) (requested : Option Token)
    (page : MembershipPage) (cacheId : Uuid) : Transaction Db := do
  let checkpoint ← require s.checkpoint .storage
  valid (checkpoint.cacheId = identity.cacheId ∧ checkpoint.complete = false ∧
    checkpoint.manifestCursor = requested)
  match page with
  -- Reset withdraws authority, not membership: only a complete snapshot replaces rows.
  | .reset => return s.beginDirectory cacheId
  | .success page =>
    let s ← s.stagePage checkpoint requested page
    return { s.completeManifest page.complete with
      checkpoint := some { checkpoint with
        generation := some page.generation
        manifestCursor := page.next
        complete := page.complete } }

/-- `discoveryPage`: a page of rooms after the one asked for. -/
def discoveryPage (s : Db) (identity : RoomSyncIdentity) (after : Option Uuid)
    (page : DiscoveryPage) : Transaction Db := do
  let checkpoint ← require s.checkpoint .storage
  valid (checkpoint.cacheId = identity.cacheId ∧ checkpoint.complete = true ∧
    checkpoint.discoveryCursor = after)
  valid (checkpoint.discoveryLoaded = false ∨ after ≠ none)
  let seen := s.requestedPages .discovery
  valid (after ∉ seen ∧ ∀ n ∈ page.next, some n ∉ seen ∧ some n ≠ after)
  valid (s.discovery.length + page.rooms.length ≤ 10000)
  valid (page.rooms.Nodup ∧ ∀ room ∈ page.rooms, room ∉ s.discovery)
  let pages ← require (s.pages.insert ⟨.discovery, after⟩) .storage
  return { s with
    discovery := s.discovery ++ page.rooms
    pages := pages
    checkpoint := some { checkpoint with discoveryCursor := page.next, discoveryLoaded := true } }

/-! ## Authority -/

/-- Nothing counts as complete until it is listed and downloaded again. -/
def withdraw (s : Db) : Db :=
  { s with
    checkpoints := s.checkpoints.update (fun _ => True) fun r =>
      { r with snapshotComplete := false, profileComplete := false }
    checkpoint := s.checkpoint.map fun r => { r with complete := false } }

/-- Interrupted work is looked up, never sent again. -/
def parkInterrupted (s : Db) : Db :=
  { s with
    outbox := s.outbox.update (fun r => r.phase = .prepared ∨ r.phase = .sending) fun r =>
      { r with phase := .unknown } }

/-- `authorize`: a new owner starts from nothing complete, with interrupted work unknown. -/
def authorize (s : Db) (owner : ConversationOwner) : Db :=
  { s with owner := some owner }.withdraw.parkInterrupted

/-! ## Opening a room -/

/-- The room's cache starts anew under the scope and revision of the membership. -/
def newConversation (s : Db) (membership : Membership) (cacheId : Uuid) : Db :=
  (s.clearRoom membership.roomId).setCheckpoint
    { roomId := membership.roomId
      cacheId := cacheId
      membership := membership.membershipScope
      authorization := membership.authorizationRevision }

/-- The room's conversation, if it was opened under the scope and revision of the membership. -/
def sameAuthority (s : Db) (membership : Membership) : Option ConversationCheckpoint :=
  (s.conversationCheckpoint membership.roomId).filter fun r =>
    r.membership = membership.membershipScope ∧ r.authorization = membership.authorizationRevision

/-- The cache of a room is kept for the same authority and replaced for another. -/
def openConversation (s : Db) (membership : Membership) (cacheId : Uuid) : Db × Uuid :=
  match s.sameAuthority membership with
  | some previous => (s, previous.cacheId)
  | none => (s.newConversation membership cacheId, cacheId)

/-- `beginConversation`: an authorized selection gets the scope it works in. -/
def beginConversation (s : Db) (selection : ConversationSelection) (cacheId : Uuid) :
    Transaction (Db × ConversationScope) := do
  let directory ← require s.checkpoint .storage
  valid (directory.complete = true ∧ directory.cacheId = selection.directoryCycle)
  valid (s.memberships.Has fun m => m = selection.membership)
  let opened := s.openConversation selection.membership cacheId
  return (opened.1.purgeOldScope selection.membership.roomId selection.membership.membershipScope,
    ⟨selection, opened.2⟩)

/-- `restartConversation`: the room is downloaded anew. -/
def restartConversation (s : Db) (selection : ConversationSelection) (cacheId : Uuid) :
    Db × ConversationScope :=
  (s.newConversation selection.membership cacheId, ⟨selection, cacheId⟩)

end Db

/-! ## The store -/

/-- A partition's file and its cleanup marker. -/
structure Store where
  /-- The cleanup marker. -/
  cleanup : Bool := false
  /-- The database file and the partition it is named by. -/
  file : Option (Token × Db) := none
  /-- The file is open. -/
  database : Bool := false
  active : Option RoomsAccountScope := none

namespace Store

/-- What the file holds. -/
def content (s : Store) : Db := (s.file.map (·.2)).getD {}

/-- The file's content is replaced, when there is a file. -/
def setContent (s : Store) (db : Db) : Store :=
  { s with file := s.file.map fun f => (f.1, db) }

/-- The open database of the scope. -/
def db (s : Store) (scope : RoomsAccountScope) : Transaction Db := do
  ensure (s.active = some scope ∧ s.cleanup = false ∧ s.database = true) .storage
  let file ← require s.file .storage
  return file.2

/-- File and marker are gone. -/
def erase (_ : Store) : Store := {}

/-- The erasure wrote its marker and closed the database; the file may be gone or not. -/
def eraseStopped (s : Store) (deleted : Bool) : Store :=
  { cleanup := true, file := if deleted then none else s.file }

/-- The process died: what is in memory is gone. -/
def crash (s : Store) : Store := { s with database := false, active := none }

/-- The partition has no file but its own. -/
def Expected (s : Store) (partition : Token) : Prop := ∀ f ∈ s.file, f.1 = partition

instance (s : Store) (partition : Token) : Decidable (s.Expected partition) :=
  inferInstanceAs (Decidable (∀ f ∈ s.file, f.1 = partition))

/-- A different partition is never rebound to the current account. -/
def eraseOthers (s : Store) (partition : Token) : Store :=
  if s.Expected partition then s else s.erase

/-- The file is created when it is not there. -/
def openDatabase (s : Store) (partition : Token) : Store :=
  { s with file := some (s.file.getD (partition, {})), database := true }

/-- `begin` before its transaction. -/
def openDirectory (s : Store) (scope : RoomsAccountScope) : Transaction Store := do
  let s := if s.cleanup = true ∨ (∃ a ∈ s.active, a ≠ scope) then s.erase else s
  let s := if s.database then s
    else { (s.eraseOthers scope.partition).openDatabase scope.partition with active := some scope }
  ensure (s.active = some scope) .storage
  return s

/-- `authorize` until it reads the owner of the file. -/
def openOwner (s : Store) (scope : RoomsAccountScope) : Store :=
  let s := (if s.cleanup then s.erase else s).eraseOthers scope.partition
  if s.database then s else s.openDatabase scope.partition

/-- A file of another login is replaced by a new one. -/
def rebind (s : Store) (scope : RoomsAccountScope) (owner : ConversationOwner) :
    Transaction Store := do
  let prior := s.content.owner
  ensure (prior ≠ none ∨ s.content.outbox.rows = []) .storage
  let s := if ∀ o ∈ prior, o = owner then s else s.erase.openDatabase scope.partition
  return { s with active := some scope }

/-- One transaction of the open database. -/
def withTransaction (s : Store) (scope : RoomsAccountScope) (action : Db → Transaction Db) :
    Transaction Store := do
  let db ← s.db scope
  let db ← action db
  return s.setContent db

/-- Authority is withdrawn in an open file, and the store closes. -/
def withdrawAuthority (s : Store) : Store :=
  let s := if s.database then s.setContent s.content.withdraw else s
  s.crash

end Store

/-- What the process does with the store; it may crash at any moment. -/
inductive StoreCommand
  | crash
  | clear
  | eraseStopped (deleted : Bool)
  | withdrawAuthority
  | begin_ (scope : RoomsAccountScope) (cacheId : Uuid)
  | beginRefused (scope : RoomsAccountScope)
  | authorize (scope : RoomsAccountScope) (owner : ConversationOwner)
  | authorizeStopped (scope : RoomsAccountScope)
  | authorizeRefused (scope : RoomsAccountScope) (owner : ConversationOwner)
  | manifest (scope : RoomsAccountScope) (identity : RoomSyncIdentity) (requested : Option Token)
      (page : MembershipPage) (cacheId : Uuid)
  | discovery (scope : RoomsAccountScope) (identity : RoomSyncIdentity) (after : Option Uuid)
      (page : DiscoveryPage)
  | beginConversation (selection : ConversationSelection) (cacheId : Uuid)
  | restartConversation (selection : ConversationSelection) (cacheId : Uuid)
  | conversation (scope : ConversationScope) (command : ConversationCommand)

/-- The state a command leaves. -/
def StoreCommand.exec : StoreCommand → Store → Transaction Store
  | .crash, s => return s.crash
  | .clear, s => return s.erase
  | .eraseStopped deleted, s => return s.eraseStopped deleted
  | .withdrawAuthority, s => return s.withdrawAuthority
  | .begin_ scope cacheId, s => do
    let s ← s.openDirectory scope
    s.withTransaction scope fun db => return db.beginDirectory cacheId
  | .beginRefused scope, s => s.openDirectory scope
  | .authorize scope owner, s => do
    let s ← (s.openOwner scope).rebind scope owner
    s.withTransaction scope fun db => return db.authorize owner
  | .authorizeStopped scope, s => return s.openOwner scope
  | .authorizeRefused scope owner, s => (s.openOwner scope).rebind scope owner
  | .manifest scope identity requested page cacheId, s =>
    s.withTransaction scope fun db => db.manifest identity requested page cacheId
  | .discovery scope identity after page, s =>
    s.withTransaction scope fun db => db.discoveryPage identity after page
  | .beginConversation selection cacheId, s =>
    s.withTransaction selection.account fun db =>
      (db.beginConversation selection cacheId).map (·.1)
  | .restartConversation selection cacheId, s =>
    s.withTransaction selection.account fun db =>
      return (db.restartConversation selection cacheId).1
  | .conversation scope command, s =>
    s.withTransaction scope.selection.account (command.exec scope)

end Rogichat.Android
