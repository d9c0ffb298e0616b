import Rogichat.Ios.Conversation
import Rogichat.Lib.Paging

/-!
# The room directory of the iOS store

The memberships of the account are read as a manifest, page by page, into `staging`; the page
that ends the manifest puts the staged rows in the place of `memberships` and purges what was
stored for rooms that are gone or whose scope or revision changed. A crash is a store that is
opened again (`open_`): it drops the unfinished manifest. New run and cache ids are arguments.
-/

namespace Rogichat.Ios

open Lib

/-- A decoded manifest page. A reset carries nothing; any other page belongs to a generation
and is complete exactly when it has no next cursor. -/
structure MembershipPage where
  resetRequired : Bool
  rooms : List MembershipRoom
  generation : Option Token
  complete : Bool
  nextCursor : Option Token
  distinct : (rooms.map (·.id)).Nodup
  reset : resetRequired = true →
    rooms = [] ∧ generation = none ∧ complete = false ∧ nextCursor = none
  page : resetRequired = false →
    generation ≠ none ∧ (complete = true ↔ nextCursor = none) ∧ (complete = true ∨ rooms ≠ [])

/-- The listing a page was asked for, and its cursor. -/
structure ManifestRequest where
  run : Uuid
  deviceID : Uuid
  cacheID : Uuid
  cursor : Option Token := none

/-- A page of the rooms that may be joined. -/
structure DiscoveryPage where
  rooms : List Uuid
  next : Option Uuid

/-- What a room command does. -/
inductive RoomCommandAction
  | join | leave
  deriving DecidableEq

/-- A join or leave as the user confirmed it. -/
structure RoomCommandIntent where
  scope : RoomsScope
  roomID : Uuid
  action : RoomCommandAction
  cycle : Uuid
  membershipScope : Option Token

namespace Db

/-- `RoomsDatabase.init`: a cold process never resumes a cursor bound to the old session. -/
def open_ (s : Db) (d : RoomsDatabase) : Transaction Db := do
  ensure (∀ m ∈ s.metadata, m.partition = d.scope.partition) (.rooms .persistence)
  return { s with
    metadata := some { owner := d.scope.clientScope, partition := d.scope.partition }
    manifest := none
    staging := .empty
    visitedCursors := .empty
    discovery := [] }

def setMetadata (s : Db) (f : Metadata → Metadata) : Db := { s with metadata := s.metadata.map f }

/-! ## Discovery -/

/-- Discovery starts from its first page. -/
def beginDiscovery (s : Db) (revision : Uuid) : Db :=
  { s with discovery := [] }.setMetadata fun m =>
    { m with discoveryRevision := some revision, discoveryNext := none, discoveryComplete := false }

/-- A page of rooms after the one asked for. -/
def discoveryPage (s : Db) (page : DiscoveryPage) (revision : Uuid) (after : Option Uuid) :
    Transaction Db := do
  let m ← require s.metadata (.rooms .staleScope)
  ensure (m.discoveryRevision = some revision ∧ m.discoveryNext = after ∧
    m.discoveryComplete = false) (.rooms .staleScope)
  ensure (∀ a ∈ after, ∀ r ∈ page.rooms, a < r) (.rooms .invalidResponse)
  ensure (page.rooms.IsChain (· < ·)) (.rooms .invalidResponse)
  ensure (∀ r ∈ page.rooms, r ∉ s.discovery) (.rooms .invalidResponse)
  return { s with discovery := s.discovery ++ page.rooms }.setMetadata fun m =>
    { m with discoveryNext := page.next, discoveryComplete := page.next.isNone }

/-! ## The manifest -/

/-- A new listing stages from nothing; nothing is confirmed until it is complete. -/
def startManifest (s : Db) (run cache : Uuid) : Db :=
  { s with
    staging := .empty
    visitedCursors := .empty
    manifest := some { run := run, cache := cache } }.setMetadata fun m => { m with confirmed := false }

/-- The room is listed. -/
def Listed (s : Db) (room : Uuid) : Prop := s.memberships.Has fun m => m.id = room

instance (s : Db) (room : Uuid) : Decidable (s.Listed room) :=
  inferInstanceAs (Decidable (s.memberships.Has fun m => m.id = room))

/-- The conversation is not one of the listed room under its scope and revision. -/
def Stale (s : Db) (r : ConversationRow) : Prop :=
  ∀ m ∈ s.membership r.room,
    m.membershipScope ≠ r.membership ∨ m.authorizationRevision ≠ r.authority

instance (s : Db) : DecidablePred s.Stale := fun r =>
  inferInstanceAs (Decidable (∀ m ∈ s.membership r.room,
    m.membershipScope ≠ r.membership ∨ m.authorizationRevision ≠ r.authority))

/-- The room has a stale conversation. -/
def StaleRoom (s : Db) (room : Uuid) : Prop :=
  s.conversation.Has fun r => r.room = room ∧ (s.membership room = none ∨ s.Stale r)

instance (s : Db) : DecidablePred s.StaleRoom := fun room =>
  inferInstanceAs (Decidable (s.conversation.Has fun r =>
    r.room = room ∧ (s.membership room = none ∨ s.Stale r)))

theorem keeps_payload : Table.Keeps fun r : TextCommandRow => { r with payload := none } :=
  ⟨fun _ => rfl⟩

/-- What belongs to no listed membership is dropped. -/
def reconcileConversationAuthority (s : Db) : Db :=
  let commands := (s.textCommands.delete fun r => ¬s.Listed r.room).delete fun r =>
    s.memberships.Has fun m => m.id = r.room ∧ m.membershipScope ≠ r.membership
  { s with
    conversation := s.conversation.delete fun r => s.StaleRoom r.room
    timeline := s.timeline.delete fun r => s.StaleRoom r.room
    conversationProfiles := s.conversationProfiles.delete fun r => s.StaleRoom r.room
    profileStaging := s.profileStaging.delete fun r => s.StaleRoom r.room
    conversationCursors := s.conversationCursors.delete fun r => s.StaleRoom r.room
    -- An unacknowledged intent under the same scope survives with its payload.
    textCommands := commands.update
      (fun r => s.StaleRoom r.room ∧
        (r.phase = .committed ∨ r.phase = .settled ∨ r.phase = .rejected))
      (fun r => { r with payload := none }) keeps_payload }

/-- The staged rows become the memberships. -/
def installManifest (s : Db) : Db :=
  { s with memberships := s.staging, staging := .empty }.reconcileConversationAuthority

/-- The last page installs what was staged. -/
def completeManifest (s : Db) (complete : Bool) : Db :=
  if complete then
    let s := s.installManifest.setMetadata fun m => { m with confirmed := true }
    { s with manifest := s.manifest.map fun m => { m with complete := true } }
  else s

/-- A cursor that was visited is not visited again. -/
def visitCursor (s : Db) (next requested : Option Token) : Transaction Db :=
  match next with
  | none => return s
  | some value => do
    ensure (next ≠ requested) (.rooms .invalidResponse)
    let visited ← require (s.visitedCursors.insert ⟨value⟩) (.rooms .invalidResponse)
    return { s with visitedCursors := visited }

/-- A page of memberships is staged, or the listing starts anew. -/
def manifestPage (s : Db) (page : MembershipPage) (request : ManifestRequest)
    (run cache : Uuid) : Transaction Db := do
  let row ← require s.manifest (.rooms .staleScope)
  ensure (row.run = request.run ∧ row.cache = request.cacheID ∧ row.complete = false ∧
    row.next = request.cursor) (.rooms .staleScope)
  if page.resetRequired then
    return s.startManifest run cache
  else
    ensure (row.generation = none ∨ row.generation = page.generation) (.rooms .invalidResponse)
    let s ← s.visitCursor page.nextCursor request.cursor
    let staging ← require (s.staging.insertAll page.rooms) (.rooms .invalidResponse)
    ensure (staging.rows.length ≤ 10000) (.rooms .incomplete)
    let s := { s with
      staging := staging
      manifest := some { row with generation := page.generation, next := page.nextCursor } }
    return s.completeManifest page.complete

/-- A join is of a discovered room, a leave of a listed one under the scope shown. -/
def Selects (s : Db) (intent : RoomCommandIntent) : Prop :=
  match intent.action with
  | .join => s.membership intent.roomID = none ∧ intent.roomID ∈ s.discovery
  | .leave => ∃ m ∈ s.membership intent.roomID, some m.membershipScope = intent.membershipScope

instance (s : Db) (intent : RoomCommandIntent) : Decidable (s.Selects intent) := by
  unfold Selects
  split <;> infer_instance

/-- A confirmed join or leave; the directory is listed anew afterwards. -/
def prepareCommand (s : Db) (d : RoomsDatabase) (intent : RoomCommandIntent) (run cache : Uuid) :
    Transaction Db := do
  ensure (intent.scope = d.scope ∧ s.Confirmed ∧ s.completeRun = some intent.cycle)
    (.rooms .confirmationChanged)
  ensure (s.Selects intent) (.rooms .confirmationChanged)
  let s := { s with discovery := [] }.setMetadata fun m =>
    { m with discoveryRevision := none, discoveryNext := none, discoveryComplete := false }
  return s.startManifest run cache

/-! ## Opening a room -/

/-- The cache of the room starts anew, under the scope and revision of the membership. -/
def newConversation (s : Db) (room : MembershipRoom) (cycle cache profileCache : Uuid) : Db :=
  { s with
    conversation := s.conversation.put
      { room := room.id
        cache := cache
        profileCache := profileCache
        membership := room.membershipScope
        authority := room.authorizationRevision
        cycle := cycle }
    timeline := s.timeline.delete fun r => r.room = room.id
    conversationProfiles := s.conversationProfiles.delete fun r => r.room = room.id
    profileStaging := s.profileStaging.delete fun r => r.room = room.id
    conversationCursors := s.conversationCursors.delete fun r => r.room = room.id }

theorem keeps_unknown : Table.Keeps fun r : TextCommandRow => { r with phase := .unknown } :=
  ⟨fun _ => rfl⟩

/-- Interrupted work is looked up, never sent again; commands of an old scope are dropped. -/
def parkCommands (s : Db) (room : MembershipRoom) : Db :=
  { s with
    textCommands := (s.textCommands.update
        (fun r => r.room = room.id ∧ (r.phase = .queued ∨ r.phase = .sending))
        (fun r => { r with phase := .unknown }) keeps_unknown).delete
      fun r => r.room = room.id ∧ r.membership ≠ room.membershipScope }

/-- The room's conversation, if it was opened under the scope and revision of the membership. -/
def sameAuthority (s : Db) (room : MembershipRoom) : Option ConversationRow :=
  (s.conversationRow room.id).filter fun r =>
    r.membership = room.membershipScope ∧ r.authority = room.authorizationRevision

/-- The room of a complete listing is opened with the cache it has, or with a new one. -/
def beginConversation (s : Db) (d : RoomsDatabase) (roomID cycle cache profileCache : Uuid) :
    Transaction (Db × ConversationScope) := do
  ensure (s.Confirmed ∧ s.completeRun = some cycle) (.conversation .staleScope)
  let room ← require (s.membership roomID) (.conversation .staleScope)
  match s.sameAuthority room with
  | some row =>
    return ((s.setConversation roomID fun r => { r with cycle := cycle }).parkCommands room,
      ⟨d.scope, room, row.cache, row.profileCache, d.deviceID, cycle⟩)
  | none =>
    return ((s.newConversation room cycle cache profileCache).parkCommands room,
      ⟨d.scope, room, cache, profileCache, d.deviceID, cycle⟩)

end Db

/-! ## The store -/

/-- What the process does with the database. -/
inductive StoreCommand
  | open_
  | beginDiscovery (revision : Uuid)
  | discoveryPage (page : DiscoveryPage) (revision : Uuid) (after : Option Uuid)
  | beginManifest (run cache : Uuid)
  | manifestPage (page : MembershipPage) (request : ManifestRequest) (run cache : Uuid)
  | prepareCommand (intent : RoomCommandIntent) (run cache : Uuid)
  | beginConversation (roomID cycle cache profileCache : Uuid)
  | conversation (scope : ConversationScope) (command : ConversationCommand)

/-- One transaction of an open store. Only opening the store is outside its owner's gate. -/
def StoreCommand.exec (d : RoomsDatabase) : StoreCommand → Db → Transaction Db
  | .open_, s => s.open_ d
  | .beginDiscovery revision, s => do
    s.verify d
    return s.beginDiscovery revision
  | .discoveryPage page revision after, s => do
    s.verify d
    s.discoveryPage page revision after
  | .beginManifest run cache, s => do
    s.verify d
    return s.startManifest run cache
  | .manifestPage page request run cache, s => do
    s.verify d
    s.manifestPage page request run cache
  | .prepareCommand intent run cache, s => do
    s.verify d
    s.prepareCommand d intent run cache
  | .beginConversation roomID cycle cache profileCache, s => do
    s.verify d
    let result ← s.beginConversation d roomID cycle cache profileCache
    return result.1
  | .conversation scope command, s => command.exec d scope s

end Rogichat.Ios
