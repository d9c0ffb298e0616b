import Mathlib.Data.List.Sort
import Mathlib.Data.Prod.Lex
import Rogichat.Basic
import Rogichat.Lib.Outcome
import Rogichat.Lib.Table
import Rogichat.Lib.Trace

/-!
# Live sessions and song requests

`live-session.service.ts`, `song-request-queue.service.ts` and `song-request.service.ts` for the
one owner room, each operation one committed transaction under the room lock. A query without an
order, or with ties in its order, may return any of its rows: every command carries the order
`any` in which the database happens to hold the ids. Texts come normalized, and their comparison
is the collation's.
-/

namespace Rogichat.SongLive

open Lib

inductive SongRequestStatus
  | pending | accepted | rejected | playing | completed
  deriving DecidableEq, Repr

inductive SongRequestSource
  | chat | donation | manual | competitor
  deriving DecidableEq, Repr

/-- Whether the song was chosen or drawn. -/
inductive SongRequestType
  | normal | random
  deriving DecidableEq, Repr

inductive SongRequestMode
  | everyone | verifiedOnly | chatOnly
  deriving DecidableEq, Repr

inductive PriceSource
  | song | category | difficulty | default | free
  deriving DecidableEq, Repr

inductive LiveSessionStatus
  | active | ended | paused
  deriving DecidableEq, Repr

inductive LiveSessionType
  | standard | sync
  deriving DecidableEq, Repr

inductive Visibility
  | pub | priv
  deriving DecidableEq, Repr

inductive SongError
  | notFound | invalidRequest | conflict | channelContentIdExhausted
  deriving DecidableEq, Repr

/-- A row of `song_requests`. -/
structure SongRequest where
  id : Nat
  liveSessionId : Nat
  songId : Option Nat := none
  rawArtist : String
  rawTitle : String
  rawMessage : Option String := none
  requesterPlatformId : String
  requesterNickname : String
  status : SongRequestStatus := .pending
  source : SongRequestSource := .chat
  requestType : SongRequestType := .normal
  priority : Int := 0
  queueOrder : Int := 0
  calculatedPrice : Option Nat := none
  priceSource : PriceSource := .free
  requestUserId : Option Uuid := none
  isAnonymous : Bool := false
  playedAt : Option Time := none
  completedAt : Option Time := none
  rejectionReason : Option String := none
  createdAt : Time
  deriving DecidableEq, Repr

/-- A row of `live_sessions`, with its settings row if it has one. -/
structure LiveSession where
  id : Nat
  status : LiveSessionStatus := .active
  sessionType : LiveSessionType := .standard
  visibility : Visibility := .pub
  overlayToken : Nat
  startedAt : Time
  endedAt : Option Time := none
  playbackRevision : Nat := 0
  /-- `requestEnabled` and `paused`. -/
  settings : Option (Bool × Bool) := none
  deriving DecidableEq, Repr

instance : Row SongRequest where
  Key := Nat
  decEq := inferInstance
  keys r := [r.id]
  keyed _ := List.cons_ne_nil _ _

instance : Row LiveSession where
  Key := Nat
  decEq := inferInstance
  keys s := [s.id]
  keyed _ := List.cons_ne_nil _ _

/-- A song of the book, with its categories. -/
structure Song where
  id : Nat
  title : String
  artist : String
  categoryIds : List Nat := []
  deriving DecidableEq, Repr

/-- The channel settings that a request is checked against. -/
structure ChannelSettings where
  maxQueueSize : Nat := 0
  donationOnlyEnabled : Bool := false
  requestMode : SongRequestMode := .everyone
  requireSongMatch : Bool := false
  randomRequestEnabled : Bool := false
  preventDuplicateSongs : Bool := false
  blockedCategoryIds : List Nat := []
  maxRequestsPerUser : Nat := 0
  maxTotalRequests : Nat := 0

/-- What the song book and the database answer: prices, and the collation's comparisons. -/
structure Channel where
  settings : ChannelSettings := {}
  songs : List Song := []
  calculatePrice : Nat → Option Nat × PriceSource := fun _ => (none, .free)
  sameText : String → String → Bool := fun a b => a = b
  containsText : String → String → Bool := fun _ _ => true

/-- The room: its overlay token, the id counter, its sessions and their requests. -/
structure Room where
  overlayToken : Option Nat := none
  counter : Nat := 0
  sessions : Table LiveSession := .empty
  requests : Table SongRequest := .empty

/-! ## Queries -/

/-- The order in which the database holds the rows. -/
abbrev AnyOrder := Nat → Nat

/-- The request is in the queue or playing. -/
def SongRequestStatus.Active (status : SongRequestStatus) : Prop :=
  status = .pending ∨ status = .accepted ∨ status = .playing

instance (status : SongRequestStatus) : Decidable status.Active :=
  inferInstanceAs (Decidable (_ ∨ _ ∨ _))

/-- The request is in the queue. -/
def SongRequestStatus.Waiting (status : SongRequestStatus) : Prop :=
  status = .pending ∨ status = .accepted

instance (status : SongRequestStatus) : Decidable status.Waiting :=
  inferInstanceAs (Decidable (_ ∨ _))

/-- `findFirst` with an `orderBy`, ties as the database has them. -/
def findFirst {ρ κ : Type} [Row ρ] [LinearOrder κ] (t : Table ρ) (p : ρ → Prop) [DecidablePred p]
    (key : ρ → κ) (id : ρ → Nat) (any : AnyOrder) : Option ρ :=
  t.first? p fun a b => toLex (key a, any (id a)) ≤ toLex (key b, any (id b))

/-- `findMany` with an `orderBy`. -/
def findMany {ρ κ : Type} [Row ρ] [LinearOrder κ] (t : Table ρ) (p : ρ → Prop) [DecidablePred p]
    (key : ρ → κ) (id : ρ → Nat) (any : AnyOrder) : List ρ :=
  (t.select p).insertionSort fun a b => toLex (key a, any (id a)) ≤ toLex (key b, any (id b))

/-- `orderBy: { queueOrder: 'asc' }`. -/
def SongRequest.byOrder (r : SongRequest) : Int := r.queueOrder

/-- `orderBy: { queueOrder: 'desc' }`. -/
def SongRequest.byOrderDesc (r : SongRequest) : Int := -r.queueOrder

/-- `orderBy: [{ priority: 'desc' }, { queueOrder: 'asc' }]`. -/
def SongRequest.byPriority (r : SongRequest) : Int ×ₗ Int := toLex (-r.priority, r.queueOrder)

/-- `orderBy: [{ playedAt: 'desc' }, { id: 'desc' }]`; a row that was never played comes last. -/
def SongRequest.byPlayed (r : SongRequest) : Int ×ₗ Int :=
  toLex (-((r.playedAt.map fun t => (t : Int) + 1).getD 0), -(r.id : Int))

/-- `nextChannelContentId`. -/
def nextChannelContentId (room : Room) : Except SongError (Room × Nat) := do
  ensure (room.counter + 1 ≤ 2147483647) .channelContentIdExhausted
  return ({ room with counter := room.counter + 1 }, room.counter + 1)

/-- `playbackRevision: { increment: 1 }`. -/
def bumpRevision (room : Room) (liveSessionId : Nat) : Room :=
  { room with
    sessions := room.sessions.update (fun s => s.id = liveSessionId) fun s =>
      { s with playbackRevision := s.playbackRevision + 1 } }

/-! ## `addToQueue` -/

inductive InsertPosition
  | front | back | after
  deriving DecidableEq, Repr

/-- `RequestData`, its texts normalized. Its callers leave an id of 0 out, as `songId` and as
`insertAfterRequestId`. -/
structure RequestData where
  songId : Option Nat := none
  rawArtist : String
  rawTitle : String
  rawMessage : Option String := none
  requesterPlatformId : String
  requesterNickname : String
  requestUserId : Option Uuid := none
  isAnonymous : Bool := false
  allowManualBypass : Bool := false
  requestType : SongRequestType := .normal
  insertPosition : Option InsertPosition := none
  insertAfterRequestId : Option Nat := none
  deriving DecidableEq, Repr

/-- Only an operator chooses a position. -/
def RequestData.position (data : RequestData) : InsertPosition :=
  if data.allowManualBypass then data.insertPosition.getD .back else .back

/-- `mergeEffectiveSongRequestSettings`, of the two live flags. -/
def LiveSession.requestEnabled (s : LiveSession) : Bool := (s.settings.map Prod.fst).getD true

/-- Requests are paused. -/
def LiveSession.paused (s : LiveSession) : Bool := (s.settings.map Prod.snd).getD false

def countRequests (room : Room) (p : SongRequest → Prop) [DecidablePred p] : Nat :=
  (room.requests.select p).length

/-- The guards that an operator's request bypasses. -/
def SongRequestQueueService.limits (channel : Channel) (room : Room) (liveSessionId : Nat)
    (data : RequestData) : Except SongError Unit :=
  let settings := channel.settings
  if data.allowManualBypass then pure ()
  else do
    ensure (settings.requestMode ≠ .chatOnly ∧ settings.donationOnlyEnabled = false) .invalidRequest
    ensure (settings.maxQueueSize = 0 ∨
      countRequests room (fun r => r.liveSessionId = liveSessionId ∧ r.status.Active) <
        settings.maxQueueSize) .invalidRequest
    ensure (settings.maxTotalRequests = 0 ∨
      countRequests room (fun r => r.liveSessionId = liveSessionId ∧ r.status ≠ .rejected) <
        settings.maxTotalRequests) .invalidRequest
    ensure (settings.maxRequestsPerUser = 0 ∨
      countRequests room (fun r => r.liveSessionId = liveSessionId ∧
        channel.sameText r.requesterPlatformId data.requesterPlatformId ∧ r.status ≠ .rejected) <
        settings.maxRequestsPerUser) .invalidRequest

/-- What a request is for: a song of the book or raw texts. -/
structure Matched where
  songId : Option Nat
  rawArtist : String
  rawTitle : String

/-- The songs a random request may draw from. -/
def SongRequestQueueService.candidates (channel : Channel) (room : Room) (liveSessionId : Nat)
    (data : RequestData) (any : AnyOrder) : List Song :=
  let text := if data.rawTitle ≠ "" then data.rawTitle else data.rawArtist
  let found := channel.songs.filter fun song =>
    (text = "" || channel.containsText song.title text || channel.containsText song.artist text) &&
      song.categoryIds.all fun c => c ∉ channel.settings.blockedCategoryIds
  ((found.insertionSort fun a b => any a.id ≤ any b.id).take 2000).filter fun song =>
    !channel.settings.preventDuplicateSongs || data.allowManualBypass ||
      !decide (room.requests.Has fun r =>
        r.liveSessionId = liveSessionId ∧ r.songId = some song.id ∧ r.status ≠ .rejected)

/-- The song, if any, and the texts; `random` is what `randomInt` drew. -/
def SongRequestQueueService.matchSong (channel : Channel) (room : Room) (liveSessionId : Nat)
    (data : RequestData) (random : Nat) (any : AnyOrder) : Except SongError Matched :=
  let settings := channel.settings
  if data.requestType = .random then do
    ensure (settings.randomRequestEnabled = true) .invalidRequest
    let winner ← require
      ((SongRequestQueueService.candidates channel room liveSessionId data any)[random]?)
      .invalidRequest
    return ⟨some winner.id, winner.artist, winner.title⟩
  else
    match data.songId with
    | some songId => do
      let song ← require (channel.songs.find? fun song => song.id = songId) .notFound
      return ⟨some song.id, song.artist, song.title⟩
    | none => do
      ensure (settings.requireSongMatch = false ∨ data.allowManualBypass = true) .invalidRequest
      return ⟨none, data.rawArtist, data.rawTitle⟩

/-- The row is a request for the same song. -/
def Duplicate (channel : Channel) (liveSessionId : Nat) (song : Matched) (r : SongRequest) : Prop :=
  r.liveSessionId = liveSessionId ∧ r.status ≠ .rejected ∧
    match song.songId with
    | some id => r.songId = some id
    | none => channel.sameText r.rawArtist song.rawArtist ∧ channel.sameText r.rawTitle song.rawTitle

instance (channel : Channel) (liveSessionId : Nat) (song : Matched) :
    DecidablePred (Duplicate channel liveSessionId song) := fun r => by
  unfold Duplicate
  cases song.songId <;> exact inferInstance

/-- The checks on what was matched. -/
def SongRequestQueueService.checkSong (channel : Channel) (room : Room) (liveSessionId : Nat)
    (data : RequestData) (song : Matched) : Except SongError Unit := do
  ensure (song.rawArtist ≠ "" ∨ song.rawTitle ≠ "") .invalidRequest
  ensure (data.allowManualBypass = true ∨ ∀ id ∈ song.songId, ∀ s ∈ channel.songs, s.id = id →
    ∀ c ∈ s.categoryIds, c ∉ channel.settings.blockedCategoryIds) .invalidRequest
  ensure (channel.settings.preventDuplicateSongs = false ∨ data.allowManualBypass = true ∨
    ¬room.requests.Has (Duplicate channel liveSessionId song)) .invalidRequest

/-- Where the request goes, and the rows that make room for it. -/
def SongRequestQueueService.place (room : Room) (liveSessionId : Nat) (data : RequestData)
    (any : AnyOrder) : Except SongError (Room × Int) :=
  match data.position with
  | .after => do
    let afterId ← require data.insertAfterRequestId .invalidRequest
    let after ← require
      (room.requests.find? fun r => r.id = afterId ∧ r.liveSessionId = liveSessionId) .notFound
    let nextOrder := after.queueOrder + 1
    return ({ room with
      requests := room.requests.update
        (fun r => r.liveSessionId = liveSessionId ∧ nextOrder ≤ r.queueOrder)
        fun r => { r with queueOrder := r.queueOrder + 1 } }, nextOrder)
  | .front =>
    let minRow := findFirst room.requests
      (fun r => r.liveSessionId = liveSessionId ∧ r.status ≠ .rejected) SongRequest.byOrder
      SongRequest.id any
    return (room, (minRow.map fun r => r.queueOrder - 1).getD 1)
  | .back =>
    let lastRequest := findFirst room.requests
      (fun r => r.liveSessionId = liveSessionId ∧ r.status ≠ .rejected) SongRequest.byOrderDesc
      SongRequest.id any
    return (room, (lastRequest.map fun r => r.queueOrder + 1).getD 1)

/-- `addToQueue`. -/
def SongRequestQueueService.addToQueue (channel : Channel) (room : Room) (now : Time)
    (liveSessionId : Nat) (data : RequestData) (random : Nat) (any : AnyOrder) :
    Except SongError Room := do
  let session ← require (room.sessions.find? fun s => s.id = liveSessionId) .notFound
  ensure (session.status = .active) .notFound
  ensure (session.requestEnabled = true) .invalidRequest
  ensure (session.paused = false ∨ data.allowManualBypass = true) .invalidRequest
  SongRequestQueueService.limits channel room liveSessionId data
  let song ← SongRequestQueueService.matchSong channel room liveSessionId data random any
  SongRequestQueueService.checkSong channel room liveSessionId data song
  let (room, nextOrder) ← SongRequestQueueService.place room liveSessionId data any
  let (room, id) ← nextChannelContentId room
  let price := (song.songId.map channel.calculatePrice).getD (none, .free)
  let requests ← require
    (room.requests.insert
      { id, liveSessionId, songId := song.songId, rawArtist := song.rawArtist,
        rawTitle := song.rawTitle, rawMessage := data.rawMessage,
        requesterPlatformId := data.requesterPlatformId,
        requesterNickname := data.requesterNickname, source := .manual,
        requestType := data.requestType, priority := 0, queueOrder := nextOrder,
        calculatedPrice := price.1, priceSource := price.2, requestUserId := data.requestUserId,
        isAnonymous := data.isAnonymous, createdAt := now }) .conflict
  return bumpRevision { room with requests } liveSessionId

/-! ## The queue -/

/-- `getQueue`, without the completed. -/
def SongRequestQueueService.getQueue (room : Room) (liveSessionId : Nat) (any : AnyOrder) :
    List SongRequest :=
  findMany room.requests
    (fun r => r.liveSessionId = liveSessionId ∧ r.source ≠ .competitor ∧ r.status.Active)
    SongRequest.byPriority SongRequest.id any

/-- Give the ids the orders after `base`, in turn. -/
def renumber (requests : Table SongRequest) (base : Int) : List Nat → Table SongRequest
  | [] => requests
  | id :: ids =>
    renumber
      (requests.update (fun r => r.id = id) fun r => { r with queueOrder := base + 1 })
      (base + 1) ids

/-- The waiting requests, as `updateOrder` counts them. -/
def pendingRequests (room : Room) (liveSessionId : Nat) (any : AnyOrder) : List SongRequest :=
  findMany room.requests (fun r => r.liveSessionId = liveSessionId ∧ r.status.Waiting)
    (fun r => (toLex (r.queueOrder, r.id) : Int ×ₗ Nat)) SongRequest.id any

/-- The last order of the requests that were or are played. -/
def baseOrder (room : Room) (liveSessionId : Nat) (any : AnyOrder) : Int :=
  let base := findFirst room.requests
    (fun r => r.liveSessionId = liveSessionId ∧ (r.status = .completed ∨ r.status = .playing))
    SongRequest.byOrderDesc SongRequest.id any
  (base.map SongRequest.queueOrder).getD 0

/-- `updateOrder`: the position counts the waiting requests from one. -/
def SongRequestQueueService.updateOrder (room : Room) (requestId newOrderInPending : Nat)
    (any : AnyOrder) : Except SongError Room := do
  let current ← require (room.requests.find? fun r => r.id = requestId) .invalidRequest
  ensure current.status.Waiting .invalidRequest
  let pending := pendingRequests room current.liveSessionId any
  ensure (1 ≤ newOrderInPending ∧ newOrderInPending ≤ pending.length) .invalidRequest
  let others := (pending.map SongRequest.id).filter fun id => id ≠ requestId
  let reordered := others.insertIdx (newOrderInPending - 1) requestId
  return bumpRevision
    { room with
      requests := renumber room.requests (baseOrder room current.liveSessionId any) reordered }
    current.liveSessionId

/-- `removeFromQueue`: the row goes, and every later one moves up. -/
def SongRequestQueueService.removeFromQueue (room : Room) (requestId : Nat) :
    Except SongError Room := do
  let request ← require (room.requests.find? fun r => r.id = requestId) .notFound
  let requests := (room.requests.delete fun r => r.id = requestId).update
    (fun r => r.liveSessionId = request.liveSessionId ∧ request.queueOrder < r.queueOrder)
    fun r => { r with queueOrder := r.queueOrder - 1 }
  return bumpRevision { room with requests } request.liveSessionId

/-! ## Playing -/

/-- Set a status, with the columns that go with it. -/
def SongRequest.withStatus (r : SongRequest) (now : Time) (status : SongRequestStatus)
    (rejectionReason : Option String) : SongRequest :=
  { r with
    status
    playedAt :=
      match status with
      | .playing => some now
      | .pending => none
      | _ => r.playedAt
    completedAt :=
      match status with
      | .completed => some now
      | .playing | .pending => none
      | _ => r.completedAt
    rejectionReason :=
      match status with
      | .rejected => rejectionReason
      | .accepted => r.rejectionReason
      | _ => none }

/-- Change one request. -/
def setRequest (room : Room) (requestId : Nat) (f : SongRequest → SongRequest)
    (hf : Table.Keeps f := by exact ⟨fun _ => rfl⟩) : Room :=
  { room with requests := room.requests.update (fun r => r.id = requestId) f hf }

/-- `updateStatus`. -/
def SongRequestService.updateStatus (room : Room) (now : Time) (requestId : Nat)
    (status : SongRequestStatus) (rejectionReason : Option String) : Except SongError Room := do
  let existing ← require (room.requests.find? fun r => r.id = requestId) .notFound
  return bumpRevision
    (setRequest room requestId fun r => r.withStatus now status rejectionReason)
    existing.liveSessionId

/-- The row `getNowPlaying` reads. -/
def nowPlaying (room : Room) (liveSessionId : Nat) (any : AnyOrder) : Option SongRequest :=
  findFirst room.requests (fun r => r.liveSessionId = liveSessionId ∧ r.status = .playing)
    SongRequest.byPlayed SongRequest.id any

/-- The waiting request that is next. -/
def nextRequest (room : Room) (liveSessionId : Nat) (any : AnyOrder) : Option SongRequest :=
  findFirst room.requests (fun r => r.liveSessionId = liveSessionId ∧ r.status.Waiting)
    SongRequest.byPriority SongRequest.id any

/-- Complete a request where there is one. -/
def completeRequest (room : Room) (now : Time) : Option SongRequest → Room
  | none => room
  | some current =>
    setRequest room current.id fun r => { r with status := .completed, completedAt := some now }

/-- `playNext`: a session that is not active, or has nothing waiting, stays as it is. -/
def SongRequestService.playNext (room : Room) (now : Time) (liveSessionId : Nat) (any : AnyOrder) :
    Room :=
  if room.sessions.Has fun s => s.id = liveSessionId ∧ s.status = .active then
    match nextRequest room liveSessionId any with
    | none => room
    | some next =>
      bumpRevision
        (setRequest (completeRequest room now (nowPlaying room liveSessionId any)) next.id fun r =>
          { r with status := .playing, playedAt := some now })
        liveSessionId
  else room

/-- `reason || '스킵됨'`. -/
def skipReason : Option String → String
  | some reason => if reason = "" then "스킵됨" else reason
  | none => "스킵됨"

/-- `skipCurrent`. -/
def SongRequestService.skipCurrent (room : Room) (now : Time) (liveSessionId : Nat)
    (reason : Option String) (any : AnyOrder) : Room :=
  let room :=
    match nowPlaying room liveSessionId any with
    | none => room
    | some current =>
      setRequest room current.id fun r =>
        { r with status := .rejected, rejectionReason := some (skipReason reason) }
  SongRequestService.playNext room now liveSessionId any

/-- `playNow`: the current request is any that plays. -/
def SongRequestService.playNow (room : Room) (now : Time) (requestId : Nat) (any : AnyOrder) :
    Except SongError Room := do
  let request ← require (room.requests.find? fun r => r.id = requestId) .notFound
  let current := findFirst room.requests
    (fun r => r.liveSessionId = request.liveSessionId ∧ r.status = .playing) (fun _ => ())
    SongRequest.id any
  let room := completeRequest room now (current.filter fun r => r.id ≠ requestId)
  SongRequestService.updateStatus room now requestId .playing none

/-- `clearQueue`. -/
def SongRequestService.clearQueue (room : Room) (liveSessionId : Nat) : Room :=
  let cleared := { room with
    requests := room.requests.delete fun r => r.liveSessionId = liveSessionId ∧ r.status = .pending }
  if room.requests.Has fun r => r.liveSessionId = liveSessionId ∧ r.status = .pending then
    bumpRevision cleared liveSessionId
  else cleared

/-! ## Sessions -/

/-- The session is the one that is live. -/
def ActiveStandard (s : LiveSession) : Prop := s.status = .active ∧ s.sessionType = .standard

instance : DecidablePred ActiveStandard := fun _ => inferInstanceAs (Decidable (_ ∧ _))

/-- `channelOverlayToken`; `drawn` is what `randomBytes` gave. -/
def LiveSessionService.channelOverlayToken (room : Room) (drawn : Nat) : Room × Nat :=
  match room.overlayToken with
  | some token => (room, token)
  | none => ({ room with overlayToken := some drawn }, drawn)

/-- `startSession`. -/
def LiveSessionService.startSession (room : Room) (now : Time) (practiceMode : Bool)
    (drawn : Nat) : Except SongError Room := do
  ensure (¬room.sessions.Has ActiveStandard) .invalidRequest
  let (room, overlayToken) := LiveSessionService.channelOverlayToken room drawn
  let (room, id) ← nextChannelContentId room
  let (room, _) ← nextChannelContentId room
  let sessions ← require
    (room.sessions.insert
      { id, overlayToken, visibility := if practiceMode then .priv else .pub, startedAt := now,
        playbackRevision := 1, settings := some (true, false) }) .conflict
  return { room with sessions }

/-- The rows of a clone: every request of the source, numbered anew. -/
def cloneRequests (now : Time) (liveSessionId : Nat) :
    List SongRequest → Nat → Room → Except SongError Room
  | [], _, room => return room
  | request :: rest, index, room => do
    let (room, id) ← nextChannelContentId room
    let requests ← require
      (room.requests.insert
        { request with id, liveSessionId, queueOrder := (index : Int) + 1, createdAt := now })
      .conflict
    cloneRequests now liveSessionId rest (index + 1) { room with requests }

/-- `cloneSession`. -/
def LiveSessionService.cloneSession (room : Room) (now : Time) (sourceSessionId drawn : Nat)
    (any : AnyOrder) : Except SongError Room := do
  let source ← require
    (room.sessions.find? fun s => s.id = sourceSessionId ∧ s.sessionType = .standard) .notFound
  let songRequests := findMany room.requests (fun r => r.liveSessionId = sourceSessionId)
    (fun r => (toLex (r.queueOrder, r.createdAt) : Int ×ₗ Nat)) SongRequest.id any
  ensure (¬room.sessions.Has ActiveStandard) .conflict
  let (room, overlayToken) := LiveSessionService.channelOverlayToken room drawn
  let (room, id) ← nextChannelContentId room
  let (room, _) ← nextChannelContentId room
  let sessions ← require
    (room.sessions.insert
      { id, overlayToken, startedAt := now, playbackRevision := 1,
        settings := some (source.requestEnabled, false) }) .conflict
  cloneRequests now id songRequests 0 { room with sessions }

/-- `endSession`: a practice session's requests are discarded. -/
def LiveSessionService.endSession (room : Room) (now : Time) (sessionId : Nat) :
    Except SongError Room := do
  let session ← require
    (room.sessions.find? fun s => s.id = sessionId ∧ s.status = .active) .notFound
  let sessions := room.sessions.update (fun s => s.id = sessionId) fun s =>
    { s with status := .ended, endedAt := some now, playbackRevision := s.playbackRevision + 1 }
  let requests :=
    if session.visibility = .priv then room.requests.delete fun r => r.liveSessionId = sessionId
    else room.requests
  return { room with sessions, requests }

/-! ## Commands -/

/-- The commands on sessions and requests. -/
inductive SongCommand
  | startSession (practiceMode : Bool) (drawn : Nat)
  | cloneSession (sourceSessionId drawn : Nat)
  | endSession (sessionId : Nat)
  | addToQueue (liveSessionId : Nat) (data : RequestData) (random : Nat)
  | updateStatus (requestId : Nat) (status : SongRequestStatus) (rejectionReason : Option String)
  | updateOrder (requestId newOrderInPending : Nat)
  | removeFromQueue (requestId : Nat)
  | playNext (liveSessionId : Nat)
  | skipCurrent (liveSessionId : Nat) (reason : Option String)
  | playNow (requestId : Nat)
  | clearQueue (liveSessionId : Nat)

/-- A command of the room, at a time, with the database's order of equal rows. -/
def exec (channel : Channel) (c : SongCommand) (now : Time) (any : AnyOrder) (room : Room) :
    Except SongError Room :=
  match c with
  | .startSession practiceMode drawn =>
    LiveSessionService.startSession room now practiceMode drawn
  | .cloneSession sourceSessionId drawn =>
    LiveSessionService.cloneSession room now sourceSessionId drawn any
  | .endSession sessionId => LiveSessionService.endSession room now sessionId
  | .addToQueue liveSessionId data random =>
    SongRequestQueueService.addToQueue channel room now liveSessionId data random any
  | .updateStatus requestId status rejectionReason =>
    SongRequestService.updateStatus room now requestId status rejectionReason
  | .updateOrder requestId newOrderInPending =>
    SongRequestQueueService.updateOrder room requestId newOrderInPending any
  | .removeFromQueue requestId => SongRequestQueueService.removeFromQueue room requestId
  | .playNext liveSessionId => .ok (SongRequestService.playNext room now liveSessionId any)
  | .skipCurrent liveSessionId reason =>
    .ok (SongRequestService.skipCurrent room now liveSessionId reason any)
  | .playNow requestId => SongRequestService.playNow room now requestId any
  | .clearQueue liveSessionId => .ok (SongRequestService.clearQueue room liveSessionId)

end Rogichat.SongLive
