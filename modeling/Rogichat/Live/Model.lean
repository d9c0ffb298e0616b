import Rogichat.SongLive.Model

/-!
# The live room

The room of `Rogichat.SongLive` with a clock, and with what its commands read and write beside
sessions and requests: the settings of the channel, which the first read creates, and the stock of
the omakase. A command holds the room's lock and is one transaction. Every id is drawn from one
counter, which every other writer of channel content draws from too.

The song tables are read and never written here; what they answer comes with the command.
The ledger keeps a row for every change of the omakase count, which no command reads back;
only the id it draws is kept.
-/

namespace Rogichat.Live

open Lib SongLive

inductive LiveError
  /-- An error of the sessions and requests. -/
  | song (error : SongError)
  | badRequest (text : String)
  | conflictException (text : String)
  | notFoundException (text : String)
  deriving DecidableEq

/-- The row of `channel_omakase_settings`. -/
structure ChannelOmakaseSettings where
  enabled : Bool := false
  count : Int := 0
  deriving DecidableEq

/-- The row of `channel_song_request_settings` as it is created. -/
def createdSettings : ChannelSettings where
  maxQueueSize := 50
  requireSongMatch := true
  randomRequestEnabled := true
  maxTotalRequests := 50

/-- The room with what its commands read beside it. -/
structure Store where
  room : SongLive.Room := {}
  now : Time := 0
  channelSettings : Option ChannelSettings := none
  omakaseSettings : Option ChannelOmakaseSettings := none

/-! ## Request texts -/

/-- The characters `String.prototype.trim` takes away. -/
def isTrimmed (c : Char) : Bool :=
  (9 ≤ c.toNat && c.toNat ≤ 13) || (0x2000 ≤ c.toNat && c.toNat ≤ 0x200A) ||
    [0x20, 0xA0, 0x1680, 0x2028, 0x2029, 0x202F, 0x205F, 0x3000, 0xFEFF].contains c.toNat

/-- `String.prototype.trim`. -/
def trim (text : String) : String :=
  String.ofList ((text.toList.dropWhile isTrimmed).reverse.dropWhile isTrimmed).reverse

/-- `String.prototype.length`: a character beyond the basic plane counts twice. -/
def utf16Length (text : String) : Nat :=
  (text.toList.map fun c => if 0x10000 ≤ c.toNat then 2 else 1).sum

/-- A text that must not be empty, up to a length. -/
def normalizeRequiredText (value : String) (maxLength : Nat) : Except SongError String := do
  ensure (trim value ≠ "" ∧ utf16Length (trim value) ≤ maxLength) .invalidRequest
  return trim value

/-- An absent text and a blank one are the same. -/
def normalizeOptionalText (value : Option String) (maxLength : Nat) :
    Except SongError (Option String) := do
  let text := (value.map trim).getD ""
  ensure (utf16Length text ≤ maxLength) .invalidRequest
  return if text = "" then none else some text

/-- The texts of a request, trimmed and bounded; a missing artist or title is the empty text. -/
def normalize (data : RequestData) : Except SongError RequestData := do
  let rawArtist ← normalizeOptionalText data.rawArtist 255
  let rawTitle ← normalizeOptionalText data.rawTitle 255
  let rawMessage ← normalizeOptionalText data.rawMessage 1000
  let requesterPlatformId ← normalizeRequiredText data.requesterPlatformId 64
  let requesterNickname ← normalizeRequiredText data.requesterNickname 255
  return { data with
    rawArtist := rawArtist.getD ""
    rawTitle := rawTitle.getD ""
    rawMessage
    requesterPlatformId
    requesterNickname }

namespace Store

/-! ## Ids and settings -/

/-- A step of the sessions and requests, as a step of the store. -/
def inRoom (s : Store) (step : Except SongError SongLive.Room) : Except LiveError Store := do
  let room ← step.mapError .song
  return { s with room }

/-- Draw an id that no table of the model keeps. -/
def drawContentId (s : Store) : Except LiveError Store :=
  s.inRoom ((nextChannelContentId s.room).map Prod.fst)

/-- `getByChannelId`, which creates the row on its first read. -/
def getByChannelId (s : Store) : Except LiveError (ChannelSettings × Store) :=
  match s.channelSettings with
  | some existing => return (existing, s)
  | none => do
    let s ← s.drawContentId
    return (createdSettings, { s with channelSettings := some createdSettings })

structure UpdateChannelSongRequestSettingsDto where
  maxQueueSize : Option Nat := none
  donationOnlyEnabled : Option Bool := none
  requestMode : Option SongRequestMode := none
  requireSongMatch : Option Bool := none
  randomRequestEnabled : Option Bool := none
  preventDuplicateSongs : Option Bool := none
  blockedCategoryIds : Option (List Nat) := none
  maxRequestsPerUser : Option Nat := none
  maxTotalRequests : Option Nat := none

/-- `toData`: only the fields that were sent are written. -/
def UpdateChannelSongRequestSettingsDto.toData (dto : UpdateChannelSongRequestSettingsDto)
    (row : ChannelSettings) : ChannelSettings where
  maxQueueSize := dto.maxQueueSize.getD row.maxQueueSize
  donationOnlyEnabled := dto.donationOnlyEnabled.getD row.donationOnlyEnabled
  requestMode := dto.requestMode.getD row.requestMode
  requireSongMatch := dto.requireSongMatch.getD row.requireSongMatch
  randomRequestEnabled := dto.randomRequestEnabled.getD row.randomRequestEnabled
  preventDuplicateSongs := dto.preventDuplicateSongs.getD row.preventDuplicateSongs
  blockedCategoryIds := dto.blockedCategoryIds.getD row.blockedCategoryIds
  maxRequestsPerUser := dto.maxRequestsPerUser.getD row.maxRequestsPerUser
  maxTotalRequests := dto.maxTotalRequests.getD row.maxTotalRequests

/-- The upsert of the channel's row; the id of its create branch is drawn either way. -/
def updateChannelSettings (s : Store) (dto : UpdateChannelSongRequestSettingsDto) :
    Except LiveError Store := do
  let s ← s.drawContentId
  return { s with channelSettings := some (dto.toData (s.channelSettings.getD createdSettings)) }

/-- The two flags a settings update writes: closing requests also ends a pause. -/
def liveScope (requestEnabled paused : Option Bool) (row : Bool × Bool) : Bool × Bool :=
  (requestEnabled.getD row.1, if requestEnabled = some false then false else paused.getD row.2)

/-- The settings of a session and of its channel. -/
def updateSettings (s : Store) (sessionId : Nat) (requestEnabled paused : Option Bool)
    (dto : UpdateChannelSongRequestSettingsDto) : Except LiveError Store := do
  let session ← require (s.room.sessions.find? fun l => l.id = sessionId) (.song .notFound)
  let settings ← require session.settings (.song .notFound)
  let sessions := s.room.sessions.update (fun l => l.id = session.id) fun l =>
    { l with settings := some (liveScope requestEnabled paused settings) }
  let s : Store := { s with room := { s.room with sessions } }
  let s ← s.updateChannelSettings dto
  return { s with room := bumpRevision s.room session.id }

/-! ## Sessions and requests -/

/-- A command on sessions and requests. Starting, cloning and adding read the settings of the
channel once their own first checks have passed; `updateQueueOrder` looks the request up before it
calls `updateOrder`. -/
def song (s : Store) (songs : Channel) (any : AnyOrder) : SongCommand → Except LiveError Store
  | .startSession practiceMode drawn => do
    ensure (¬s.room.sessions.Has ActiveStandard) (.song .invalidRequest)
    let (_, s) ← s.getByChannelId
    s.inRoom (LiveSessionService.startSession s.room s.now practiceMode drawn)
  | .cloneSession sourceSessionId drawn => do
    let _ ← require
      (s.room.sessions.find? fun l => l.id = sourceSessionId ∧ l.sessionType = .standard)
      (.song .notFound)
    ensure (¬s.room.sessions.Has ActiveStandard) (.song .conflict)
    let (_, s) ← s.getByChannelId
    s.inRoom (LiveSessionService.cloneSession s.room s.now sourceSessionId drawn any)
  | .addToQueue liveSessionId data random => do
    let data ← (normalize data).mapError .song
    let session ← require (s.room.sessions.find? fun l => l.id = liveSessionId) (.song .notFound)
    ensure (session.status = .active) (.song .notFound)
    let (settings, s) ← s.getByChannelId
    s.inRoom (SongRequestQueueService.addToQueue { songs with settings } s.room s.now liveSessionId
      data random any)
  | .updateOrder requestId newOrder => do
    let _ ← require (s.room.requests.find? fun r => r.id = requestId) (.song .notFound)
    s.inRoom (SongRequestQueueService.updateOrder s.room requestId newOrder any)
  | c => s.inRoom (exec songs c s.now any s.room)

/-! ## Omakase -/

/-- The omakase settings, created with their defaults. -/
def getOrCreateSettings (s : Store) : Except LiveError (ChannelOmakaseSettings × Store) :=
  match s.omakaseSettings with
  | some existing => return (existing, s)
  | none => do
    let s ← s.drawContentId
    return ({}, { s with omakaseSettings := some {} })

def validateSession (s : Store) (liveSessionId : Nat) : Except LiveError Unit :=
  ensure (s.room.sessions.Has fun l => l.id = liveSessionId)
    (.badRequest "이 채널의 라이브 세션이 아닙니다.")

theorem keeps_playbackRevision : Table.Keeps fun l : LiveSession =>
    { l with playbackRevision := l.playbackRevision + 1 } := ⟨fun _ => rfl⟩

/-- The settings, and a new revision for the session that is live. -/
def updateOmakaseSettings (s : Store) (enabled : Option Bool) : Except LiveError Store := do
  let (settings, s) ← s.getOrCreateSettings
  let sessions := s.room.sessions.update ActiveStandard
    (fun l => { l with playbackRevision := l.playbackRevision + 1 }) keeps_playbackRevision
  return { s with
    omakaseSettings := some { settings with enabled := enabled.getD settings.enabled }
    room := { s.room with sessions } }

/-- A change of the count with its ledger row. -/
def changeCount (s : Store) (liveSessionId : Nat) (delta : Int) : Except LiveError Store :=
  if delta = 0 then do
    let (_, s) ← s.getOrCreateSettings
    return s
  else do
    let settings ← require s.omakaseSettings (.notFoundException "오마카세 설정을 찾을 수 없습니다.")
    ensure (0 ≤ settings.count + delta)
      (.conflictException "오마카세 개수는 0보다 작을 수 없습니다.")
    let s ← s.drawContentId
    return { s with
      omakaseSettings := some { settings with count := settings.count + delta }
      room := bumpRevision s.room liveSessionId }

/-- The count moves by a difference, never below zero. -/
def manualAdjust (s : Store) (liveSessionId : Nat) (delta : Int) : Except LiveError Store :=
  if delta = 0 then do
    let (_, s) ← s.getOrCreateSettings
    return s
  else do
    s.validateSession liveSessionId
    s.changeCount liveSessionId delta

def setCount (s : Store) (liveSessionId : Nat) (count : Int) : Except LiveError Store := do
  s.validateSession liveSessionId
  let (settings, s) ← s.getOrCreateSettings
  let s : Store := { s with omakaseSettings := some { settings with count } }
  if count = settings.count then return s
  else do
    let s ← s.drawContentId
    return { s with room := bumpRevision s.room liveSessionId }

/-- The created request, whose id is the one drawn last, plays at once when `playNow` says so; the
count goes down by one. -/
def consumeWithSongRequest (s : Store) (songs : Channel) (any : AnyOrder)
    (liveSessionId random : Nat) (data : RequestData) (playNow : Bool) :
    Except LiveError Store := do
  s.validateSession liveSessionId
  let (current, s) ← s.getOrCreateSettings
  ensure current.enabled (.badRequest "오마카세가 꺼져 있습니다.")
  ensure (0 < current.count) (.conflictException "사용 가능한 오마카세가 없습니다.")
  let s ← s.song songs any (.addToQueue liveSessionId data random)
  let created := s.room.counter
  let s ← (if playNow then s.song songs any (.playNow created) else pure s)
  s.changeCount liveSessionId (-1)

end Store

/-! ## The room as a system -/

/-- The commands of the room; `tick` and `drawContentId` are the clock and the other writers of
channel content. -/
inductive LiveCommand
  | tick (seconds : Nat)
  | drawContentId
  | song (songs : Channel) (c : SongCommand)
  | updateSettings (sessionId : Nat) (requestEnabled paused : Option Bool)
      (dto : Store.UpdateChannelSongRequestSettingsDto)
  | updateOmakaseSettings (enabled : Option Bool)
  | manualAdjust (liveSessionId : Nat) (delta : Int)
  | setCount (liveSessionId : Nat) (count : Int)
  | consumeWithSongRequest (songs : Channel) (liveSessionId random : Nat) (data : RequestData)
      (playNow : Bool)

def LiveCommand.exec (c : LiveCommand) (any : AnyOrder) (s : Store) : Except LiveError Store :=
  match c with
  | .tick seconds => return { s with now := s.now + seconds }
  | .drawContentId => s.drawContentId
  | .song songs c => s.song songs any c
  | .updateSettings sessionId requestEnabled paused dto =>
    s.updateSettings sessionId requestEnabled paused dto
  | .updateOmakaseSettings enabled => s.updateOmakaseSettings enabled
  | .manualAdjust liveSessionId delta => s.manualAdjust liveSessionId delta
  | .setCount liveSessionId count => s.setCount liveSessionId count
  | .consumeWithSongRequest songs liveSessionId random data atOnce =>
    s.consumeWithSongRequest songs any liveSessionId random data atOnce

/-- A room that never had a session; the counter, the token, the clock and the settings may stand
anywhere. A command finds equal rows in the order it carries. -/
def liveRoom : System Store (LiveCommand × AnyOrder) where
  init s := s.room.sessions = .empty ∧ s.room.requests = .empty
  step c s t := c.1.exec c.2 s = .ok t

end Rogichat.Live
