import Rogichat.Basic
import Rogichat.Lib.Outcome
import Rogichat.Lib.Table

/-!
# The Android room store

One SQLite file per account partition, with a cleanup marker beside it: a file whose marker
stands is erased before anything reads it. A message row carries what its constructor
requires and the fact that its body is a projection of the row's own message.

Texts are only compared, so a natural number stands for one; the empty cursor of a first page
is `none`. A stored body is decoded before it is read; the row holds the decoded value.
-/

namespace Rogichat.Android

open Lib

/-- A text the store compares and never looks into. -/
abbrev Token := Nat

/-- Whether a token is among those asked for. -/
@[reducible]
def decidableMemTokens (a : Option Token) (l : List (Option Token)) : Decidable (a ∈ l) :=
  inferInstance

/-- A decimal that fits 64 bits, zero included. -/
structure MessageVersion where
  value : Nat
  fits : value ≤ maxUnsignedBigInt
  deriving DecidableEq

instance : LE MessageVersion := ⟨fun a b => a.value ≤ b.value⟩
instance : LT MessageVersion := ⟨fun a b => a.value < b.value⟩
instance (a b : MessageVersion) : Decidable (a ≤ b) := inferInstanceAs (Decidable (a.value ≤ b.value))
instance (a b : MessageVersion) : Decidable (a < b) := inferInstanceAs (Decidable (a.value < b.value))

/-- The version of a tombstone for a message that was never stored. -/
def MessageVersion.zero : MessageVersion := ⟨0, by decide⟩

/-! ## Messages -/

inductive Audience
  | shared | private_
  deriving DecidableEq

/-- The author as the server shows it. -/
inductive MessageAuthor
  | anonymous
  | member (actorId : Uuid) (nickname : Token) (avatarAssetId : Option Uuid)
  deriving DecidableEq

/-- A media asset of a message. -/
structure Attachment where
  assetId : Uuid
  width : Nat
  height : Nat
  variant : Token
  deriving DecidableEq

inductive MessageContent
  | text (text : Option Token)
  | photo (attachments : List Attachment) (caption : Option Token)
  | video (attachments : List Attachment) (caption : Option Token)
  | sticker (stickerId assetId : Uuid) (width height : Nat)
  deriving DecidableEq

/-- The message a reply quotes, as far as the viewer may see it. -/
structure MessageQuote where
  id : Uuid
  text : Token
  authorName : Token
  deriving DecidableEq

/-- What the viewer may do with a message. -/
structure MessageActions where
  reply : Bool := false
  publish : Bool := false
  delete : Bool := false
  deriving DecidableEq

/-- The reactions of a message, counted. -/
structure MessageReactions where
  counts : List (Token × Nat) := []
  mine : Option Token := none
  deriving DecidableEq

/-- A message as the server projects it for the viewer. -/
structure ConversationMessage where
  id : Uuid
  version : MessageVersion
  createdAt : Time
  audience : Audience
  author : MessageAuthor
  content : MessageContent
  quote : Option MessageQuote := none
  counterpart : Option Uuid := none
  actions : MessageActions := {}
  reactions : MessageReactions := {}
  deriving DecidableEq

/-! ## Rooms, commands and receipts -/

/-- How a room is organized. -/
inductive RoomMode
  | fan | group
  deriving DecidableEq

/-- The viewer's role in a room. -/
inductive RoomRole
  | fan | member | streamer
  deriving DecidableEq

/-- A row of the manifest. -/
structure Membership where
  roomId : Uuid
  name : Token
  mode : RoomMode
  actorId : Uuid
  role : RoomRole
  membershipScope : Token
  authorizationRevision : Token
  deriving DecidableEq

/-- The account and the partition a store is opened for. -/
structure RoomsAccountScope where
  accountId : Token
  localEpoch : Nat
  partition : Token
  deriving DecidableEq

/-- The room a user opens, as one listing of the directory showed it. -/
structure ConversationSelection where
  account : RoomsAccountScope
  membership : Membership
  directoryCycle : Uuid
  deriving DecidableEq

/-- A selection with the cache it works in. -/
structure ConversationScope where
  selection : ConversationSelection
  cacheId : Uuid
  deriving DecidableEq

/-- The room of the scope. -/
def ConversationScope.room (c : ConversationScope) : Uuid := c.selection.membership.roomId

/-- The audience a command asks for. -/
inductive Intent
  | shared | private_ | roomOwner
  deriving DecidableEq

/-- What an asset is uploaded as. -/
inductive MediaKind
  | photo | video | avatar
  deriving DecidableEq

inductive MediaContent
  | attachment (kind : MediaKind) (assetIds : List Uuid) (caption : Option Token)
  | sticker (stickerId : Uuid)
  deriving DecidableEq

def MediaContent.assetIds : MediaContent → List Uuid
  | .attachment _ assetIds _ => assetIds
  | .sticker _ => []

structure TextCommand where
  clientMessageId : Uuid
  membership : Token
  intent : Intent
  recipient : Option Uuid := none
  quote : Option Uuid := none
  text : Token
  media : Option MediaContent := none
  deriving DecidableEq

/-- The server's answer to a command. -/
inductive CommandReceipt
  | committed (clientMessageId messageId : Uuid) (version : MessageVersion)
  | deleted (clientMessageId : Uuid) (messageId : Option Uuid)
  deriving DecidableEq

def CommandReceipt.clientMessageId : CommandReceipt → Uuid
  | .committed id _ _ => id
  | .deleted id _ => id

def CommandReceipt.messageId : CommandReceipt → Option Uuid
  | .committed _ id _ => some id
  | .deleted _ id => id

inductive OutboxPhase
  | prepared | sending | unknown | committed | deleted | rejected | parked
  deriving DecidableEq

/-! ## Rows -/

/-- The row of `sync_checkpoints`. -/
structure DirectoryCheckpoint where
  cacheId : Uuid
  generation : Option Token := none
  manifestCursor : Option Token := none
  complete : Bool := false
  discoveryCursor : Option Uuid := none
  discoveryLoaded : Bool := false

/-- The two listings of the directory. -/
inductive Purpose
  | manifest | discovery
  deriving DecidableEq

/-- A row of `page_checkpoints`: a page that was asked for. -/
structure PageCheckpoint where
  purpose : Purpose
  cursor : Option Token

structure ConversationOwner where
  credentialBinding : Token
  serverGeneration : Token
  deriving DecidableEq

/-- A row of `conversation_checkpoints`. -/
structure ConversationCheckpoint where
  roomId : Uuid
  cacheId : Uuid
  membership : Token
  authorization : Token
  snapshotComplete : Bool := false
  eventsCursor : Option Token := none
  historyCursor : Option Token := none
  profileGeneration : Option Token := none
  profileCursor : Option Token := none
  profileComplete : Bool := false

/-- A row of `conversation_messages`, without a body when it is a tombstone. -/
structure ConversationMessageRow where
  roomId : Uuid
  messageId : Uuid
  version : MessageVersion
  createdAtMs : Option Time
  deleted : Bool
  body : Option ConversationMessage
  consistent : deleted = body.isNone
  dated : deleted = true ∨ createdAtMs.isSome = true
  named : ∀ m ∈ body, m.id = messageId

/-- A row of `conversation_profiles`. -/
structure ConversationProfileRow where
  roomId : Uuid
  actorId : Uuid
  value : Token

/-- The two listings of a room. -/
inductive PagePurpose
  | history | profiles
  deriving DecidableEq

/-- A row of `conversation_pages`: a page of the room that was asked for. -/
structure ConversationPage where
  roomId : Uuid
  purpose : PagePurpose
  cursor : Option Token

/-- A row of `conversation_outbox`. -/
structure ConversationOutboxRow where
  roomId : Uuid
  clientMessageId : Uuid
  membership : Token
  authorization : Token
  command : TextCommand
  createdAtMs : Time
  phase : OutboxPhase
  messageId : Option Uuid := none
  version : Option MessageVersion := none
  errorCode : Option Token := none

/-- A row of `conversation_media`. -/
structure ConversationMediaRow where
  roomId : Uuid
  assetId : Uuid
  membership : Token
  authorization : Token
  kind : MediaKind

/-- A row of `conversation_actions`. -/
structure ConversationActionRow where
  id : Token
  roomId : Uuid
  membership : Token
  body : Token

/-- A row of `conversation_anchors`. -/
structure ConversationAnchorRow where
  roomId : Uuid
  membership : Token
  messageId : Uuid
  offset : Nat

instance : Row Membership where
  Key := Uuid
  decEq := inferInstance
  keys r := [r.roomId]
  keyed _ := List.cons_ne_nil _ _

instance : Row PageCheckpoint where
  Key := Purpose × Option Token
  decEq := inferInstance
  keys r := [(r.purpose, r.cursor)]
  keyed _ := List.cons_ne_nil _ _

instance : Row ConversationCheckpoint where
  Key := Uuid
  decEq := inferInstance
  keys r := [r.roomId]
  keyed _ := List.cons_ne_nil _ _

instance : Row ConversationMessageRow where
  Key := Uuid × Uuid
  decEq := inferInstance
  keys r := [(r.roomId, r.messageId)]
  keyed _ := List.cons_ne_nil _ _

instance : Row ConversationProfileRow where
  Key := Uuid × Uuid
  decEq := inferInstance
  keys r := [(r.roomId, r.actorId)]
  keyed _ := List.cons_ne_nil _ _

instance : Row ConversationPage where
  Key := Uuid × PagePurpose × Option Token
  decEq := inferInstance
  keys r := [(r.roomId, r.purpose, r.cursor)]
  keyed _ := List.cons_ne_nil _ _

instance : Row ConversationOutboxRow where
  Key := Uuid × Uuid
  decEq := inferInstance
  keys r := [(r.roomId, r.clientMessageId)]
  keyed _ := List.cons_ne_nil _ _

instance : Row ConversationMediaRow where
  Key := Uuid × Uuid
  decEq := inferInstance
  keys r := [(r.roomId, r.assetId)]
  keyed _ := List.cons_ne_nil _ _

instance : Row ConversationActionRow where
  Key := Token
  decEq := inferInstance
  keys r := [r.id]
  keyed _ := List.cons_ne_nil _ _

instance : Row ConversationAnchorRow where
  Key := Uuid
  decEq := inferInstance
  keys r := [r.roomId]
  keyed _ := List.cons_ne_nil _ _

namespace ConversationMessageRow

/-- The row of a projection. -/
def live (room : Uuid) (m : ConversationMessage) : ConversationMessageRow where
  roomId := room
  messageId := m.id
  version := m.version
  createdAtMs := some m.createdAt
  deleted := false
  body := some m
  consistent := rfl
  dated := .inr rfl
  named := by simp

/-- A terminal row. -/
def tombstone (room id : Uuid) (version : MessageVersion) (createdAtMs : Option Time) :
    ConversationMessageRow where
  roomId := room
  messageId := id
  version := version
  createdAtMs := createdAtMs
  deleted := true
  body := none
  consistent := rfl
  dated := .inl rfl
  named := by simp

end ConversationMessageRow

theorem ConversationMessageRow.clash_iff {r s : ConversationMessageRow} :
    Row.Clash r s ↔ r.roomId = s.roomId ∧ r.messageId = s.messageId := by
  simp only [Row.Clash, Row.keys, List.mem_singleton, exists_eq_left]
  exact Prod.mk.injEq _ _ _ _ ▸ Iff.rfl

/-! ## The store -/

structure Db where
  checkpoint : Option DirectoryCheckpoint := none
  memberships : Table Membership := .empty
  staged : Table Membership := .empty
  discovery : List Uuid := []
  pages : Table PageCheckpoint := .empty
  owner : Option ConversationOwner := none
  checkpoints : Table ConversationCheckpoint := .empty
  messages : Table ConversationMessageRow := .empty
  profiles : Table ConversationProfileRow := .empty
  profileStaging : Table ConversationProfileRow := .empty
  conversationPages : Table ConversationPage := .empty
  outbox : Table ConversationOutboxRow := .empty
  media : Table ConversationMediaRow := .empty
  actions : Table ConversationActionRow := .empty
  anchors : Table ConversationAnchorRow := .empty

inductive StoreError
  | invalidResponse | storage
  deriving DecidableEq

/-- A transaction: it commits the state it returns, or stops and leaves the old one. -/
abbrev Transaction (α : Type) := Except StoreError α

namespace Db

def conversationCheckpoint (s : Db) (room : Uuid) : Option ConversationCheckpoint :=
  s.checkpoints.find? fun r => r.roomId = room

def message (s : Db) (room id : Uuid) : Option ConversationMessageRow :=
  s.messages.find? fun r => r.roomId = room ∧ r.messageId = id

def command (s : Db) (room id : Uuid) : Option ConversationOutboxRow :=
  s.outbox.find? fun r => r.roomId = room ∧ r.clientMessageId = id

theorem conversationCheckpoint_eq_some {s : Db} {room : Uuid} {r : ConversationCheckpoint} :
    s.conversationCheckpoint room = some r ↔ r ∈ s.checkpoints ∧ r.roomId = room := by
  constructor
  · intro h
    have hroom := Table.holds_of_find? h
    exact ⟨Table.mem_of_find? h, hroom⟩
  · rintro ⟨hr, rfl⟩
    refine Table.find?_eq_some hr rfl (k := r.roomId) (by simp [Row.keys]) ?_
    intro n hn
    simp [Row.keys, hn]

theorem message_eq_some {s : Db} {room id : Uuid} {r : ConversationMessageRow} :
    s.message room id = some r ↔ r ∈ s.messages ∧ r.roomId = room ∧ r.messageId = id := by
  constructor
  · intro h
    have hkey := Table.holds_of_find? h
    exact ⟨Table.mem_of_find? h, hkey⟩
  · rintro ⟨hr, rfl, rfl⟩
    refine Table.find?_eq_some hr ⟨rfl, rfl⟩ (k := (r.roomId, r.messageId)) (by simp [Row.keys]) ?_
    rintro t ⟨hroom, hid⟩
    simp [Row.keys, hroom, hid]

theorem command_eq_some {s : Db} {room id : Uuid} {r : ConversationOutboxRow} :
    s.command room id = some r ↔ r ∈ s.outbox ∧ r.roomId = room ∧ r.clientMessageId = id := by
  constructor
  · intro h
    have hkey := Table.holds_of_find? h
    exact ⟨Table.mem_of_find? h, hkey⟩
  · rintro ⟨hr, rfl, rfl⟩
    refine Table.find?_eq_some hr ⟨rfl, rfl⟩ (k := (r.roomId, r.clientMessageId))
      (by simp [Row.keys]) ?_
    rintro t ⟨hroom, hid⟩
    simp [Row.keys, hroom, hid]

end Db

end Rogichat.Android
