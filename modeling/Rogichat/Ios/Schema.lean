import Rogichat.Basic
import Rogichat.Lib.Outcome
import Rogichat.Lib.Table

/-!
# The iOS room store

One SQLite file per account. A row is keyed by its room and its id; the timeline row carries
the `CHECK` of its table and the fact that a stored projection is one of the row's own
message, so no row can hold a payload it must not.

Texts (cursors, scopes, revisions, names, timestamps) are only compared for equality and
order here, so a natural number stands for one. A stored projection is decoded before it is
read; the row holds the decoded value.
-/

namespace Rogichat.Ios

open Lib

/-- A text the store compares and never looks into. -/
abbrev Token := Nat

/-- A decimal without a leading zero that fits 64 bits. -/
structure MessageVersion where
  value : Nat
  positive : 0 < value
  fits : value ≤ maxUnsignedBigInt

/-- A version is its number. -/
theorem MessageVersion.ext {a b : MessageVersion} (h : a.value = b.value) : a = b := by
  cases a
  cases b
  simpa using h

instance : DecidableEq MessageVersion := fun a b =>
  if h : a.value = b.value then .isTrue (MessageVersion.ext h) else .isFalse fun heq => h (heq ▸ rfl)

instance : LE MessageVersion := ⟨fun a b => a.value ≤ b.value⟩
instance : LT MessageVersion := ⟨fun a b => a.value < b.value⟩
instance (a b : MessageVersion) : Decidable (a ≤ b) := inferInstanceAs (Decidable (a.value ≤ b.value))
instance (a b : MessageVersion) : Decidable (a < b) := inferInstanceAs (Decidable (a.value < b.value))

/-- Versions compare as their numbers. -/
theorem MessageVersion.le_def {a b : MessageVersion} : a ≤ b ↔ a.value ≤ b.value := Iff.rfl
theorem MessageVersion.lt_def {a b : MessageVersion} : a < b ↔ a.value < b.value := Iff.rfl

/-- `max($0, version)`. -/
def MessageVersion.max (a b : MessageVersion) : MessageVersion := if a ≤ b then b else a

/-- The version of a tombstone for a message that was never stored. -/
def MessageVersion.one : MessageVersion := ⟨1, by decide, by decide⟩

/-! ## Messages -/

inductive Audience
  | shared | private_
  deriving DecidableEq

/-- The author as the server shows it. -/
inductive MessageAuthor
  | anonymous
  | member (actorId : Uuid) (nickname : Token) (avatar : Option Uuid)
  deriving DecidableEq

/-- The actor of a named author. -/
def MessageAuthor.actorID : MessageAuthor → Option Uuid
  | .anonymous => none
  | .member id _ _ => some id

/-- A media asset of a message. -/
structure MessageAttachment where
  assetId : Uuid
  width : Nat
  height : Nat
  variant : Token
  deriving DecidableEq

inductive MessageContent
  | text (text : Option Token)
  | photo (attachments : List MessageAttachment) (caption : Option Token)
  | video (attachments : List MessageAttachment) (caption : Option Token)
  | sticker (stickerId assetId : Uuid) (width height : Nat)
  deriving DecidableEq

/-- The message a reply quotes, as far as the viewer may see it. -/
structure MessageQuote where
  id : Uuid
  authorName : Token
  text : Token
  deriving DecidableEq

/-- The reactions of a message, counted. -/
structure ConversationReactions where
  counts : List (Token × Nat) := []
  mine : Option Token := none
  deriving DecidableEq

/-- What the viewer may do with a message. -/
structure MessageActions where
  reply : Bool := false
  publish : Bool := false
  delete : Bool := false
  deriving DecidableEq

/-- A message as the server projects it for the viewer. -/
structure ConversationMessage where
  id : Uuid
  version : MessageVersion
  createdAt : Token
  audience : Audience
  author : MessageAuthor
  content : MessageContent
  quote : Option MessageQuote := none
  reactions : ConversationReactions := {}
  counterpart : Option Uuid := none
  allowedActions : MessageActions := {}
  deriving DecidableEq

/-- The actor a reply to the message addresses. -/
def ConversationMessage.replyRecipient (m : ConversationMessage) : Option Uuid :=
  if m.allowedActions.reply then
    match m.audience with
    | .private_ => m.counterpart
    | .shared => m.author.actorID
  else none

/-- The message quotes the message `id`. -/
def ConversationMessage.Quotes (m : ConversationMessage) (id : Uuid) : Prop :=
  ∃ q ∈ m.quote, q.id = id

instance (m : ConversationMessage) (id : Uuid) : Decidable (m.Quotes id) :=
  inferInstanceAs (Decidable (∃ q ∈ m.quote, q.id = id))

/-! ## Rooms, commands and receipts -/

/-- How a room is organized. -/
inductive RoomMode
  | fan | group
  deriving DecidableEq

/-- The viewer's role in a room. -/
inductive RoomRole
  | fan | member | streamer
  deriving DecidableEq

/-- A row of the manifest. -/
structure MembershipRoom where
  id : Uuid
  name : Token
  mode : RoomMode
  actorId : Uuid
  role : RoomRole
  membershipScope : Token
  authorizationRevision : Token
  deriving DecidableEq

/-- The account gate of one login. -/
structure RoomsScope where
  partition : Token
  clientScope : Uuid
  deriving DecidableEq

/-- The immutable scope of one opened room. -/
structure ConversationScope where
  account : RoomsScope
  room : MembershipRoom
  cacheID : Uuid
  profileCacheID : Uuid
  deviceID : Uuid
  directoryCycle : Uuid
  deriving DecidableEq

/-- The audience a command asks for. -/
inductive Intent
  | shared | private_ | roomOwner
  deriving DecidableEq

inductive OutgoingAttachment
  | photo (assetIds : List Uuid) (caption : Option Token)
  | video (assetIds : List Uuid) (caption : Option Token)
  | sticker (stickerId : Uuid)
  deriving DecidableEq

structure TextCommand where
  id : Uuid
  roomID : Uuid
  membershipScope : Token
  intent : Intent
  recipientActorID : Option Uuid := none
  quoteID : Option Uuid := none
  text : Token
  attachmentContent : Option OutgoingAttachment := none
  deriving DecidableEq

/-- The server's answer to a sending. -/
inductive SendReceipt
  | committed (commandID messageID : Uuid) (version : MessageVersion)
  | deleted (commandID messageID : Uuid)
  deriving DecidableEq

/-- The command a sending's answer names. -/
def SendReceipt.commandID : SendReceipt → Uuid
  | .committed id _ _ => id
  | .deleted id _ => id

/-- The server's answer to a lookup. -/
inductive CommandReceipt
  | committed (commandID messageID : Uuid) (version : MessageVersion)
  | deleted (commandID : Uuid)
  deriving DecidableEq

/-- The command a lookup's answer names. -/
def CommandReceipt.commandID : CommandReceipt → Uuid
  | .committed id _ _ => id
  | .deleted id => id

inductive Phase
  | queued | sending | unknown | committed | deleted | rejected | blocked | settled
  deriving DecidableEq

/-! ## Rows -/

/-- The one row that says whose file it is. -/
structure Metadata where
  owner : Uuid
  partition : Token
  confirmed : Bool := false
  discoveryRevision : Option Uuid := none
  discoveryNext : Option Uuid := none
  discoveryComplete : Bool := false

/-- The one row of the listing that is going on. -/
structure Manifest where
  run : Uuid
  cache : Uuid
  generation : Option Token := none
  next : Option Token := none
  complete : Bool := false

/-- A cursor of the listing that was visited. -/
structure CursorRow where
  value : Token

/-- A row of an opened room. -/
structure ConversationRow where
  room : Uuid
  cache : Uuid
  profileCache : Uuid
  membership : Token
  authority : Token
  cycle : Uuid
  ready : Bool := false
  eventCursor : Option Token := none
  historyCursor : Option Token := none
  profileGeneration : Option Token := none
  profileNext : Option Token := none
  profileComplete : Bool := false

/-- A row of a room's timeline: a projection, a withheld one or a tombstone. -/
structure TimelineRow where
  room : Uuid
  id : Uuid
  version : MessageVersion
  createdAt : Option Token := none
  deleted : Bool
  hidden : Bool := false
  value : Option ConversationMessage := none
  check : (deleted = true ∧ value = none) ∨ (deleted = false ∧
    ((hidden = true ∧ value = none) ∨
      (hidden = false ∧ value.isSome = true ∧ createdAt.isSome = true)))
  named : ∀ m ∈ value, m.id = id

/-- A profile of an actor of a room. -/
structure ProfileRow where
  room : Uuid
  actor : Uuid
  value : Token

/-- The two listings of a room. -/
inductive CursorKind
  | history | profiles
  deriving DecidableEq

/-- A cursor of a room that was visited. -/
structure ConversationCursorRow where
  room : Uuid
  kind : CursorKind
  value : Token

structure TextCommandRow where
  room : Uuid
  id : Uuid
  membership : Token
  phase : Phase
  payload : Option TextCommand := none
  message : Option Uuid := none
  version : Option MessageVersion := none
  ordinal : Nat

instance : Row MembershipRoom where
  Key := Uuid
  decEq := inferInstance
  keys r := [r.id]
  keyed _ := List.cons_ne_nil _ _

instance : Row CursorRow where
  Key := Token
  decEq := inferInstance
  keys r := [r.value]
  keyed _ := List.cons_ne_nil _ _

instance : Row ConversationRow where
  Key := Uuid
  decEq := inferInstance
  keys r := [r.room]
  keyed _ := List.cons_ne_nil _ _

instance : Row TimelineRow where
  Key := Uuid × Uuid
  decEq := inferInstance
  keys r := [(r.room, r.id)]
  keyed _ := List.cons_ne_nil _ _

instance : Row ProfileRow where
  Key := Uuid × Uuid
  decEq := inferInstance
  keys r := [(r.room, r.actor)]
  keyed _ := List.cons_ne_nil _ _

instance : Row ConversationCursorRow where
  Key := Uuid × CursorKind × Token
  decEq := inferInstance
  keys r := [(r.room, r.kind, r.value)]
  keyed _ := List.cons_ne_nil _ _

instance : Row TextCommandRow where
  Key := Uuid × Uuid
  decEq := inferInstance
  keys r := [(r.room, r.id)]
  keyed _ := List.cons_ne_nil _ _

namespace TimelineRow

/-- The row shows a message: `deleted=0 AND hidden=0`. -/
def Visible (r : TimelineRow) : Prop := r.deleted = false ∧ r.hidden = false

instance (r : TimelineRow) : Decidable r.Visible :=
  inferInstanceAs (Decidable (r.deleted = false ∧ r.hidden = false))

/-- The projection of a message, shown. -/
def shown (room : Uuid) (m : ConversationMessage) : TimelineRow where
  room := room
  id := m.id
  version := m.version
  createdAt := some m.createdAt
  deleted := false
  value := some m
  check := by simp
  named := by simp

/-- The projection of a message without its text. -/
def withheld (room : Uuid) (m : ConversationMessage) : TimelineRow where
  room := room
  id := m.id
  version := m.version
  createdAt := some m.createdAt
  deleted := false
  hidden := true
  check := by simp
  named := by simp

/-- A terminal row. -/
def tombstone (room id : Uuid) (version : MessageVersion) (createdAt : Option Token) :
    TimelineRow where
  room := room
  id := id
  version := version
  createdAt := createdAt
  deleted := true
  check := by simp
  named := by simp

/-- `hidden=1,value=NULL`. -/
def hide (r : TimelineRow) : TimelineRow :=
  { r with
    hidden := true
    value := none
    check := by cases r.deleted <;> simp
    named := by simp }

/-- `deleted=1,hidden=0,value=NULL`. -/
def block (r : TimelineRow) : TimelineRow :=
  { r with
    deleted := true
    hidden := false
    value := none
    check := by simp
    named := by simp }

end TimelineRow

theorem TimelineRow.clash_iff {r s : TimelineRow} :
    Row.Clash r s ↔ r.room = s.room ∧ r.id = s.id := by
  simp only [Row.Clash, Row.keys, List.mem_singleton, exists_eq_left]
  exact Prod.mk.injEq _ _ _ _ ▸ Iff.rfl

/-! ## The store -/

structure Db where
  metadata : Option Metadata := none
  discovery : List Uuid := []
  memberships : Table MembershipRoom := .empty
  manifest : Option Manifest := none
  staging : Table MembershipRoom := .empty
  visitedCursors : Table CursorRow := .empty
  conversation : Table ConversationRow := .empty
  timeline : Table TimelineRow := .empty
  conversationProfiles : Table ProfileRow := .empty
  profileStaging : Table ProfileRow := .empty
  conversationCursors : Table ConversationCursorRow := .empty
  textCommands : Table TextCommandRow := .empty

/-- The open database object of one login: its account gate and the device it runs on. -/
structure RoomsDatabase where
  scope : RoomsScope
  deviceID : Uuid
  deriving DecidableEq

inductive RoomsError
  | invalidResponse | staleScope | persistence | incomplete | confirmationChanged
  deriving DecidableEq

inductive ConversationError
  | invalidResponse | staleScope | persistence | forbidden | membershipChanged | busy
  deriving DecidableEq

/-- What stops a transaction; `constraint` is SQLite's refusal of a row. -/
inductive StoreError
  | rooms (e : RoomsError)
  | conversation (e : ConversationError)
  | constraint
  deriving DecidableEq

/-- A transaction: it commits the state it returns, or stops and leaves the old one. -/
abbrev Transaction (α : Type) := Except StoreError α

namespace Db

/-- `SELECT confirmed FROM metadata`. -/
def Confirmed (s : Db) : Prop := ∃ m ∈ s.metadata, m.confirmed = true

instance (s : Db) : Decidable s.Confirmed :=
  inferInstanceAs (Decidable (∃ m ∈ s.metadata, m.confirmed = true))

/-- `SELECT run FROM manifest WHERE complete=1`. -/
def completeRun (s : Db) : Option Uuid :=
  s.manifest.bind fun m => if m.complete = true then some m.run else none

def membership (s : Db) (room : Uuid) : Option MembershipRoom :=
  s.memberships.find? fun r => r.id = room

def conversationRow (s : Db) (room : Uuid) : Option ConversationRow :=
  s.conversation.find? fun r => r.room = room

def timelineRow (s : Db) (room id : Uuid) : Option TimelineRow :=
  s.timeline.find? fun r => r.room = room ∧ r.id = id

def textCommand (s : Db) (room id : Uuid) : Option TextCommandRow :=
  s.textCommands.find? fun r => r.room = room ∧ r.id = id

/-- The message is tombstoned in the room's timeline. -/
def Tombstoned (s : Db) (room id : Uuid) : Prop :=
  ∃ r ∈ s.timelineRow room id, r.deleted = true

instance (s : Db) (room id : Uuid) : Decidable (s.Tombstoned room id) :=
  inferInstanceAs (Decidable (∃ r ∈ s.timelineRow room id, r.deleted = true))

theorem timelineRow_eq_some {s : Db} {room id : Uuid} {r : TimelineRow} :
    s.timelineRow room id = some r ↔ r ∈ s.timeline ∧ r.room = room ∧ r.id = id := by
  constructor
  · intro h
    have hkey := Table.holds_of_find? h
    exact ⟨Table.mem_of_find? h, hkey⟩
  · rintro ⟨hr, rfl, rfl⟩
    refine Table.find?_eq_some hr ⟨rfl, rfl⟩ (k := (r.room, r.id)) (by simp [Row.keys]) ?_
    rintro t ⟨hroom, hid⟩
    simp [Row.keys, hroom, hid]

/-- A message is tombstoned when its row says deleted. -/
theorem tombstoned_iff {s : Db} {room id : Uuid} :
    s.Tombstoned room id ↔ ∃ r ∈ s.timeline, r.room = room ∧ r.id = id ∧ r.deleted = true := by
  constructor
  · rintro ⟨r, hr, hd⟩
    obtain ⟨hmem, hroom, hid⟩ := timelineRow_eq_some.mp hr
    exact ⟨r, hmem, hroom, hid, hd⟩
  · rintro ⟨r, hr, hroom, hid, hd⟩
    exact ⟨r, timelineRow_eq_some.mpr ⟨hr, hroom, hid⟩, hd⟩

end Db

end Rogichat.Ios
