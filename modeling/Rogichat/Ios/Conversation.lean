import Rogichat.Ios.Schema

/-!
# Conversation transactions of the iOS store

Every operation on an opened room runs under its `ConversationScope`: the transaction first
checks that the store still belongs to the login (`verify`) and that the room is still the
one the scope was opened for (`verifyConversation`), then does its work. The gates in memory
(an invalidated or expired scope, a closed database) only refuse; a refused transaction is a
step that is not made.
-/

namespace Rogichat.Ios

open Lib

/-! ## Pages -/

/-- A page of the first download of a room. -/
structure ConversationSnapshot where
  membershipScope : Token
  authorizationRevision : Token
  messages : List ConversationMessage
  nextCursor : Token
  historyCursor : Option Token

/-- A change of a room's timeline. -/
inductive ConversationEvent
  | upsert (message : ConversationMessage)
  | deleted (id : Uuid) (version : MessageVersion)

/-- A page of changes, or a reset. -/
structure ConversationEvents where
  resetRequired : Bool
  membershipScope : Option Token
  authorizationRevision : Option Token
  events : List ConversationEvent
  hasMore : Bool
  nextCursor : Option Token

/-- A page of older messages, or a reset. -/
structure ConversationHistory where
  resetRequired : Bool
  membershipScope : Option Token
  authorizationRevision : Option Token
  messages : List ConversationMessage
  nextCursor : Option Token

/-- A page of profiles, or a reset. -/
structure ConversationProfiles where
  resetRequired : Bool
  membershipScope : Option Token
  authorizationRevision : Option Token
  profiles : List (Uuid × Token)
  generation : Option Token
  complete : Bool
  nextCursor : Option Token

namespace Db

/-! ## The gate -/

/-- The file is the one of the open account. -/
def verify (s : Db) (d : RoomsDatabase) : Transaction Unit :=
  ensure (∃ m ∈ s.metadata, m.owner = d.scope.clientScope ∧ m.partition = d.scope.partition)
    (.rooms .staleScope)

/-- The scope is the one the room was opened under, and its listing is still the current one. -/
def verifyConversation (s : Db) (d : RoomsDatabase) (c : ConversationScope) :
    Transaction Unit := do
  ensure (c.account = d.scope ∧ s.Confirmed) (.conversation .staleScope)
  let row ← require (s.conversationRow c.room.id) (.conversation .staleScope)
  ensure (row.cache = c.cacheID ∧ row.profileCache = c.profileCacheID ∧
    row.membership = c.room.membershipScope ∧ row.authority = c.room.authorizationRevision ∧
    row.cycle = c.directoryCycle ∧ s.completeRun = some c.directoryCycle)
    (.conversation .staleScope)
  ensure (s.membership c.room.id = some c.room) (.conversation .staleScope)

/-- `write(conversation:)`. -/
def write (s : Db) (d : RoomsDatabase) (c : ConversationScope)
    (operation : Db → Transaction Db) : Transaction Db := do
  s.verify d
  s.verifyConversation d c
  operation s

/-- `matches`. -/
def answers (c : ConversationScope) (membership authority : Option Token) : Transaction Unit :=
  ensure (membership = some c.room.membershipScope ∧
    authority = some c.room.authorizationRevision) (.conversation .membershipChanged)

/-! ## The timeline -/

/-- The sent payloads of some commands are dropped once their outcome is known. -/
def dropPayloads (s : Db) (p : TextCommandRow → Prop) [DecidablePred p] : Db :=
  { s with
    textCommands := s.textCommands.update
      (fun r => p r ∧ (r.phase = .committed ∨ r.phase = .settled ∨ r.phase = .rejected))
      fun r => { r with payload := none } }

/-- The row shows a projection of the room that quotes the message. -/
def QuotedBy (room id : Uuid) (r : TimelineRow) : Prop :=
  r.room = room ∧ r.Visible ∧ ∃ m ∈ r.value, m.Quotes id

instance (room id : Uuid) : DecidablePred (QuotedBy room id) := fun r =>
  inferInstanceAs (Decidable (r.room = room ∧ r.Visible ∧ ∃ m ∈ r.value, m.Quotes id))

/-- What quotes a deleted message is hidden, and the commands that carry it lose their payload. -/
def hideQuotedCopies (s : Db) (id room : Uuid) : Db :=
  let swept := (s.timeline.select (QuotedBy room id)).map (·.id)
  { s with timeline := s.timeline.update (QuotedBy room id) TimelineRow.hide }.dropPayloads
    fun r => r.room = room ∧ ∃ m ∈ r.message, m ∈ swept

/-- Commands whose receipt names this projection, or an older version of it, are done. -/
def retireProjectedCommands (s : Db) (message : ConversationMessage) (room : Uuid) : Db :=
  { s with
    textCommands := s.textCommands.update
      (fun r => r.room = room ∧ r.message = some message.id ∧ r.phase = .committed ∧
        ∃ v ∈ r.version, v ≤ message.version)
      fun r => { r with phase := .settled, payload := none } }

/-- A stored row a projection does not replace. -/
def Stands (message : ConversationMessage) (r : TimelineRow) : Prop :=
  r.deleted = true ∨ message.version < r.version

instance (message : ConversationMessage) : DecidablePred (Stands message) := fun r =>
  inferInstanceAs (Decidable (r.deleted = true ∨ message.version < r.version))

/-- A projection is stored unless a later row or a tombstone stands; one that quotes a tombstone is
withheld. -/
def putMessage (s : Db) (message : ConversationMessage) (room : Uuid) : Transaction Db := do
  let row := s.timelineRow room message.id
  ensure (∀ r ∈ row, r.createdAt = none ∨ r.createdAt = some message.createdAt)
    (.conversation .invalidResponse)
  if ∃ r ∈ row, Stands message r then
    return s
  else if ∃ q ∈ message.quote, s.Tombstoned room q.id then
    -- A late projection cannot bring back a quote whose target is already terminal.
    return { s with timeline := s.timeline.put (.withheld room message) }
  else
    return { s with timeline := s.timeline.put (.shown room message) }.retireProjectedCommands
      message room

/-- A deleted message keeps its row, without a projection. -/
def tombstone (s : Db) (id : Uuid) (version : MessageVersion) (room : Uuid) : Db :=
  let row := s.timelineRow room id
  if ∃ r ∈ row, version < r.version then s
  else
    { s with
      timeline := s.timeline.put (.tombstone room id version (row.bind (·.createdAt)))
      textCommands := s.textCommands.update
        (fun r => r.room = room ∧ r.message = some id)
        fun r => { r with phase := .deleted, payload := none, version := none } }.hideQuotedCopies
      id room

/-! ## Pages of the timeline -/

def setConversation (s : Db) (room : Uuid) (f : ConversationRow → ConversationRow)
    (k : Table.Keeps f := by exact ⟨fun _ => rfl⟩) : Db :=
  { s with conversation := s.conversation.update (fun r => r.room = room) f k }

/-- The messages of a page, one after another. -/
def putMessages (s : Db) (messages : List ConversationMessage) (room : Uuid) : Transaction Db :=
  messages.foldlM (fun s m => s.putMessage m room) s

/-- A page of the first download, up to the one that completes it. -/
def applySnapshot (s : Db) (page : ConversationSnapshot) (c : ConversationScope) :
    Transaction Db := do
  answers c (some page.membershipScope) (some page.authorizationRevision)
  let row ← require (s.conversationRow c.room.id) (.conversation .staleScope)
  ensure (row.ready = false) (.conversation .staleScope)
  let s ← s.putMessages page.messages c.room.id
  return s.setConversation c.room.id fun r =>
    { r with ready := true, eventCursor := some page.nextCursor, historyCursor := page.historyCursor }

def applyEvent (s : Db) (event : ConversationEvent) (room : Uuid) : Transaction Db :=
  match event with
  | .upsert message => s.putMessage message room
  | .deleted id version => return s.tombstone id version room

/-- A page of changes after the cursor that was asked for. -/
def applyEvents (s : Db) (page : ConversationEvents) (requestedCursor : Token)
    (c : ConversationScope) : Transaction Db := do
  ensure (page.resetRequired = false) (.conversation .membershipChanged)
  answers c page.membershipScope page.authorizationRevision
  let row ← require (s.conversationRow c.room.id) (.conversation .staleScope)
  ensure (row.ready = true ∧ row.eventCursor = some requestedCursor) (.conversation .staleScope)
  ensure (¬(page.hasMore = true ∧ page.nextCursor = some requestedCursor))
    (.conversation .invalidResponse)
  let s ← page.events.foldlM (fun s e => s.applyEvent e c.room.id) s
  return s.setConversation c.room.id fun r => { r with eventCursor := page.nextCursor }

/-- A cursor is followed once. -/
def visit (s : Db) (next requested : Option Token) (kind : CursorKind) (room : Uuid) :
    Transaction Db :=
  match next with
  | none => return s
  | some value => do
    ensure (next ≠ requested) (.conversation .invalidResponse)
    let cursors ← require (s.conversationCursors.insert ⟨room, kind, value⟩)
      (.conversation .invalidResponse)
    return { s with conversationCursors := cursors }

/-- A page of older messages after the cursor that was asked for. -/
def applyHistory (s : Db) (page : ConversationHistory) (requestedCursor : Token)
    (c : ConversationScope) : Transaction Db := do
  ensure (page.resetRequired = false) (.conversation .membershipChanged)
  answers c page.membershipScope page.authorizationRevision
  let row ← require (s.conversationRow c.room.id) (.conversation .staleScope)
  ensure (row.ready = true ∧ row.historyCursor = some requestedCursor) (.conversation .staleScope)
  let s ← s.visit page.nextCursor (some requestedCursor) .history c.room.id
  let s ← s.putMessages page.messages c.room.id
  return s.setConversation c.room.id fun r => { r with historyCursor := page.nextCursor }

/-- The server's view of one message of the room. -/
def applySingleMessage (s : Db) (message : ConversationMessage) (c : ConversationScope) :
    Transaction Db :=
  s.putMessage message c.room.id

/-- Inaccessibility is not a deletion: the private fields go, no tombstone is written. -/
def hideProjection (s : Db) (messageID : Uuid) (c : ConversationScope) : Db :=
  { s with
    timeline := s.timeline.update
      (fun r => r.room = c.room.id ∧ r.id = messageID ∧ r.deleted = false) TimelineRow.hide
    textCommands := s.textCommands.update
      (fun r => r.room = c.room.id ∧ r.message = some messageID ∧
        (r.phase = .committed ∨ r.phase = .settled))
      fun r => { r with payload := none } }

/-- A blocked message is buried in place; nothing is written of a message that is not stored. -/
def blockProjection (s : Db) (id : Uuid) (c : ConversationScope) : Db :=
  let blocked := s.timeline.update (fun r => r.room = c.room.id ∧ r.id = id) TimelineRow.block
  let s := { s with timeline := blocked }.dropPayloads fun r =>
    r.room = c.room.id ∧ r.message = some id
  s.hideQuotedCopies id c.room.id

/-! ## Profiles -/

/-- A new round of profiles starts from its first page. -/
def beginProfiles (s : Db) (c : ConversationScope) : Db :=
  { s.setConversation c.room.id fun r =>
      { r with profileGeneration := none, profileNext := none, profileComplete := false } with
    profileStaging := s.profileStaging.delete fun r => r.room = c.room.id
    conversationCursors := s.conversationCursors.delete fun r =>
      r.room = c.room.id ∧ r.kind = .profiles }

/-- The complete staged generation takes the place of the profiles. -/
def publishProfiles (s : Db) (complete : Bool) (room : Uuid) : Transaction Db :=
  if complete then do
    let profiles ← require
      ((s.conversationProfiles.delete fun r => r.room = room).insertAll
        (s.profileStaging.select fun r => r.room = room)) .constraint
    return { s with
      conversationProfiles := profiles
      profileStaging := s.profileStaging.delete fun r => r.room = room }
  else return s

/-- The profiles are staged, and published with the last page. -/
def applyProfiles (s : Db) (page : ConversationProfiles) (requestedCursor : Option Token)
    (c : ConversationScope) : Transaction Db := do
  ensure (page.resetRequired = false) (.conversation .membershipChanged)
  answers c page.membershipScope page.authorizationRevision
  let row ← require (s.conversationRow c.room.id) (.conversation .staleScope)
  ensure (row.profileComplete = false ∧ row.profileNext = requestedCursor)
    (.conversation .staleScope)
  ensure (row.profileGeneration = none ∨ row.profileGeneration = page.generation)
    (.conversation .invalidResponse)
  let s ← s.visit page.nextCursor requestedCursor .profiles c.room.id
  let staged ← require
    (s.profileStaging.insertAll (page.profiles.map fun p => ⟨c.room.id, p.1, p.2⟩))
    (.conversation .invalidResponse)
  ensure ((staged.select fun r => r.room = c.room.id).length ≤ 10000)
    (.conversation .invalidResponse)
  let s ← { s with profileStaging := staged }.publishProfiles page.complete c.room.id
  return s.setConversation c.room.id fun r =>
    { r with
      profileGeneration := page.generation
      profileNext := page.nextCursor
      profileComplete := page.complete }

/-! ## Text commands -/

/-- `phase IN ('queued','sending','unknown')`. -/
def Unresolved (r : TextCommandRow) : Prop :=
  r.phase = .queued ∨ r.phase = .sending ∨ r.phase = .unknown

instance : DecidablePred Unresolved := fun r =>
  inferInstanceAs (Decidable (r.phase = .queued ∨ r.phase = .sending ∨ r.phase = .unknown))

/-- What a member may send, by the mode of the room and the role held there. -/
def MaySend (room : MembershipRoom) (command : TextCommand) : Prop :=
  match room.mode, room.role with
  | .fan, .fan => command.intent = .roomOwner
  | .fan, .streamer =>
    command.intent = .shared ∨ (command.intent = .private_ ∧ command.quoteID ≠ none)
  | .fan, .member => False
  | .group, _ =>
    command.intent ≠ .roomOwner ∧ (command.intent ≠ .private_ ∨ command.quoteID ≠ none)

instance (room : MembershipRoom) (command : TextCommand) : Decidable (MaySend room command) := by
  unfold MaySend
  split <;> infer_instance

/-- A quoted command answers a stored message, and goes to whom a reply to it goes. -/
def MayQuote (s : Db) (c : ConversationScope) (command : TextCommand) (quote : Uuid) : Prop :=
  command.intent = .private_ ∧
    ∃ r ∈ s.timelineRow c.room.id quote, r.deleted = false ∧
      ∃ m ∈ r.value, m.allowedActions.reply = true ∧
        ∃ recipient ∈ m.replyRecipient, some recipient = command.recipientActorID ∧
          recipient ≠ c.room.actorId

instance (s : Db) (c : ConversationScope) (command : TextCommand) (quote : Uuid) :
    Decidable (s.MayQuote c command quote) := by
  unfold MayQuote
  infer_instance

/-- `COALESCE(MAX(ordinal),0)`. -/
def lastOrdinal (s : Db) : Nat := (s.textCommands.rows.map (·.ordinal)).foldl Nat.max 0

def maxOrdinal : Nat := 9223372036854775807

/-- A new command is queued with the next ordinal. -/
def admitText (s : Db) (command : TextCommand) (c : ConversationScope) : Transaction Db := do
  ensure (command.roomID = c.room.id ∧ command.membershipScope = c.room.membershipScope ∧
    ∃ r ∈ s.conversationRow c.room.id, r.ready = true) (.conversation .staleScope)
  ensure (MaySend c.room command) (.conversation .forbidden)
  ensure (∀ quote ∈ command.quoteID, s.MayQuote c command quote) (.conversation .forbidden)
  ensure ((s.textCommands.select Unresolved).length < 100) (.conversation .busy)
  ensure (s.lastOrdinal < maxOrdinal) (.conversation .persistence)
  let commands ← require (s.textCommands.insert
    { room := c.room.id
      id := command.id
      membership := command.membershipScope
      phase := .queued
      payload := some command
      ordinal := s.lastOrdinal + 1 }) .constraint
  return { s with textCommands := commands }

def setTextCommand (s : Db) (room id : Uuid) (p : TextCommandRow → Prop) [DecidablePred p]
    (f : TextCommandRow → TextCommandRow)
    (k : Table.Keeps f := by exact ⟨fun _ => rfl⟩) : Db :=
  { s with textCommands := s.textCommands.update (fun r => r.room = room ∧ r.id = id ∧ p r) f k }

/-- A queued command is handed to the network. -/
def claimText (s : Db) (command : TextCommand) (c : ConversationScope) : Transaction Db := do
  ensure (command.membershipScope = c.room.membershipScope) (.conversation .staleScope)
  let row ← require (s.textCommand c.room.id command.id) (.conversation .staleScope)
  ensure (row.phase = .queued ∧ row.payload = some command) (.conversation .staleScope)
  return s.setTextCommand c.room.id command.id (fun _ => True) fun r => { r with phase := .sending }

/-- The outcome of a sending is not known. -/
def markTextUnknown (s : Db) (id : Uuid) (c : ConversationScope) : Db :=
  s.setTextCommand c.room.id id (fun r => r.phase = .queued ∨ r.phase = .sending)
    fun r => { r with phase := .unknown }

/-- The server refused a command, or the user is blocked. -/
def markTextRejected (s : Db) (id : Uuid) (blocked : Bool) (c : ConversationScope) : Db :=
  if blocked then
    s.setTextCommand c.room.id id Unresolved fun r => { r with phase := .blocked, payload := none }
  else
    s.setTextCommand c.room.id id (fun r => r.phase = .queued ∨ r.phase = .sending)
      fun r => { r with phase := .rejected }

/-- `phase` is one no receipt changes. -/
def Terminal (r : TextCommandRow) : Prop :=
  r.phase = .deleted ∨ r.phase = .blocked ∨ r.phase = .settled

instance : DecidablePred Terminal := fun r =>
  inferInstanceAs (Decidable (r.phase = .deleted ∨ r.phase = .blocked ∨ r.phase = .settled))

/-- The message of a command is deleted; the command is over. -/
def deleteTextCommand (s : Db) (room id : Uuid) (message : Option Uuid) : Db :=
  s.setTextCommand room id (fun _ => True) fun r =>
    { r with phase := .deleted, payload := none, message := message, version := none }

/-- The tombstone a deleted receipt leaves: the version of the stored row, if there is one. -/
def tombstoneReceipt (s : Db) (room : Uuid) (message : Option Uuid) : Db :=
  match message with
  | none => s
  | some id =>
    let existing := s.timelineRow room id
    { s with timeline := s.timeline.put (.tombstone room id
        ((existing.map (·.version)).getD .one) (existing.bind (·.createdAt))) }

/-- A command is committed to its message, and settled when the timeline shows that already. -/
def commitTextCommand (s : Db) (row : TextCommandRow) (message : Uuid) (version : MessageVersion) :
    Db :=
  let latest := (row.version.map fun old => old.max version).getD version
  let s := s.setTextCommand row.room row.id (fun _ => True) fun r =>
    { r with phase := .committed, message := some message, version := some latest }
  match (s.timelineRow row.room message).filter (fun r => r.Visible) >>= (·.value) with
  | some projection => s.retireProjectedCommands projection row.room
  | none => s

/-- What a receipt makes of the command and of its message. -/
def recordReceipt (s : Db) (id : Uuid) (message : Option Uuid) (version : Option MessageVersion)
    (deleted : Bool) (c : ConversationScope) : Transaction Db := do
  let row ← require (s.textCommand c.room.id id) (.conversation .staleScope)
  ensure (row.membership = c.room.membershipScope) (.conversation .staleScope)
  if Terminal row then
    return s
  else
    ensure (row.message = none ∨ message = none ∨ row.message = message)
      (.conversation .invalidResponse)
    if deleted then
      let resolved := message.or row.message
      return (s.deleteTextCommand c.room.id id resolved).tombstoneReceipt c.room.id resolved
    else
      let message ← require message (.conversation .invalidResponse)
      let version ← require version (.conversation .invalidResponse)
      if s.Tombstoned c.room.id message then
        return s.deleteTextCommand c.room.id id (some message)
      else
        return s.commitTextCommand row message version

/-- The answer to a sending names the command that was sent. -/
def recordSendReceipt (s : Db) (receipt : SendReceipt) (expected : TextCommand)
    (c : ConversationScope) : Transaction Db := do
  ensure (receipt.commandID = expected.id) (.conversation .invalidResponse)
  match receipt with
  | .committed id message version => s.recordReceipt id (some message) (some version) false c
  | .deleted id message => s.recordReceipt id (some message) none true c

/-- The answer to a lookup names the command that was asked for. -/
def recordCommandReceipt (s : Db) (receipt : CommandReceipt) (expectedID : Uuid)
    (c : ConversationScope) : Transaction Db := do
  ensure (receipt.commandID = expectedID) (.conversation .invalidResponse)
  match receipt with
  | .committed id message version => s.recordReceipt id (some message) (some version) false c
  | .deleted id => s.recordReceipt id none none true c

end Db

/-! ## The operations of an opened room -/

/-- The operations on an opened conversation. -/
inductive ConversationCommand
  | applySnapshot (page : ConversationSnapshot)
  | applyEvents (page : ConversationEvents) (requestedCursor : Token)
  | applyHistory (page : ConversationHistory) (requestedCursor : Token)
  | applySingleMessage (message : ConversationMessage)
  | hideProjection (messageID : Uuid)
  | blockProjection (id : Uuid)
  | beginProfiles
  | applyProfiles (page : ConversationProfiles) (requestedCursor : Option Token)
  | admitText (command : TextCommand)
  | claimText (command : TextCommand)
  | markTextUnknown (id : Uuid)
  | markTextRejected (id : Uuid) (blocked : Bool)
  | recordSendReceipt (receipt : SendReceipt) (expected : TextCommand)
  | recordCommandReceipt (receipt : CommandReceipt) (expectedID : Uuid)

/-- The work of a command, behind its gate. -/
def ConversationCommand.run (c : ConversationScope) : ConversationCommand → Db → Transaction Db
  | .applySnapshot page, s => s.applySnapshot page c
  | .applyEvents page cursor, s => s.applyEvents page cursor c
  | .applyHistory page cursor, s => s.applyHistory page cursor c
  | .applySingleMessage message, s => s.applySingleMessage message c
  | .hideProjection id, s => .ok (s.hideProjection id c)
  | .blockProjection id, s => .ok (s.blockProjection id c)
  | .beginProfiles, s => .ok (s.beginProfiles c)
  | .applyProfiles page cursor, s => s.applyProfiles page cursor c
  | .admitText command, s => s.admitText command c
  | .claimText command, s => s.claimText command c
  | .markTextUnknown id, s => .ok (s.markTextUnknown id c)
  | .markTextRejected id blocked, s => .ok (s.markTextRejected id blocked c)
  | .recordSendReceipt receipt expected, s => s.recordSendReceipt receipt expected c
  | .recordCommandReceipt receipt id, s => s.recordCommandReceipt receipt id c

/-- An operation in one transaction, once the file and the scope are verified. -/
def ConversationCommand.exec (d : RoomsDatabase) (c : ConversationScope)
    (command : ConversationCommand) (s : Db) : Transaction Db :=
  s.write d c (command.run c)

end Rogichat.Ios
