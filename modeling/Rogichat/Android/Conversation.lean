import Rogichat.Android.Schema

/-!
# Conversation transactions of the Android store

Every operation on an opened room runs under its `ConversationScope`
(`conversationTransaction`): the stored checkpoint of the room must be the one the scope was
opened with. Most operations end by reading the whole conversation back (`data`), inside the
same transaction, so what `data` refuses is not committed. The caller's `validate` only
refuses; a refused transaction is a step that is not made.
-/

namespace Rogichat.Android

open Lib

attribute [local instance] decidableMemTokens

/-! ## Pages -/

/-- A page of the first download of a room. -/
structure SnapshotPage where
  membership : Token
  authorization : Token
  messages : List ConversationMessage
  next : Token
  history : Option Token

/-- A change of a room's timeline. -/
inductive MessageEvent
  | upsert (message : ConversationMessage)
  | deleted (messageId : Uuid) (version : MessageVersion)

/-- `EventPage.Success`. -/
structure EventPage where
  membership : Token
  authorization : Token
  events : List MessageEvent
  hasMore : Bool
  next : Token

/-- `HistoryPage.Success`. -/
structure HistoryPage where
  membership : Token
  authorization : Token
  messages : List ConversationMessage
  next : Option Token

/-- `ProfilePage.Success`. -/
structure ProfilePage where
  membership : Token
  authorization : Token
  profiles : List (Uuid × Token)
  generation : Token
  complete : Bool
  next : Option Token

/-- An asset that was uploaded for a command not sent yet. -/
structure PendingMedia where
  assetId : Uuid
  kind : MediaKind
  deriving DecidableEq

/-- What a room shows after an operation. -/
structure ConversationData where
  scope : ConversationScope
  messages : List ConversationMessage
  profiles : List ConversationProfileRow
  profileComplete : Bool
  eventsCursor : Option Token
  historyCursor : Option Token
  outbox : List ConversationOutboxRow
  pendingMedia : List PendingMedia

/-- What an action journal writes of a record: `blocked` is `ActionPhase.BLOCKED`. -/
structure ActionRecord where
  id : Token
  accountId : Token
  roomId : Uuid
  membershipScope : Token
  messageId : Uuid
  version : MessageVersion
  blocked : Bool
  body : Token

/-- One call an operation of `actionTransaction` makes. -/
inductive ActionOperation
  | put (record : ActionRecord)
  | saveAnchor (messageId : Uuid) (offset : Nat)
  | clearAnchor

/-- `valid`: an answer that breaks a rule is refused as a whole. -/
def valid (c : Prop) [Decidable c] : Transaction Unit := ensure c .invalidResponse

@[simp] theorem valid_ok {c : Prop} [Decidable c] {u : Unit} : valid c = .ok u ↔ c := ensure_ok

namespace Db

/-- The rows of the room's timeline, tombstones included. -/
def messages' (s : Db) (room : Uuid) : List ConversationMessageRow :=
  s.messages.select fun r => r.roomId = room

/-- The stored checkpoint is the one the scope was opened with. -/
def conversationTransaction {α : Type} (s : Db) (c : ConversationScope)
    (action : ConversationCheckpoint → Transaction α) : Transaction α := do
  let checkpoint ← require (s.conversationCheckpoint c.room) .storage
  valid (checkpoint.cacheId = c.cacheId ∧
    checkpoint.membership = c.selection.membership.membershipScope ∧
    checkpoint.authorization = c.selection.membership.authorizationRevision)
  action checkpoint

/-- What the room holds, once its snapshot is complete. -/
def data (s : Db) (c : ConversationScope) : Transaction ConversationData := do
  let checkpoint ← require (s.conversationCheckpoint c.room) .storage
  valid (checkpoint.snapshotComplete = true)
  let rows := s.messages' c.room
  valid (rows.length ≤ 10000)
  return {
    scope := c
    messages := rows.filterMap (·.body)
    profiles := s.profiles.select fun r => r.roomId = c.room
    profileComplete := checkpoint.profileComplete
    eventsCursor := checkpoint.eventsCursor
    historyCursor := checkpoint.historyCursor
    outbox := s.outbox.select fun r => r.roomId = c.room
    pendingMedia := (s.media.select fun r => r.roomId = c.room ∧
      r.membership = checkpoint.membership ∧ r.authorization = checkpoint.authorization).map
        fun r => ⟨r.assetId, r.kind⟩ }

/-- The state with the conversation read back from it. -/
def withData (s : Db) (c : ConversationScope) : Transaction (Db × ConversationData) := do
  let data ← s.data c
  return (s, data)

/-! ## The timeline -/

/-- A stored row a projection does not replace. -/
def Stands (message : ConversationMessage) (r : ConversationMessageRow) : Prop :=
  r.deleted = true ∨ message.version < r.version

instance (message : ConversationMessage) : DecidablePred (Stands message) := fun r =>
  inferInstanceAs (Decidable (r.deleted = true ∨ message.version < r.version))

/-- `putMessage`: a message is stored unless a row of a later version or a tombstone is there. -/
def putMessage (s : Db) (room : Uuid) (message : ConversationMessage) : Transaction Db := do
  let previous := s.message room message.id
  valid (∀ r ∈ previous, ∀ t ∈ r.createdAtMs, t = message.createdAt)
  if ∃ r ∈ previous, Stands message r then
    return s
  else
    -- Equal versions still replace every live projection field.
    return { s with messages := s.messages.put (.live room message) }

/-- The messages of a page, one after another. -/
def putMessages (s : Db) (room : Uuid) (messages : List ConversationMessage) : Transaction Db :=
  messages.foldlM (fun s m => s.putMessage room m) s

/-- `deleteMessage`: the row loses its body and stays as a tombstone. -/
def deleteMessage (s : Db) (room id : Uuid) (version : MessageVersion) : Db :=
  let previous := s.message room id
  if ∃ r ∈ previous, version < r.version then s
  else { s with
    messages := s.messages.put (.tombstone room id version (previous.bind (·.createdAtMs))) }

def applyEvent (s : Db) (room : Uuid) (event : MessageEvent) : Transaction Db :=
  match event with
  | .upsert message => s.putMessage room message
  | .deleted id version => return s.deleteMessage room id version

def setCheckpoint (s : Db) (checkpoint : ConversationCheckpoint) : Db :=
  { s with checkpoints := s.checkpoints.put checkpoint }

/-- A committed command whose message is shown is done. -/
def retireProjectedCommands (s : Db) (room : Uuid) : Db :=
  { s with
    outbox := s.outbox.delete fun r => r.roomId = room ∧ r.phase = .committed ∧
      ∃ id ∈ r.messageId, ∃ m ∈ s.message room id, m.deleted = false }

/-- `matches`. -/
def answers (checkpoint : ConversationCheckpoint) (membership authorization : Token) :
    Transaction Unit :=
  valid (checkpoint.membership = membership ∧ checkpoint.authorization = authorization)

/-- `snapshot`: a page of the first download, up to the one that completes it. -/
def snapshot (s : Db) (c : ConversationScope) (page : SnapshotPage) :
    Transaction (Db × ConversationData) :=
  s.conversationTransaction c fun checkpoint => do
    valid (checkpoint.snapshotComplete = false)
    answers checkpoint page.membership page.authorization
    let s ← s.putMessages checkpoint.roomId page.messages
    let s := (s.setCheckpoint { checkpoint with
      snapshotComplete := true
      eventsCursor := some page.next
      historyCursor := page.history }).retireProjectedCommands checkpoint.roomId
    s.withData c

/-- `events`: a page of changes after the cursor that was asked for. -/
def events (s : Db) (c : ConversationScope) (requested : Token) (page : EventPage) :
    Transaction (Db × ConversationData) :=
  s.conversationTransaction c fun checkpoint => do
    valid (checkpoint.snapshotComplete = true ∧ checkpoint.eventsCursor = some requested)
    answers checkpoint page.membership page.authorization
    valid (page.hasMore = false ∨ page.next ≠ requested)
    let s ← page.events.foldlM (fun s e => s.applyEvent checkpoint.roomId e) s
    let s := (s.setCheckpoint { checkpoint with eventsCursor := some page.next }
      ).retireProjectedCommands checkpoint.roomId
    s.withData c

/-- The cursors whose pages were applied. -/
def pagesOf (s : Db) (room : Uuid) (purpose : PagePurpose) : List (Option Token) :=
  (s.conversationPages.select fun r => r.roomId = room ∧ r.purpose = purpose).map (·.cursor)

/-- A page that was taken in is not asked for again. -/
def addPage (s : Db) (page : ConversationPage) : Transaction Db := do
  let pages ← require (s.conversationPages.insert page) .storage
  return { s with conversationPages := pages }

/-- `history`: a page of older messages. -/
def history (s : Db) (c : ConversationScope) (requested : Token) (page : HistoryPage) :
    Transaction (Db × ConversationData) :=
  s.conversationTransaction c fun checkpoint => do
    valid (checkpoint.snapshotComplete = true ∧ checkpoint.historyCursor = some requested)
    answers checkpoint page.membership page.authorization
    let seen := s.pagesOf checkpoint.roomId .history
    valid (some requested ∉ seen ∧ ∀ n ∈ page.next, n ≠ requested ∧ some n ∉ seen)
    let s ← s.putMessages checkpoint.roomId page.messages
    let s ← s.addPage ⟨checkpoint.roomId, .history, some requested⟩
    let s := (s.setCheckpoint { checkpoint with historyCursor := page.next }
      ).retireProjectedCommands checkpoint.roomId
    s.withData c

/-- `projection`: the server's view of one message of the room. -/
def projection (s : Db) (c : ConversationScope) (message : ConversationMessage) :
    Transaction (Db × ConversationData) :=
  s.conversationTransaction c fun checkpoint => do
    valid (checkpoint.snapshotComplete = true)
    let s ← s.putMessage checkpoint.roomId message
    (s.retireProjectedCommands checkpoint.roomId).withData c

/-- `restore`: what was left by an earlier process, when its download was complete. -/
def restore (s : Db) (c : ConversationScope) : Transaction (Option ConversationData) :=
  s.conversationTransaction c fun checkpoint =>
    if checkpoint.snapshotComplete then do
      let data ← s.data c
      return some data
    else return none

/-- `current`: what the room shows now. -/
def current (s : Db) (c : ConversationScope) : Transaction ConversationData :=
  s.conversationTransaction c fun _ => s.data c

/-! ## Profiles -/

/-- A new round of profiles starts from its first page. -/
def beginProfiles (s : Db) (c : ConversationScope) : Transaction Db :=
  s.conversationTransaction c fun checkpoint =>
    return { s with
      profileStaging := s.profileStaging.delete fun r => r.roomId = checkpoint.roomId
      conversationPages := s.conversationPages.delete fun r =>
        r.roomId = checkpoint.roomId ∧ r.purpose = PagePurpose.profiles }.setCheckpoint
      { checkpoint with profileGeneration := none, profileCursor := none, profileComplete := false }

/-- The complete staged generation takes the place of the profiles. -/
def publishProfiles (s : Db) (complete : Bool) (room : Uuid) : Transaction Db :=
  if complete then do
    let profiles ← require
      ((s.profiles.delete fun r => r.roomId = room).insertAll
        (s.profileStaging.select fun r => r.roomId = room)) .storage
    return { s with
      profiles := profiles
      profileStaging := s.profileStaging.delete fun r => r.roomId = room }
  else return s

/-- `profilePage`: the profiles are staged, and published with the last page. -/
def profilePage (s : Db) (c : ConversationScope) (requested : Option Token) (page : ProfilePage) :
    Transaction (Db × ConversationData) :=
  s.conversationTransaction c fun checkpoint => do
    valid (checkpoint.snapshotComplete = true ∧ checkpoint.profileComplete = false ∧
      checkpoint.profileCursor = requested)
    answers checkpoint page.membership page.authorization
    valid (checkpoint.profileGeneration = none ∨ checkpoint.profileGeneration = some page.generation)
    let seen := s.pagesOf checkpoint.roomId .profiles
    valid (requested ∉ seen ∧ ∀ n ∈ page.next, some n ≠ requested ∧ some n ∉ seen)
    let prior := s.profileStaging.select fun r => r.roomId = checkpoint.roomId
    valid (prior.length + page.profiles.length ≤ 10000)
    valid (∀ p ∈ page.profiles, ∀ r ∈ prior, r.actorId ≠ p.1)
    let staged ← require
      (s.profileStaging.insertAll (page.profiles.map fun p => ⟨checkpoint.roomId, p.1, p.2⟩)) .storage
    let s ← { s with profileStaging := staged }.addPage
      { roomId := checkpoint.roomId, purpose := .profiles, cursor := requested }
    let s ← s.publishProfiles page.complete checkpoint.roomId
    (s.setCheckpoint { checkpoint with
      profileGeneration := some page.generation
      profileCursor := page.next
      profileComplete := page.complete }).withData c

/-! ## Actions and media -/

/-- An acknowledged access block: every shown projection of the room goes, since any may quote
the message, and the message is terminal. -/
def blockMessage (s : Db) (room id : Uuid) (version : MessageVersion) : Db :=
  let old := s.message room id
  { s with
    messages := (s.messages.delete fun r => r.roomId = room ∧ r.deleted = false).put
      (.tombstone room id ((old.map (·.version)).getD version) (old.bind (·.createdAtMs)))
    outbox := s.outbox.delete fun r => r.roomId = room ∧ r.messageId = some id
    anchors := s.anchors.delete fun r => r.roomId = room }

/-- `putAction`: an action record is stored for the room it names. -/
def putAction (s : Db) (c : ConversationScope) (record : ActionRecord) : Transaction Db := do
  valid (record.accountId = c.selection.account.accountId ∧ record.roomId = c.room ∧
    record.membershipScope = c.selection.membership.membershipScope)
  valid (s.actions.rows.length < 1000 ∨ s.actions.Has fun r => r.id = record.id)
  let s := { s with
    actions := s.actions.put
      ⟨record.id, record.roomId, record.membershipScope, record.body⟩ }
  if record.blocked then
    return s.blockMessage c.room record.messageId record.version
  else
    return s

/-- One operation on the action records. -/
def actionOperation (s : Db) (c : ConversationScope) (operation : ActionOperation) :
    Transaction Db :=
  match operation with
  | .put record => s.putAction c record
  | .saveAnchor messageId offset =>
    return { s with
      anchors := s.anchors.put
        ⟨c.room, c.selection.membership.membershipScope, messageId, offset⟩ }
  | .clearAnchor => return { s with anchors := s.anchors.delete fun r => r.roomId = c.room }

/-- The operations of a transaction, all or none. -/
def actionTransaction (s : Db) (c : ConversationScope) (operations : List ActionOperation) :
    Transaction Db :=
  s.conversationTransaction c fun _ => operations.foldlM (fun s o => s.actionOperation c o) s

/-- `saveMedia`: an uploaded asset is remembered. -/
def saveMedia (s : Db) (c : ConversationScope) (value : PendingMedia) : Transaction Db :=
  s.conversationTransaction c fun checkpoint => do
    valid (checkpoint.snapshotComplete = true ∧ value.kind ≠ .avatar)
    valid ((s.media.select fun r => r.roomId = c.room ∧ r.membership = checkpoint.membership ∧
      r.authorization = checkpoint.authorization).length < 100)
    let media ← require (s.media.insert ⟨c.room, value.assetId, checkpoint.membership,
      checkpoint.authorization, value.kind⟩) .storage
    return { s with media := media }

/-- Assets that were sent are forgotten. -/
def dropMedia (s : Db) (room : Uuid) (assets : List Uuid) : Db :=
  { s with media := s.media.delete fun r => r.roomId = room ∧ r.assetId ∈ assets }

/-- `removeMedia`: the user discards an asset. -/
def removeMedia (s : Db) (c : ConversationScope) (asset : Uuid) : Transaction Db :=
  s.conversationTransaction c fun _ => return s.dropMedia c.room [asset]

/-! ## The outbox -/

def updateCommand (s : Db) (row : ConversationOutboxRow) : Db :=
  { s with outbox := s.outbox.put row }

/-- `enqueue`: a new command waits in the outbox. -/
def enqueue (s : Db) (c : ConversationScope) (command : TextCommand) (createdAtMs : Time) :
    Transaction Db :=
  s.conversationTransaction c fun checkpoint => do
    valid (checkpoint.snapshotComplete = true ∧ checkpoint.membership = command.membership)
    valid (s.outbox.rows.length < 500 ∧ s.command c.room command.clientMessageId = none)
    let outbox ← require (s.outbox.insert
      { roomId := c.room
        clientMessageId := command.clientMessageId
        membership := command.membership
        authorization := checkpoint.authorization
        command := command
        createdAtMs := createdAtMs
        phase := .prepared }) .storage
    return { s with outbox := outbox }

/-- `markSending`: a prepared command is handed to the network. -/
def markSending (s : Db) (c : ConversationScope) (commandId : Uuid) : Transaction Db :=
  s.conversationTransaction c fun checkpoint => do
    let row ← require (s.command c.room commandId) .storage
    valid (row.phase = .prepared ∧ row.membership = checkpoint.membership ∧
      row.authorization = checkpoint.authorization)
    return s.updateCommand { row with phase := .sending }

/-- `markUnknown`: the outcome of a sending is not known. -/
def markUnknown (s : Db) (c : ConversationScope) (commandId : Uuid) (errorCode : Option Token) :
    Transaction Db :=
  s.conversationTransaction c fun _ => do
    let row ← require (s.command c.room commandId) .storage
    if row.phase = .prepared ∨ row.phase = .sending ∨ row.phase = .unknown then
      return s.updateCommand { row with phase := .unknown, errorCode := errorCode }
    else
      return s

/-- The message of a deleted receipt is terminal at the version it was last stored with. -/
def tombstoneReceipt (s : Db) (room id : Uuid) : Db :=
  let previous := s.message room id
  { s with
    messages := s.messages.put (.tombstone room id ((previous.map (·.version)).getD .zero)
      (previous.bind (·.createdAtMs))) }

/-- A deleted receipt leaves a tombstone for the message the command is known by, if any, and
the command goes. -/
def deleteCommand (s : Db) (row : ConversationOutboxRow) (messageId : Option Uuid) : Db :=
  let s := match row.messageId.or messageId with
    | none => s
    | some id => s.tombstoneReceipt row.roomId id
  { s with
    outbox := s.outbox.delete fun r =>
      r.roomId = row.roomId ∧ r.clientMessageId = row.clientMessageId }

/-- What a receipt makes of the outbox row. -/
def acceptReceipt (s : Db) (row : ConversationOutboxRow) (receipt : CommandReceipt) : Db :=
  -- An observed deleted receipt is terminal even if a delayed lookup still says committed.
  if row.phase = .deleted then s
  else
    match receipt with
    | .committed _ messageId version => s.updateCommand
        { row with
          phase := .committed
          messageId := some messageId
          version := some version
          errorCode := none }
    | .deleted _ messageId => s.deleteCommand row messageId

/-- `receipt`: the server's answer to a command. -/
def receipt (s : Db) (c : ConversationScope) (commandId : Uuid) (receipt : CommandReceipt) :
    Transaction (Db × ConversationData) :=
  s.conversationTransaction c fun checkpoint => do
    valid (receipt.clientMessageId = commandId)
    match s.command c.room commandId with
    | none => s.withData c
    | some row =>
      valid (row.membership = checkpoint.membership ∧ row.phase ≠ .parked)
      valid (row.messageId = none ∨ receipt.messageId = none ∨ row.messageId = receipt.messageId)
      let s := (s.acceptReceipt row receipt).dropMedia c.room
        ((row.command.media.map (·.assetIds)).getD [])
      s.withData c

/-- A refused read of one message withdraws its projection; it is not a tombstone. -/
def unavailableProjection (s : Db) (c : ConversationScope) (commandId messageId : Uuid)
    (code : Token) : Transaction (Db × ConversationData) :=
  s.conversationTransaction c fun _ => do
    let hidden := { s with messages := s.messages.delete fun r =>
      r.roomId = c.room ∧ r.messageId = messageId ∧ r.deleted = false }
    match hidden.command c.room commandId with
    | some row =>
      if row.phase = .committed ∧ row.messageId = some messageId then
        (hidden.updateCommand { row with errorCode := some code }).withData c
      else
        hidden.withData c
    | none => hidden.withData c

end Db

/-! ## The operations of an opened room -/

/-- The operations on an opened conversation. -/
inductive ConversationCommand
  | restore
  | current
  | beginProfiles
  | snapshot (page : SnapshotPage)
  | events (requested : Token) (page : EventPage)
  | history (requested : Token) (page : HistoryPage)
  | profiles (requested : Option Token) (page : ProfilePage)
  | projection (message : ConversationMessage)
  | actions (operations : List ActionOperation)
  | saveMedia (value : PendingMedia)
  | removeMedia (asset : Uuid)
  | enqueue (command : TextCommand) (createdAtMs : Time)
  | markSending (commandId : Uuid)
  | markUnknown (commandId : Uuid) (errorCode : Option Token)
  | receipt (commandId : Uuid) (receipt : CommandReceipt)
  | unavailableProjection (commandId messageId : Uuid) (code : Token)

/-- The state a command commits. -/
def ConversationCommand.exec (c : ConversationScope) :
    ConversationCommand → Db → Transaction Db
  | .restore, s => (s.restore c).map fun _ => s
  | .current, s => (s.current c).map fun _ => s
  | .beginProfiles, s => s.beginProfiles c
  | .snapshot page, s => (s.snapshot c page).map (·.1)
  | .events requested page, s => (s.events c requested page).map (·.1)
  | .history requested page, s => (s.history c requested page).map (·.1)
  | .profiles requested page, s => (s.profilePage c requested page).map (·.1)
  | .projection message, s => (s.projection c message).map (·.1)
  | .actions operations, s => s.actionTransaction c operations
  | .saveMedia value, s => s.saveMedia c value
  | .removeMedia asset, s => s.removeMedia c asset
  | .enqueue command createdAtMs, s => s.enqueue c command createdAtMs
  | .markSending id, s => s.markSending c id
  | .markUnknown id errorCode, s => s.markUnknown c id errorCode
  | .receipt id answer, s => (s.receipt c id answer).map (·.1)
  | .unavailableProjection id messageId code, s =>
    (s.unavailableProjection c id messageId code).map (·.1)

end Rogichat.Android
