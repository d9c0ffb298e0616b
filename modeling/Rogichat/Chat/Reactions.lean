import Rogichat.Chat.Messages

/-!
# Reactions

A member sets, replaces or withdraws its one reaction to a message it can read.
Every change is a new version of the message, with an event.
-/

namespace Rogichat

open Lib

namespace ReactionsRepository

/-- The reaction of a member to a message. -/
def prior (db : Db) (roomId messageId memberId : Uuid) : Option MessageReaction :=
  db.messageReactions.find? fun r => r.roomId = roomId ∧ r.messageId = messageId ∧
    r.memberId = memberId

/-- The reaction rows after the member's reaction is `emoji`. -/
def write (db : Db) (id roomId messageId memberId : Uuid) (emoji : Option String) :
    Except Failure Db :=
  match emoji, prior db roomId messageId memberId with
  | none, _ => return { db with
      messageReactions := db.messageReactions.delete fun r => r.roomId = roomId ∧
        r.messageId = messageId ∧ r.memberId = memberId }
  | some emoji, some prior => return { db with
      messageReactions := db.messageReactions.update
        (fun r => r.id = prior.id ∧ r.roomId = roomId ∧ r.messageId = messageId ∧
          r.memberId = memberId)
        fun r => { r with emoji := emoji } }
  | some emoji, none => do
    let reactions ← require (db.messageReactions.insert
      { id := id, roomId := roomId, messageId := messageId, memberId := memberId,
        emoji := emoji }) .constraint
    return { db with messageReactions := reactions }

/-- A reaction moves the message's version. -/
def advanceVersion (db : Db) (roomId messageId : Uuid) : Db :=
  { db with
    messages := db.messages.update (fun m => m.roomId = roomId ∧ m.id = messageId)
      fun m => { m with version := m.version + 1 } }

end ReactionsRepository

namespace ReactionsCoreService

open ReactionsRepository

/-- `setReaction`, up to the counts it answers with. -/
def setReaction (db : Db) (now : Time) (ids : Nat → Uuid) (roomId userId messageId : Uuid)
    (emoji : Option String) : Except Failure Db := do
  let _ ← require (db.rooms.find? fun r => r.id = roomId ∧ r.status = .active) (.api .notFound)
  let viewer ← AccessService.requireActiveMember db true now roomId userId
  let message ← require (MessagesRepository.load db true roomId messageId) (.api .notFound)
  ensure (MessagesCoreService.readable db now viewer message = true) (.api .notFound)
  ensure (message.streamKind = .restricted →
    AccessService.actorBlocked db roomId viewer.id message.senderMemberId true = false ∧
      AccessService.privateInteractionBlocked db roomId viewer.id message.streamId = false)
    (.api .notFound)
  if (prior db roomId messageId viewer.id).map MessageReaction.emoji = emoji then return db
  else do
    let db ← write db (ids 0) roomId messageId viewer.id emoji
    let (db, order) ← RoomStateService.nextOrder (advanceVersion db roomId messageId) roomId
    MessagesCoreService.recordEvent db (ids 1) roomId message.streamId message.id
      (message.version + 1) order .messageUpdated

end ReactionsCoreService

end Rogichat
