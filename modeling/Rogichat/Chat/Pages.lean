import Rogichat.Chat.Messages
import Rogichat.Chat.Projection
import Rogichat.Lib.Truth

/-!
# Reading one message, and reading pages

`MessagesCoreService.get` loads a message, decides in TypeScript whether it may be read and
builds the answer from further reads. `MessagesQueryRepository.page` selects a whole page
with one query that filters, joins the quote and orders the rows, reads attachments and
stickers for the page at once, and `MessagesQueryService.page` builds the answers.

An inner join is an optional lookup the row is dropped without. The query is over truth
values that may be unknown; a `LEFT JOIN` without a match leaves every column missing.
-/

namespace Rogichat

open Lib

/-! ## Attachments -/

namespace MessagesRepository

/-- An attachment of a message whose asset is there to be shown. -/
def Attached (db : Db) (roomId : Uuid) (x : MessageAttachment) : Prop :=
  x.roomId = roomId ∧ db.mediaAssets.Has fun a => a.id = x.assetId ∧ a.roomId = some x.roomId ∧
    a.state = .ready ∧ a.deletedAt = none ∧
      db.users.Has fun u => u.id = a.ownerUserId ∧ u.status.leaving = false

instance (db : Db) (roomId : Uuid) : DecidablePred (Attached db roomId) := fun x =>
  inferInstanceAs (Decidable (x.roomId = roomId ∧ _))

/-- The stored renditions of an asset, in the order of their variants. -/
def renditions (db : Db) (assetId : Uuid) : List MessageDto.Attachment :=
  ((db.mediaObjects.select fun o => o.assetId = assetId ∧ o.state = .ready ∧
      (o.variant = .image ∨ o.variant = .video ∨ o.variant = .poster)).insertionSort fun a b =>
    a.variant.rank ≤ b.variant.rank).map fun o =>
      { assetId := assetId, width := o.width.getD 0, height := o.height.getD 0,
        variant := o.variant }

def attachments (db : Db) (roomId messageId : Uuid) : List MessageDto.Attachment :=
  ((db.messageAttachments.select fun x => Attached db roomId x ∧
      x.messageId = messageId).insertionSort fun a b => a.position ≤ b.position).flatMap fun x =>
    renditions db x.assetId

end MessagesRepository

/-! ## One message -/

namespace MessagesCoreService

/-- A source in the audience of the message that quotes it. -/
def sameAudience (db : Db) (row source : MessageRow) : Prop :=
  source.streamKind = .roomShared ∨ source.streamId = row.streamId ∨
    row.streamKind = .restricted ∧ source.senderMemberId ≠ row.senderMemberId ∧
      MessagesRepository.quotePair db row.roomId row.streamId row.senderMemberId
        source.senderMemberId = true

instance (db : Db) (row source : MessageRow) : Decidable (sameAudience db row source) :=
  inferInstanceAs (Decidable (_ ∨ _ ∨ _))

def quoteOf (db : Db) (now : Time) (viewer : ActiveMember) (row : MessageRow) :
    Option MessageReadModel.Quote := do
  let quoteId ← if row.deletionRootId = none then row.quoteId else none
  let source ← MessagesRepository.load db false row.roomId quoteId
  let text ← source.textContent
  if sameAudience db row source ∧ readable db now viewer source = true ∧
      source.contentKind = .text then
    some { id := source.id
           authorName := some (if source.deletionRootId ≠ none then published
             else nameOr source.nickname)
           text := some text }
  else none

def contentOf (db : Db) (row : MessageRow) : Except Failure MessageDto.Content :=
  match row.contentKind with
  | .text => .ok (.text row.textContent)
  | .sticker => do
    let sticker ← StickersCoreService.messageContent db row.roomId row.id
    return .sticker sticker
  | .photo => .ok (.photo (MessagesRepository.attachments db row.roomId row.id) row.textContent)
  | .video => .ok (.video (MessagesRepository.attachments db row.roomId row.id) row.textContent)
  | .other _ => .error (.api .notFound)

/-- The read model of a message that may be read. -/
def modelOf (row : MessageRow) (content : MessageDto.Content)
    (quote : Option MessageReadModel.Quote) (hints : MessageEligibility)
    (reactions : MessageDto.Reactions) : MessageReadModel :=
  { hints with
    id := row.id
    version := row.version
    createdAt := row.createdAt
    audience := audienceLabel row.streamKind row.roomMode row.deletionRootId row.publishedActive
      row.senderMemberId row.ownerMemberId
    author := if row.deletionRootId ≠ none then .anonymous
      else .member row.senderMemberId (some (row.nickname.getD unnamed)) row.avatarId
    content := content
    reactions := some reactions
    quote := quote }

/-- `MessagesQueryService.reactions`. -/
def reactionsFor (db : Db) (viewer : ActiveMember) (ids : List Uuid) :
    List (Uuid × MessageDto.Reactions) :=
  MessagesQueryRepository.reactions db viewer.roomId viewer.id ids
    (BlockPolicyRepository.targets db viewer.roomId viewer.id false)

/-- A row as a single message. -/
def project (db : Db) (now : Time) (viewer : ActiveMember) (row : MessageRow) :
    Except Failure MessageDto := do
  ensure (readable db now viewer row = true) (.api .notFound)
  let quote := quoteOf db now viewer row
  let content ← contentOf db row
  let hints ← MessageEligibilityService.project db now viewer [row.id]
  let hints ← require (Keyed.at? Prod.fst hints row.id) (.error "undefined")
  let reactions ← require (Keyed.at? Prod.fst (reactionsFor db viewer [row.id]) row.id)
    (.error "undefined")
  return projectMessageDto (modelOf row content quote hints.2 reactions.2)

/-- One message, or `NOT_FOUND`. -/
def get (db : Db) (now : Time) (roomId userId messageId : Uuid) : Except Failure MessageDto := do
  let viewer ← AccessService.requireActiveMember db false now roomId userId
  let row ← require (MessagesRepository.load db false roomId messageId) (.api .notFound)
  project db now viewer row

end MessagesCoreService

/-! ## The page query -/

inductive MessageWindow
  | snapshot (from_ : Nat)
  | history (from_ : Nat)
  | events (from_ high : Nat)
  deriving DecidableEq, Repr

/-- The page is one of events. -/
def MessageWindow.isEvents : MessageWindow → Bool
  | .events _ _ => true
  | .snapshot _ | .history _ => false

namespace MessagesQueryRepository

/-- A row of the page. -/
structure PageRow where
  id : Uuid
  version : Nat
  createdOrder : Nat
  createdAt : Time
  deletionRootId : Option Uuid
  senderMemberId : Uuid
  textContent : Option String
  contentKind : ContentKind
  kind : StreamKind
  roomMode : RoomMode
  ownerMemberId : Option Uuid
  publishedActive : Bool
  nickname : Option String
  avatarId : Option Uuid
  blocked : Truth
  eventOrder : Option Nat
  quoteId : Option Uuid
  quoteText : Option String
  quoteAuthorName : Option String
  attachments : List MessageDto.Attachment := []
  sticker : Option StickerContent := none
  deriving DecidableEq, Repr

/-- The rows joined to a message that are always there. -/
structure Joins where
  s : MessageStream
  r : Room
  u : User
  sender : RoomMember

/-- The inner joins of the page query; the viewer's own row only has to be there. -/
def joins (db : Db) (actorId : Uuid) (m : Message) : Option Joins := do
  let s ← db.messageStreams.find? fun s => s.roomId = m.roomId ∧ s.id = m.streamId
  let r ← db.rooms.find? fun r => r.id = m.roomId
  let _ ← db.roomMembers.find? fun viewer => viewer.id = actorId ∧ viewer.roomId = m.roomId
  let u ← db.users.find? fun u => u.id = m.contentOwnerUserId
  let sender ← db.roomMembers.find? fun sender => sender.roomId = m.roomId ∧
    sender.id = m.senderMemberId
  return { s := s, r := r, u := u, sender := sender }

/-- `LEFT JOIN messages root` of a message, and the root's owner `ru`. -/
def root (db : Db) (m : Message) : Option Message := do
  let id ← m.deletionRootId
  db.messages.find? fun root => root.roomId = m.roomId ∧ root.id = id

/-- The account whose message a copy was made of. -/
def rootOwner (db : Db) (m : Message) : Option User := do
  let root ← root db m
  db.users.find? fun ru => ru.id = root.contentOwnerUserId

/-- The root of a copy is gone, hidden or owned by a leaving account. -/
def rootBlockedSql (db : Db) (m : Message) : Truth :=
  .and (.of (m.deletionRootId ≠ none))
    (.or (.of (root db m = none)) (.or (.of ((root db m).bind Message.deletedAt ≠ none))
      (.or (.cmp (root db m) fun root => root.moderated = true)
        (.cmp (rootOwner db m) fun ru => ru.status.leaving = true))))

/-- The fragment `blocked`, as the database computes it. -/
def blockedSql (db : Db) (m : Message) (u : User) : Truth :=
  .or (.of (m.deletedAt ≠ none)) (.or (.of (m.moderated = true))
    (.or (.of (u.status.leaving = true)) (.or (rootBlockedSql db m)
      (.and (.of (m.contentKind = .sticker)) (.not (.of (stickerServed db m)))))))

/-- The live root a quoted copy has to have. -/
def rootLiveSql (db : Db) (m : Message) : Truth :=
  .or (.of (m.deletionRootId = none)) (.and (.of (root db m ≠ none))
    (.and (.of ((root db m).bind Message.deletedAt = none))
      (.and (.cmp (root db m) fun root => root.moderated = false)
        (.cmp (rootOwner db m) fun ru => ru.status.leaving = false))))

/-- The quoted message, with its stream and its owner. -/
structure Quoted where
  q : Message
  qs : Option MessageStream
  qu : Option User
  author : Option UserProfile

/-- The left joins of a quote. -/
def quoted (db : Db) (m : Message) : Option Quoted := do
  let id ← m.quoteId
  let q ← db.messages.find? fun q => q.roomId = m.roomId ∧ q.id = id
  let sender := db.roomMembers.find? fun sender => sender.roomId = q.roomId ∧
    sender.id = q.senderMemberId
  return { q := q
           qs := db.messageStreams.find? fun qs => qs.roomId = q.roomId ∧ qs.id = q.streamId
           qu := db.users.find? fun qu => qu.id = q.contentOwnerUserId
           author := sender.bind fun sender =>
             db.userProfiles.find? fun p => p.userId = sender.userId }

/-- The stream of the message is the pair of the two authors. -/
def quotePairSql (db : Db) (m q : Message) : Prop :=
  db.streamPairs.Has fun qp => qp.roomId = m.roomId ∧ qp.streamId = m.streamId ∧
    qp.leftMemberId = min m.senderMemberId q.senderMemberId ∧
    qp.rightMemberId = max m.senderMemberId q.senderMemberId

instance (db : Db) (m q : Message) : Decidable (quotePairSql db m q) :=
  inferInstanceAs (Decidable (Table.Has _ _))

/-- The condition of `quote_id`: the quote is live and the viewer is in its audience. -/
def quotableSql (db : Db) (now : Time) (actorId : Uuid) (visibleFrom : Nat) (m : Message)
    (j : Joins) (x : Quoted) : Truth :=
  .and (.of (m.deletionRootId = none)) <| .and (.of (x.q.contentKind = .text)) <|
    .and (.of (x.q.deletedAt = none)) <| .and (.of (x.q.moderated = false)) <|
    .and (.cmp x.qu fun qu => qu.status.leaving = false) <| .and (rootLiveSql db x.q) <|
    .and (.of (personalSql db x.q actorId)) <| .and (.of (visibleFrom ≤ x.q.createdOrder)) <|
    .or (.and (.cmp x.qs fun qs => qs.kind = .roomShared)
        (.of (fanSharedVisibleSql db x.q j.r actorId false)))
      (.and (.cmp x.qs fun qs => qs.kind = .restricted)
        (.and (.or (.of (x.q.streamId = m.streamId))
            (.of (j.s.kind = .restricted ∧ x.q.senderMemberId ≠ m.senderMemberId ∧
              quotePairSql db m x.q)))
          (.of (grantSql db now x.q actorId))))

/-- The columns of a message of the page. -/
def rowOf (db : Db) (now : Time) (actorId : Uuid) (visibleFrom : Nat) (m : Message) (j : Joins)
    (eventOrder : Option Nat) : PageRow :=
  let x := quoted db m
  { id := m.id, version := m.version, createdOrder := m.createdOrder, createdAt := m.createdAt
    deletionRootId := m.deletionRootId, senderMemberId := m.senderMemberId
    textContent := m.textContent, contentKind := m.contentKind
    kind := j.s.kind, roomMode := j.r.mode, ownerMemberId := j.r.ownerMemberId
    publishedActive := decide (publishedCopySql db m false)
    nickname := (db.userProfiles.find? fun p => p.userId = j.sender.userId).map
      UserProfile.nickname
    avatarId := MessagesRepository.avatarId db j.sender
    blocked := blockedSql db m j.u
    eventOrder := eventOrder
    quoteId := x.bind fun x =>
      if (quotableSql db now actorId visibleFrom m j x).Holds then some x.q.id else none
    quoteText := x.bind fun x => x.q.textContent
    quoteAuthorName := x.bind fun x => if x.q.deletionRootId ≠ none then some published
      else x.author.map UserProfile.nickname }

/-- The rows of the messages themselves: `snapshot` and `history`. -/
def liveRow (db : Db) (now : Time) (actorId : Uuid) (visibleFrom : Nat) (m : Message) :
    Option PageRow := do
  let j ← joins db actorId m
  if personalSql db m actorId ∧ audienceOf db now actorId visibleFrom false m j.s j.r ∧
      (blockedSql db m j.u).not.Holds then
    some (rowOf db now actorId visibleFrom m j none)
  else none

/-- The rows of the events. -/
def eventRow (db : Db) (now : Time) (actorId : Uuid) (visibleFrom : Nat) (e : RoomEvent) :
    Option PageRow := do
  let m ← db.messages.find? fun m => m.id = e.messageId ∧ m.roomId = e.roomId ∧
    m.streamId = e.streamId
  let j ← joins db actorId m
  if personalSql db m actorId ∧ eventAudienceOf db now actorId visibleFrom e m j.s j.r then
    some (rowOf db now actorId visibleFrom m j (some e.eventOrder))
  else none

/-- The rows of a window in their order, before the limit. -/
def windowRows (db : Db) (now : Time) (actorId roomId : Uuid) (visibleFrom : Nat) :
    MessageWindow → List PageRow
  | .snapshot from_ => ((db.messages.select fun m => m.roomId = roomId ∧
      m.createdOrder ≤ from_).filterMap (liveRow db now actorId visibleFrom)).insertionSort
        fun a b => b.createdOrder ≤ a.createdOrder
  | .history from_ => ((db.messages.select fun m => m.roomId = roomId ∧
      m.createdOrder < from_).filterMap (liveRow db now actorId visibleFrom)).insertionSort
        fun a b => b.createdOrder ≤ a.createdOrder
  | .events from_ high => ((db.roomEvents.select fun e => e.roomId = roomId ∧
      from_ < e.eventOrder ∧ e.eventOrder ≤ high).filterMap
        (eventRow db now actorId visibleFrom)).insertionSort
        fun a b => a.eventOrder.getD 0 ≤ b.eventOrder.getD 0

/-- The attachments read for a page at once, by message. -/
def attachmentsOf (db : Db) (roomId : Uuid) (mediaIds : List Uuid) (id : Uuid) :
    List MessageDto.Attachment :=
  (((db.messageAttachments.select fun x => MessagesRepository.Attached db roomId x ∧
      x.messageId ∈ mediaIds).insertionSort fun a b => a.position ≤ b.position).filter fun x =>
    decide (x.messageId = id)).flatMap fun x => MessagesRepository.renditions db x.assetId

/-- The stickers read for a page at once, by message. -/
def stickerOf (db : Db) (roomId : Uuid) (stickerIds : List Uuid) (id : Uuid) :
    Option StickerContent := do
  let link ← db.messageStickers.find? fun l => l.roomId = roomId ∧ l.messageId ∈ stickerIds ∧
    l.messageId = id
  let sticker ← db.stickerCatalog.find? fun s => s.id = link.stickerId
  let asset ← db.mediaAssets.find? fun a => a.id = sticker.assetId
  match db.mediaObjects.select fun o => o.assetId = asset.id ∧ o.variant = .image ∧
      o.state = .ready with
  | [object] => some { stickerId := sticker.id, assetId := sticker.assetId,
                       width := object.width.getD 0, height := object.height.getD 0 }
  | _ => none

/-- A row with its attachments and its sticker. -/
def withMedia (db : Db) (roomId : Uuid) (mediaIds stickerIds : List Uuid) (row : PageRow) :
    PageRow :=
  { row with
    attachments := attachmentsOf db roomId mediaIds row.id
    sticker := stickerOf db roomId stickerIds row.id }

/-- A page, with the attachments and stickers of its rows. -/
def page (db : Db) (now : Time) (actorId roomId : Uuid) (visibleFrom : Nat)
    (window : MessageWindow) (limit : Nat) : List PageRow :=
  let rows := (windowRows db now actorId roomId visibleFrom window).take limit
  let mediaIds := (rows.filter fun row => decide (row.blocked ≠ .true ∧
    (row.contentKind = .photo ∨ row.contentKind = .video))).map PageRow.id
  let stickerIds := (rows.filter fun row => decide (row.blocked ≠ .true ∧
    row.contentKind = .sticker)).map PageRow.id
  rows.map (withMedia db roomId mediaIds stickerIds)

end MessagesQueryRepository

/-! ## Pages -/

structure MessagePageItem where
  id : Uuid
  version : Nat
  createdOrder : Nat
  eventOrder : Option Nat
  /-- `none` for a message that is blocked. -/
  message : Option MessageDto
  deriving DecidableEq, Repr

/-- A page and where the next one starts. -/
structure MessagePage where
  items : List MessagePageItem
  hasMore : Bool
  deriving DecidableEq, Repr

namespace MessagesQueryService

open MessagesQueryRepository

/-- The content a row of a page shows. -/
def contentOf (row : PageRow) : Except Failure MessageDto.Content :=
  match row.contentKind with
  | .text => .ok (.text row.textContent)
  | .sticker => do
    let sticker ← require row.sticker .unavailable
    return .sticker sticker
  | .photo => .ok (.photo row.attachments row.textContent)
  | .video => .ok (.video row.attachments row.textContent)
  | .other _ => .error .unavailable

/-- A row of a page as a message. -/
def project (row : PageRow) (hints : MessageEligibility) (reactions : MessageDto.Reactions) :
    Except Failure MessageDto := do
  let content ← contentOf row
  return projectMessageDto { hints with
    id := row.id
    version := row.version
    createdAt := row.createdAt
    audience := audienceLabel row.kind row.roomMode row.deletionRootId row.publishedActive
      row.senderMemberId row.ownerMemberId
    author := if row.deletionRootId ≠ none then .anonymous
      else .member row.senderMemberId (some (row.nickname.getD unnamed)) row.avatarId
    content := content
    reactions := some reactions
    quote := if row.deletionRootId ≠ none then none else row.quoteId.map fun id =>
      { id := id, authorName := some (row.quoteAuthorName.getD unnamed),
        text := row.quoteText } }

/-- The item of a row; a blocked row has no place outside of events. -/
def item (window : MessageWindow) (hints : List (Uuid × MessageEligibility))
    (reactions : List (Uuid × MessageDto.Reactions)) (row : PageRow) :
    Except Failure MessagePageItem := do
  let position : MessagePageItem :=
    { id := row.id
      version := row.version
      createdOrder := row.createdOrder
      eventOrder := row.eventOrder
      message := none }
  if row.blocked = .true then
    ensure (window.isEvents = true) .unavailable
    return position
  else
    let hints ← require (Keyed.at? Prod.fst hints row.id) (.error "undefined")
    let reactions ← require (Keyed.at? Prod.fst reactions row.id) (.error "undefined")
    let message ← project row hints.2 reactions.2
    return { position with message := some message }

/-- `page` after its check of the limit. -/
def items (db : Db) (now : Time) (viewer : ActiveMember) (window : MessageWindow) (limit : Nat) :
    Except Failure MessagePage := do
  let rows := page db now viewer.id viewer.roomId viewer.visibleFromOrder window (limit + 1)
  let shown := rows.take limit
  let live := (shown.filter fun row => decide (row.blocked ≠ .true)).map PageRow.id
  let hints ← MessageEligibilityService.project db now viewer live
  let reactions := MessagesCoreService.reactionsFor db viewer live
  let items ← shown.mapM (item window hints reactions)
  return { items := items, hasMore := decide (limit < rows.length) }

def page (db : Db) (now : Time) (viewer : ActiveMember) (window : MessageWindow) (limit : Nat) :
    Except Failure MessagePage := do
  ensure (1 ≤ limit ∧ limit ≤ 100) .unavailable
  items db now viewer window limit

end MessagesQueryService

end Rogichat
