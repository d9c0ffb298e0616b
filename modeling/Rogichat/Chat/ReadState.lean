import Rogichat.Chat.ReadModel
import Rogichat.Chat.Senders
import Rogichat.Sync.Cursor

/-!
# Own read states

A member reports the messages it has displayed, and each stream keeps one mark for it: the
highest order reported in the membership period. `firstUnread` looks for the first message
above the marks with a query of its own, beside the one that selects pages.

The marks are a table beside the chat service's. The MAC of a read context is a parameter.

* **`selected_iff`** — the query selects the unread messages of the whole snapshot page.
* **`firstUnread_boundary`** — its answer is the first of them.
-/

namespace Rogichat

open Lib

/-- A row of `own_read_states`. -/
structure OwnReadState where
  memberId : Uuid
  streamId : Uuid
  roomId : Uuid
  periodId : Uuid
  lastReadOrder : Nat
  updatedAt : Time
  deriving DecidableEq, Repr

instance : Row OwnReadState where
  Key := IndexKey
  decEq := inferInstance
  keys r := [(0, [r.memberId, r.streamId])]
  keyed _ := List.cons_ne_nil _ _

/-- The chat service's tables and the marks. -/
structure ReadDb where
  chat : Db := {}
  ownReadStates : Table OwnReadState := .empty

/-! ## Contexts -/

/-- The session a context is bound to. -/
structure ReadContextBinding where
  audience : String
  sessionId : Uuid
  deriving DecidableEq, Repr

/-- The MAC of a session's audience and id, and of an account, a room and a period. -/
def ReadMac : Type := ReadContextBinding → Uuid → Uuid → Uuid → String

/-- The context of a viewer's membership period. -/
def readContext (mac : ReadMac) (viewer : ActiveMember) (binding : ReadContextBinding) : String :=
  mac binding viewer.userId viewer.roomId viewer.activePeriodId

/-- The context is the viewer's own. -/
def requireReadContext (mac : ReadMac) (value : String) (viewer : ActiveMember)
    (binding : ReadContextBinding) : Except Failure Unit := do
  ensure (Sync.isAcl value.toList = true) (.api .invalidRequest)
  ensure (value = readContext mac viewer binding) (.api .conflict)

/-! ## Marks -/

namespace ReadStateRepository

/-- The room is active. -/
def lockRoom (db : Db) (roomId : Uuid) : Prop :=
  db.rooms.Has fun r => r.id = roomId ∧ r.status = .active

instance (db : Db) (roomId : Uuid) : Decidable (lockRoom db roomId) :=
  inferInstanceAs (Decidable (Table.Has _ _))

/-- The viewer's mark of a stream. -/
def current (s : ReadDb) (viewer : ActiveMember) (streamId : Uuid) : Option OwnReadState :=
  s.ownReadStates.find? fun x => x.roomId = viewer.roomId ∧ x.memberId = viewer.id ∧
    x.streamId = streamId ∧ x.periodId = viewer.activePeriodId

/-- The message with an order in a stream. -/
def messageAt (db : Db) (roomId streamId : Uuid) (order : Nat) : Option Message :=
  db.messages.find? fun m => m.roomId = roomId ∧ m.streamId = streamId ∧ m.createdOrder = order

/-- The rows `advance` moves: of another period, or behind. -/
def Behind (viewer : ActiveMember) (streamId : Uuid) (order : Nat) (x : OwnReadState) : Prop :=
  x.memberId = viewer.id ∧ x.streamId = streamId ∧ x.roomId = viewer.roomId ∧
    (x.periodId ≠ viewer.activePeriodId ∨
      x.periodId = viewer.activePeriodId ∧ x.lastReadOrder < order)

instance (viewer : ActiveMember) (streamId : Uuid) (order : Nat) :
    DecidablePred (Behind viewer streamId order) := fun x =>
  inferInstanceAs (Decidable (x.memberId = viewer.id ∧ _))

/-- The mark moves up to the order, never down. -/
def advance (s : ReadDb) (clock : Time) (viewer : ActiveMember) (streamId : Uuid) (order : Nat) :
    Except Failure ReadDb :=
  match s.ownReadStates.find? fun x => x.memberId = viewer.id ∧ x.streamId = streamId with
  | none => do
    let rows ← require (s.ownReadStates.insert
      { memberId := viewer.id, streamId := streamId, roomId := viewer.roomId,
        periodId := viewer.activePeriodId, lastReadOrder := order, updatedAt := clock })
      .constraint
    return { s with ownReadStates := rows }
  | some _ => return { s with
      ownReadStates := s.ownReadStates.update (Behind viewer streamId order) (fun x =>
        { x with periodId := viewer.activePeriodId, lastReadOrder := order, updatedAt := clock })
        ⟨fun _ => rfl⟩ }

/-- The rows of an account, through the member of their period. -/
def OfAccount (db : Db) (userId : Uuid) (x : OwnReadState) : Prop :=
  db.membershipPeriods.Has fun p => p.roomId = x.roomId ∧ p.memberId = x.memberId ∧
    p.id = x.periodId ∧ db.roomMembers.Has fun m => m.roomId = p.roomId ∧ m.id = p.memberId ∧
      m.userId = userId

instance (db : Db) (userId : Uuid) : DecidablePred (OfAccount db userId) := fun _ =>
  inferInstanceAs (Decidable (Table.Has _ _))

/-- A batch of an account's rows, and whether there are more. -/
def purgeAccount (s : ReadDb) (userId : Uuid) (limit : Nat) : ReadDb × Nat × Bool :=
  let rows := ((s.ownReadStates.select (OfAccount s.chat userId)).insertionSort fun a b =>
    toLex (a.memberId, a.streamId) ≤ toLex (b.memberId, b.streamId)).take limit
  let keys := rows.map fun x => (x.memberId, x.streamId)
  let left := s.ownReadStates.delete fun x =>
    OfAccount s.chat userId x ∧ (x.memberId, x.streamId) ∈ keys
  ({ s with ownReadStates := left }, rows.length,
    decide (left.Has fun x => OfAccount s.chat userId x))

/-! ## The first unread message -/

/-- The inner joins of the query; the viewer's own row only has to be there. -/
structure Joins where
  s : MessageStream
  r : Room
  u : User

/-- The rows the query joins to a message. -/
def joins (db : Db) (actorId : Uuid) (m : Message) : Option Joins := do
  let s ← db.messageStreams.find? fun s => s.roomId = m.roomId ∧ s.id = m.streamId
  let r ← db.rooms.find? fun r => r.id = m.roomId
  let _ ← db.roomMembers.find? fun viewer => viewer.id = actorId ∧ viewer.roomId = m.roomId
  let u ← db.users.find? fun u => u.id = m.contentOwnerUserId
  return { s := s, r := r, u := u }

/-- `COALESCE(rs.last_read_order,0)`. -/
def mark (s : ReadDb) (viewer : ActiveMember) (m : Message) : Nat :=
  (s.ownReadStates.find? fun rs => rs.roomId = m.roomId ∧ rs.streamId = m.streamId ∧
    rs.memberId = viewer.id ∧ rs.periodId = viewer.activePeriodId).elim 0
      OwnReadState.lastReadOrder

/-- The `WHERE` clause, without the room. -/
def unreadSql (s : ReadDb) (now : Time) (viewer : ActiveMember) (m : Message) (j : Joins) :
    Truth :=
  .and (.of (viewer.visibleFromOrder ≤ m.createdOrder)) <|
    .and (.of (m.senderMemberId ≠ viewer.id)) <|
    .and (.of (mark s viewer m < m.createdOrder)) <|
    .and (.of (MessagesQueryRepository.personalSql s.chat m viewer.id)) <|
    .and (.or (.and (.of (j.s.kind = .roomShared))
        (.of (fanSharedVisibleSql s.chat m j.r viewer.id false)))
      (.and (.of (j.s.kind = .restricted))
        (.of (MessagesQueryRepository.grantSql s.chat now m viewer.id)))) <|
    .and (.of (m.deletedAt = none)) <| .and (.of (m.moderated = false)) <|
    .and (.of (j.u.status.leaving = false)) <|
    .and (MessagesQueryRepository.rootLiveSql s.chat m)
      (.or (.of (m.contentKind ≠ .sticker))
        (.of (MessagesQueryRepository.stickerServed s.chat m)))

/-- The messages the query selects, before its order and limit. -/
def Selected (s : ReadDb) (now : Time) (viewer : ActiveMember) (m : Message) : Prop :=
  m.roomId = viewer.roomId ∧
    ((joins s.chat viewer.id m).any fun j => decide (unreadSql s now viewer m j).Holds) = true

instance (s : ReadDb) (now : Time) (viewer : ActiveMember) :
    DecidablePred (Selected s now viewer) := fun m =>
  inferInstanceAs (Decidable (m.roomId = viewer.roomId ∧ _))

/-- The unread message with the least order. -/
def firstUnread (s : ReadDb) (now : Time) (viewer : ActiveMember) : Option Uuid :=
  (s.chat.messages.first? (Selected s now viewer) fun a b =>
    a.createdOrder ≤ b.createdOrder).map Message.id

end ReadStateRepository

/-! ## Reading and reporting -/

namespace ReadStateCoreService

open ReadStateRepository

/-- The message at a mark, while the viewer may read it. -/
def project (s : ReadDb) (writable : Bool) (now : Time) (viewer : ActiveMember)
    (streamId : Uuid) (order : Nat) : Option Uuid := do
  let candidate ← messageAt s.chat viewer.roomId streamId order
  let message ← MessagesRepository.load s.chat writable viewer.roomId candidate.id
  if message.streamId = streamId ∧ message.createdOrder = order ∧
      MessagesCoreService.readable s.chat now viewer message = true then
    some message.id
  else none

/-- `put`; its answer is the message at the mark. -/
def put (mac : ReadMac) (s : ReadDb) (now clock : Time) (roomId userId messageId : Uuid)
    (context : String) (binding : ReadContextBinding) :
    Except Failure (ReadDb × Option Uuid) := do
  ensure (lockRoom s.chat roomId) (.api .notFound)
  let viewer ← AccessService.requireActiveMember s.chat true now roomId userId
  requireReadContext mac context viewer binding
  let message ← require (MessagesRepository.load s.chat true roomId messageId) (.api .notFound)
  ensure (MessagesCoreService.readable s.chat now viewer message = true) (.api .notFound)
  let s ← advance s clock viewer message.streamId message.createdOrder
  let state ← require (current s viewer message.streamId) (.error "read_state_missing")
  return (s, project s true now viewer message.streamId state.lastReadOrder)

/-- A batch of an account's marks is removed. -/
def purgeAccount (s : ReadDb) (userId : Uuid) (limit : Nat) :
    Except Failure (ReadDb × Nat × Bool) := do
  ensure (1 ≤ limit ∧ limit ≤ 500) (.api .invalidRequest)
  return ReadStateRepository.purgeAccount s userId limit

end ReadStateCoreService

/-! ## The system -/

/-- The transactions of the chat service, and those on the marks. -/
inductive ReadCommand
  | chat (c : Command)
  | put (now clock : Time) (roomId userId messageId : Uuid) (context : String)
      (binding : ReadContextBinding)
  | purgeAccount (userId : Uuid) (limit : Nat)

/-- A transaction; a failed one changes nothing. -/
def ReadCommand.exec (mac : ReadMac) (c : ReadCommand) (s : ReadDb) : Except Failure ReadDb :=
  match c with
  | .chat c => do
    let chat ← c.exec s.chat
    return { s with chat := chat }
  | .put now clock roomId userId messageId context binding => do
    let (s, _) ← ReadStateCoreService.put mac s now clock roomId userId messageId context binding
    return s
  | .purgeAccount userId limit => do
    let (s, _) ← ReadStateCoreService.purgeAccount s userId limit
    return s

/-- The chat service with its members' marks, from an empty database. -/
def readStates (mac : ReadMac) : System ReadDb ReadCommand where
  init s := s = {}
  step c s t := c.exec mac s = .ok t

/-! ## The boundary and the page -/

namespace ReadStateRepository

/-- The viewer's high-water mark of a stream, in its active period. -/
def highWater (s : ReadDb) (viewer : ActiveMember) (streamId : Uuid) : Nat :=
  (current s viewer streamId).elim 0 OwnReadState.lastReadOrder

/-- A message of somebody else above the viewer's mark in its stream. -/
def Unread (s : ReadDb) (viewer : ActiveMember) (m : Message) : Prop :=
  m.senderMemberId ≠ viewer.id ∧ highWater s viewer m.streamId < m.createdOrder

/-- A message of the snapshot page, without a limit. -/
def Paged (db : Db) (now : Time) (viewer : ActiveMember) (m : Message) : Prop :=
  ∃ row ∈ MessagesQueryRepository.windowRows db now viewer.id viewer.roomId
    viewer.visibleFromOrder (.snapshot (db.order viewer.roomId)), row.id = m.id

/-- The answer of `firstUnread` is the unread message of the page with the least order, and there
is none exactly when nothing on the page is unread. -/
structure Boundary (s : ReadDb) (now : Time) (viewer : ActiveMember) : Prop where
  nothing : firstUnread s now viewer = none ↔
    ∀ m ∈ s.chat.messages, Paged s.chat now viewer m → ¬Unread s viewer m
  least : ∀ id, firstUnread s now viewer = some id → ∃ m ∈ s.chat.messages, m.id = id ∧
    Paged s.chat now viewer m ∧ Unread s viewer m ∧ ∀ m' ∈ s.chat.messages,
      Paged s.chat now viewer m' → Unread s viewer m' → m.createdOrder ≤ m'.createdOrder

/-- The mark the query joins is the viewer's mark of the stream. -/
theorem mark_eq {s : ReadDb} {viewer : ActiveMember} {m : Message}
    (hroom : m.roomId = viewer.roomId) : mark s viewer m = highWater s viewer m.streamId := by
  unfold mark highWater current
  congr 2
  funext rs
  rw [hroom, and_left_comm (a := rs.streamId = m.streamId)]

/-- The page query joins one row more, the sender's. -/
theorem joins_page {db : Db} (actorId : Uuid) {m : Message}
    (hsender : Resident db m.senderMemberId m.roomId) :
    ∃ sender, MessagesQueryRepository.joins db actorId m =
      (joins db actorId m).map fun j => { s := j.s, r := j.r, u := j.u, sender := sender } := by
  obtain ⟨x, hx, hroom⟩ := hsender
  obtain ⟨n, hn, hid, rfl⟩ := Db.mem_of_seat hx
  have hmember : ∃ x ∈ db.roomMembers, x.roomId = m.roomId ∧ x.id = m.senderMemberId :=
    ⟨n, hn, hroom, hid⟩
  obtain ⟨sender, hfind⟩ := Option.isSome_iff_exists.mp (Table.find?_isSome.mpr hmember)
  refine ⟨sender, ?_⟩
  unfold MessagesQueryRepository.joins joins
  rw [hfind]
  simp only [Option.bind_eq_bind, Option.bind_some, Option.pure_def, Option.map_bind,
    Function.comp_def, Option.map_some]

/-- The two queries agree on what may be seen. -/
theorem unreadSql_holds {s : ReadDb} {now : Time} {viewer : ActiveMember} {m : Message}
    {j : Joins} : (unreadSql s now viewer m j).Holds ↔
      (MessagesQueryRepository.personalSql s.chat m viewer.id ∧
        MessagesQueryRepository.audienceOf s.chat now viewer.id viewer.visibleFromOrder false m
          j.s j.r ∧ (MessagesQueryRepository.blockedSql s.chat m j.u).not.Holds) ∧
        m.senderMemberId ≠ viewer.id ∧ mark s viewer m < m.createdOrder := by
  simp only [unreadSql, MessagesQueryRepository.blockedSql, MessagesQueryRepository.audienceOf,
    Truth.holds_and, Truth.holds_or, Truth.holds_of, Truth.holds_not, Truth.fails_or,
    Truth.fails_and, Truth.fails_of, Truth.fails_not,
    MessagesQueryRepository.rootBlockedSql_fails_iff_rootLiveSql, not_not, Bool.not_eq_true,
    ne_eq]
  constructor
  · rintro ⟨horder, hsender, hmark, hpersonal, haudience, hdeleted, hmoderated, howner, hroot,
      hsticker⟩
    exact ⟨⟨hpersonal, ⟨horder, haudience⟩, hdeleted, hmoderated, howner, hroot, hsticker⟩,
      hsender, hmark⟩
  · rintro ⟨⟨hpersonal, ⟨horder, haudience⟩, hdeleted, hmoderated, howner, hroot, hsticker⟩,
      hsender, hmark⟩
    exact ⟨horder, hsender, hmark, hpersonal, haudience, hdeleted, hmoderated, howner, hroot,
      hsticker⟩

/-- A message is selected when the page query selects it and it is unread. -/
theorem selected_iff {s : ReadDb} {now : Time} {viewer : ActiveMember} {m : Message}
    (hsender : Resident s.chat m.senderMemberId m.roomId) :
    Selected s now viewer m ↔ m.roomId = viewer.roomId ∧
      (∃ row, MessagesQueryRepository.liveRow s.chat now viewer.id viewer.visibleFromOrder m =
        some row) ∧ Unread s viewer m := by
  obtain ⟨sender, hjoins⟩ := joins_page viewer.id hsender
  unfold Selected Unread
  refine and_congr_right fun hroom => ?_
  rw [← mark_eq hroom]
  cases hj : joins s.chat viewer.id m with
  | none =>
    rw [hj, Option.map_none] at hjoins
    simp [MessagesQueryRepository.liveRow, hjoins]
  | some j =>
    rw [hj, Option.map_some] at hjoins
    simp only [Option.any_some, decide_eq_true_eq, unreadSql_holds]
    refine and_congr_left fun _ => ?_
    constructor
    · intro h
      exact ⟨_, (MessagesCoreService.liveRow_iff hjoins).mpr ⟨h, rfl⟩⟩
    · intro h
      obtain ⟨row, hrow⟩ := h
      exact ((MessagesCoreService.liveRow_iff hjoins).mp hrow).1

end ReadStateRepository

/-- What a transaction does to the chat service. -/
theorem ReadCommand.exec_chat {mac : ReadMac} {c : ReadCommand} {s t : ReadDb}
    (h : c.exec mac s = .ok t) : t.chat = s.chat ∨ ∃ d, c = .chat d ∧ d.exec s.chat = .ok t.chat ∧
      t.ownReadStates = s.ownReadStates := by
  cases c with
  | chat d =>
    simp only [ReadCommand.exec, bind_ok, pure_ok] at h
    obtain ⟨db, hdb, rfl⟩ := h
    exact .inr ⟨d, rfl, hdb, rfl⟩
  | put now clock roomId userId messageId context binding =>
    simp only [ReadCommand.exec, ReadStateCoreService.put, ReadStateRepository.advance, bind_ok,
      ensure_ok, require_ok, pure_ok] at h
    obtain ⟨⟨u, reply⟩, ⟨-, -, viewer, -, -, -, message, -, -, -, a, ha, state, -, heq⟩, rfl⟩ := h
    obtain ⟨rfl, -⟩ := Prod.mk.inj heq
    left
    split at ha
    · simp only [bind_ok, require_ok, pure_ok] at ha
      obtain ⟨rows, -, rfl⟩ := ha
      rfl
    · cases ha
      rfl
  | purgeAccount userId limit =>
    simp only [ReadCommand.exec, ReadStateCoreService.purgeAccount, bind_ok, ensure_ok,
      pure_ok] at h
    obtain ⟨⟨u, deleted, more⟩, ⟨-, -, heq⟩, rfl⟩ := h
    obtain ⟨rfl, -⟩ := Prod.mk.inj heq
    exact .inl rfl

/-- The chat service beside the marks is the chat service. -/
theorem reachable_readChat {mac : ReadMac} {s : ReadDb} (hs : (readStates mac).Reachable s) :
    chat.Reachable s.chat := by
  induction hs with
  | init hs =>
    rw [hs]
    exact .init rfl
  | step hs hstep ih =>
    rcases ReadCommand.exec_chat hstep with heq | ⟨d, -, hd, -⟩
    · exact heq ▸ ih
    · exact .step ih ⟨trivial, hd⟩

namespace ReadStateRepository

/-- The unlimited page of a room lists its live messages. -/
theorem paged_iff {db : Db} {now : Time} {viewer : ActiveMember} {m : Message}
    (hm : m ∈ db.messages) (horder : m.createdOrder ≤ db.order m.roomId) :
    Paged db now viewer m ↔ m.roomId = viewer.roomId ∧
      ∃ row, MessagesQueryRepository.liveRow db now viewer.id viewer.visibleFromOrder m =
        some row := by
  constructor
  · rintro ⟨row, hrow, hid⟩
    obtain ⟨m', hm', hroom, -, hlive⟩ := MessagesCoreService.mem_snapshot.mp hrow
    obtain rfl : m' = m := Table.eq_of_key hm' hm (k := (0, [m.id]))
      (by rw [← hid, MessagesCoreService.liveRow_id hlive]; exact List.mem_cons_self)
      List.mem_cons_self
    exact ⟨hroom, row, hlive⟩
  · rintro ⟨hroom, row, hlive⟩
    refine ⟨row, MessagesCoreService.mem_snapshot.mpr ⟨m, hm, hroom, ?_, hlive⟩,
      MessagesCoreService.liveRow_id hlive⟩
    rw [← hroom]
    exact horder

theorem firstUnread_boundary {mac : ReadMac} {s : ReadDb} {now : Time} {viewer : ActiveMember}
    (hs : (readStates mac).Reachable s) : Boundary s now viewer := by
  have hchat := reachable_readChat hs
  -- The query selects what is unread on the page.
  have hselected : ∀ m ∈ s.chat.messages, Selected s now viewer m ↔
      Paged s.chat now viewer m ∧ Unread s viewer m := by
    intro m hm
    rw [selected_iff (reachable_resident hchat m hm),
      paged_iff hm ((reachable_stamped hchat).2 m hm), and_assoc]
  refine ⟨?_, ?_⟩
  · rw [firstUnread, Option.map_eq_none_iff, Table.first?_eq_none]
    constructor
    · intro h m hm hpaged hunread
      exact h m hm ((hselected m hm).mpr ⟨hpaged, hunread⟩)
    · intro h m hm hm'
      obtain ⟨hpaged, hunread⟩ := (hselected m hm).mp hm'
      exact h m hm hpaged hunread
  · intro id hid
    obtain ⟨m, hfirst, rfl⟩ := Option.map_eq_some_iff.mp hid
    obtain ⟨hm, hsel⟩ := Table.first?_some hfirst
    obtain ⟨hpaged, hunread⟩ := (hselected m hm).mp hsel
    refine ⟨m, hm, rfl, hpaged, hunread, fun m' hm' hpaged' hunread' => ?_⟩
    have total : Std.Total fun a b : Message => a.createdOrder ≤ b.createdOrder :=
      ⟨fun a b => le_total _ _⟩
    have trans : IsTrans Message fun a b => a.createdOrder ≤ b.createdOrder :=
      ⟨fun _ _ _ => le_trans⟩
    have hle := Table.first?_le hfirst hm' ((hselected m' hm').mpr ⟨hpaged', hunread'⟩)
    exact hle

end ReadStateRepository

end Rogichat
