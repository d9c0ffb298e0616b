import Rogichat.Chat.Purging

/-!
# The journal of a room

Every command that changes what a room shows takes the room's next order under
the room lock and stamps what it writes with it. Orders are never reused, so
whatever a command adds carries an order above all that were handed out before
it, and messages keep for ever what they were created with.

* **`Message.Later`** — a later version of a message row: its identity is fixed,
  and deletion and moderation are final.
* **`Journaled`** — from `s` to `t` orders only grew, and the events and messages
  of `t` are those of `s` or are stamped with an order taken in between.
* **`exec_journaled`**, **`run_journaled`** — every command and every run is.
-/

namespace Rogichat

open Lib

/-- The last order handed out in a room. -/
def Db.order (db : Db) (roomId : Uuid) : Nat :=
  (db.roomCounters.find? fun c => c.roomId = roomId).elim 0 RoomCounter.lastOrder

theorem Db.order_of_mem {db : Db} {c : RoomCounter} (h : c ∈ db.roomCounters) :
    db.order c.roomId = c.lastOrder := by
  have hfind : (db.roomCounters.find? fun d => d.roomId = c.roomId) = some c := by
    refine Table.find?_eq_some h rfl (k := (0, [c.roomId])) (List.mem_singleton.mpr rfl) ?_
    intro s hs
    exact List.mem_singleton.mpr (by rw [hs])
  simp [Db.order, hfind]

/-- A counter and the orders it stands for. -/
theorem Db.order_congr {s t : Db} (h : t.roomCounters = s.roomCounters) (roomId : Uuid) :
    t.order roomId = s.order roomId := by
  rw [Db.order, h, Db.order]

/-! ## Messages over time -/

/-- A later version of a message row. -/
structure Message.Later (m n : Message) : Prop where
  id : n.id = m.id
  roomId : n.roomId = m.roomId
  streamId : n.streamId = m.streamId
  sender : n.senderMemberId = m.senderMemberId
  owner : n.contentOwnerUserId = m.contentOwnerUserId
  root : n.deletionRootId = m.deletionRootId
  kind : n.contentKind = m.contentKind
  order : n.createdOrder = m.createdOrder
  version : m.version ≤ n.version
  deleted : m.deletedAt ≠ none → n.deletedAt ≠ none
  moderated : m.moderated = true → n.moderated = true

namespace Message.Later

theorem refl (m : Message) : m.Later m :=
  ⟨rfl, rfl, rfl, rfl, rfl, rfl, rfl, rfl, le_refl _, fun h => h, fun h => h⟩

theorem trans {m n o : Message} (h : m.Later n) (h' : n.Later o) : m.Later o where
  id := h'.id.trans h.id
  roomId := h'.roomId.trans h.roomId
  streamId := h'.streamId.trans h.streamId
  sender := h'.sender.trans h.sender
  owner := h'.owner.trans h.owner
  root := h'.root.trans h.root
  kind := h'.kind.trans h.kind
  order := h'.order.trans h.order
  version := h.version.trans h'.version
  deleted := fun hm => h'.deleted (h.deleted hm)
  moderated := fun hm => h'.moderated (h.moderated hm)

/-- A change that only makes rows later. -/
theorem ite {p : Message → Prop} [DecidablePred p] {f : Message → Message}
    (hf : ∀ m, p m → m.Later (f m)) (m : Message) : m.Later (if p m then f m else m) := by
  split
  · rename_i hp
    exact hf m hp
  · exact refl m

theorem tombstone (now : Time) (m : Message) : m.Later (MessagesRepository.tombstone now m) :=
  ⟨rfl, rfl, rfl, rfl, rfl, rfl, rfl, rfl, Nat.le_succ _, fun _ => Option.some_ne_none _,
    fun h => h⟩

end Message.Later

/-- Every message of `t` is a later version of one of `s`. -/
def Aged (s t : Table Message) : Prop := ∀ n ∈ t, ∃ m ∈ s, m.Later n

namespace Aged

theorem refl (s : Table Message) : Aged s s := fun n hn => ⟨n, hn, .refl n⟩

theorem of_eq {s t : Table Message} (h : t = s) : Aged s t := h ▸ refl s

theorem trans {s t u : Table Message} (h : Aged s t) (h' : Aged t u) : Aged s u := by
  intro o ho
  obtain ⟨n, hn, hno⟩ := h' o ho
  obtain ⟨m, hm, hmn⟩ := h n hn
  exact ⟨m, hm, hmn.trans hno⟩

theorem update {s : Table Message} {p : Message → Prop} [DecidablePred p] {f : Message → Message}
    {k : Table.Keeps f} (hf : ∀ m, p m → m.Later (f m)) : Aged s (s.update p f k) := by
  intro n hn
  obtain ⟨m, hm, rfl⟩ := Table.mem_update.mp hn
  exact ⟨m, hm, Message.Later.ite hf m⟩

theorem delete {s : Table Message} {p : Message → Prop} [DecidablePred p] :
    Aged s (s.delete p) := by
  intro n hn
  exact ⟨n, (Table.mem_delete.mp hn).1, .refl n⟩

end Aged

/-! ## Journaled changes -/

/-- From `s` to `t` the rooms' orders only grew, and what is new in `t` is stamped
with an order handed out in between. -/
structure Journaled (s t : Db) : Prop where
  order : ∀ room, s.order room ≤ t.order room
  event : ∀ e ∈ t.roomEvents, e ∈ s.roomEvents ∨
    s.order e.roomId < e.eventOrder ∧ e.eventOrder ≤ t.order e.roomId
  message : ∀ n ∈ t.messages, (∃ m ∈ s.messages, m.Later n) ∨
    s.order n.roomId < n.createdOrder ∧ n.createdOrder ≤ t.order n.roomId

namespace Journaled

theorem refl (s : Db) : Journaled s s :=
  ⟨fun _ => le_refl _, fun _ he => .inl he, fun n hn => .inl ⟨n, hn, .refl n⟩⟩

theorem trans {s t u : Db} (h : Journaled s t) (h' : Journaled t u) : Journaled s u where
  order room := (h.order room).trans (h'.order room)
  event := by
    intro e he
    rcases h'.event e he with he | ⟨hlt, hle⟩
    · rcases h.event e he with he | ⟨hlt, hle⟩
      · exact .inl he
      · exact .inr ⟨hlt, hle.trans (h'.order _)⟩
    · exact .inr ⟨(h.order _).trans_lt hlt, hle⟩
  message := by
    intro o ho
    rcases h'.message o ho with ⟨n, hn, hno⟩ | ⟨hlt, hle⟩
    · rcases h.message n hn with ⟨m, hm, hmn⟩ | ⟨hlt, hle⟩
      · exact .inl ⟨m, hm, hmn.trans hno⟩
      · have := h'.order n.roomId
        rw [hno.order, hno.roomId]
        exact .inr ⟨hlt, by omega⟩
    · exact .inr ⟨(h.order _).trans_lt hlt, hle⟩

/-- A change that takes no order and ages the messages at most. -/
theorem quiet {s t : Db} (hcounters : t.roomCounters = s.roomCounters)
    (hevents : ∀ e ∈ t.roomEvents, e ∈ s.roomEvents) (hmessages : Aged s.messages t.messages) :
    Journaled s t where
  order room := (Db.order_congr hcounters room).ge
  event e he := .inl (hevents e he)
  message n hn := .inl (hmessages n hn)

/-- A change of other tables. -/
theorem frame {w : List TableName} {s t : Db} (h : Db.Writes w s t)
    (hcounters : .roomCounters ∉ w) (hevents : .roomEvents ∉ w) (hmessages : .messages ∉ w) :
    Journaled s t :=
  quiet (h.roomCounters hcounters) (fun _ he => h.roomEvents hevents ▸ he)
    (.of_eq (h.messages hmessages))

/-- A change that takes one order and stamps everything new with it. -/
theorem stamp {s t : Db} {roomId : Uuid} (horder : t.order roomId = s.order roomId + 1)
    (hothers : ∀ room, s.order room ≤ t.order room)
    (hevents : ∀ e ∈ t.roomEvents, e ∈ s.roomEvents ∨
      e.roomId = roomId ∧ e.eventOrder = t.order roomId)
    (hmessages : ∀ n ∈ t.messages, (∃ m ∈ s.messages, m.Later n) ∨
      n.roomId = roomId ∧ n.createdOrder = t.order roomId) : Journaled s t where
  order := hothers
  event := by
    intro e he
    rcases hevents e he with he | ⟨hroom, hstamp⟩
    · exact .inl he
    · rw [hroom]
      exact .inr ⟨by omega, by omega⟩
  message := by
    intro n hn
    rcases hmessages n hn with h | ⟨hroom, hstamp⟩
    · exact .inl h
    · rw [hroom]
      exact .inr ⟨by omega, by omega⟩

end Journaled

/-! ## Taking an order -/

/-- The counter of one room moves on, the others stay. -/
theorem RoomStateRepository.order_advanceOrder {s : Db} {c : RoomCounter} (hc : c ∈ s.roomCounters)
    (order : Nat) (room : Uuid) :
    (advanceOrder s order c.roomId).order room = if room = c.roomId then order else s.order room := by
  have hfind : ((advanceOrder s order c.roomId).roomCounters.find? fun d => d.roomId = room) =
      (s.roomCounters.find? fun d => d.roomId = room).map fun d =>
        if d.roomId = c.roomId then { d with lastOrder := order } else d :=
    Table.find?_update (k := by exact ⟨fun _ => rfl⟩) fun _ => Iff.rfl
  unfold Db.order
  rw [hfind]
  cases hd : s.roomCounters.find? fun d => d.roomId = room with
  | none =>
    have hne : room ≠ c.roomId := by
      rintro rfl
      exact absurd rfl (Table.find?_eq_none.mp hd c hc)
    simp [hne]
  | some d =>
    have hroom : d.roomId = room := by
      have h := Table.holds_of_find? hd
      exact h
    subst hroom
    by_cases heq : d.roomId = c.roomId <;> simp [heq]

/-- What taking a room's next order does to the orders. -/
structure Taken (s t : Db) (roomId : Uuid) (order : Nat) : Prop where
  next : order = s.order roomId + 1
  set : ∀ room, t.order room = if room = roomId then order else s.order room
  writes : Db.Writes [.roomCounters] s t

namespace Taken

theorem le {s t : Db} {roomId : Uuid} {order : Nat} (h : Taken s t roomId order) (room : Uuid) :
    s.order room ≤ t.order room := by
  rw [h.set]
  split
  · rename_i hroom
    rw [h.next, hroom]
    omega
  · exact le_refl _

theorem here {s t : Db} {roomId : Uuid} {order : Nat} (h : Taken s t roomId order) :
    t.order roomId = order := by
  rw [h.set, if_pos rfl]

theorem journaled {s t : Db} {roomId : Uuid} {order : Nat} (h : Taken s t roomId order) :
    Journaled s t :=
  .stamp (by rw [h.here, h.next]) h.le
    (fun _ he => .inl (h.writes.roomEvents (by simp) ▸ he))
    (fun n hn => .inl ⟨n, h.writes.messages (by simp) ▸ hn, .refl n⟩)

/-- The order taken stays the room's last one while no counter is written. -/
theorem frame {s a t : Db} {roomId : Uuid} {order : Nat} {w : List TableName}
    (h : Taken s a roomId order) (hw : Db.Writes w a t) (hts : .roomCounters ∉ w) :
    (∀ room, s.order room ≤ t.order room) ∧ t.order roomId = order := by
  have hsame : ∀ room, t.order room = a.order room :=
    Db.order_congr (hw.roomCounters hts)
  exact ⟨fun room => (hsame room).symm ▸ h.le room, by rw [hsame, h.here]⟩

end Taken

theorem RoomStateService.nextOrder_taken {s t : Db} {roomId : Uuid} {order : Nat}
    (h : nextOrder s roomId = .ok (t, order)) : Taken s t roomId order := by
  obtain ⟨-, c, hc, rfl, hnext, rfl⟩ := nextOrder_ok h
  refine ⟨by rw [hnext, Db.order_of_mem hc], ?_, RoomStateRepository.advanceOrder_writes _ _ _⟩
  exact RoomStateRepository.order_advanceOrder hc order

theorem MessagesRepository.nextDeletionOrder_taken {s t : Db} {roomId : Uuid} {order : Nat}
    (h : nextDeletionOrder s roomId = .ok (t, order)) : Taken s t roomId order := by
  obtain ⟨c, hc, rfl, hnext, rfl⟩ := nextDeletionOrder_ok h
  refine ⟨by rw [hnext, Db.order_of_mem hc], ?_, RoomStateRepository.advanceOrder_writes _ _ _⟩
  exact RoomStateRepository.order_advanceOrder hc order

/-- A new event is the one just stamped. -/
theorem MessagesRepository.mem_event {s t : Db} {id roomId streamId messageId : Uuid}
    {version order : Nat} {kind : EventKind}
    (h : event s id roomId streamId messageId version order kind = .ok t) (e : RoomEvent) :
    e ∈ t.roomEvents ↔ e ∈ s.roomEvents ∨
      e = { id := id, roomId := roomId, streamId := streamId, messageId := messageId,
            messageVersion := version, eventOrder := order, kind := kind } :=
  Table.mem_insert (event_ok h).1

/-! ## Rooms -/

/-- A room that starts at order zero. -/
theorem RoomStateService.createRoom_journaled {s t : Db} {streamId id : Uuid} {name : String}
    {mode : RoomMode} (h : createRoom s streamId name mode id = .ok t) : Journaled s t := by
  have hw := createRoom_writes h
  simp only [createRoom, bind_ok] at h
  obtain ⟨a, ha, b, hb, ht⟩ := h
  have hcounters : s.roomCounters.insert { roomId := id } = some t.roomCounters := by
    simp only [RoomStateRepository.insertCounter, bind_ok, require_ok, pure_ok] at hb
    obtain ⟨counters, hcounters, rfl⟩ := hb
    rw [(RoomStateRepository.insertSharedStream_writes ht).roomCounters (by simp),
      ← (RoomStateRepository.insertRoom_writes ha).roomCounters (by simp)]
    exact hcounters
  refine ⟨?_, ?_, ?_⟩
  · intro room
    unfold Db.order
    cases hd : s.roomCounters.find? fun d => d.roomId = room with
    | none => exact Nat.zero_le _
    | some d =>
      have hroom := Table.holds_of_find? hd
      have hmem : d ∈ t.roomCounters := (Table.mem_insert hcounters).mpr
        (.inl (Table.mem_of_find? hd))
      have horder := Db.order_of_mem hmem
      rw [hroom, Db.order] at horder
      rw [horder]
      exact le_refl _
  · intro e he
    exact .inl (hw.roomEvents (by simp) ▸ he)
  · intro n hn
    exact .inl ⟨n, hw.messages (by simp) ▸ hn, .refl n⟩

theorem RoomStateService.openPeriod_journaled {s t : Db} {periodId memberId userId : Uuid}
    {room : Room} (h : openPeriod s periodId room memberId userId = .ok t) : Journaled s t := by
  simp only [openPeriod, bind_ok, pure_ok] at h
  obtain ⟨⟨a, order⟩, ha, b, hb, rfl⟩ := h
  refine (nextOrder_taken ha).journaled.trans (.frame (w := [.membershipPeriods, .roomMembers,
    .users]) ?_ (by simp) (by simp) (by simp))
  exact ((RoomStateRepository.insertPeriod_writes hb).mono (by simp)).trans
    (((RoomStateRepository.activate_writes b periodId memberId).mono (by simp)).trans
      ((RoomStateRepository.advanceMembership_writes _ userId).mono (by simp)))

theorem RoomStateService.joinRoom_journaled {s t : Db} {ids : Nat → Uuid}
    {roomId userId actorId : Uuid} (h : joinRoom s ids roomId userId = .ok (t, actorId)) :
    Journaled s t := by
  simp only [joinRoom, bind_ok, ensure_ok] at h
  obtain ⟨room, -, -, -, hrest⟩ := h
  split at hrest
  · simp only [bind_ok, ensure_ok] at hrest
    obtain ⟨-, -, hrest⟩ := hrest
    split at hrest
    · cases hrest
      exact .refl _
    · simp only [bind_ok, pure_ok] at hrest
      obtain ⟨b, hb, heq⟩ := hrest
      cases heq
      exact openPeriod_journaled hb
  · simp only [bind_ok, pure_ok] at hrest
    obtain ⟨a, ha, b, hb, heq⟩ := hrest
    cases heq
    exact (Journaled.frame (RoomStateRepository.insertMember_writes ha) (by simp) (by simp)
      (by simp)).trans (openPeriod_journaled hb)

theorem RoomStateService.createOwnedRoom_journaled {s t : Db} {ids : Nat → Uuid} {name : String}
    {mode : RoomMode} {policy : HistoryPolicy} {ownerId roomId : Uuid} {result : Uuid × Uuid}
    (h : createOwnedRoom s ids name mode policy ownerId roomId = .ok (t, result)) :
    Journaled s t := by
  simp only [createOwnedRoom, bind_ok, pure_ok] at h
  obtain ⟨a, ha, ⟨b, actorId⟩, hb, heq⟩ := h
  cases heq
  have hpolicy : Journaled a (RoomStateRepository.initialPolicy a roomId policy) :=
    .quiet rfl (fun _ he => he) (.refl _)
  have howner : Journaled b (RoomStateRepository.assignOwner b roomId actorId) :=
    .quiet rfl (fun _ he => he) (.refl _)
  exact (createRoom_journaled ha).trans (hpolicy.trans ((joinRoom_journaled hb).trans howner))

theorem DefaultRoomService.provision_journaled {s t : Db} {now : Time} {ids : Nat → Uuid}
    {config : DefaultRoomConfig} {guarded catalogOnly : Bool} {state : State}
    (h : provision s now ids config guarded catalogOnly = .ok (t, state)) : Journaled s t := by
  have claimed : ∀ {a b : Db} {roomId : Uuid} {binding : DefaultRoomBinding} {created : Bool},
      DefaultRoomRepository.claim a roomId = .ok (b, binding, created) → Journaled a b :=
    fun h => .frame (DefaultRoomRepository.claim_writes h) (by simp) (by simp) (by simp)
  have opened : ∀ {a b : Db} {streamId : Uuid} {binding : DefaultRoomBinding} {created : Bool},
      openCatalog a streamId binding created = .ok b → Journaled a b := by
    intro a b streamId binding created hb
    rcases (openCatalog_ok hb).1 with rfl | hb
    · exact .refl _
    · exact RoomStateService.createRoom_journaled hb
  obtain ⟨a, binding, created, ha, rfl | ⟨-, b, hb, rfl | ⟨subject, ht⟩⟩⟩ := provision_ok h
  · exact claimed ha
  · exact (claimed ha).trans (opened hb)
  · refine (claimed ha).trans ((opened hb).trans ?_)
    have hspec : Journaled b (DefaultRoomRepository.bindSpec b subject) :=
      .frame (DefaultRoomRepository.bindSpec_writes b subject) (by simp) (by simp) (by simp)
    rcases provisionOwner_ok ht with rfl | ⟨ownerId, c, d, actor, hc, hd, ht⟩
    · exact hspec
    · refine hspec.trans ((Journaled.frame (DefaultRoomRepository.activate_writes hc) (by simp)
        (by simp) (by simp)).trans ((RoomStateService.joinRoom_journaled hd).trans ?_))
      exact .frame (DefaultRoomRepository.finish_writes ht) (by simp) (by simp) (by simp)

/-! ## Messages -/

/-- The messages a send leaves: the new one, and all that were there. -/
theorem MessagesCoreService.create_messages {s t : Db} {now : Time} {ids : Nat → Uuid}
    {roomId userId : Uuid} {viewer : ActiveMember} {input : SendInput} {streamId : Uuid}
    {reply : SendReceipt}
    (h : create s now ids roomId userId viewer input streamId = .ok (t, reply)) :
    ∃ a order, RoomStateService.nextOrder s roomId = .ok (a, order) ∧ ∀ n ∈ t.messages,
      n ∈ s.messages ∨
        n.roomId = roomId ∧ n.senderMemberId = viewer.id ∧ n.createdOrder = order := by
  obtain ⟨a, b, c, d, order, ha, hb, hc, hd, he, -⟩ := create_ok h
  refine ⟨a, order, ha, ?_⟩
  intro n hn
  rw [(MessagesRepository.event_ok he).2.messages (by simp),
    (MessagesRepository.insertReceipt_ok hd).2.messages (by simp),
    ((attachSticker_writes hc).messages (by simp))] at hn
  rcases (Table.mem_insert (MessagesRepository.insertMessage_ok hb).1).mp hn with hn | rfl
  · exact .inl ((RoomStateService.nextOrder_writes ha).messages (by simp) ▸ hn)
  · exact .inr ⟨rfl, rfl, rfl⟩

theorem MessagesCoreService.create_journaled {s t : Db} {now : Time} {ids : Nat → Uuid}
    {roomId userId : Uuid} {viewer : ActiveMember} {input : SendInput} {streamId : Uuid}
    {reply : SendReceipt}
    (h : create s now ids roomId userId viewer input streamId = .ok (t, reply)) :
    Journaled s t := by
  obtain ⟨a, b, c, d, order, ha, hb, hc, hd, he, -⟩ := create_ok h
  have htaken := RoomStateService.nextOrder_taken ha
  have hrest : Db.Writes [.messages, .messageAttachments, .messageStickers, .commandReceipts,
      .roomEvents] a t :=
    ((MessagesRepository.insertMessage_ok hb).2.mono (by simp)).trans
      (((attachSticker_writes hc).mono (by simp)).trans
        (((MessagesRepository.insertReceipt_ok hd).2.mono (by simp)).trans
          ((MessagesRepository.event_ok he).2.mono (by simp))))
  obtain ⟨hle, hlast⟩ := htaken.frame hrest (by simp)
  refine .stamp (show t.order roomId = s.order roomId + 1 by rw [hlast, htaken.next]) hle ?_ ?_
  · intro e hmem
    rcases (MessagesRepository.mem_event he e).mp hmem with hmem | rfl
    · left
      rwa [(MessagesRepository.insertReceipt_ok hd).2.roomEvents (by simp),
        (attachSticker_writes hc).roomEvents (by simp),
        ((MessagesRepository.insertMessage_ok hb).2.roomEvents (by simp)),
        htaken.writes.roomEvents (by simp)] at hmem
    · exact .inr ⟨rfl, hlast.symm⟩
  · intro n hn
    obtain ⟨a', order', ha', hmessages⟩ := create_messages h
    rw [ha, Except.ok.injEq, Prod.mk.injEq] at ha'
    rcases hmessages n hn with hn | ⟨hroom, -, hstamp⟩
    · exact .inl ⟨n, hn, .refl n⟩
    · exact .inr ⟨hroom, by rw [hstamp, ← ha'.2, hlast]⟩

theorem MessagesCoreService.send_journaled {s t : Db} {now : Time} {ids : Nat → Uuid}
    {roomId userId : Uuid} {input : SendInput} {reply : SendReceipt}
    (h : send s now ids roomId userId input = .ok (t, reply)) : Journaled s t := by
  obtain ⟨admission, -, ⟨r, -, rfl, -⟩ | ⟨-, h⟩⟩ := send_ok h
  · exact .refl _
  · obtain ⟨u, streamId, hu, ht⟩ := sendNew_ok h
    exact (Journaled.frame (resolveStream_writes hu) (by simp) (by simp) (by simp)).trans
      (create_journaled ht)

/-- Taking an order and stamping one event with it. -/
theorem Journaled.stamped {s a t : Db} {roomId : Uuid} {order : Nat} (h : Taken s a roomId order)
    {id streamId messageId : Uuid} {version : Nat} {kind : EventKind}
    (he : MessagesRepository.event a id roomId streamId messageId version order kind = .ok t) :
    Journaled s t := by
  have hw := (MessagesRepository.event_ok he).2
  obtain ⟨hle, hlast⟩ := h.frame hw (by simp)
  refine .stamp (show t.order roomId = s.order roomId + 1 by rw [hlast, h.next]) hle ?_ ?_
  · intro e hmem
    rcases (MessagesRepository.mem_event he e).mp hmem with hmem | rfl
    · exact .inl (h.writes.roomEvents (by simp) ▸ hmem)
    · exact .inr ⟨rfl, hlast.symm⟩
  · intro n hn
    rw [hw.messages (by simp), h.writes.messages (by simp)] at hn
    exact .inl ⟨n, hn, .refl n⟩

theorem MessagesRepository.blockMessageAndCopies_messages {s t : Db} {now : Time}
    {request : DeletionRequest} {existing : Bool}
    (h : blockMessageAndCopies s now request existing = .ok t) :
    t.messages = (s.messages.update
        (fun m => m.roomId = request.roomId ∧ m.id = request.messageId ∧ m.deletedAt = none)
        (tombstone now)).update
      (fun m => m.roomId = request.roomId ∧ m.deletionRootId = some request.messageId ∧
        m.deletedAt = none) (tombstone now) := by
  simp only [blockMessageAndCopies, bind_ok, pure_ok] at h
  obtain ⟨requests, -, rfl⟩ := h
  rfl

theorem MessagesRepository.blockMessageAndCopies_aged {s t : Db} {now : Time}
    {request : DeletionRequest} {existing : Bool}
    (h : blockMessageAndCopies s now request existing = .ok t) : Aged s.messages t.messages := by
  rw [blockMessageAndCopies_messages h]
  exact (Aged.update fun m _ => .tombstone now m).trans (Aged.update fun m _ => .tombstone now m)

theorem MessagesCoreService.removeRow_journaled {s t : Db} {now : Time} {ids : Nat → Uuid}
    {intent : DeletionIntent} {roomId : Uuid} {row : Message}
    (h : removeRow s now ids intent roomId row = .ok t) : Journaled s t := by
  obtain ⟨request, existing, a, -, -, ha, ht⟩ := removeRow_ok h
  have hw := MessagesRepository.blockMessageAndCopies_writes ha
  have hblocked : Journaled s a :=
    .quiet (hw.roomCounters (by simp)) (fun e he => hw.roomEvents (by simp) ▸ he)
      (MessagesRepository.blockMessageAndCopies_aged ha)
  have hassets : Journaled a ((MessagesRepository.attachedAssets a roomId intent.targetId).foldl
      (fun db x => MessagesRepository.blockAsset db now x) a) :=
    .frame (Writes.foldl (fun db x => MessagesRepository.blockAsset_writes db now x) _ a)
      (by simp) (by simp) (by simp)
  refine hblocked.trans (hassets.trans ?_)
  rcases deletionEvent_ok ht with rfl | ⟨-, b, order, hb, he⟩
  · exact .refl _
  · exact .stamped (MessagesRepository.nextDeletionOrder_taken hb) he

theorem MessagesCoreService.remove_journaled {s t : Db} {now : Time} {ids : Nat → Uuid}
    {intent : DeletionIntent} {done : Bool} (h : remove s now ids intent = .ok (t, done)) :
    Journaled s t := by
  rcases remove_ok h with ⟨rfl, -⟩ | ⟨roomId, row, -, -, -, h⟩
  · exact .refl _
  · exact removeRow_journaled h

theorem MessagesCoreService.moderateSticker_aged (s : Db) (row : Message) :
    Aged s.messages (moderateSticker s row).messages :=
  Aged.update (k := by exact ⟨fun _ => rfl⟩) fun _ _ =>
    ⟨rfl, rfl, rfl, rfl, rfl, rfl, rfl, rfl, Nat.le_succ _, fun h => h, fun _ => rfl⟩

theorem MessagesCoreService.invalidateRows_journaled {rows : List Message} {s t : Db}
    {ids : Nat → Uuid} (h : invalidateRows s ids rows = .ok t) : Journaled s t := by
  induction rows generalizing s ids with
  | nil =>
    cases h
    exact .refl _
  | cons row rows ih =>
    simp only [invalidateRows, recordEvent, bind_ok] at h
    obtain ⟨-, -, ⟨a, order⟩, ha, b, hb, hrest⟩ := h
    have hmoderated : Journaled s (moderateSticker s row) :=
      .quiet rfl (fun _ he => he) (moderateSticker_aged s row)
    exact hmoderated.trans
      ((Journaled.stamped (MessagesRepository.nextDeletionOrder_taken ha) hb).trans (ih hrest))

theorem MessagesCoreService.invalidateRevokedSticker_journaled {s t : Db} {ids : Nat → Uuid}
    {assetId : Uuid} {cursor : Option Uuid}
    (h : invalidateRevokedSticker s ids assetId = .ok (t, cursor)) : Journaled s t := by
  rcases invalidateRevokedSticker_ok h with rfl | ⟨rows, -, h⟩
  · exact .refl _
  · exact invalidateRows_journaled h

theorem ReactionsRepository.advanceVersion_aged (s : Db) (roomId messageId : Uuid) :
    Aged s.messages (advanceVersion s roomId messageId).messages :=
  Aged.update (k := by exact ⟨fun _ => rfl⟩) fun _ _ =>
    ⟨rfl, rfl, rfl, rfl, rfl, rfl, rfl, rfl, Nat.le_succ _, fun h => h, fun h => h⟩

theorem ReactionsCoreService.setReaction_journaled {s t : Db} {now : Time} {ids : Nat → Uuid}
    {roomId userId messageId : Uuid} {emoji : Option String}
    (h : setReaction s now ids roomId userId messageId emoji = .ok t) : Journaled s t := by
  rcases setReaction_ok h with rfl | ⟨viewer, row, a, b, order, -, -, -, ha, hb, he⟩
  · exact .refl _
  · have hwrite : Journaled s a :=
      .frame (ReactionsRepository.write_writes ha) (by simp) (by simp) (by simp)
    have hversion : Journaled a (ReactionsRepository.advanceVersion a roomId messageId) :=
      .quiet rfl (fun _ he => he) (ReactionsRepository.advanceVersion_aged a roomId messageId)
    exact hwrite.trans (hversion.trans (.stamped (RoomStateService.nextOrder_taken hb) he))

/-! ## Publications -/

/-- The messages a publication leaves: the copy, and all that were there. -/
theorem PublicationsCoreService.attachCopies_messages {s t : Db} {ids : Nat → Uuid}
    {roomId messageId : Uuid} {attempts : Option (List PhotoAttempt)}
    (h : attachCopies s ids roomId messageId attempts = .ok t) (n : Message) (hn : n ∈ t.messages) :
    ∃ m ∈ s.messages, n = m ∨ m.id = messageId ∧ n = { m with contentKind := .photo } := by
  cases attempts with
  | none =>
    cases h
    exact ⟨n, hn, .inl rfl⟩
  | some attempts =>
    rw [(PublicationPhotoRepository.attach_ok h).1] at hn
    obtain ⟨m, hm, rfl⟩ := Table.mem_update.mp hn
    refine ⟨m, hm, ?_⟩
    split
    · rename_i hid
      exact .inr ⟨hid, rfl⟩
    · exact .inl rfl

theorem PublicationsCoreService.publishCopy_messages {s t : Db} {now : Time} {ids : Nat → Uuid}
    {roomId publicationId : Uuid} {e : Eligible} {text : Option String}
    {attempts : Option (List PhotoAttempt)}
    (h : publishCopy s now ids roomId publicationId e text attempts = .ok t) :
    ∃ a order, RoomStateService.nextOrder s roomId = .ok (a, order) ∧ ∀ n ∈ t.messages,
      (∃ m ∈ s.messages, m.Later n) ∨
        n.roomId = roomId ∧ n.senderMemberId = e.viewer.id ∧ n.createdOrder = order := by
  obtain ⟨stream, a, order, messages, b, -, ha, hm, hb, he⟩ := publishCopy_ok h
  refine ⟨a, order, ha, ?_⟩
  intro n hn
  rw [(MessagesRepository.event_ok he).2.messages (by simp),
    (PublicationsRepository.publish_writes b (ids 0) publicationId).messages (by simp)] at hn
  obtain ⟨m, hmem, hnm⟩ := attachCopies_messages hb n hn
  rcases (Table.mem_insert hm).mp hmem with hold | rfl
  · left
    refine ⟨m, (RoomStateService.nextOrder_writes ha).messages (by simp) ▸ hold, ?_⟩
    rcases hnm with rfl | ⟨hid, -⟩
    · exact .refl _
    · -- The copy's id is new, so no old row becomes a photo.
      refine absurd ?_ (Table.fresh_of_insert hm hold)
      exact ⟨(0, [m.id]), List.mem_singleton.mpr rfl, List.mem_singleton.mpr (by rw [hid]; rfl)⟩
  · right
    rcases hnm with rfl | ⟨-, rfl⟩
    · exact ⟨rfl, rfl, rfl⟩
    · exact ⟨rfl, rfl, rfl⟩

theorem PublicationsCoreService.publishCopy_journaled {s t : Db} {now : Time} {ids : Nat → Uuid}
    {roomId publicationId : Uuid} {e : Eligible} {text : Option String}
    {attempts : Option (List PhotoAttempt)}
    (h : publishCopy s now ids roomId publicationId e text attempts = .ok t) : Journaled s t := by
  obtain ⟨stream, a, order, messages, b, -, ha, hm, hb, he⟩ := publishCopy_ok h
  have htaken := RoomStateService.nextOrder_taken ha
  have hcopies := attachCopies_writes hb
  have hevent := (MessagesRepository.event_ok he).2
  have hpublish := PublicationsRepository.publish_writes b (ids 0) publicationId
  have hinsert : Db.Writes [.messages] a { a with messages := messages } := by
    intro n hn
    cases n <;> first | rfl | simp at hn
  obtain ⟨hle, hlast⟩ := htaken.frame (w := [.messages, .messageAttachments, .messagePublications,
    .roomEvents]) ((hinsert.mono (by simp)).trans ((hcopies.mono (by simp)).trans
      ((hpublish.mono (by simp)).trans (hevent.mono (by simp))))) (by simp)
  refine .stamp (show t.order roomId = s.order roomId + 1 by rw [hlast, htaken.next]) hle ?_ ?_
  · intro ev hev
    rcases (MessagesRepository.mem_event he ev).mp hev with hev | rfl
    · left
      rw [hpublish.roomEvents (by simp), hcopies.roomEvents (by simp),
        hinsert.roomEvents (by simp), htaken.writes.roomEvents (by simp)] at hev
      exact hev
    · exact .inr ⟨rfl, hlast.symm⟩
  · intro n hn
    obtain ⟨a', order', ha', hmessages⟩ := publishCopy_messages h
    rw [ha, Except.ok.injEq, Prod.mk.injEq] at ha'
    rcases hmessages n hn with hn | ⟨hroom, -, hstamp⟩
    · exact .inl hn
    · exact .inr ⟨hroom, by rw [hstamp, ← ha'.2, hlast]⟩

theorem PublicationsCoreService.publishText_journaled {s t : Db} {now : Time} {ids : Nat → Uuid}
    {lease : PublicationLease} {held : Bool} (h : publishText s now ids lease held = .ok t) :
    Journaled s t := by
  rcases publishText_ok h with rfl | ⟨p, -, -, rfl | ⟨userId, e, -, -, h⟩⟩
  · exact .refl _
  · exact .frame (PublicationsRepository.revoke_writes s p.id) (by simp) (by simp) (by simp)
  · exact publishCopy_journaled h

theorem PublicationsCoreService.finalizePhoto_journaled {s t : Db} {now : Time} {ids : Nat → Uuid}
    {lease : PublicationLease} {held : Bool} {attempts : List PhotoAttempt}
    (h : finalizePhoto s now ids lease held attempts = .ok t) : Journaled s t := by
  obtain ⟨p, -, ⟨-, rfl⟩ | ⟨-, rfl⟩ | ⟨-, rfl | ⟨userId, e, a, -, -, ha, h⟩⟩⟩ := finalizePhoto_ok h
  · exact .refl _
  · exact .frame (discardCopies_writes s now p.id) (by simp) (by simp) (by simp)
  · exact (Journaled.frame (PublicationsRepository.revoke_writes s p.id) (by simp) (by simp)
      (by simp)).trans (.frame (discardCopies_writes _ now p.id) (by simp) (by simp) (by simp))
  · exact (Journaled.frame (PublicationPhotoRepository.readyAll_writes ha) (by simp) (by simp)
      (by simp)).trans (publishCopy_journaled h)

/-! ## Purging -/

theorem MessageDependenciesService.page_journaled {s t : Db} {roomId messageId : Uuid}
    {limit changed : Nat} {elsewhere : Elsewhere} {done : Bool}
    (h : page s roomId messageId limit elsewhere = .ok (t, changed, done)) : Journaled s t := by
  cases page_ok h with
  | elsewhere => exact .refl _
  | receipts =>
    exact .frame (MessagePurgeRepository.scrubReceipts_writes s _ _ _) (by simp) (by simp) (by simp)
  | quotes =>
    have hw := MessagePurgeRepository.clearQuotes_writes s roomId messageId limit
    refine .quiet (hw.roomCounters (by simp)) (fun e he => hw.roomEvents (by simp) ▸ he) ?_
    unfold MessagePurgeRepository.clearQuotes
    simp only
    split
    · exact .refl _
    · exact Aged.update (k := by exact ⟨fun _ => rfl⟩) fun _ _ =>
        ⟨rfl, rfl, rfl, rfl, rfl, rfl, rfl, rfl, Nat.le_succ _, fun h => h, fun h => h⟩
  | publications hp =>
    exact .frame (MessagePurgeRepository.publications_writes hp) (by simp) (by simp) (by simp)
  | reactions =>
    exact .frame (MessagePurgeRepository.reactions_writes s _ _ _) (by simp) (by simp) (by simp)
  | stickers =>
    exact .frame (MessagePurgeRepository.sticker_writes s _ _) (by simp) (by simp) (by simp)
  | events jobs =>
    have hw := MessagePurgeRepository.events_writes s roomId messageId limit jobs
    refine .quiet (hw.roomCounters (by simp)) (fun e he => ?_) (.of_eq (hw.messages (by simp)))
    unfold MessagePurgeRepository.events at he
    simp only at he
    split at he
    · exact he
    · split at he
      · exact he
      · exact (Table.mem_delete.mp he).1
  | done => exact .refl _

theorem MessagePurgeRepository.deleteMessage_journaled {s t : Db} {roomId : Uuid} {m : Message}
    (h : deleteMessage s roomId m = .ok t) : Journaled s t := by
  obtain ⟨-, hmessages, hw⟩ := deleteMessage_ok h
  refine .quiet (hw.roomCounters (by simp)) (fun e he => hw.roomEvents (by simp) ▸ he) ?_
  rw [hmessages]
  exact .delete

theorem MessagePurgeService.step_journaled {s t : Db} {now : Time} {lease : PurgeLease} {held : Bool}
    {limit : Nat} {elsewhere : Elsewhere} {result : Status × Nat}
    (h : step s now lease held limit elsewhere = .ok (t, result)) : Journaled s t := by
  obtain ⟨roomId, hstep⟩ := step_ok h
  cases hstep with
  | nothing => exact .refl _
  | page hu ha ht =>
    exact (Journaled.frame hu (by simp) (by simp) (by simp)).trans
      ((MessageDependenciesService.page_journaled ha).trans
        (.frame ht (by simp) (by simp) (by simp)))
  | row ha hb ht =>
    refine (MessageDependenciesService.page_journaled ha).trans (Journaled.trans ?_
      (.frame ht (by simp) (by simp) (by simp)))
    exact (Journaled.frame (MessagePurgeRepository.advanceEpoch_writes _ roomId) (by simp) (by simp)
      (by simp)).trans
      (MessagePurgeRepository.deleteMessage_journaled (MessagePurgeRepository.remove_ok hb).2)

theorem AccountContentService.page_journaled {s t : Db} {now : Time} {intent : DeletionIntent}
    {limit : Nat} {elsewhere : Elsewhere} {changed : Option Nat}
    (h : page s now intent limit elsewhere = .ok (t, changed)) : Journaled s t := by
  have media : ∀ {a b : Db}, Lets a b → Journaled a b :=
    fun hw => .frame hw.writes (by simp) (by simp) (by simp)
  cases page_ok h with
  | media hw => exact media hw
  | @tombstone u _ now m userId hu ht =>
    have htomb : Journaled u (AccountContentRepository.tombstone u now m userId) :=
      .quiet rfl (fun _ he => he) (Aged.update (k := by exact ⟨fun _ => rfl⟩) fun _ _ =>
        ⟨rfl, rfl, rfl, rfl, rfl, rfl, rfl, rfl, Nat.le_succ _, fun _ => Option.some_ne_none _,
          fun h => h⟩)
    exact (media hu).trans (htomb.trans (media ht))
  | page hu ha ht =>
    exact (media hu).trans ((MessageDependenciesService.page_journaled ha).trans (media ht))
  | row hu ha hb ht =>
    exact (media hu).trans ((MessageDependenciesService.page_journaled ha).trans
      ((MessagePurgeRepository.deleteMessage_journaled hb).trans (media ht)))

/-! ## Every command -/

theorem Command.exec_journaled {c : Command} {s t : Db} (h : c.exec s = .ok t) : Journaled s t := by
  cases c with
  | setReaction => exact ReactionsCoreService.setReaction_journaled h
  | publishText => exact PublicationsCoreService.publishText_journaled h
  | finalizePhoto => exact PublicationsCoreService.finalizePhoto_journaled h
  | leaveRoom | setHistoryPolicy | block | ban | requestPublication | preparePhoto | recoverPhotos
    | environment =>
    exact .frame (exec_writes h) (by simp [tables]) (by simp [tables]) (by simp [tables])
  | _ =>
    simp only [Command.exec, bind_ok, pure_ok] at h
    obtain ⟨⟨t, reply⟩, h, rfl⟩ := h
    first
      | exact RoomStateService.createOwnedRoom_journaled h
      | exact RoomStateService.joinRoom_journaled h
      | exact DefaultRoomService.provision_journaled h
      | exact MessagesCoreService.send_journaled h
      | exact MessagesCoreService.remove_journaled h
      | exact MessagesCoreService.invalidateRevokedSticker_journaled h
      | exact MessagePurgeService.step_journaled h
      | exact AccountContentService.page_journaled h

/-- Over a run, orders only grow and everything new is stamped. -/
theorem run_journaled {allowed : Command → Prop} {s t : Db} {cs : List Command}
    (h : (chatOf allowed).Run s cs t) : Journaled s t := by
  induction h with
  | nil => exact .refl _
  | cons hstep _ ih => exact (Command.exec_journaled hstep.2).trans ih

/-- No message and no event carries an order that was not handed out. -/
theorem reachable_stamped {allowed : Command → Prop} {s : Db} (h : (chatOf allowed).Reachable s) :
    (∀ e ∈ s.roomEvents, e.eventOrder ≤ s.order e.roomId) ∧
      ∀ m ∈ s.messages, m.createdOrder ≤ s.order m.roomId := by
  induction h with
  | init hs =>
    rw [hs]
    exact ⟨fun e he => absurd he (Table.not_mem_empty e),
      fun m hm => absurd hm (Table.not_mem_empty m)⟩
  | step _ hstep ih =>
    obtain ⟨hevents, hmessages⟩ := ih
    have hj := Command.exec_journaled hstep.2
    refine ⟨?_, ?_⟩
    · intro e he
      rcases hj.event e he with he | ⟨-, hle⟩
      · exact (hevents e he).trans (hj.order _)
      · exact hle
    · intro n hn
      rcases hj.message n hn with ⟨m, hm, hmn⟩ | ⟨-, hle⟩
      · rw [hmn.order, hmn.roomId]
        exact (hmessages m hm).trans (hj.order _)
      · exact hle

end Rogichat
