import Rogichat.Chat.Periods

/-!
# Roles and boundaries

Two facts about members that the audience of a message rests on. The stored role
`STREAMER` belongs to a room's owner alone, and a fan room has no plain members;
and no period's boundary lies ahead of the orders its room has handed out, so that
a new message is inside every open period.

* **`Ranked`** — both, of a database; **`Level`** — a change that moves neither.
* **`reachable_ranked`** — in every reachable state.
-/

namespace Rogichat

open Lib

/-- The member's room, and that its role there is its own. -/
def Enrolled (db : Db) (m : RoomMember) : Prop :=
  ∃ r ∈ db.rooms, r.id = m.roomId ∧ (m.role = .streamer → r.ownerMemberId = some m.id) ∧
    (r.mode = .fan → m.role ≠ .member)

/-- Every member is enrolled, and no period begins after the room's order. -/
structure Ranked (db : Db) : Prop where
  members : ∀ m ∈ db.roomMembers, Enrolled db m
  boundaries : ∀ p ∈ db.membershipPeriods, p.visibleFromOrder ≤ db.order p.roomId

/-- From `s` to `t` no room got another owner, no member another role and no period a
later boundary. -/
structure Level (s t : Db) : Prop where
  rooms : ∀ r ∈ s.rooms, ∃ r' ∈ t.rooms, r'.id = r.id ∧ r'.mode = r.mode ∧
    r'.ownerMemberId = r.ownerMemberId
  members : ∀ m ∈ t.roomMembers, ∃ n ∈ s.roomMembers, n.id = m.id ∧ n.roomId = m.roomId ∧
    n.role = m.role
  periods : ∀ p ∈ t.membershipPeriods, ∃ q ∈ s.membershipPeriods, q.roomId = p.roomId ∧
    p.visibleFromOrder ≤ q.visibleFromOrder
  order : ∀ room, s.order room ≤ t.order room

/-! ## Level changes -/

theorem Enrolled.rooms {s t : Db} {m : RoomMember} (h : Enrolled s m)
    (hrooms : ∀ r ∈ s.rooms, ∃ r' ∈ t.rooms, r'.id = r.id ∧ r'.mode = r.mode ∧
      r'.ownerMemberId = r.ownerMemberId) : Enrolled t m := by
  obtain ⟨r, hr, hid, howner, hmode⟩ := h
  obtain ⟨r', hr', hid', hmode', howner'⟩ := hrooms r hr
  exact ⟨r', hr', hid'.trans hid, fun hrole => howner'.trans (howner hrole),
    fun hfan => hmode (hmode'.symm.trans hfan)⟩

theorem Ranked.level {s t : Db} (hs : Ranked s) (h : Level s t) : Ranked t where
  members := by
    intro m hm
    obtain ⟨n, hn, hid, hroom, hrole⟩ := h.members m hm
    obtain ⟨r, hr, hin, howner, hmode⟩ := (hs.members n hn).rooms h.rooms
    rw [hid, hrole] at howner
    rw [hrole] at hmode
    exact ⟨r, hr, hin.trans hroom, howner, hmode⟩
  boundaries := by
    intro p hp
    obtain ⟨q, hq, hroom, hle⟩ := h.periods p hp
    rw [← hroom]
    exact hle.trans ((hs.boundaries q hq).trans (h.order _))

namespace Level

/-- A change of other tables. -/
theorem of_eq {s t : Db} (hrooms : t.rooms = s.rooms) (hmembers : t.roomMembers = s.roomMembers)
    (hperiods : t.membershipPeriods = s.membershipPeriods)
    (horder : ∀ room, s.order room ≤ t.order room) : Level s t where
  rooms r hr := ⟨r, hrooms ▸ hr, rfl, rfl, rfl⟩
  members m hm := ⟨m, hmembers ▸ hm, rfl, rfl, rfl⟩
  periods p hp := ⟨p, hperiods ▸ hp, rfl, le_refl _⟩
  order := horder

theorem refl (s : Db) : Level s s := of_eq rfl rfl rfl fun _ => le_refl _

theorem trans {s t u : Db} (h : Level s t) (h' : Level t u) : Level s u where
  rooms := by
    intro r hr
    obtain ⟨r', hr', hid, hmode, howner⟩ := h.rooms r hr
    obtain ⟨r'', hr'', hid', hmode', howner'⟩ := h'.rooms r' hr'
    exact ⟨r'', hr'', hid'.trans hid, hmode'.trans hmode, howner'.trans howner⟩
  members := by
    intro m hm
    obtain ⟨n, hn, hid, hroom, hrole⟩ := h'.members m hm
    obtain ⟨n', hn', hid', hroom', hrole'⟩ := h.members n hn
    exact ⟨n', hn', hid'.trans hid, hroom'.trans hroom, hrole'.trans hrole⟩
  periods := by
    intro p hp
    obtain ⟨q, hq, hroom, hle⟩ := h'.periods p hp
    obtain ⟨q', hq', hroom', hle'⟩ := h.periods q hq
    exact ⟨q', hq', hroom'.trans hroom, hle.trans hle'⟩
  order room := (h.order room).trans (h'.order room)

theorem frame {ts : List TableName} {s t : Db} (h : Db.Writes ts s t)
    (hts : ∀ n ∈ [TableName.rooms, .roomMembers, .membershipPeriods, .roomCounters], n ∉ ts) :
    Level s t :=
  of_eq (h.rooms (hts _ (by simp))) (h.roomMembers (hts _ (by simp)))
    (h.membershipPeriods (hts _ (by simp)))
    fun room => (Db.order_congr (h.roomCounters (hts _ (by simp))) room).ge

/-- A change of member rows that keeps who they are. -/
theorem reseated {s t : Db} {p : RoomMember → Prop} [DecidablePred p] {f : RoomMember → RoomMember}
    {k : Table.Keeps f} (hrooms : t.rooms = s.rooms)
    (hmembers : t.roomMembers = s.roomMembers.update p f k)
    (hf : ∀ m, (f m).id = m.id ∧ (f m).roomId = m.roomId ∧ (f m).role = m.role)
    (hperiods : ∀ p ∈ t.membershipPeriods, ∃ q ∈ s.membershipPeriods, q.roomId = p.roomId ∧
      p.visibleFromOrder ≤ q.visibleFromOrder)
    (hcounters : t.roomCounters = s.roomCounters) : Level s t where
  rooms r hr := ⟨r, hrooms ▸ hr, rfl, rfl, rfl⟩
  members := by
    intro m hm
    rw [hmembers] at hm
    obtain ⟨n, hn, rfl⟩ := Table.mem_update.mp hm
    refine ⟨n, hn, ?_⟩
    split
    · exact ⟨(hf n).1.symm, (hf n).2.1.symm, (hf n).2.2.symm⟩
    · exact ⟨rfl, rfl, rfl⟩
  periods := hperiods
  order room := (Db.order_congr hcounters room).ge

/-- Closing periods moves no boundary. -/
theorem closed {s : Db} {q : MembershipPeriod → Prop} [DecidablePred q] {now : Time} :
    ∀ p ∈ s.membershipPeriods.update q fun p => { p with leftAt := some now },
      ∃ p' ∈ s.membershipPeriods, p'.roomId = p.roomId ∧ p.visibleFromOrder ≤ p'.visibleFromOrder := by
  intro p hp
  obtain ⟨p', hp', rfl⟩ := (Table.mem_update (k := by exact ⟨fun _ => rfl⟩)).mp hp
  refine ⟨p', hp', ?_⟩
  split <;> exact ⟨rfl, le_refl _⟩

theorem same {s : Db} : ∀ p ∈ s.membershipPeriods, ∃ q ∈ s.membershipPeriods,
    q.roomId = p.roomId ∧ p.visibleFromOrder ≤ q.visibleFromOrder :=
  fun p hp => ⟨p, hp, rfl, le_refl _⟩

end Level

/-! ## Commands that change no role -/

theorem RoomStateService.leaveRoom_level {s t : Db} {now : Time} {roomId userId : Uuid}
    (h : leaveRoom s now roomId userId = .ok t) : Level s t := by
  simp only [leaveRoom, bind_ok] at h
  obtain ⟨room, -, hrest⟩ := h
  split at hrest
  · cases hrest
    exact .refl _
  · split at hrest
    · cases hrest
      exact .refl _
    · simp only [bind_ok, pure_ok] at hrest
      obtain ⟨-, -, rfl⟩ := hrest
      exact .reseated (k := by exact ⟨fun _ => rfl⟩) rfl rfl (fun _ => ⟨rfl, rfl, rfl⟩)
        Level.closed rfl

namespace ModerationCoreService

theorem invalidate_level (s : Db) (roomId memberId : Uuid) :
    Level s (ModerationRepository.invalidate s roomId memberId) :=
  .reseated (k := by exact ⟨fun _ => rfl⟩) rfl rfl (fun _ => ⟨rfl, rfl, rfl⟩) Level.same rfl

theorem block_level {s t : Db} {now : Time} {userId roomId actorId : Uuid} {blocked : Bool}
    (h : block s now userId roomId actorId blocked = .ok t) : Level s t := by
  obtain ⟨u, hu, rfl | ⟨memberId, rfl⟩⟩ := block_ok h
  · exact .frame hu (by simp)
  · exact (Level.frame hu (by simp)).trans ((invalidate_level u roomId memberId).trans
      (invalidate_level _ roomId actorId))

theorem ban_level {s t : Db} {now : Time} {userId roomId actorId : Uuid} {banned : Bool}
    (h : ban s now userId roomId actorId banned = .ok t) : Level s t := by
  rcases ban_ok h with rfl | ⟨m, -, -, -, -, -, rfl⟩
  · exact .refl _
  · have hrevoked : Level s (if banned then
        ModerationRepository.revoke s now roomId actorId m.activePeriodId else s) := by
      split
      · exact
          { rooms := fun r hr => ⟨r, hr, rfl, rfl, rfl⟩
            members := fun n hn => ⟨n, hn, rfl, rfl, rfl⟩
            periods := Level.closed
            order := fun _ => le_refl _ }
      · exact .refl _
    refine hrevoked.trans (Level.trans (t := { (if banned then
      ModerationRepository.revoke s now roomId actorId m.activePeriodId else s) with
        roomMembers := Table.update (if banned then
          ModerationRepository.revoke s now roomId actorId m.activePeriodId else s).roomMembers
            (fun n => n.roomId = roomId ∧ n.id = actorId) fun n =>
          { n with status := if banned then .banned else .left, activePeriodId := none } }) ?_ ?_)
    · exact .reseated (k := by exact ⟨fun _ => rfl⟩) rfl rfl (fun _ => ⟨rfl, rfl, rfl⟩)
        Level.same rfl
    · exact .reseated (k := by exact ⟨fun _ => rfl⟩) rfl rfl (fun _ => ⟨rfl, rfl, rfl⟩)
        Level.same rfl

end ModerationCoreService

theorem RoomsCoreService.setHistoryPolicy_level {s t : Db} {roomId userId : Uuid}
    {policy : HistoryPolicy} {result : HistoryPolicy × Nat}
    (h : setHistoryPolicy s roomId userId policy = .ok (t, result)) : Level s t := by
  rcases setHistoryPolicy_ok h with rfl | rfl
  · exact .refl _
  · refine ⟨?_, fun m hm => ⟨m, hm, rfl, rfl, rfl⟩, Level.same, fun _ => le_refl _⟩
    intro r hr
    refine ⟨_, Table.mem_update_of_mem (k := by exact ⟨fun _ => rfl⟩) hr, ?_⟩
    split <;> exact ⟨rfl, rfl, rfl⟩

namespace MessagesRepository

theorem createPair_level {s t : Db} {now : Time} {ids : Nat → Uuid}
    {roomId streamId left right : Uuid} {delegated : Option Uuid}
    (h : createPair s now ids roomId streamId left right delegated = .ok t) : Level s t := by
  simp only [createPair, bind_ok, require_ok, pure_ok] at h
  obtain ⟨streams, -, pairs, -, grants, -, rfl⟩ := h
  exact .reseated (k := by exact ⟨fun _ => rfl⟩) rfl rfl (fun _ => ⟨rfl, rfl, rfl⟩) Level.same rfl

theorem pendingInbox_level {s t : Db} {now : Time} {ids : Nat → Uuid}
    {roomId actorId streamId : Uuid}
    (h : pendingInbox s now ids roomId actorId = .ok (t, streamId)) : Level s t := by
  unfold pendingInbox at h
  split at h
  · simp only [bind_ok, require_ok, pure_ok] at h
    obtain ⟨streams, -, grants, -, heq⟩ := h
    cases heq
    exact .reseated (k := by exact ⟨fun _ => rfl⟩) rfl rfl (fun _ => ⟨rfl, rfl, rfl⟩) Level.same rfl
  · cases h
    exact .refl _
  · cases h

end MessagesRepository

namespace MessagesCoreService

open MessagesRepository

theorem pairStream_level {s t : Db} {now : Time} {ids : Nat → Uuid} {viewer : ActiveMember}
    {tgt : TargetRow} {streamId : Uuid}
    (h : pairStream s now ids viewer tgt = .ok (t, streamId)) : Level s t := by
  unfold pairStream at h
  simp only at h
  split at h
  · cases h
    exact .refl _
  · simp only [bind_ok, pure_ok] at h
    obtain ⟨a, ha, heq⟩ := h
    cases heq
    exact createPair_level ha

theorem resolveStream_level {s t : Db} {now : Time} {ids : Nat → Uuid} {room : Room}
    {owner : Option RoomSendOwner} {awaiting : Bool} {viewer : ActiveMember} {intent : Intent}
    {recipient : Option Uuid} {streamId : Uuid}
    (h : resolveStream s now ids room owner awaiting viewer intent recipient = .ok (t, streamId)) :
    Level s t := by
  rcases resolveStream_ok h with ⟨-, -, -, -, h⟩ | ⟨intent', recipient', -, -, h⟩
  · exact pendingInbox_level (inboxStream_ok h).2.1
  · rcases sendStream_ok h with ⟨-, rfl, -⟩ | ⟨-, h⟩
    · exact .refl _
    · obtain ⟨-, tgt, -, -, -, -, -, h, -⟩ := privateStream_ok h
      exact pairStream_level h

theorem send_level {s t : Db} {now : Time} {ids : Nat → Uuid} {roomId userId : Uuid}
    {input : SendInput} {reply : SendReceipt}
    (h : send s now ids roomId userId input = .ok (t, reply)) : Level s t := by
  obtain ⟨admission, -, ⟨r, -, rfl, -⟩ | ⟨-, h⟩⟩ := send_ok h
  · exact .refl _
  · obtain ⟨u, streamId, hu, ht⟩ := sendNew_ok h
    have hw := create_writes ht
    exact (resolveStream_level hu).trans (.of_eq (hw.rooms (by simp)) (hw.roomMembers (by simp))
      (hw.membershipPeriods (by simp))
      fun room => (create_journaled ht).order room)

end MessagesCoreService

/-! ## Joining -/

namespace RoomStateService

open RoomStateRepository

/-- A member with the role a join gives it. -/
theorem insertMember_ranked {s t : Db} {id userId : Uuid} {room : Room} (hs : Ranked s)
    (hroom : room ∈ s.rooms)
    (h : insertMember s id room.id userId (if room.mode = .fan then .fan else .member) = .ok t) :
    Ranked t := by
  simp only [insertMember, bind_ok, require_ok, pure_ok] at h
  obtain ⟨-, -, members, hmembers, rfl⟩ := h
  refine ⟨?_, hs.boundaries⟩
  intro m hm
  rcases (Table.mem_insert hmembers).mp hm with hm | rfl
  · exact hs.members m hm
  · refine ⟨room, hroom, rfl, ?_, ?_⟩
    · intro hrole
      simp only at hrole
      split at hrole <;> cases hrole
    · intro hfan hrole
      simp only [hfan, if_true] at hrole
      cases hrole

theorem openPeriod_ranked {s t : Db} {periodId memberId userId : Uuid} {room : Room}
    (hs : Ranked s) (h : openPeriod s periodId room memberId userId = .ok t) : Ranked t := by
  simp only [openPeriod, insertPeriod, bind_ok, require_ok, pure_ok] at h
  obtain ⟨⟨a, order⟩, ha, b, ⟨periods, hperiods, rfl⟩, rfl⟩ := h
  have htaken := nextOrder_taken ha
  have hlevel : Level s a := .of_eq (htaken.writes.rooms (by simp))
    (htaken.writes.roomMembers (by simp))
    (htaken.writes.membershipPeriods (by simp)) htaken.le
  have ha' := hs.level hlevel
  -- The new period starts at the order the join took, or at the beginning.
  have hopened : Ranked { a with membershipPeriods := periods } := by
    refine ⟨ha'.members, ?_⟩
    intro p hp
    rcases (Table.mem_insert hperiods).mp hp with hp | rfl
    · exact ha'.boundaries p hp
    · show _ ≤ a.order room.id
      rw [htaken.set, if_pos rfl]
      simp only
      split
      · exact Nat.zero_le _
      · exact le_refl _
  exact hopened.level (.reseated (k := by exact ⟨fun _ => rfl⟩) rfl rfl
    (fun _ => ⟨rfl, rfl, rfl⟩) Level.same rfl)

/-- A join ranks its member, which is one of the room. -/
theorem joinRoom_ranked {s t : Db} {ids : Nat → Uuid} {roomId userId actorId : Uuid}
    (hs : Ranked s) (h : joinRoom s ids roomId userId = .ok (t, actorId)) :
    Ranked t ∧ ∀ m ∈ t.roomMembers, m.id = actorId → m.roomId = roomId := by
  refine ⟨?_, ?_⟩
  · simp only [joinRoom, lockRoom, bind_ok, require_ok, ensure_ok, pure_ok] at h
    obtain ⟨room, ⟨r, hr, -, -, rfl⟩, -, -, hrest⟩ := h
    have hid := Table.holds_of_find? hr
    split at hrest
    · simp only [bind_ok] at hrest
      obtain ⟨-, -, hrest⟩ := hrest
      split at hrest
      · cases hrest
        exact hs
      · simp only [bind_ok, pure_ok] at hrest
        obtain ⟨b, hb, heq⟩ := hrest
        cases heq
        exact openPeriod_ranked hs hb
    · simp only [bind_ok, pure_ok] at hrest
      obtain ⟨a, ha, b, hb, heq⟩ := hrest
      cases heq
      rw [← hid] at ha
      exact openPeriod_ranked (insertMember_ranked hs (Table.mem_of_find? hr) ha) hb
  · intro m hm hid
    have hseat := Db.seat_of_mem hm
    rw [hid] at hseat
    rcases joinRoom_ok h with ⟨rfl, n, hn, hnid, hnroom, -⟩ | ⟨p, hpm, hpr, hopens⟩
    · have hn' := Db.seat_of_mem hn
      rw [hnid, hseat, Option.some.injEq] at hn'
      exact (congrArg Seat.roomId hn').trans hnroom
    · obtain ⟨u, hu⟩ := hopens.seat
      rw [hu, if_pos hpm.symm, Option.some.injEq] at hseat
      exact (congrArg Seat.roomId hseat).symm.trans hpr

/-- A room without an owner has no streamer, and gets one with its owner. -/
theorem ranked_owned {s t : Db} {roomId actorId : Uuid} {r : Room} (hs : Ranked s)
    (hr : r ∈ s.rooms) (hid : r.id = roomId) (hnone : r.ownerMemberId = none)
    (hactor : ∀ m ∈ s.roomMembers, m.id = actorId → m.roomId = roomId)
    (hrooms : t.rooms = s.rooms.update (fun r => r.id = roomId)
      (fun r => { r with ownerMemberId := some actorId }))
    (hmembers : t.roomMembers = s.roomMembers.update (fun m => m.id = actorId)
      (fun m => { m with role := .streamer })) : ∀ m ∈ t.roomMembers, Enrolled t m := by
  intro m hm
  rw [hmembers] at hm
  obtain ⟨n, hn, rfl⟩ := (Table.mem_update (k := by exact ⟨fun _ => rfl⟩)).mp hm
  obtain ⟨q, hq, hin, howner, hmode⟩ := hs.members n hn
  have hstored : (if q.id = roomId then { q with ownerMemberId := some actorId } else q) ∈ t.rooms := by
    rw [hrooms]
    exact Table.mem_update_of_mem (k := by exact ⟨fun _ => rfl⟩) hq
  by_cases hself : n.id = actorId
  · have hhere : q.id = roomId := hin.trans (hactor n hn hself)
    rw [if_pos hhere] at hstored
    rw [if_pos hself]
    exact ⟨_, hstored, hin, fun _ => by rw [hself], fun _ => by simp⟩
  · rw [if_neg hself]
    by_cases hhere : q.id = roomId
    · have hsame : q = r := Table.eq_of_key hq hr (k := (0, [q.id])) List.mem_cons_self
        (by rw [hhere, ← hid]; exact List.mem_cons_self)
      rw [if_pos hhere] at hstored
      refine ⟨_, hstored, hin, ?_, hmode⟩
      intro hrole
      rw [hsame, hnone] at howner
      cases howner hrole
    · rw [if_neg hhere] at hstored
      exact ⟨q, hstored, hin, howner, hmode⟩

theorem createRoom_level {s t : Db} {streamId id : Uuid} {name : String} {mode : RoomMode}
    (h : createRoom s streamId name mode id = .ok t) : Level s t := by
  have hw := createRoom_writes h
  refine ⟨?_, fun m hm => ⟨m, hw.roomMembers (by simp) ▸ hm, rfl, rfl, rfl⟩,
    fun p hp => ⟨p, hw.membershipPeriods (by simp) ▸ hp, rfl, le_refl _⟩,
      (createRoom_journaled h).order⟩
  intro r hr
  exact ⟨r, (Table.mem_insert (createRoom_rooms h)).mpr (.inl hr), rfl, rfl, rfl⟩

theorem createOwnedRoom_ranked {s t : Db} {ids : Nat → Uuid} {name : String} {mode : RoomMode}
    {policy : HistoryPolicy} {ownerId roomId : Uuid} {result : Uuid × Uuid} (hs : Ranked s)
    (h : createOwnedRoom s ids name mode policy ownerId roomId = .ok (t, result)) : Ranked t := by
  simp only [createOwnedRoom, bind_ok, pure_ok] at h
  obtain ⟨a, ha, ⟨b, actorId⟩, hb, heq⟩ := h
  cases heq
  have hpolicy : Level a (initialPolicy a roomId policy) := by
    refine ⟨?_, fun m hm => ⟨m, hm, rfl, rfl, rfl⟩, Level.same, fun _ => le_refl _⟩
    intro r hr
    refine ⟨_, Table.mem_update_of_mem (k := by exact ⟨fun _ => rfl⟩) hr, ?_⟩
    split <;> exact ⟨rfl, rfl, rfl⟩
  obtain ⟨hb', hactor⟩ := joinRoom_ranked ((hs.level (createRoom_level ha)).level hpolicy) hb
  have hnew : { id := roomId, name := name, mode := mode, historyPolicy := policy } ∈ b.rooms := by
    rw [(joinRoom_writes hb).rooms (by simp)]
    exact (Table.mem_update (k := by exact ⟨fun _ => rfl⟩)).mpr
      ⟨_, (Table.mem_insert (createRoom_rooms ha)).mpr (.inr rfl), by simp⟩
  exact ⟨ranked_owned hb' hnew rfl rfl hactor rfl rfl, hb'.boundaries⟩

end RoomStateService

/-! ## The default room -/

namespace DefaultRoomService

open DefaultRoomRepository

theorem provisionOwner_ranked {s t : Db} {now : Time} {ids : Nat → Uuid} {guarded : Bool}
    {roomId : Uuid} {subject : Nat} {state : State} {r : Room} (hs : Ranked s) (hr : r ∈ s.rooms)
    (hid : r.id = roomId) (hnone : r.ownerMemberId = none)
    (h : provisionOwner s now ids roomId guarded subject = .ok (t, state)) : Ranked t := by
  have hspec := hs.level (.frame (bindSpec_writes s subject) (by simp))
  rcases provisionOwner_ok h with rfl | ⟨ownerId, a, b, actor, ha, hb, ht⟩
  · exact hspec
  obtain ⟨u, hu, rfl⟩ := finish_ok ht
  have haw := activate_writes ha
  -- Opening the room changes its status, and the joins and inboxes no room at all.
  obtain ⟨hopened, r', hr', hid', hnone'⟩ : (∀ q ∈ s.rooms, ∃ q' ∈ a.rooms, q'.id = q.id ∧
      q'.mode = q.mode ∧ q'.ownerMemberId = q.ownerMemberId) ∧
      ∃ r' ∈ a.rooms, r'.id = roomId ∧ r'.ownerMemberId = none := by
    simp only [activate, bind_ok, pure_ok] at ha
    obtain ⟨accounts, -, rfl⟩ := ha
    have hall : ∀ q ∈ s.rooms, ∃ q' ∈ s.rooms.update (fun r => r.id = roomId)
        (fun r => { r with status := .active }), q'.id = q.id ∧ q'.mode = q.mode ∧
        q'.ownerMemberId = q.ownerMemberId := by
      intro q hq
      refine ⟨_, Table.mem_update_of_mem (k := by exact ⟨fun _ => rfl⟩) hq, ?_⟩
      split <;> exact ⟨rfl, rfl, rfl⟩
    obtain ⟨r', hr', hrid, -, howner⟩ := hall r hr
    exact ⟨hall, r', hr', hrid.trans hid, howner.trans hnone⟩
  have ha' : Ranked a := hspec.level
    { rooms := hopened
      members := fun m hm => ⟨m, haw.roomMembers (by simp) ▸ hm, rfl, rfl, rfl⟩
      periods := fun p hp => ⟨p, haw.membershipPeriods (by simp) ▸ hp, rfl, le_refl _⟩
      order := fun room => (Db.order_congr (haw.roomCounters (by simp)) room).ge }
  obtain ⟨hb', hactor⟩ := RoomStateService.joinRoom_ranked ha' hb
  have huw := bindInboxes_writes hu
  have hlevel : Level b u := by
    simp only [bindInboxes, bind_ok, require_ok, pure_ok] at hu
    obtain ⟨pairs, -, grants, -, rfl⟩ := hu
    exact .reseated (k := by exact ⟨fun _ => rfl⟩) rfl rfl (fun _ => ⟨rfl, rfl, rfl⟩)
      Level.same rfl
  have hu' := hb'.level hlevel
  refine ⟨RoomStateService.ranked_owned hu' (r := r') ?_ hid' hnone' ?_ rfl rfl, ?_⟩
  · rw [huw.rooms (by simp), (RoomStateService.joinRoom_writes hb).rooms (by simp)]
    exact hr'
  · intro m hm hmid
    obtain ⟨n, hn, hnid, hnroom, -⟩ := hlevel.members m hm
    exact hnroom.symm.trans (hactor n hn (hnid.trans hmid))
  · -- The owner's boundary moves back to the beginning.
    intro p hp
    obtain ⟨q, hq, rfl⟩ := (Table.mem_update (k := by exact ⟨fun _ => rfl⟩)).mp hp
    split
    · exact Nat.zero_le _
    · exact hu'.boundaries q hq

theorem provision_ranked {s t : Db} {now : Time} {ids : Nat → Uuid} {config : DefaultRoomConfig}
    {guarded catalogOnly : Bool} {state : State} (hs : Ranked s)
    (h : provision s now ids config guarded catalogOnly = .ok (t, state)) : Ranked t := by
  obtain ⟨a, binding, created, ha, hrest⟩ := provision_ok h
  have ha' := hs.level (.frame (claim_writes ha) (by simp))
  rcases hrest with rfl | ⟨-, b, hb, hrest⟩
  · exact ha'
  obtain ⟨hopened, r, hr, hid, -, hnone⟩ := openCatalog_ok hb
  have hb' : Ranked b := by
    rcases hopened with rfl | hcreated
    · exact ha'
    · exact ha'.level (RoomStateService.createRoom_level hcreated)
  rcases hrest with rfl | ⟨subject, ht⟩
  · exact hb'
  · exact provisionOwner_ranked hb' hr hid hnone ht

end DefaultRoomService

/-! ## Every command -/

theorem Command.exec_ranked {c : Command} {s t : Db} (hs : Ranked s) (h : c.exec s = .ok t) :
    Ranked t := by
  have hw := exec_writes h
  have horder := (exec_journaled h).order
  have purged : Reepoched s t → t.roomMembers = s.roomMembers →
      t.membershipPeriods = s.membershipPeriods → Ranked t := by
    intro hrooms hmembers hperiods
    refine hs.level ⟨?_, fun m hm => ⟨m, hmembers ▸ hm, rfl, rfl, rfl⟩,
      fun p hp => ⟨p, hperiods ▸ hp, rfl, le_refl _⟩, horder⟩
    intro r hr
    obtain ⟨epoch, -, hmem⟩ := hrooms r hr
    exact ⟨_, hmem, rfl, rfl, rfl⟩
  cases c with
  | leaveRoom => exact hs.level (RoomStateService.leaveRoom_level h)
  | block => exact hs.level (ModerationCoreService.block_level h)
  | ban => exact hs.level (ModerationCoreService.ban_level h)
  | createOwnedRoom | joinRoom | provision | send | setHistoryPolicy =>
    simp only [Command.exec, bind_ok, pure_ok] at h
    obtain ⟨⟨t, reply⟩, h, rfl⟩ := h
    first
      | exact RoomStateService.createOwnedRoom_ranked hs h
      | exact (RoomStateService.joinRoom_ranked hs h).1
      | exact DefaultRoomService.provision_ranked hs h
      | exact hs.level (MessagesCoreService.send_level h)
      | exact hs.level (RoomsCoreService.setHistoryPolicy_level h)
  | purgeStep =>
    simp only [Command.exec, bind_ok, pure_ok] at h
    obtain ⟨⟨t, reply⟩, h, rfl⟩ := h
    exact purged (MessagePurgeService.step_rooms h) (hw.roomMembers (by simp [tables]))
      (hw.membershipPeriods (by simp [tables]))
  | accountContentPage =>
    simp only [Command.exec, bind_ok, pure_ok] at h
    obtain ⟨⟨t, reply⟩, h, rfl⟩ := h
    exact purged (AccountContentService.page_rooms h) (hw.roomMembers (by simp [tables]))
      (hw.membershipPeriods (by simp [tables]))
  | _ =>
    exact hs.level (.of_eq (hw.rooms (by simp [tables])) (hw.roomMembers (by simp [tables]))
      (hw.membershipPeriods (by simp [tables])) horder)

/-- Roles and boundaries are as they should be in every reachable state. -/
theorem reachable_ranked {allowed : Command → Prop} {s : Db} (h : (chatOf allowed).Reachable s) :
    Ranked s := by
  induction h with
  | init hs =>
    subst hs
    exact ⟨fun m hm => absurd hm (Table.not_mem_empty m),
      fun p hp => absurd hp (Table.not_mem_empty p)⟩
  | step _ hstep ih => exact Command.exec_ranked ih hstep.2

end Rogichat
