import Rogichat.Chat.Membership

/-!
# The history a period can read

The boundary of a membership period is written when it opens, from the policy the
room has at that moment, and is not written again. The one exception is the member
that default-room provisioning binds as the owner.

* **`exec_effect`** — what each command does to seats and periods.
* **`Period.Kept`** — a period's row over any number of commands.
* **`membership_periods`** — seats and periods agree, and a period opened under
  `SINCE_JOIN` never shows a message older than its join.
-/

namespace Rogichat

open Lib

/-! ## Commands that leave seats alone -/

namespace MessagesRepository

theorem createPair_seat {s t : Db} {now : Time} {ids : Nat → Uuid}
    {roomId streamId left right : Uuid} {delegated : Option Uuid}
    (h : createPair s now ids roomId streamId left right delegated = .ok t) (id : Uuid) :
    t.seat id = s.seat id := by
  simp only [createPair, bind_ok, require_ok, pure_ok] at h
  obtain ⟨streams, -, pairs, -, grants, -, rfl⟩ := h
  exact Db.seat_map rfl (fun m => by split <;> exact ⟨rfl, rfl⟩) id

theorem pendingInbox_seat {s t : Db} {now : Time} {ids : Nat → Uuid}
    {roomId actorId streamId : Uuid}
    (h : pendingInbox s now ids roomId actorId = .ok (t, streamId)) (id : Uuid) :
    t.seat id = s.seat id := by
  unfold pendingInbox at h
  split at h
  · simp only [bind_ok, require_ok, pure_ok] at h
    obtain ⟨streams, -, grants, -, heq⟩ := h
    cases heq
    exact Db.seat_map rfl (fun m => by split <;> exact ⟨rfl, rfl⟩) id
  · cases h
    rfl
  · cases h

end MessagesRepository

namespace MessagesCoreService

open MessagesRepository

theorem resolveStream_seat {s t : Db} {now : Time} {ids : Nat → Uuid} {room : Room}
    {owner : Option RoomSendOwner} {awaiting : Bool} {viewer : ActiveMember} {intent : Intent}
    {recipient : Option Uuid} {streamId : Uuid}
    (h : resolveStream s now ids room owner awaiting viewer intent recipient = .ok (t, streamId))
    (id : Uuid) : t.seat id = s.seat id := by
  rcases resolveStream_ok h with ⟨-, -, -, -, h⟩ | ⟨intent', recipient', -, -, h⟩
  · exact pendingInbox_seat (inboxStream_ok h).2.1 id
  · rcases sendStream_ok h with ⟨-, rfl, -⟩ | ⟨-, h⟩
    · rfl
    · obtain ⟨-, tgt, -, -, -, -, -, h, -⟩ := privateStream_ok h
      unfold pairStream at h
      simp only at h
      split at h
      · cases h
        rfl
      · simp only [bind_ok, pure_ok] at h
        obtain ⟨a, ha, heq⟩ := h
        cases heq
        exact createPair_seat ha id

theorem send_effect {s t : Db} {now : Time} {ids : Nat → Uuid} {roomId userId : Uuid}
    {input : SendInput} {reply : SendReceipt}
    (h : send s now ids roomId userId input = .ok (t, reply)) : Effect s t := by
  have hperiod := Db.period_congr ((send_writes h).membershipPeriods (by simp))
  obtain ⟨admission, -, ⟨r, -, rfl, -⟩ | ⟨-, h⟩⟩ := send_ok h
  · exact .settled (.still (fun _ => rfl) hperiod)
  · obtain ⟨u, streamId, hu, ht⟩ := sendNew_ok h
    refine .settled (.still (fun id => ?_) hperiod)
    exact (Db.seat_congr ((create_writes ht).roomMembers (by simp)) id).trans
      (resolveStream_seat hu id)

end MessagesCoreService

theorem ModerationCoreService.block_effect {s t : Db} {now : Time} {userId roomId actorId : Uuid}
    {blocked : Bool} (h : block s now userId roomId actorId blocked = .ok t) : Effect s t := by
  have hperiod := Db.period_congr ((block_writes h).membershipPeriods (by simp))
  have hinvalidate : ∀ (u : Db) (memberId id : Uuid),
      (ModerationRepository.invalidate u roomId memberId).seat id = u.seat id := by
    intro u memberId id
    exact Db.seat_map rfl (fun m => by split <;> exact ⟨rfl, rfl⟩) id
  obtain ⟨u, hu, rfl | ⟨memberId, rfl⟩⟩ := block_ok h
  · exact .settled (.still (Db.seat_congr (hu.roomMembers (by simp))) hperiod)
  · refine .settled (.still (fun id => ?_) hperiod)
    rw [hinvalidate, hinvalidate]
    exact Db.seat_congr (hu.roomMembers (by simp)) id

/-! ## Rooms and their owner -/

theorem RoomStateService.joinRoom_effect {s t : Db} {ids : Nat → Uuid} {roomId userId actorId : Uuid}
    (h : joinRoom s ids roomId userId = .ok (t, actorId)) : Effect s t := by
  rcases joinRoom_ok h with ⟨rfl, -⟩ | ⟨p, -, -, hopens⟩
  · exact .settled (.still (fun _ => rfl) fun _ => rfl)
  · exact .joined s t p (fun _ => rfl) (fun _ => rfl) hopens (.still (fun _ => rfl) fun _ => rfl)
      (fun _ => rfl) fun r hr => ⟨r, hr, rfl, rfl⟩

/-- A join in the middle of a command: quiet before it, settling after it. -/
theorem Effect.of_join {s a b t : Db} {ids : Nat → Uuid} {roomId userId actorId : Uuid}
    (hseat : ∀ id, a.seat id = s.seat id) (hperiod : ∀ id, a.period id = s.period id)
    (hjoin : RoomStateService.joinRoom a ids roomId userId = .ok (b, actorId))
    (hsettled : Settled b t) (horder : ∀ room, t.order room = b.order room)
    (hpolicy : ∀ r ∈ t.rooms, ∃ r' ∈ b.rooms, r'.id = r.id ∧ r'.historyPolicy = r.historyPolicy) :
    Effect s t := by
  rcases RoomStateService.joinRoom_ok hjoin with ⟨rfl, -⟩ | ⟨p, -, -, hopens⟩
  · exact .settled (.after hseat hperiod hsettled)
  · exact .joined a b p hseat hperiod hopens hsettled horder hpolicy

theorem RoomStateService.createOwnedRoom_effect {s t : Db} {ids : Nat → Uuid} {name : String}
    {mode : RoomMode} {policy : HistoryPolicy} {ownerId roomId : Uuid} {result : Uuid × Uuid}
    (h : createOwnedRoom s ids name mode policy ownerId roomId = .ok (t, result)) :
    Effect s t := by
  simp only [createOwnedRoom, bind_ok, pure_ok] at h
  obtain ⟨a, ha, ⟨b, actorId⟩, hb, heq⟩ := h
  cases heq
  have haw := createRoom_writes ha
  refine .of_join (a := RoomStateRepository.initialPolicy a roomId policy)
    (Db.seat_congr (haw.roomMembers (by simp)))
    (Db.period_congr (haw.membershipPeriods (by simp))) hb (.still (fun id => ?_) fun _ => rfl)
    (fun _ => rfl) ?_
  · exact Db.seat_map rfl (fun m => by split <;> exact ⟨rfl, rfl⟩) id
  · intro r hr
    obtain ⟨r', hr', rfl⟩ := (Table.mem_update (k := by exact ⟨fun _ => rfl⟩)).mp hr
    refine ⟨r', hr', ?_⟩
    split <;> exact ⟨rfl, rfl⟩

namespace DefaultRoomRepository

/-- The binding a claim answers with is stored. -/
theorem claim_ok {s t : Db} {roomId : Uuid} {binding : DefaultRoomBinding} {created : Bool}
    (h : claim s roomId = .ok (t, binding, created)) : binding ∈ t.defaultRoomBindings ∧
      (t = s ∨ binding.ownerBound = false ∧ ∀ b, ¬b ∈ s.defaultRoomBindings) := by
  unfold claim at h
  split at h
  · rename_i bindings hinsert
    cases h
    refine ⟨(Table.mem_insert hinsert).mpr (.inr rfl), .inr ⟨rfl, ?_⟩⟩
    intro b hb
    exact Table.fresh_of_insert hinsert hb ⟨(0, []), List.mem_cons_self, List.mem_cons_self⟩
  · simp only [bind_ok, require_ok, pure_ok] at h
    obtain ⟨row, hrow, heq⟩ := h
    cases heq
    exact ⟨Table.mem_of_find? hrow, .inl rfl⟩

theorem bindInboxes_seat {s t : Db} {now : Time} {ids : Nat → Uuid} {roomId actorId : Uuid}
    {pending : List StreamGrant} (h : bindInboxes s now ids roomId actorId pending = .ok t)
    (id : Uuid) : t.seat id = s.seat id := by
  simp only [bindInboxes, bind_ok, require_ok, pure_ok] at h
  obtain ⟨pairs, -, grants, -, rfl⟩ := h
  exact Db.seat_map rfl (fun m => by split <;> exact ⟨rfl, rfl⟩) id

/-- The actor `bindOwner` names is the bound owner. -/
theorem bindOwner_bound {s : Db} {roomId actorId : Uuid} {b : DefaultRoomBinding} {r : Room}
    (hb : b ∈ s.defaultRoomBindings) (hroom : b.roomId = roomId) (hr : r ∈ s.rooms)
    (hid : r.id = roomId) : BoundOwner (bindOwner s roomId actorId) actorId := by
  refine ⟨{ b with ownerBound := true }, ?_, rfl, { r with ownerMemberId := some actorId }, ?_,
    hid.trans hroom.symm, rfl⟩
  · exact (Table.mem_update (k := by exact ⟨fun _ => rfl⟩)).mpr ⟨b, hb, by simp⟩
  · exact (Table.mem_update (k := by exact ⟨fun _ => rfl⟩)).mpr ⟨r, hr, by simp [hid]⟩

theorem bindOwner_settled {s : Db} {roomId actorId : Uuid}
    (h : BoundOwner (bindOwner s roomId actorId) actorId) :
    Settled s (bindOwner s roomId actorId) := by
  have hperiod := Db.period_update (s := s) (t := bindOwner s roomId actorId)
    (k := by exact ⟨fun _ => rfl⟩) rfl fun _ => rfl
  refine ⟨fun id => ?_, fun id hnone => ?_, fun id p hp => ?_⟩
  · exact Db.seat_map rfl (fun m => by split <;> exact ⟨rfl, rfl⟩) id
  · rw [hperiod, hnone, Option.map_none]
  · rw [hperiod, hp, Option.map_some]
    split
    · rename_i hown
      exact .inr ⟨hown.2.1 ▸ h, rfl⟩
    · exact .inl rfl

end DefaultRoomRepository

namespace DefaultRoomService

open DefaultRoomRepository

theorem provisionOwner_effect {s t : Db} {now : Time} {ids : Nat → Uuid} {guarded : Bool}
    {subject : Nat} {state : State} {binding : DefaultRoomBinding} {r : Room}
    (hbinding : binding ∈ s.defaultRoomBindings) (hr : r ∈ s.rooms) (hid : r.id = binding.roomId)
    (h : provisionOwner s now ids binding.roomId guarded subject = .ok (t, state)) : Effect s t := by
  rcases provisionOwner_ok h with rfl | ⟨ownerId, a, b, actor, ha, hb, ht⟩
  · exact .settled (.frame (bindSpec_writes s subject) (by simp) (by simp))
  · obtain ⟨u, hu, rfl⟩ := finish_ok ht
    have haw := activate_writes ha
    have hbw := RoomStateService.joinRoom_writes hb
    have huw := bindInboxes_writes hu
    -- The binding and its room are still there when the owner is bound.
    have hbound : BoundOwner (bindOwner u binding.roomId actor) actor := by
      obtain ⟨r', hr', hid'⟩ : ∃ r' ∈ a.rooms, r'.id = binding.roomId := by
        simp only [activate, bind_ok, pure_ok] at ha
        obtain ⟨accounts, -, rfl⟩ := ha
        refine ⟨_, Table.mem_update_of_mem (k := by exact ⟨fun _ => rfl⟩) hr, ?_⟩
        split <;> exact hid
      refine bindOwner_bound (b := if binding.ownerSubject = none then
        { binding with ownerSubject := some subject } else binding) ?_ (by split <;> rfl)
        (r := r') ?_ hid'
      · rw [huw.defaultRoomBindings (by simp), hbw.defaultRoomBindings (by simp),
          haw.defaultRoomBindings (by simp)]
        exact Table.mem_update_of_mem (k := by exact ⟨fun _ => rfl⟩) hbinding
      · rw [huw.rooms (by simp), hbw.rooms (by simp)]
        exact hr'
    refine .of_join (a := a) (Db.seat_congr (haw.roomMembers (by simp)))
      (Db.period_congr (haw.membershipPeriods (by simp)))
      hb (.after (bindInboxes_seat hu) (Db.period_congr (huw.membershipPeriods (by simp)))
        (bindOwner_settled hbound)) (Db.order_congr (huw.roomCounters (by simp))) ?_
    intro x hx
    obtain ⟨x', hx', rfl⟩ := (Table.mem_update (k := by exact ⟨fun _ => rfl⟩)).mp hx
    refine ⟨x', huw.rooms (by simp) ▸ hx', ?_⟩
    split <;> exact ⟨rfl, rfl⟩

theorem provision_effect {s t : Db} {now : Time} {ids : Nat → Uuid} {config : DefaultRoomConfig}
    {guarded catalogOnly : Bool} {state : State}
    (h : provision s now ids config guarded catalogOnly = .ok (t, state)) : Effect s t := by
  obtain ⟨a, binding, created, ha, hrest⟩ := provision_ok h
  have haw := claim_writes ha
  -- claimed only, then opened only, then with its owner
  rcases hrest with rfl | ⟨-, b, hb, hrest⟩
  · exact .settled (.frame haw (by simp) (by simp))
  · have hbw := openCatalog_writes hb
    rcases hrest with rfl | ⟨subject, ht⟩
    · exact .settled (.after (Db.seat_congr (haw.roomMembers (by simp)))
        (Db.period_congr (haw.membershipPeriods (by simp)))
        (.frame hbw (by simp) (by simp)))
    · obtain ⟨r, hr, hid, -⟩ := (openCatalog_ok hb).2
      have hseat : ∀ id, b.seat id = s.seat id := fun id =>
        (Db.seat_congr (hbw.roomMembers (by simp)) id).trans
        (Db.seat_congr (haw.roomMembers (by simp)) id)
      have hperiod : ∀ id, b.period id = s.period id := fun id =>
        (Db.period_congr (hbw.membershipPeriods (by simp)) id).trans
        (Db.period_congr (haw.membershipPeriods (by simp)) id)
      have hbinding := (claim_ok ha).1
      rw [← hbw.defaultRoomBindings (by simp)] at hbinding
      cases provisionOwner_effect hbinding hr hid ht with
      | settled hst => exact .settled (.after hseat hperiod hst)
      | closed memberId x y hst =>
        refine .closed memberId x y ⟨(hseat memberId).symm.trans hst.held, ?_, hst.inactive,
          hst.vacated, ?_, ?_, ?_, ?_⟩
        · intro id
          rw [hst.seat, hseat]
        · intro id hn
          exact hst.absent id ((hperiod id).trans hn)
        · intro id p hp
          exact hst.period id p ((hperiod id).trans hp)
        · intro id p hp
          exact hst.closed id p ((hperiod id).trans hp)
        · intro id hne
          rw [hst.others id hne, hperiod]
      | joined c d p hcseat hcperiod hopens hsettled horder hpolicy =>
        exact .joined c d p (fun id => (hcseat id).trans (hseat id))
          (fun id => (hcperiod id).trans (hperiod id)) hopens hsettled horder hpolicy

end DefaultRoomService

/-- What a command does to seats and periods. -/
theorem Command.exec_effect {c : Command} {s t : Db} (hs : Seated s) (h : c.exec s = .ok t) :
    Effect s t := by
  cases c with
  | leaveRoom => exact RoomStateService.leaveRoom_effect h
  | block => exact ModerationCoreService.block_effect h
  | ban => exact ModerationCoreService.ban_effect hs h
  | createOwnedRoom | joinRoom | provision | send =>
    simp only [Command.exec, bind_ok, pure_ok] at h
    obtain ⟨⟨t, reply⟩, h, rfl⟩ := h
    first
      | exact RoomStateService.createOwnedRoom_effect h
      | exact RoomStateService.joinRoom_effect h
      | exact DefaultRoomService.provision_effect h
      | exact MessagesCoreService.send_effect h
  | _ => exact .settled (.frame (exec_writes h) (by simp [tables]) (by simp [tables]))

/-- Seats and periods agree in every reachable state. -/
theorem reachable_seated {allowed : Command → Prop} {s : Db} (h : (chatOf allowed).Reachable s) :
    Seated s := by
  induction h with
  | init hs =>
    subst hs
    refine ⟨?_, ?_, ?_⟩
    · intro id x hx
      cases hx
    · intro id x hx
      cases hx
    · intro id p hp
      cases hp
  | step _ hstep ih => exact ih.effect (Command.exec_effect ih hstep.2)

/-! ## The bound owner -/

/-- The room a creation adds. -/
theorem RoomStateService.createRoom_rooms {s t : Db} {streamId id : Uuid} {name : String}
    {mode : RoomMode} (h : createRoom s streamId name mode id = .ok t) :
    s.rooms.insert { id := id, name := name, mode := mode } = some t.rooms := by
  simp only [createRoom, bind_ok] at h
  obtain ⟨a, ha, b, hb, ht⟩ := h
  rw [(RoomStateRepository.insertSharedStream_writes ht).rooms (by simp),
    ((RoomStateRepository.insertCounter_writes hb).rooms (by simp))]
  simp only [RoomStateRepository.insertRoom, bind_ok, require_ok, pure_ok] at ha
  obtain ⟨rooms, hrooms, rfl⟩ := ha
  exact hrooms

/-- Rooms that were there before a room was created with its owner are left alone. -/
theorem RoomStateService.createOwnedRoom_rooms {s t : Db} {ids : Nat → Uuid} {name : String}
    {mode : RoomMode} {policy : HistoryPolicy} {ownerId roomId : Uuid} {result : Uuid × Uuid}
    (h : createOwnedRoom s ids name mode policy ownerId roomId = .ok (t, result)) {r : Room}
    (hr : r ∈ s.rooms) : r ∈ t.rooms := by
  simp only [createOwnedRoom, bind_ok, pure_ok] at h
  obtain ⟨a, ha, ⟨b, actorId⟩, hb, heq⟩ := h
  cases heq
  have hinsert := createRoom_rooms ha
  have hne : r.id ≠ roomId := by
    intro hid
    refine Table.fresh_of_insert hinsert hr ⟨(0, [r.id]), List.mem_cons_self, ?_⟩
    rw [hid]
    exact List.mem_cons_self
  have hpolicy : r ∈ (RoomStateRepository.initialPolicy a roomId policy).rooms :=
    (Table.mem_update (k := by exact ⟨fun _ => rfl⟩)).mpr
      ⟨r, (Table.mem_insert hinsert).mpr (.inl hr), by rw [if_neg hne]⟩
  rw [← (joinRoom_writes hb).rooms (by simp)] at hpolicy
  exact (Table.mem_update (k := by exact ⟨fun _ => rfl⟩)).mpr ⟨r, hpolicy, by rw [if_neg hne]⟩

/-- The bindings of `t` are those of `s`, perhaps with a subject. -/
def SameBindings (s t : Db) : Prop :=
  ∀ b ∈ s.defaultRoomBindings, ∃ b' ∈ t.defaultRoomBindings, b'.roomId = b.roomId ∧
    b'.ownerBound = b.ownerBound

theorem SameBindings.of_eq {s t : Db} (h : t.defaultRoomBindings = s.defaultRoomBindings) :
    SameBindings s t := fun b hb => ⟨b, h ▸ hb, rfl, rfl⟩

theorem BoundOwner.mono {s t : Db} {memberId : Uuid} (h : BoundOwner s memberId)
    (hbindings : SameBindings s t)
    (hrooms : ∀ r ∈ s.rooms, ∃ r' ∈ t.rooms, r'.id = r.id ∧ r'.ownerMemberId = r.ownerMemberId) :
    BoundOwner t memberId := by
  obtain ⟨b, hb, hbound, r, hr, hid, howner⟩ := h
  obtain ⟨b', hb', hroom', hbound'⟩ := hbindings b hb
  obtain ⟨r', hr', hid', howner'⟩ := hrooms r hr
  exact ⟨b', hb', hbound'.trans hbound, r', hr', hid'.trans (hid.trans hroom'.symm),
    howner'.trans howner⟩

theorem BoundOwner.congr {s t : Db} {memberId : Uuid} (h : BoundOwner s memberId)
    (hbindings : t.defaultRoomBindings = s.defaultRoomBindings)
    (hrooms : ∀ r ∈ s.rooms, ∃ r' ∈ t.rooms, r'.id = r.id ∧ r'.ownerMemberId = r.ownerMemberId) :
    BoundOwner t memberId :=
  h.mono (.of_eq hbindings) hrooms

theorem Reepoched.owners {s t : Db} (h : Reepoched s t) :
    ∀ r ∈ s.rooms, ∃ r' ∈ t.rooms, r'.id = r.id ∧ r'.ownerMemberId = r.ownerMemberId := by
  intro r hr
  obtain ⟨epoch, -, hmem⟩ := h r hr
  exact ⟨_, hmem, rfl, rfl⟩

/-- A bound default room is not provisioned again. -/
theorem DefaultRoomService.provision_bound {s t : Db} {now : Time} {ids : Nat → Uuid}
    {config : DefaultRoomConfig} {guarded catalogOnly : Bool} {state : State}
    {b : DefaultRoomBinding} (hb : b ∈ s.defaultRoomBindings) (hbound : b.ownerBound = true)
    (h : provision s now ids config guarded catalogOnly = .ok (t, state)) : t = s := by
  obtain ⟨a, binding, created, ha, hrest⟩ := provision_ok h
  obtain ⟨hbinding, rfl | ⟨-, hnone⟩⟩ := DefaultRoomRepository.claim_ok ha
  · rcases hrest with rfl | ⟨hunbound, -⟩
    · rfl
    · -- There is one binding, and it is bound.
      have : binding = b := Table.eq_of_key hbinding hb (k := (0, [])) List.mem_cons_self
        List.mem_cons_self
      rw [this, hbound] at hunbound
      cases hunbound
  · exact absurd hb (hnone b)

/-- Once bound, the owner of the default room stays it. -/
theorem Command.exec_boundOwner {c : Command} {s t : Db} {memberId : Uuid} (h : c.exec s = .ok t)
    (hs : BoundOwner s memberId) : BoundOwner t memberId := by
  have hw := exec_writes h
  have same : ∀ {x y : Db}, y.rooms = x.rooms →
      ∀ r ∈ x.rooms, ∃ r' ∈ y.rooms, r'.id = r.id ∧ r'.ownerMemberId = r.ownerMemberId :=
    fun hxy r hr => ⟨r, hxy ▸ hr, rfl, rfl⟩
  cases c with
  | createOwnedRoom =>
    simp only [Command.exec, bind_ok, pure_ok] at h
    obtain ⟨⟨t, reply⟩, h, rfl⟩ := h
    exact hs.congr (hw.defaultRoomBindings (by simp [tables])) fun r hr =>
      ⟨r, RoomStateService.createOwnedRoom_rooms h hr, rfl, rfl⟩
  | setHistoryPolicy =>
    simp only [Command.exec, bind_ok, pure_ok] at h
    obtain ⟨⟨t, reply⟩, h, rfl⟩ := h
    refine hs.congr (hw.defaultRoomBindings (by simp [tables])) ?_
    rcases RoomsCoreService.setHistoryPolicy_ok h with rfl | rfl
    · exact same rfl
    · intro r hr
      refine ⟨_, Table.mem_update_of_mem (k := by exact ⟨fun _ => rfl⟩) hr, ?_⟩
      split <;> exact ⟨rfl, rfl⟩
  | provision =>
    simp only [Command.exec, bind_ok, pure_ok] at h
    obtain ⟨⟨t, reply⟩, h, rfl⟩ := h
    obtain ⟨b, hb, hbound, hrest⟩ := hs
    rw [DefaultRoomService.provision_bound hb hbound h]
    exact ⟨b, hb, hbound, hrest⟩
  | purgeStep =>
    simp only [Command.exec, bind_ok, pure_ok] at h
    obtain ⟨⟨t, reply⟩, h, rfl⟩ := h
    exact hs.congr (hw.defaultRoomBindings (by simp [tables])) (MessagePurgeService.step_rooms h).owners
  | accountContentPage =>
    simp only [Command.exec, bind_ok, pure_ok] at h
    obtain ⟨⟨t, reply⟩, h, rfl⟩ := h
    exact hs.congr (hw.defaultRoomBindings (by simp [tables]))
      (AccountContentService.page_rooms h).owners
  | _ =>
    exact hs.congr (hw.defaultRoomBindings (by simp [tables])) (same (hw.rooms (by simp [tables])))

/-! ## A period over a run -/

/-- Period `p` is stored with the boundary it opened with, or belongs to the bound owner. -/
def Period.Kept (p : MembershipPeriod) (db : Db) : Prop :=
  ∃ q, db.period p.id = some q ∧ q.memberId = p.memberId ∧ q.roomId = p.roomId ∧
    (q.visibleFromOrder = p.visibleFromOrder ∨ BoundOwner db p.memberId)

namespace Period.Kept

theorem settled {s t : Db} {p : MembershipPeriod} (h : Period.Kept p s) (hst : Settled s t)
    (hmono : BoundOwner s p.memberId → BoundOwner t p.memberId) : Period.Kept p t := by
  obtain ⟨q, hq, hmember, hroom, hbound⟩ := h
  rcases hst.period p.id q hq with hq' | ⟨howner, hq'⟩
  · exact ⟨q, hq', hmember, hroom, hbound.imp_right hmono⟩
  · exact ⟨_, hq', hmember, hroom, .inr (hmember ▸ howner)⟩

theorem exec {c : Command} {s t : Db} {p : MembershipPeriod} (hs : Seated s) (hexec : c.exec s = .ok t)
    (h : Period.Kept p s) : Period.Kept p t := by
  have hmono : BoundOwner s p.memberId → BoundOwner t p.memberId := Command.exec_boundOwner hexec
  cases Command.exec_effect hs hexec with
  | settled hst => exact h.settled hst hmono
  | closed memberId x y hst =>
    obtain ⟨q, hq, hmember, hroom, hbound⟩ := h
    obtain ⟨q', hq', hcase⟩ := hst.period p.id q hq
    rcases hcase with rfl | ⟨now, rfl⟩
    · exact ⟨q', hq', hmember, hroom, hbound.imp_right hmono⟩
    · exact ⟨_, hq', hmember, hroom, hbound.imp_right hmono⟩
  | joined a b p' hseat hperiod hopens hsettled =>
    obtain ⟨q, hq, hmember, hroom, hbound⟩ := h
    have hne : p.id ≠ p'.id := by
      intro hid
      rw [← hperiod, hid, hopens.fresh] at hq
      cases hq
    have hb : b.period p.id = some q := by
      rw [hopens.period, if_neg hne, hperiod]
      exact hq
    rcases hsettled.period p.id q hb with hq' | ⟨howner, hq'⟩
    · exact ⟨q, hq', hmember, hroom, hbound.imp_right hmono⟩
    · exact ⟨_, hq', hmember, hroom, .inr (hmember ▸ howner)⟩

theorem run {s t : Db} {cs : List Command} {p : MembershipPeriod} (hs : chat.Reachable s)
    (hrun : chat.Run s cs t) (h : Period.Kept p s) : Period.Kept p t := by
  refine hrun.keeps hs h ?_
  intro s t c _ hr hp hstep
  exact hp.exec (reachable_seated hr) hstep.2

end Period.Kept

/-! ## Opening under `SINCE_JOIN` -/

/-- Period `p` was opened between `s` and `t`. -/
def Opened (s t : Db) (p : MembershipPeriod) : Prop :=
  p ∈ t.membershipPeriods ∧ ∀ q ∈ s.membershipPeriods, q.id ≠ p.id

/-- The room's policy hides what was written before a join. -/
def SinceJoin (db : Db) (roomId : Uuid) : Prop :=
  ∃ r ∈ db.rooms, r.id = roomId ∧ r.historyPolicy = .sinceJoin

/-- The boundary of a new period is the order its join took. -/
theorem opened_boundary {c : Command} {s t : Db} {p : MembershipPeriod} (hs : Seated s)
    (hexec : c.exec s = .ok t) (hopened : Opened s t p) (hpolicy : SinceJoin t p.roomId) :
    p.visibleFromOrder = t.order p.roomId ∨ BoundOwner t p.memberId := by
  have hp : t.period p.id = some p := Db.period_iff.mpr ⟨hopened.1, rfl⟩
  have hnone : s.period p.id = none := by
    cases hq : s.period p.id with
    | none => rfl
    | some q =>
      obtain ⟨hmem, hid⟩ := Db.period_iff.mp hq
      exact absurd hid (hopened.2 q hmem)
  cases Command.exec_effect hs hexec with
  | settled hst =>
    rw [hst.absent p.id hnone] at hp
    cases hp
  | closed memberId x y hst =>
    rw [hst.absent p.id hnone] at hp
    cases hp
  | joined a b p' hseat hperiod hopens hsettled horder hrooms =>
    have hid : p.id = p'.id := by
      by_contra hne
      have hb : b.period p.id = none := by
        rw [hopens.period, if_neg hne, hperiod]
        exact hnone
      rw [hsettled.absent p.id hb] at hp
      cases hp
    have hb : b.period p.id = some p' := by rw [hopens.period, if_pos hid]
    rcases hsettled.period p.id p' hb with hp' | ⟨howner, hp'⟩
    · rw [hp, Option.some.injEq] at hp'
      subst hp'
      left
      obtain ⟨r, hr, hroom, hsince⟩ := hpolicy
      obtain ⟨r', hr', hid', hsame⟩ := hrooms r hr
      have hkept := hopens.policy r' hr' (hid'.trans hroom)
      rw [horder]
      exact hopens.boundary (by rw [← hkept, hsame, hsince])
    · rw [hp, Option.some.injEq] at hp'
      right
      rw [hp']
      exact howner

/-! ## Reading across the boundary -/

/-- Nothing older than `order` is shown to a member in this period. -/
def Barred (db : Db) (periodId : Uuid) (order : Nat) : Prop :=
  ∀ w now roomId userId viewer,
    MembershipRepository.findActive db w now roomId userId = some viewer →
    viewer.activePeriodId = periodId →
    (∀ row : MessageRow, row.createdOrder < order →
      (∀ g, canReadMessage (MessagesCoreService.accessFacts viewer row.ownerMemberId)
        (MessagesCoreService.readFacts row g) = false) ∧
      MessagesCoreService.readable db now viewer row = false) ∧
    ∀ m : Message, m.createdOrder < order →
      ¬MessagesQueryRepository.audience db now viewer.id viewer.visibleFromOrder m ∧
      ∀ e, ¬MessagesQueryRepository.Joined db m
        (MessagesQueryRepository.eventAudienceOf db now viewer.id viewer.visibleFromOrder e m)

/-- A viewer reads nothing below its period's boundary. -/
theorem barred_of_boundary {db : Db} {p : MembershipPeriod} {order : Nat}
    (hp : db.period p.id = some p) (horder : order ≤ p.visibleFromOrder) :
    Barred db p.id order := by
  intro w now roomId userId viewer hviewer hactive
  obtain ⟨m, r, q, hrow, rfl⟩ := MembershipRepository.findActive_some hviewer
  simp only [MembershipRepository.project_activePeriodId] at hactive
  -- the viewer's period is the one in question
  have hqp : q = p := by
    have hq := Db.period_iff.mpr ⟨hrow.period, hactive⟩
    rw [hp, Option.some.injEq] at hq
    exact hq.symm
  subst hqp
  have hfrom : (MembershipRepository.project db w now
      { id := m.id, roomId := m.roomId, userId := m.userId, role := m.role, mode := r.mode,
        activePeriodId := q.id, visibleFromOrder := q.visibleFromOrder }).visibleFromOrder =
      q.visibleFromOrder := MembershipRepository.project_visibleFromOrder ..
  refine ⟨?_, ?_⟩
  · -- reading a single message, then a page
    intro row hlt
    have hno : ∀ g, canReadMessage (MessagesCoreService.accessFacts (MembershipRepository.project db w
        now { id := m.id, roomId := m.roomId, userId := m.userId, role := m.role, mode := r.mode,
              activePeriodId := q.id, visibleFromOrder := q.visibleFromOrder }) row.ownerMemberId)
        (MessagesCoreService.readFacts row g) = false := by
      intro g
      rw [Bool.eq_false_iff]
      intro hread
      have hle := (MessagesCoreService.available_iff.mp (canReadMessage_iff.mp hread).1).boundary
      rw [hfrom] at hle
      omega
    refine ⟨hno, ?_⟩
    rw [Bool.eq_false_iff]
    intro hread
    have hallowed := MessagesCoreService.readable_allowed hread
    rw [MessagesCoreService.allowed, hno] at hallowed
    cases hallowed
  · intro x hlt
    refine ⟨?_, ?_⟩
    · rintro ⟨st, -, -, -, rm, -, -, hle, -⟩
      rw [hfrom] at hle
      omega
    · rintro e ⟨st, -, -, -, rm, -, -, hle, -⟩
      rw [hfrom] at hle
      omega

/-- A period opened under `SINCE_JOIN` hides what came before an order that its join
was not older than. -/
theorem barred_of_opened {s t u : Db} {c : Command} {cs : List Command} {p : MembershipPeriod}
    {order : Nat} (hs : chat.Reachable s) (hstep : chat.step c s t) (hopened : Opened s t p)
    (hpolicy : SinceJoin t p.roomId) (horder : order ≤ t.order p.roomId) (hrun : chat.Run t cs u)
    (howner : ¬BoundOwner u p.memberId) : Barred u p.id order := by
  have hseated := reachable_seated hs
  have ht : chat.Reachable t := .step hs hstep
  have hkept : Period.Kept p u := Period.Kept.run ht hrun
    ⟨p, Db.period_iff.mpr ⟨hopened.1, rfl⟩, rfl, rfl, .inl rfl⟩
  obtain ⟨q, hq, -, -, hsame | hbound⟩ := hkept
  · rcases opened_boundary hseated hstep.2 hopened hpolicy with hfrom | hbound
    · have hid := (Db.period_iff.mp hq).2
      rw [← hid] at hq ⊢
      exact barred_of_boundary hq (by rw [hsame, hfrom]; exact horder)
    · refine absurd (hrun.keeps (P := fun db => BoundOwner db p.memberId) ht hbound ?_) howner
      intro s t c _ _ hb hst
      exact Command.exec_boundOwner hst.2 hb
  · exact absurd hbound howner

/-! ## Changing the policy -/

/-- The two states show every member the same. -/
def SameReads (s t : Db) : Prop :=
  ∀ w now,
    (∀ roomId userId, MembershipRepository.findActive t w now roomId userId =
      MembershipRepository.findActive s w now roomId userId) ∧
    (∀ roomId messageId, MessagesRepository.load t w roomId messageId =
      MessagesRepository.load s w roomId messageId) ∧
    ∀ viewer : ActiveMember,
      (∀ row, MessagesCoreService.readable t now viewer row =
        MessagesCoreService.readable s now viewer row) ∧
      ∀ m, (MessagesQueryRepository.audience t now viewer.id viewer.visibleFromOrder m ↔
          MessagesQueryRepository.audience s now viewer.id viewer.visibleFromOrder m) ∧
        (MessagesQueryRepository.blocked t m ↔ MessagesQueryRepository.blocked s m) ∧
        (MessagesQueryRepository.personalSql t m viewer.id ↔
          MessagesQueryRepository.personalSql s m viewer.id)

/-- A lookup that does not look at the policy. -/
theorem RoomsRepository.find?_changePolicy (db : Db) (policy : HistoryPolicy) (roomId : Uuid)
    {q : Room → Prop} [DecidablePred q]
    (hq : ∀ r : Room, q { r with historyPolicy := policy, policyVersion := r.policyVersion + 1 } ↔ q r) :
    (changePolicy db policy roomId).rooms.find? q = (db.rooms.find? q).map fun r =>
      if r.id = roomId then { r with historyPolicy := policy, policyVersion := r.policyVersion + 1 }
      else r :=
  Table.find?_update (k := by exact ⟨fun _ => rfl⟩) hq

theorem RoomsRepository.changePolicy_sameReads (s : Db) (policy : HistoryPolicy) (roomId : Uuid) :
    SameReads s (changePolicy s policy roomId) := by
  intro w now
  refine ⟨?_, ?_, ?_⟩
  · intro room userId
    -- the room of the row carries another policy and is the same otherwise
    have hrows : MembershipRepository.activeRow (changePolicy s policy roomId) room userId =
        (MembershipRepository.activeRow s room userId).map fun row => (row.1,
          if row.2.1.id = roomId then
            { row.2.1 with historyPolicy := policy, policyVersion := row.2.1.policyVersion + 1 }
          else row.2.1, row.2.2) := by
      unfold MembershipRepository.activeRow
      cases hm : s.roomMembers.find? fun m => m.roomId = room ∧ m.userId = userId ∧ m.status = .active with
      | none =>
        have hm' : ((changePolicy s policy roomId).roomMembers.find? fun m =>
          m.roomId = room ∧ m.userId = userId ∧ m.status = .active) = none := hm
        rw [hm']
        rfl
      | some m =>
        have hm' : ((changePolicy s policy roomId).roomMembers.find? fun m =>
          m.roomId = room ∧ m.userId = userId ∧ m.status = .active) = some m := hm
        rw [hm']
        simp only [Option.bind_eq_bind, Option.bind_some]
        rw [find?_changePolicy s policy roomId fun _ => Iff.rfl]
        cases s.rooms.find? fun r => r.id = m.roomId ∧ r.status = .active with
        | none => rfl
        | some r =>
          simp only [Option.map_some, Option.bind_some]
          change ((s.membershipPeriods.find? _).bind _) = ((s.membershipPeriods.find? _).bind _).map _
          cases s.membershipPeriods.find? fun p => m.activePeriodId = some p.id ∧
              p.roomId = m.roomId ∧ p.memberId = m.id ∧ p.leftAt = none with
          | none => rfl
          | some p => rfl
    unfold MembershipRepository.findActive
    rw [hrows, Option.map_map]
    congr 1
    funext row
    obtain ⟨m, r, p⟩ := row
    simp only [Function.comp_apply]
    split <;> rfl
  · intro room messageId
    unfold MessagesRepository.load
    change ((s.messages.find? _).bind _) = ((s.messages.find? _).bind _)
    congr 1
    funext m
    change ((s.messageStreams.find? _).bind _) = ((s.messageStreams.find? _).bind _)
    congr 1
    funext st
    simp only [Option.bind_eq_bind]
    rw [find?_changePolicy s policy roomId fun _ => Iff.rfl]
    cases s.rooms.find? fun r => r.id = m.roomId with
    | none => rfl
    | some r =>
      simp only [Option.map_some, Option.bind_some]
      split <;> rfl
  · intro viewer
    refine ⟨fun _ => rfl, fun m => ⟨?_, Iff.rfl, Iff.rfl⟩⟩
    unfold MessagesQueryRepository.audience MessagesQueryRepository.Joined
    change (s.messageStreams.Has _) ↔ (s.messageStreams.Has _)
    simp only [Table.has_iff]
    -- no condition on the room mentions its policy
    have hroom : ∀ st, (changePolicy s policy roomId).rooms.Has (fun r => r.id = m.roomId ∧
          MessagesQueryRepository.audienceOf s now viewer.id viewer.visibleFromOrder false m st r) ↔
        s.rooms.Has fun r => r.id = m.roomId ∧
          MessagesQueryRepository.audienceOf s now viewer.id viewer.visibleFromOrder false m st r :=
      fun st => Table.has_update (k := by exact ⟨fun _ => rfl⟩) fun _ => Iff.rfl
    simp only [Table.has_iff] at hroom
    refine exists_congr fun st => and_congr_right fun _ => and_congr_right fun _ =>
      and_congr_right fun _ => hroom st

theorem RoomsCoreService.setHistoryPolicy_sameReads {s t : Db} {roomId userId : Uuid}
    {policy : HistoryPolicy} {result : HistoryPolicy × Nat}
    (h : setHistoryPolicy s roomId userId policy = .ok (t, result)) : SameReads s t := by
  rcases setHistoryPolicy_ok h with rfl | rfl
  · exact fun _ _ => ⟨fun _ _ => rfl, fun _ _ => rfl, fun _ => ⟨fun _ => rfl,
      fun _ => ⟨Iff.rfl, Iff.rfl, Iff.rfl⟩⟩⟩
  · exact RoomsRepository.changePolicy_sameReads s policy roomId

/-- Membership periods and the `SINCE_JOIN` boundary, along any run. In every state a
member is active exactly when it points to an open period of its own, and has at
most one. A period opened under `SINCE_JOIN` hides every message older than that
join, whatever happens later, and so does every period opened later under that
policy in the same room. A change of the policy shows nobody more or less. -/
theorem membership_periods {s t u : Db} {c : Command} {cs : List Command} (hs : chat.Reachable s)
    (hstep : chat.step c s t) (hrun : chat.Run t cs u) :
    (∀ m ∈ u.roomMembers, m.status = .active ↔ ∃ p ∈ u.membershipPeriods,
      m.activePeriodId = some p.id ∧ p.memberId = m.id ∧ p.roomId = m.roomId ∧ p.leftAt = none) ∧
    (∀ p ∈ u.membershipPeriods, ∀ q ∈ u.membershipPeriods, p.memberId = q.memberId →
      p.leftAt = none → q.leftAt = none → p = q) ∧
    (∀ p, Opened s t p → SinceJoin t p.roomId →
      (¬BoundOwner u p.memberId → Barred u p.id (t.order p.roomId)) ∧
      ∀ d v q, chat.step d u v → Opened u v q → q.roomId = p.roomId → SinceJoin v q.roomId →
        ∀ ds w, chat.Run v ds w → ¬BoundOwner w q.memberId → Barred w q.id (t.order p.roomId)) ∧
    ∀ roomId userId policy, c = .setHistoryPolicy roomId userId policy → SameReads s t := by
  have ht : chat.Reachable t := .step hs hstep
  have hu : chat.Reachable u := hrun.reachable ht
  have hseated := reachable_seated hu
  refine ⟨?_, ?_, ?_, ?_⟩
  · intro m hm
    have hseat := Db.seat_of_mem hm
    constructor
    · intro hactive
      obtain ⟨periodId, p, hpoints, hp, hmember, hroom, hopen⟩ :=
        hseated.active m.id m.seat hseat hactive
      obtain ⟨hmem, rfl⟩ := Db.period_iff.mp hp
      exact ⟨p, hmem, hpoints, hmember, hroom, hopen⟩
    · rintro ⟨p, -, hpoints, -⟩
      by_contra hne
      have hnone : m.activePeriodId = none := hseated.inactive m.id m.seat hseat hne
      rw [hnone] at hpoints
      cases hpoints
  · intro p hp q hq hsame hpo hqo
    obtain ⟨x, hx, -, hxp⟩ := hseated.occupied p.id p (Db.period_iff.mpr ⟨hp, rfl⟩) hpo
    obtain ⟨y, hy, -, hyq⟩ := hseated.occupied q.id q (Db.period_iff.mpr ⟨hq, rfl⟩) hqo
    rw [hsame, hy, Option.some.injEq] at hx
    rw [hx, hxp, Option.some.injEq] at hyq
    exact Table.eq_of_key hp hq (k := (0, [p.id])) List.mem_cons_self
      (by rw [hyq]; exact List.mem_cons_self)
  · intro p hopened hpolicy
    refine ⟨barred_of_opened hs hstep hopened hpolicy (le_refl _) hrun, ?_⟩
    intro d v q hd hq hroom hsince ds w hds howner
    -- The later join took a later order.
    have horder : t.order p.roomId ≤ v.order q.roomId := by
      rw [hroom]
      exact ((run_journaled hrun).order _).trans ((Command.exec_journaled hd.2).order _)
    exact barred_of_opened hu hd hq hsince horder hds howner
  · rintro roomId userId policy rfl
    have h := hstep.2
    simp only [Command.exec, bind_ok, pure_ok] at h
    obtain ⟨⟨t, reply⟩, h, rfl⟩ := h
    exact RoomsCoreService.setHistoryPolicy_sameReads h

/-- A fan joins a room under `SINCE_JOIN`, and the owner then relaxes the policy: the
fan is still in the period of its join, which took the order 2. -/
theorem membership_periods_relaxed : ∃ s t u : Db, ∃ p, Opened s t p ∧ SinceJoin t p.roomId ∧
    t.order p.roomId = 2 ∧ ¬SinceJoin u p.roomId ∧
    (∃ viewer, MembershipRepository.findActive u true 0 7 2 = some viewer ∧
      viewer.activePeriodId = p.id) ∧ Barred u p.id 2 := by
  obtain ⟨s, hs⟩ : ∃ s, ({} : Db).after [.environment .twoAccounts,
      .createOwnedRoom (fun i => 10 + i) "room" .fan .sinceJoin 1 7] = .ok s := ⟨_, rfl⟩
  obtain ⟨t, ht⟩ : ∃ t, (Command.joinRoom (fun i => 20 + i) 7 2).exec s = .ok t := by
    cases hs
    exact ⟨_, rfl⟩
  obtain ⟨u, hu⟩ : ∃ u, t.after [.setHistoryPolicy 7 1 .allAvailable] = .ok u := by
    cases hs
    cases ht
    exact ⟨_, rfl⟩
  have hreach : chat.Reachable s := (run_of_after hs).reachable (.init rfl)
  have hall := membership_periods hreach ⟨trivial, ht⟩ (run_of_after hu)
  refine ⟨s, t, u, ⟨21, 7, 20, 1, .sinceJoin, 2, none⟩, ?_⟩
  cases hs
  cases ht
  cases hu
  refine ⟨?_, ?_, rfl, ?_, ?_, ?_⟩
  · exact ⟨.tail _ (.head _), by decide⟩
  · exact ⟨_, .head _, rfl, rfl⟩
  · rintro ⟨r, hr, -, hpolicy⟩
    cases hr with
    | head => cases hpolicy
    | tail _ hr => cases hr
  · exact ⟨_, rfl, rfl⟩
  · refine (hall.2.2.1 _ ⟨.tail _ (.head _), by decide⟩ ⟨_, .head _, rfl, rfl⟩).1 ?_
    rintro ⟨b, hb, -⟩
    cases hb

end Rogichat
