import Rogichat.Chat.System

/-!
# Which tables a command writes

One footprint for each command, from the footprints of the functions it calls.
An invariant over some tables is kept by every command whose footprint avoids
them, so that the proofs of this development only look inside the commands that
write the tables they are about.
-/

namespace Rogichat

open Lib

/-- From `s` to `t` only the named tables changed. -/
abbrev Db.Writes (ts : List TableName) (s t : Db) : Prop := Lib.Writes Db.table ts s t

/-! A table outside the footprint, under its own name. -/

namespace Db.Writes

variable {ts : List TableName} {s t : Db}

theorem users (h : Db.Writes ts s t) (hts : .users ∉ ts) :
    t.users = s.users := h .users hts

theorem rooms (h : Db.Writes ts s t) (hts : .rooms ∉ ts) :
    t.rooms = s.rooms := h .rooms hts

theorem roomCounters (h : Db.Writes ts s t) (hts : .roomCounters ∉ ts) :
    t.roomCounters = s.roomCounters := h .roomCounters hts

theorem roomMembers (h : Db.Writes ts s t) (hts : .roomMembers ∉ ts) :
    t.roomMembers = s.roomMembers := h .roomMembers hts

theorem membershipPeriods (h : Db.Writes ts s t) (hts : .membershipPeriods ∉ ts) :
    t.membershipPeriods = s.membershipPeriods := h .membershipPeriods hts

theorem roomTestGrants (h : Db.Writes ts s t) (hts : .roomTestGrants ∉ ts) :
    t.roomTestGrants = s.roomTestGrants := h .roomTestGrants hts

theorem adminCapabilities (h : Db.Writes ts s t) (hts : .adminCapabilities ∉ ts) :
    t.adminCapabilities = s.adminCapabilities := h .adminCapabilities hts

theorem defaultRoomBindings (h : Db.Writes ts s t) (hts : .defaultRoomBindings ∉ ts) :
    t.defaultRoomBindings = s.defaultRoomBindings := h .defaultRoomBindings hts

theorem messageStreams (h : Db.Writes ts s t) (hts : .messageStreams ∉ ts) :
    t.messageStreams = s.messageStreams := h .messageStreams hts

theorem streamGrants (h : Db.Writes ts s t) (hts : .streamGrants ∉ ts) :
    t.streamGrants = s.streamGrants := h .streamGrants hts

theorem streamPairs (h : Db.Writes ts s t) (hts : .streamPairs ∉ ts) :
    t.streamPairs = s.streamPairs := h .streamPairs hts

theorem messages (h : Db.Writes ts s t) (hts : .messages ∉ ts) :
    t.messages = s.messages := h .messages hts

theorem messagePublications (h : Db.Writes ts s t) (hts : .messagePublications ∉ ts) :
    t.messagePublications = s.messagePublications := h .messagePublications hts

theorem commandReceipts (h : Db.Writes ts s t) (hts : .commandReceipts ∉ ts) :
    t.commandReceipts = s.commandReceipts := h .commandReceipts hts

theorem roomEvents (h : Db.Writes ts s t) (hts : .roomEvents ∉ ts) :
    t.roomEvents = s.roomEvents := h .roomEvents hts

end Db.Writes

/-! ## Rooms -/

namespace RoomStateRepository

theorem insertRoom_writes {s t : Db} {id : Uuid} {name : String} {mode : RoomMode}
    (h : insertRoom s id name mode = .ok t) : Db.Writes [.rooms] s t := by
  simp only [insertRoom, bind_ok, require_ok, pure_ok] at h
  obtain ⟨rooms, -, rfl⟩ := h
  intro n hn
  cases n <;> first | rfl | simp at hn

theorem insertCounter_writes {s t : Db} {roomId : Uuid} (h : insertCounter s roomId = .ok t) :
    Db.Writes [.roomCounters] s t := by
  simp only [insertCounter, bind_ok, require_ok, pure_ok] at h
  obtain ⟨counters, -, rfl⟩ := h
  intro n hn
  cases n <;> first | rfl | simp at hn

theorem insertSharedStream_writes {s t : Db} {id roomId : Uuid} {kind : StreamKind}
    (h : insertSharedStream s id roomId kind = .ok t) : Db.Writes [.messageStreams] s t := by
  simp only [insertSharedStream, bind_ok, require_ok, pure_ok] at h
  obtain ⟨streams, -, rfl⟩ := h
  intro n hn
  cases n <;> first | rfl | simp at hn

theorem insertMember_writes {s t : Db} {id roomId userId : Uuid} {role : MemberRole}
    (h : insertMember s id roomId userId role = .ok t) : Db.Writes [.roomMembers] s t := by
  simp only [insertMember, bind_ok, require_ok, pure_ok] at h
  obtain ⟨-, -, members, -, rfl⟩ := h
  intro n hn
  cases n <;> first | rfl | simp at hn

theorem insertPeriod_writes {s t : Db} {id roomId memberId : Uuid} {version boundary : Nat}
    {history : HistoryPolicy} (h : insertPeriod s id roomId memberId version history boundary = .ok t) :
    Db.Writes [.membershipPeriods] s t := by
  simp only [insertPeriod, bind_ok, require_ok, pure_ok] at h
  obtain ⟨periods, -, rfl⟩ := h
  intro n hn
  cases n <;> first | rfl | simp at hn

theorem advanceOrder_writes (s : Db) (order : Nat) (roomId : Uuid) :
    Db.Writes [.roomCounters] s (advanceOrder s order roomId) := by
  intro n hn
  cases n <;> first | rfl | simp at hn

theorem activate_writes (s : Db) (periodId memberId : Uuid) :
    Db.Writes [.roomMembers] s (activate s periodId memberId) := by
  intro n hn
  cases n <;> first | rfl | simp at hn

theorem advanceMembership_writes (s : Db) (userId : Uuid) :
    Db.Writes [.users] s (advanceMembership s userId) := by
  intro n hn
  cases n <;> first | rfl | simp at hn

end RoomStateRepository

namespace RoomStateService

open RoomStateRepository

theorem createRoom_writes {s t : Db} {streamId id : Uuid} {name : String} {mode : RoomMode}
    (h : createRoom s streamId name mode id = .ok t) :
    Db.Writes [.rooms, .roomCounters, .messageStreams] s t := by
  simp only [createRoom, bind_ok] at h
  obtain ⟨a, ha, b, hb, ht⟩ := h
  exact ((insertRoom_writes ha).mono (by simp)).trans
    (((insertCounter_writes hb).mono (by simp)).trans
      ((insertSharedStream_writes ht).mono (by simp)))

/-- What `nextOrder` read and wrote. -/
theorem nextOrder_ok {s t : Db} {roomId : Uuid} {order : Nat}
    (h : nextOrder s roomId = .ok (t, order)) :
    (∃ r ∈ s.rooms, r.id = roomId ∧ r.status = .active) ∧
      ∃ c ∈ s.roomCounters, c.roomId = roomId ∧ order = c.lastOrder + 1 ∧
        t = advanceOrder s order roomId := by
  simp only [nextOrder, lockRoom, bind_ok, require_ok, ensure_ok, pure_ok] at h
  obtain ⟨r, ⟨r', hr, -, hactive, rfl⟩, c, hc, heq⟩ := h
  cases heq
  have hroom := Table.holds_of_find? hr
  have hcounter := Table.holds_of_find? hc
  exact ⟨⟨r', Table.mem_of_find? hr, hroom, hactive⟩, c, Table.mem_of_find? hc, hcounter, rfl, rfl⟩

theorem nextOrder_writes {s t : Db} {roomId : Uuid} {order : Nat}
    (h : nextOrder s roomId = .ok (t, order)) : Db.Writes [.roomCounters] s t := by
  obtain ⟨-, c, -, -, -, rfl⟩ := nextOrder_ok h
  exact advanceOrder_writes s order roomId

theorem openPeriod_writes {s t : Db} {periodId memberId userId : Uuid} {room : Room}
    (h : openPeriod s periodId room memberId userId = .ok t) :
    Db.Writes [.roomCounters, .membershipPeriods, .roomMembers, .users] s t := by
  simp only [openPeriod, bind_ok, pure_ok] at h
  obtain ⟨⟨a, order⟩, ha, b, hb, rfl⟩ := h
  exact ((nextOrder_writes ha).mono (by simp)).trans
    (((insertPeriod_writes hb).mono (by simp)).trans
      (((activate_writes b periodId memberId).mono (by simp)).trans
        ((advanceMembership_writes _ userId).mono (by simp))))

theorem joinRoom_writes {s t : Db} {ids : Nat → Uuid} {roomId userId actorId : Uuid}
    (h : joinRoom s ids roomId userId = .ok (t, actorId)) :
    Db.Writes [.roomMembers, .roomCounters, .membershipPeriods, .users] s t := by
  simp only [joinRoom, bind_ok, ensure_ok] at h
  obtain ⟨room, -, -, -, hrest⟩ := h
  split at hrest
  · simp only [bind_ok, ensure_ok] at hrest
    obtain ⟨-, -, hrest⟩ := hrest
    split at hrest
    · cases hrest
      exact Writes.refl _
    · simp only [bind_ok, pure_ok] at hrest
      obtain ⟨b, hb, heq⟩ := hrest
      cases heq
      exact (openPeriod_writes hb).mono (by simp)
  · simp only [bind_ok, pure_ok] at hrest
    obtain ⟨a, ha, b, hb, heq⟩ := hrest
    cases heq
    exact ((insertMember_writes ha).mono (by simp)).trans ((openPeriod_writes hb).mono (by simp))

theorem createOwnedRoom_writes {s t : Db} {ids : Nat → Uuid} {name : String} {mode : RoomMode}
    {policy : HistoryPolicy} {ownerId roomId : Uuid} {result : Uuid × Uuid}
    (h : createOwnedRoom s ids name mode policy ownerId roomId = .ok (t, result)) :
    Db.Writes [.rooms, .roomCounters, .messageStreams, .roomMembers, .membershipPeriods, .users]
      s t := by
  simp only [createOwnedRoom, bind_ok, pure_ok] at h
  obtain ⟨a, ha, ⟨b, actorId⟩, hb, heq⟩ := h
  cases heq
  refine ((createRoom_writes ha).mono (by simp)).trans
    (Writes.trans ?_ (((joinRoom_writes hb).mono (by simp)).trans ?_))
  · intro n hn
    cases n <;> first | rfl | simp at hn
  · intro n hn
    cases n <;> first | rfl | simp at hn

theorem leaveRoom_writes {s t : Db} {now : Time} {roomId userId : Uuid}
    (h : leaveRoom s now roomId userId = .ok t) :
    Db.Writes [.membershipPeriods, .roomTestGrants, .roomMembers, .users] s t := by
  simp only [leaveRoom, bind_ok] at h
  obtain ⟨room, -, hrest⟩ := h
  split at hrest
  · cases hrest
    exact Writes.refl _
  · split at hrest
    · cases hrest
      exact Writes.refl _
    · simp only [bind_ok, ensure_ok, pure_ok] at hrest
      obtain ⟨-, -, rfl⟩ := hrest
      intro n hn
      cases n <;> first | rfl | simp at hn

end RoomStateService

theorem RoomsCoreService.setHistoryPolicy_ok {s t : Db} {roomId userId : Uuid}
    {policy : HistoryPolicy} {result : HistoryPolicy × Nat}
    (h : setHistoryPolicy s roomId userId policy = .ok (t, result)) :
    t = s ∨ t = RoomsRepository.changePolicy s policy roomId := by
  simp only [setHistoryPolicy, bind_ok, ensure_ok] at h
  obtain ⟨room, -, -, -, hrest⟩ := h
  split at hrest
  · cases hrest
    exact .inr rfl
  · cases hrest
    exact .inl rfl

theorem RoomsCoreService.setHistoryPolicy_writes {s t : Db} {roomId userId : Uuid}
    {policy : HistoryPolicy} {result : HistoryPolicy × Nat}
    (h : setHistoryPolicy s roomId userId policy = .ok (t, result)) : Db.Writes [.rooms] s t := by
  rcases setHistoryPolicy_ok h with rfl | rfl
  · exact Writes.refl _
  · intro n hn
    cases n <;> first | rfl | simp at hn

namespace ModerationCoreService

theorem setBlock_writes {s t : Db} {roomId actorId targetId : Uuid} {blocked changed : Bool}
    (h : ModerationRepository.setBlock s roomId actorId targetId blocked = .ok (t, changed)) :
    Db.Writes [.actorBlocks] s t := by
  unfold ModerationRepository.setBlock at h
  simp only at h
  split at h
  · cases h
    exact Writes.refl _
  · split at h
    · simp only [bind_ok, require_ok, pure_ok] at h
      obtain ⟨blocks, -, heq⟩ := h
      cases heq
      intro n hn
      cases n <;> first | rfl | simp at hn
    · cases h
      intro n hn
      cases n <;> first | rfl | simp at hn

theorem invalidate_writes (s : Db) (roomId actorId : Uuid) :
    Db.Writes [.roomMembers] s (ModerationRepository.invalidate s roomId actorId) := by
  intro n hn
  cases n <;> first | rfl | simp at hn

/-- A block either changes no member row or invalidates two of them. -/
theorem block_ok {s t : Db} {now : Time} {userId roomId actorId : Uuid} {blocked : Bool}
    (h : block s now userId roomId actorId blocked = .ok t) :
    ∃ u, Db.Writes [.actorBlocks] s u ∧ (t = u ∨ ∃ memberId,
      t = ModerationRepository.invalidate (ModerationRepository.invalidate u roomId memberId)
        roomId actorId) := by
  simp only [block, applyBlock, bind_ok, require_ok, ensure_ok, pure_ok] at h
  obtain ⟨-, -, member, -, -, -, -, -, ⟨u, changed⟩, hu, rfl⟩ := h
  refine ⟨u, setBlock_writes hu, ?_⟩
  cases changed with
  | true => exact .inr ⟨member.id, rfl⟩
  | false => exact .inl rfl

theorem block_writes {s t : Db} {now : Time} {userId roomId actorId : Uuid} {blocked : Bool}
    (h : block s now userId roomId actorId blocked = .ok t) :
    Db.Writes [.actorBlocks, .roomMembers] s t := by
  obtain ⟨u, hu, rfl | ⟨memberId, rfl⟩⟩ := block_ok h
  · exact hu.mono (by simp)
  · exact (hu.mono (by simp)).trans (((invalidate_writes u roomId memberId).mono (by simp)).trans
      ((invalidate_writes _ roomId actorId).mono (by simp)))

/-- What a ban or its lifting does, when it does anything. -/
theorem ban_ok {s t : Db} {now : Time} {userId roomId actorId : Uuid} {banned : Bool}
    (h : ban s now userId roomId actorId banned = .ok t) :
    t = s ∨ ∃ m ∈ s.roomMembers, m.roomId = roomId ∧ m.id = actorId ∧
      (m.status = .banned ↔ banned = false) ∧
      (∀ r ∈ s.rooms, r.id = roomId → r.ownerMemberId ≠ some actorId) ∧
      t = ModerationRepository.ban s now roomId actorId m.activePeriodId banned := by
  simp only [ban, lockRoom, RoomStateService.lockRoom, bind_ok, mapError_ok, require_ok,
    ensure_ok, pure_ok] at h
  obtain ⟨room, ⟨r, hr, -, -, rfl⟩, viewer, -, -, -, -, ⟨-, howner⟩, target, htarget, hrest⟩ := h
  split at hrest
  · rename_i hchange
    cases hrest
    right
    simp only [ModerationRepository.target, Option.bind_eq_bind, Option.bind_eq_some_iff,
      Option.pure_def, Option.some.injEq] at htarget
    obtain ⟨m, hm, u, -, rfl⟩ := htarget
    have hmem := Table.holds_of_find? hm
    have hroom := Table.holds_of_find? hr
    refine ⟨m, Table.mem_of_find? hm, hmem.1, hmem.2, ?_, ?_, rfl⟩
    · cases banned <;> simpa using hchange
    · intro r' hr' hid
      have : r' = r := Table.eq_of_key hr' (Table.mem_of_find? hr) (k := (0, [r'.id]))
        (List.mem_singleton.mpr rfl) (List.mem_singleton.mpr (by rw [hid, hroom]))
      rw [this]
      exact howner
  · cases hrest
    exact .inl rfl

theorem ban_writes {s t : Db} {now : Time} {userId roomId actorId : Uuid} {banned : Bool}
    (h : ban s now userId roomId actorId banned = .ok t) :
    Db.Writes [.roomTestGrants, .membershipPeriods, .streamGrants, .roomMembers, .users] s t := by
  rcases ban_ok h with rfl | ⟨m, -, -, -, -, -, rfl⟩
  · exact Writes.refl _
  · intro n hn
    cases banned <;> cases n <;> first | rfl | simp at hn

end ModerationCoreService

/-! ## The default room -/

namespace DefaultRoomRepository

theorem claim_writes {s t : Db} {roomId : Uuid} {binding : DefaultRoomBinding} {created : Bool}
    (h : claim s roomId = .ok (t, binding, created)) : Db.Writes [.defaultRoomBindings] s t := by
  unfold claim at h
  split at h
  · cases h
    intro n hn
    cases n <;> first | rfl | simp at hn
  · simp only [bind_ok, require_ok, pure_ok] at h
    obtain ⟨row, -, heq⟩ := h
    cases heq
    exact Writes.refl _

theorem bindSpec_writes (s : Db) (subject : Nat) :
    Db.Writes [.defaultRoomBindings] s (bindSpec s subject) := by
  intro n hn
  cases n <;> first | rfl | simp at hn

theorem activate_writes {s t : Db} {roomId userId : Uuid} (h : activate s roomId userId = .ok t) :
    Db.Writes [.creatorAccounts, .rooms] s t := by
  simp only [activate, bind_ok, pure_ok] at h
  obtain ⟨accounts, -, rfl⟩ := h
  intro n hn
  cases n <;> first | rfl | simp at hn

theorem bindInboxes_writes {s t : Db} {now : Time} {ids : Nat → Uuid} {roomId actorId : Uuid}
    {pending : List StreamGrant} (h : bindInboxes s now ids roomId actorId pending = .ok t) :
    Db.Writes [.streamPairs, .streamGrants, .roomMembers] s t := by
  simp only [bindInboxes, bind_ok, require_ok, pure_ok] at h
  obtain ⟨pairs, -, grants, -, rfl⟩ := h
  intro n hn
  cases n <;> first | rfl | simp at hn

theorem bindOwner_writes (s : Db) (roomId actorId : Uuid) :
    Db.Writes [.membershipPeriods, .roomMembers, .rooms, .defaultRoomBindings] s
      (bindOwner s roomId actorId) := by
  intro n hn
  cases n <;> first | rfl | simp at hn

/-- What `finish` did: the inboxes are bound, and then the owner. -/
theorem finish_ok {s t : Db} {now : Time} {ids : Nat → Uuid} {roomId actorId : Uuid}
    (h : finish s now ids roomId actorId = .ok t) :
    ∃ u, bindInboxes s now ids roomId actorId
        ((inboxes s roomId).filter fun row => row.memberId ≠ actorId) = .ok u ∧
      t = bindOwner u roomId actorId := by
  simp only [finish, bind_ok, pure_ok] at h
  obtain ⟨-, -, u, hu, rfl⟩ := h
  exact ⟨u, hu, rfl⟩

theorem finish_writes {s t : Db} {now : Time} {ids : Nat → Uuid} {roomId actorId : Uuid}
    (h : finish s now ids roomId actorId = .ok t) :
    Db.Writes [.streamPairs, .streamGrants, .membershipPeriods, .roomMembers, .rooms,
      .defaultRoomBindings] s t := by
  obtain ⟨u, hu, rfl⟩ := finish_ok h
  exact ((bindInboxes_writes hu).mono (by simp)).trans
    ((bindOwner_writes u roomId actorId).mono (by simp))

end DefaultRoomRepository

namespace DefaultRoomService

open DefaultRoomRepository

/-- What a provisioning that found its owner did after it named the owner. -/
theorem provisionOwner_ok {s t : Db} {now : Time} {ids : Nat → Uuid} {roomId : Uuid}
    {guarded : Bool} {subject : Nat} {state : State}
    (h : provisionOwner s now ids roomId guarded subject = .ok (t, state)) :
    t = bindSpec s subject ∨ ∃ ownerId a b actor,
      activate (bindSpec s subject) roomId ownerId = .ok a ∧
      RoomStateService.joinRoom a ids roomId ownerId = .ok (b, actor) ∧
      finish b now (fun i => ids (i + 3)) roomId actor = .ok t := by
  simp only [provisionOwner, bind_ok] at h
  obtain ⟨-, -, h⟩ := h
  split at h
  · cases h
    exact .inl rfl
  · simp only [bind_ok, pure_ok] at h
    obtain ⟨a, ha, ⟨b, actor⟩, hb, c, hc, heq⟩ := h
    cases heq
    exact .inr ⟨_, a, b, actor, ha, hb, hc⟩

theorem openCatalog_ok {s t : Db} {streamId : Uuid} {binding : DefaultRoomBinding} {created : Bool}
    (h : openCatalog s streamId binding created = .ok t) :
    (t = s ∨ RoomStateService.createRoom s streamId "후로기" .fan binding.roomId = .ok t) ∧
      ∃ r ∈ t.rooms, r.id = binding.roomId ∧ r.mode = .fan ∧ r.ownerMemberId = none := by
  simp only [openCatalog, existingOrNew, bind_ok, require_ok, ensure_ok, pure_ok] at h
  obtain ⟨a, ha, room, hroom, -, ⟨-, hmode, -, howner⟩, rfl⟩ := h
  have hid := Table.holds_of_find? hroom
  refine ⟨?_, room, Table.mem_of_find? hroom, hid, hmode, howner⟩
  split at ha
  · simp only [bind_ok, pure_ok] at ha
    obtain ⟨-, -, rfl⟩ := ha
    exact .inl rfl
  · exact .inr ha

/-- The parts of a provisioning: the binding, then the room, then the owner. -/
theorem provision_ok {s t : Db} {now : Time} {ids : Nat → Uuid} {config : DefaultRoomConfig}
    {guarded catalogOnly : Bool} {state : State}
    (h : provision s now ids config guarded catalogOnly = .ok (t, state)) :
    ∃ a binding created, claim s (config.roomId.getD DEFAULT_ROOM_ID) = .ok (a, binding, created) ∧
      (t = a ∨ binding.ownerBound = false ∧ ∃ b,
        openCatalog a (ids 2) binding created = .ok b ∧ (t = b ∨ ∃ subject,
          provisionOwner b now ids binding.roomId guarded subject = .ok (t, state))) := by
  simp only [provision, bind_ok] at h
  obtain ⟨⟨a, binding, created⟩, ha, -, -, -, -, -, -, h⟩ := h
  refine ⟨a, binding, created, ha, ?_⟩
  split at h
  · cases h
    exact .inl rfl
  · rename_i hbound
    simp only [bind_ok] at h
    obtain ⟨b, hb, h⟩ := h
    refine .inr ⟨by simpa using hbound, b, hb, ?_⟩
    split at h
    · cases h
      exact .inl rfl
    · split at h
      · cases h
        exact .inl rfl
      · exact .inr ⟨_, h⟩

theorem openCatalog_writes {s t : Db} {streamId : Uuid} {binding : DefaultRoomBinding}
    {created : Bool} (h : openCatalog s streamId binding created = .ok t) :
    Db.Writes [.rooms, .roomCounters, .messageStreams] s t := by
  rcases (openCatalog_ok h).1 with rfl | h
  · exact Writes.refl _
  · exact RoomStateService.createRoom_writes h

theorem provisionOwner_writes {s t : Db} {now : Time} {ids : Nat → Uuid} {roomId : Uuid}
    {guarded : Bool} {subject : Nat} {state : State}
    (h : provisionOwner s now ids roomId guarded subject = .ok (t, state)) :
    Db.Writes [.defaultRoomBindings, .creatorAccounts, .rooms, .roomMembers, .roomCounters,
      .membershipPeriods, .users, .streamPairs, .streamGrants] s t := by
  have hspec := bindSpec_writes s subject
  rcases provisionOwner_ok h with rfl | ⟨ownerId, a, b, actor, ha, hb, ht⟩
  · exact hspec.mono (by simp)
  · exact (hspec.mono (by simp)).trans (((activate_writes ha).mono (by simp)).trans
      (((RoomStateService.joinRoom_writes hb).mono (by simp)).trans
        ((finish_writes ht).mono (by simp))))

theorem provision_writes {s t : Db} {now : Time} {ids : Nat → Uuid} {config : DefaultRoomConfig}
    {guarded catalogOnly : Bool} {state : State}
    (h : provision s now ids config guarded catalogOnly = .ok (t, state)) :
    Db.Writes [.defaultRoomBindings, .creatorAccounts, .rooms, .roomMembers, .roomCounters,
      .membershipPeriods, .users, .messageStreams, .streamPairs, .streamGrants] s t := by
  obtain ⟨a, binding, created, ha, rfl | ⟨-, b, hb, rfl | ⟨subject, ht⟩⟩⟩ := provision_ok h
  · exact (claim_writes ha).mono (by simp)
  · exact ((claim_writes ha).mono (by simp)).trans ((openCatalog_writes hb).mono (by simp))
  · exact ((claim_writes ha).mono (by simp)).trans (((openCatalog_writes hb).mono (by simp)).trans
      ((provisionOwner_writes ht).mono (by simp)))

end DefaultRoomService

/-! ## Messages -/

namespace MessagesRepository

theorem createPair_writes {s t : Db} {now : Time} {ids : Nat → Uuid}
    {roomId streamId left right : Uuid} {delegated : Option Uuid}
    (h : createPair s now ids roomId streamId left right delegated = .ok t) :
    Db.Writes [.messageStreams, .streamPairs, .streamGrants, .roomMembers] s t := by
  simp only [createPair, bind_ok, require_ok, pure_ok] at h
  obtain ⟨streams, -, pairs, -, grants, -, rfl⟩ := h
  intro n hn
  cases n <;> first | rfl | simp at hn

theorem pendingInbox_writes {s t : Db} {now : Time} {ids : Nat → Uuid} {roomId actorId streamId : Uuid}
    (h : pendingInbox s now ids roomId actorId = .ok (t, streamId)) :
    Db.Writes [.messageStreams, .streamGrants, .roomMembers] s t := by
  unfold pendingInbox at h
  split at h
  · simp only [bind_ok, require_ok, pure_ok] at h
    obtain ⟨streams, -, grants, -, heq⟩ := h
    cases heq
    intro n hn
    cases n <;> first | rfl | simp at hn
  · cases h
    exact Writes.refl _
  · cases h

theorem insertMessage_ok {s t : Db} {ids : Nat → Uuid} {m : Message} {content : SendContent}
    (h : insertMessage s ids m content = .ok t) :
    s.messages.insert m = some t.messages ∧ Db.Writes [.messages, .messageAttachments] s t := by
  simp only [insertMessage, insertAttachments, bind_ok, require_ok, pure_ok] at h
  obtain ⟨messages, hm, attachments, -, rfl⟩ := h
  refine ⟨hm, ?_⟩
  intro n hn
  cases n <;> first | rfl | simp at hn

theorem insertReceipt_ok {s t : Db} {id roomId actorId clientMessageId messageId : Uuid}
    {payload : Payload}
    (h : insertReceipt s id roomId actorId clientMessageId messageId payload = .ok t) :
    s.commandReceipts.insert
        { id := id, roomId := roomId, actorId := actorId, clientMessageId := clientMessageId,
          messageId := messageId, payloadDigest := some payload } = some t.commandReceipts ∧
      Db.Writes [.commandReceipts] s t := by
  simp only [insertReceipt, bind_ok, require_ok, pure_ok] at h
  obtain ⟨receipts, hr, rfl⟩ := h
  refine ⟨hr, ?_⟩
  intro n hn
  cases n <;> first | rfl | simp at hn

theorem event_ok {s t : Db} {id roomId streamId messageId : Uuid} {version order : Nat}
    {kind : EventKind} (h : event s id roomId streamId messageId version order kind = .ok t) :
    s.roomEvents.insert
        { id := id, roomId := roomId, streamId := streamId, messageId := messageId,
          messageVersion := version, eventOrder := order, kind := kind } = some t.roomEvents ∧
      Db.Writes [.roomEvents] s t := by
  simp only [event, bind_ok, require_ok, pure_ok] at h
  obtain ⟨events, he, rfl⟩ := h
  refine ⟨he, ?_⟩
  intro n hn
  cases n <;> first | rfl | simp at hn

theorem nextDeletionOrder_ok {s t : Db} {roomId : Uuid} {order : Nat}
    (h : nextDeletionOrder s roomId = .ok (t, order)) :
    ∃ c ∈ s.roomCounters, c.roomId = roomId ∧ order = c.lastOrder + 1 ∧
      t = RoomStateRepository.advanceOrder s order roomId := by
  simp only [nextDeletionOrder, bind_ok, require_ok, pure_ok] at h
  obtain ⟨c, hc, heq⟩ := h
  cases heq
  have hcounter := Table.holds_of_find? hc
  exact ⟨c, Table.mem_of_find? hc, hcounter, rfl, rfl⟩

theorem blockMessageAndCopies_writes {s t : Db} {now : Time} {request : DeletionRequest}
    {existing : Bool} (h : blockMessageAndCopies s now request existing = .ok t) :
    Db.Writes [.deletionRequests, .messages, .commandReceipts, .messagePublications] s t := by
  simp only [blockMessageAndCopies, bind_ok, pure_ok] at h
  obtain ⟨requests, -, rfl⟩ := h
  intro n hn
  cases n <;> first | rfl | simp at hn

theorem blockAsset_writes (s : Db) (now : Time) (assetId : Uuid) :
    Db.Writes [.mediaAssets] s (blockAsset s now assetId) := by
  intro n hn
  cases n <;> first | rfl | simp at hn

end MessagesRepository

namespace MessagesCoreService

open MessagesRepository

theorem pairStream_writes {s t : Db} {now : Time} {ids : Nat → Uuid} {viewer : ActiveMember}
    {target : TargetRow} {streamId : Uuid}
    (h : pairStream s now ids viewer target = .ok (t, streamId)) :
    Db.Writes [.messageStreams, .streamPairs, .streamGrants, .roomMembers] s t := by
  unfold pairStream at h
  simp only at h
  split at h
  · cases h
    exact Writes.refl _
  · simp only [bind_ok, pure_ok] at h
    obtain ⟨a, ha, heq⟩ := h
    cases heq
    exact createPair_writes ha

/-- A private send found its target, and the stream it may use. -/
theorem privateStream_ok {s t : Db} {now : Time} {ids : Nat → Uuid} {viewer : ActiveMember}
    {recipient : Option Uuid} {streamId : Uuid}
    (h : privateStream s now ids viewer recipient = .ok (t, streamId)) :
    ∃ actorId tgt, recipient = some actorId ∧ actorId ≠ viewer.id ∧
      target s now viewer.roomId actorId = some tgt ∧ FanPair viewer tgt ∧
      AccessService.actorBlocked s viewer.roomId viewer.id tgt.id true = false ∧
      pairStream s now ids viewer tgt = .ok (t, streamId) ∧
      SendAdmitted viewer tgt (sendGrants t now viewer.roomId streamId
        (min viewer.id tgt.id) (max viewer.id tgt.id)) := by
  simp only [privateStream, bind_ok, require_ok, ensure_ok, pure_ok, Option.bind_eq_some_iff] at h
  obtain ⟨-, hself, tgt, ⟨actorId, rfl, htgt⟩, -, hpair, -, hblocked, ⟨u, sid⟩, hu, -, hadm, heq⟩ := h
  cases heq
  exact ⟨actorId, tgt, rfl, fun he => hself (by rw [he]), htgt, hpair, hblocked, hu, hadm⟩

/-- A send writes into the room's one shared stream, or into a private one. -/
theorem sendStream_ok {s t : Db} {now : Time} {ids : Nat → Uuid} {viewer : ActiveMember}
    {intent : Intent} {recipient : Option Uuid} {streamId : Uuid}
    (h : sendStream s now ids viewer intent recipient = .ok (t, streamId)) :
    (intent = .shared ∧ t = s ∧ ∃ stream, sharedStreams s viewer.roomId = [stream] ∧
      streamId = stream.id) ∨
      intent ≠ .shared ∧ privateStream s now ids viewer recipient = .ok (t, streamId) := by
  unfold sendStream at h
  split at h
  · rename_i hshared
    split at h
    · rename_i stream hs
      cases h
      exact .inl ⟨hshared, rfl, stream, hs, rfl⟩
    · cases h
  · rename_i hshared
    exact .inr ⟨hshared, h⟩

/-- The pending inbox a send found or made. -/
theorem inboxStream_ok {s t : Db} {now : Time} {ids : Nat → Uuid} {room : Room} {awaiting : Bool}
    {viewer : ActiveMember} {streamId : Uuid}
    (h : inboxStream s now ids room awaiting viewer = .ok (t, streamId)) :
    awaiting = true ∧ pendingInbox s now ids room.id viewer.id = .ok (t, streamId) ∧
      (sendGrants t now room.id streamId viewer.id viewer.id).length = 1 ∧
      ∀ g ∈ sendGrants t now room.id streamId viewer.id viewer.id,
        g.canRead = true ∧ g.canSend = true := by
  simp only [inboxStream, bind_ok, ensure_ok, pure_ok] at h
  obtain ⟨-, hawait, ⟨u, sid⟩, hu, -, ⟨hlen, hall⟩, heq⟩ := h
  cases heq
  exact ⟨hawait, hu, hlen, hall⟩

/-- The ways a new message finds its stream. -/
theorem resolveStream_ok {s t : Db} {now : Time} {ids : Nat → Uuid} {room : Room}
    {owner : Option RoomSendOwner} {awaiting : Bool} {viewer : ActiveMember} {intent : Intent}
    {recipient : Option Uuid} {streamId : Uuid}
    (h : resolveStream s now ids room owner awaiting viewer intent recipient = .ok (t, streamId)) :
    (intent = .roomOwner ∧ viewer.mode = .fan ∧ viewer.role = .fan ∧ room.ownerMemberId = none ∧
      inboxStream s now ids room awaiting viewer = .ok (t, streamId)) ∨
    (∃ intent' recipient', (intent' = .shared ↔ intent = .shared) ∧
      (intent = .private_ → recipient' = recipient) ∧
      sendStream s now ids viewer intent' recipient' = .ok (t, streamId)) := by
  unfold resolveStream at h
  split at h
  · rename_i hinbox
    exact .inl ⟨hinbox.1, hinbox.2.1, hinbox.2.2.1, hinbox.2.2.2, h⟩
  · simp only [bind_ok, ensure_ok] at h
    obtain ⟨-, -, -, -, -, -, h⟩ := h
    right
    split at h
    · rename_i howner
      exact ⟨.private_, room.ownerMemberId, by simp [howner], by simp [howner], h⟩
    · exact ⟨intent, recipient, Iff.rfl, fun _ => rfl, h⟩

theorem resolveStream_writes {s t : Db} {now : Time} {ids : Nat → Uuid} {room : Room}
    {owner : Option RoomSendOwner} {awaiting : Bool} {viewer : ActiveMember} {intent : Intent}
    {recipient : Option Uuid} {streamId : Uuid}
    (h : resolveStream s now ids room owner awaiting viewer intent recipient = .ok (t, streamId)) :
    Db.Writes [.messageStreams, .streamPairs, .streamGrants, .roomMembers] s t := by
  rcases resolveStream_ok h with ⟨-, -, -, -, h⟩ | ⟨intent', recipient', -, -, h⟩
  · exact (pendingInbox_writes (inboxStream_ok h).2.1).mono (by simp)
  · rcases sendStream_ok h with ⟨-, rfl, -⟩ | ⟨-, h⟩
    · exact Writes.refl _
    · obtain ⟨-, tgt, -, -, -, -, -, h, -⟩ := privateStream_ok h
      exact pairStream_writes h

theorem attachSticker_writes {s t : Db} {roomId messageId : Uuid} {content : SendContent}
    (h : attachSticker s roomId messageId content = .ok t) : Db.Writes [.messageStickers] s t := by
  unfold attachSticker at h
  split at h
  · simp only [bind_ok, require_ok, pure_ok] at h
    obtain ⟨stickers, -, rfl⟩ := h
    intro n hn
    cases n <;> first | rfl | simp at hn
  all_goals
    cases h
    exact Writes.refl _

/-- The steps of `create`, each with the rows it wrote. -/
theorem create_ok {s t : Db} {now : Time} {ids : Nat → Uuid} {roomId userId : Uuid}
    {viewer : ActiveMember} {input : SendInput} {streamId : Uuid} {reply : SendReceipt}
    (h : create s now ids roomId userId viewer input streamId = .ok (t, reply)) :
    ∃ a b c d order, RoomStateService.nextOrder s roomId = .ok (a, order) ∧
      insertMessage a ids (newMessage now (ids 4) roomId streamId viewer.id userId input.quoteId
        input.content order) input.content = .ok b ∧
      attachSticker b roomId (ids 4) input.content = .ok c ∧
      insertReceipt c (ids 5) roomId viewer.id input.clientMessageId (ids 4) input.payload = .ok d ∧
      event d (ids 6) roomId streamId (ids 4) 1 order .messageCreated = .ok t ∧
      reply = .committed input.clientMessageId (ids 4) 1 := by
  simp only [create, recordEvent, bind_ok, pure_ok] at h
  obtain ⟨⟨a, order⟩, ha, -, -, b, hb, c, hc, d, hd, e, he, heq⟩ := h
  cases heq
  exact ⟨a, b, c, d, order, ha, hb, hc, hd, he, rfl⟩

theorem create_writes {s t : Db} {now : Time} {ids : Nat → Uuid} {roomId userId : Uuid}
    {viewer : ActiveMember} {input : SendInput} {streamId : Uuid} {reply : SendReceipt}
    (h : create s now ids roomId userId viewer input streamId = .ok (t, reply)) :
    Db.Writes [.roomCounters, .messages, .messageAttachments, .messageStickers, .commandReceipts,
      .roomEvents] s t := by
  obtain ⟨a, b, c, d, order, ha, hb, hc, hd, he, -⟩ := create_ok h
  exact ((RoomStateService.nextOrder_writes ha).mono (by simp)).trans
    (((insertMessage_ok hb).2.mono (by simp)).trans
    (((attachSticker_writes hc).mono (by simp)).trans
      (((insertReceipt_ok hd).2.mono (by simp)).trans ((event_ok he).2.mono (by simp)))))

/-- The rows a send found before it looked for its receipt. -/
structure Admitted (s : Db) (now : Time) (roomId userId : Uuid) (input : SendInput)
    (admission : Admission) : Prop where
  room : room s roomId = some admission.room
  roomActive : admission.room.status = .active
  member : MessagesRepository.member s roomId userId = some admission.member
  viewer : MembershipRepository.findActive s true now roomId userId = some admission.viewer
  scope : input.membershipScope = membershipScope userId roomId admission.viewer.activePeriodId

theorem admit_ok {s : Db} {now : Time} {roomId userId : Uuid} {input : SendInput}
    {admission : Admission} :
    admitSend s now roomId userId input = .ok admission ↔
      Admitted s now roomId userId input admission := by
  simp only [admitSend, AccessService.requireActiveMember, bind_ok, require_ok, ensure_ok, pure_ok]
  constructor
  · rintro ⟨room, hroom, member, hmember, -, hactive, viewer, hviewer, -, hscope, rfl⟩
    exact ⟨hroom, hactive, hmember, hviewer, hscope⟩
  · rintro ⟨hroom, hactive, hmember, hviewer, hscope⟩
    exact ⟨_, hroom, _, hmember, (), hactive, _, hviewer, (), hscope, rfl⟩

/-- A send is a replay of its receipt, which changes nothing, or a new message. -/
theorem send_ok {s t : Db} {now : Time} {ids : Nat → Uuid} {roomId userId : Uuid}
    {input : SendInput} {reply : SendReceipt}
    (h : send s now ids roomId userId input = .ok (t, reply)) :
    ∃ admission, Admitted s now roomId userId input admission ∧
      ((∃ r, receipt s roomId admission.member.id input.clientMessageId = some r ∧ t = s ∧
          replay s now roomId admission.viewer input r = .ok reply) ∨
        receipt s roomId admission.member.id input.clientMessageId = none ∧
          sendNew s now ids admission.room userId (MembershipRepository.lockRoomSendOwner s roomId)
            (decide (input.intent = .roomOwner ∨ input.intent = .shared) && pendingOwner s roomId)
            admission.viewer input = .ok (t, reply)) := by
  simp only [send, bind_ok] at h
  obtain ⟨admission, hadmit, h⟩ := h
  refine ⟨admission, admit_ok.mp hadmit, ?_⟩
  split at h
  · rename_i r hr
    simp only [bind_ok, pure_ok] at h
    obtain ⟨reply', hreply, heq⟩ := h
    cases heq
    exact .inl ⟨r, hr, rfl, hreply⟩
  · rename_i hr
    exact .inr ⟨hr, h⟩

theorem sendNew_ok {s t : Db} {now : Time} {ids : Nat → Uuid} {room : Room} {userId : Uuid}
    {owner : Option RoomSendOwner} {awaiting : Bool} {viewer : ActiveMember} {input : SendInput}
    {reply : SendReceipt}
    (h : sendNew s now ids room userId owner awaiting viewer input = .ok (t, reply)) :
    ∃ u streamId, resolveStream s now ids room owner awaiting viewer
        (effectiveIntent viewer input.intent) input.recipientActorId = .ok (u, streamId) ∧
      create u now ids room.id userId viewer input streamId = .ok (t, reply) := by
  simp only [sendNew, bind_ok] at h
  obtain ⟨⟨u, streamId⟩, hu, -, -, ht⟩ := h
  exact ⟨u, streamId, hu, ht⟩

theorem send_writes {s t : Db} {now : Time} {ids : Nat → Uuid} {roomId userId : Uuid}
    {input : SendInput} {reply : SendReceipt}
    (h : send s now ids roomId userId input = .ok (t, reply)) :
    Db.Writes [.messageStreams, .streamPairs, .streamGrants, .roomMembers, .roomCounters,
      .messages, .messageAttachments, .messageStickers, .commandReceipts, .roomEvents] s t := by
  obtain ⟨admission, -, ⟨r, -, rfl, -⟩ | ⟨-, h⟩⟩ := send_ok h
  · exact Writes.refl _
  · obtain ⟨u, streamId, hu, ht⟩ := sendNew_ok h
    exact ((resolveStream_writes hu).mono (by simp)).trans ((create_writes ht).mono (by simp))

end MessagesCoreService

end Rogichat
