import Rogichat.Chat.Audience

/-!
# Messages and their senders

Every message names a sender that is a member of its room: a message is written for a member
found active in the room, and no member row ever leaves its room.

* **`Attributed`** — what a command does to members and messages, as far as that goes.
* **`reachable_resident`** — the sender of a message belongs to its room.
-/

namespace Rogichat

open Lib

/-- The member belongs to the room. -/
def Resident (db : Db) (memberId roomId : Uuid) : Prop :=
  ∃ x, db.seat memberId = some x ∧ x.roomId = roomId

theorem Resident.congr {s t : Db} (hseat : ∀ id, t.seat id = s.seat id) {id roomId : Uuid}
    (h : Resident s id roomId) : Resident t id roomId := by
  unfold Resident
  rw [hseat]
  exact h

theorem Resident.of_active {db : Db} {w : Bool} {now : Time} {roomId userId : Uuid}
    {v : ActiveMember} (hv : MembershipRepository.findActive db w now roomId userId = some v) :
    Resident db v.id roomId := by
  obtain ⟨m, r, p, hrow, hid, -⟩ := MembershipRepository.findActive_role hv
  rw [hid]
  exact ⟨m.seat, Db.seat_of_mem hrow.member, hrow.memberRoom⟩

/-- From `s` to `t` no member left its room, and a new message was sent by one of its room. -/
structure Attributed (s t : Db) : Prop where
  resident : ∀ id roomId, Resident s id roomId → Resident t id roomId
  message : ∀ n ∈ t.messages, (∃ m ∈ s.messages, m.Later n) ∨ Resident t n.senderMemberId n.roomId

namespace Attributed

theorem trans {s t u : Db} (h : Attributed s t) (h' : Attributed t u) : Attributed s u where
  resident id roomId hid := h'.resident id roomId (h.resident id roomId hid)
  message := by
    intro o ho
    rcases h'.message o ho with ⟨n, hn, hlater⟩ | hsent
    · rcases h.message n hn with ⟨m, hm, hlater'⟩ | hsent
      · exact .inl ⟨m, hm, hlater'.trans hlater⟩
      · right
        rw [hlater.sender, hlater.roomId]
        exact h'.resident _ _ hsent
    · exact .inr hsent

/-- Members where they are, and messages at most changed. -/
theorem aged {s t : Db} (hseat : ∀ id, t.seat id = s.seat id) (h : Aged s.messages t.messages) :
    Attributed s t where
  resident _ _ hid := hid.congr hseat
  message n hn := .inl (h n hn)

theorem refl (s : Db) : Attributed s s := aged (fun _ => rfl) (.refl _)

theorem frame {ts : List TableName} {s t : Db} (h : Db.Writes ts s t)
    (hmembers : .roomMembers ∉ ts) (hmessages : .messages ∉ ts) : Attributed s t :=
  aged (Db.seat_congr (h.roomMembers hmembers)) (.of_eq (h.messages hmessages))

/-- Messages left alone. -/
theorem moved {s t : Db} (hmessages : t.messages = s.messages)
    (hresident : ∀ id roomId, Resident s id roomId → Resident t id roomId) : Attributed s t :=
  ⟨hresident, fun n hn => .inl ⟨n, hmessages ▸ hn, .refl n⟩⟩

end Attributed

/-! ## Members stay in their room -/

theorem Effect.seat {s t : Db} (h : Effect s t) {id : Uuid} {x : Seat} (hx : s.seat id = some x) :
    ∃ y, t.seat id = some y := by
  cases h with
  | settled hst => exact ⟨x, (hst.seat id).trans hx⟩
  | closed memberId a y hst =>
    rw [hst.seat]
    split
    · exact ⟨y, rfl⟩
    · exact ⟨x, hx⟩
  | joined a b p hseat hperiod hopens hsettled =>
    obtain ⟨userId, hopened⟩ := hopens.seat
    rw [hsettled.seat, hopened]
    split
    · exact ⟨_, rfl⟩
    · exact ⟨x, (hseat id).trans hx⟩

/-- A level change moves nobody. -/
theorem Level.attributed {s t : Db} (h : Level s t) (heffect : Effect s t)
    (hmessages : t.messages = s.messages) : Attributed s t := by
  refine .moved hmessages fun id roomId hid => ?_
  obtain ⟨x, hx, rfl⟩ := hid
  obtain ⟨y, hy⟩ := heffect.seat hx
  refine ⟨y, hy, ?_⟩
  obtain ⟨m, hm, hmid, rfl⟩ := Db.mem_of_seat hy
  obtain ⟨n, hn, hnid, hroom, -⟩ := h.members m hm
  have hsame := Db.seat_of_mem hn
  rw [hnid, hmid, hx, Option.some.injEq] at hsame
  subst hsame
  exact hroom.symm

namespace RoomStateService

open RoomStateRepository

/-- A member that joins is in its own room. -/
theorem joinRoom_home {s t : Db} {ids : Nat → Uuid} {roomId userId actorId : Uuid} {x : Seat}
    (h : joinRoom s ids roomId userId = .ok (t, actorId)) (hx : s.seat actorId = some x) :
    x.roomId = roomId := by
  simp only [joinRoom, bind_ok, ensure_ok] at h
  obtain ⟨room, -, -, -, hrest⟩ := h
  split at hrest
  · rename_i existing hexisting
    obtain ⟨hroom, -⟩ := Table.holds_of_find? hexisting
    have hseat := Db.seat_of_mem (Table.mem_of_find? hexisting)
    have hactor : existing.id = actorId := by
      simp only [bind_ok] at hrest
      obtain ⟨-, -, hrest⟩ := hrest
      split at hrest
      · cases hrest
        rfl
      · simp only [bind_ok, pure_ok] at hrest
        obtain ⟨b, -, heq⟩ := hrest
        cases heq
        rfl
    rw [hactor, hx, Option.some.injEq] at hseat
    exact hseat ▸ hroom
  · simp only [bind_ok, pure_ok] at hrest
    obtain ⟨a, ha, b, -, heq⟩ := hrest
    cases heq
    rw [(seat_insertMember ha).1] at hx
    cases hx

theorem joinRoom_resident {s t : Db} {ids : Nat → Uuid} {roomId userId actorId : Uuid}
    (h : joinRoom s ids roomId userId = .ok (t, actorId)) {id room : Uuid}
    (hid : Resident s id room) : Resident t id room := by
  obtain ⟨x, hx, rfl⟩ := hid
  rcases joinRoom_ok h with ⟨rfl, -⟩ | ⟨p, hmember, hroom, hopens⟩
  · exact ⟨x, hx, rfl⟩
  · obtain ⟨u, hseat⟩ := hopens.seat
    unfold Resident
    rw [hseat]
    split
    · rename_i hactor
      refine ⟨_, rfl, ?_⟩
      rw [hactor, hmember] at hx
      exact hroom.trans (joinRoom_home h hx).symm
    · exact ⟨x, hx, rfl⟩

theorem joinRoom_attributed {s t : Db} {ids : Nat → Uuid} {roomId userId actorId : Uuid}
    (h : joinRoom s ids roomId userId = .ok (t, actorId)) : Attributed s t :=
  .moved ((joinRoom_writes h).messages (by simp)) fun _ _ => joinRoom_resident h

theorem createOwnedRoom_attributed {s t : Db} {ids : Nat → Uuid} {name : String} {mode : RoomMode}
    {policy : HistoryPolicy} {ownerId roomId : Uuid} {result : Uuid × Uuid}
    (h : createOwnedRoom s ids name mode policy ownerId roomId = .ok (t, result)) :
    Attributed s t := by
  simp only [createOwnedRoom, bind_ok, pure_ok] at h
  obtain ⟨a, ha, ⟨b, actorId⟩, hb, heq⟩ := h
  cases heq
  have hpolicy : Attributed a (initialPolicy a roomId policy) :=
    .aged (fun _ => rfl) (.refl _)
  have howner : Attributed b (assignOwner b roomId actorId) :=
    .aged (Db.seat_map rfl fun m => by split <;> exact ⟨rfl, rfl⟩) (.refl _)
  exact (Attributed.frame (createRoom_writes ha) (by simp) (by simp)).trans
    (hpolicy.trans ((joinRoom_attributed hb).trans howner))

end RoomStateService

namespace DefaultRoomService

open DefaultRoomRepository

theorem provisionOwner_attributed {s t : Db} {now : Time} {ids : Nat → Uuid} {guarded : Bool}
    {roomId : Uuid} {subject : Nat} {state : State}
    (h : provisionOwner s now ids roomId guarded subject = .ok (t, state)) : Attributed s t := by
  have hspec : Attributed s (bindSpec s subject) :=
    .frame (bindSpec_writes s subject) (by simp) (by simp)
  rcases provisionOwner_ok h with rfl | ⟨ownerId, a, b, actor, ha, hb, ht⟩
  · exact hspec
  · obtain ⟨u, hu, rfl⟩ := finish_ok ht
    have hinboxes : Attributed b u :=
      .aged (bindInboxes_seat hu) (.of_eq ((bindInboxes_writes hu).messages (by simp)))
    have howner : Attributed u (bindOwner u roomId actor) :=
      .aged (Db.seat_map rfl fun m => by split <;> exact ⟨rfl, rfl⟩) (.refl _)
    exact hspec.trans ((Attributed.frame (activate_writes ha) (by simp) (by simp)).trans
      ((RoomStateService.joinRoom_attributed hb).trans (hinboxes.trans howner)))

theorem provision_attributed {s t : Db} {now : Time} {ids : Nat → Uuid} {config : DefaultRoomConfig}
    {guarded catalogOnly : Bool} {state : State}
    (h : provision s now ids config guarded catalogOnly = .ok (t, state)) : Attributed s t := by
  obtain ⟨a, binding, created, ha, hrest⟩ := provision_ok h
  have hclaim : Attributed s a := .frame (claim_writes ha) (by simp) (by simp)
  rcases hrest with rfl | ⟨-, b, hb, hrest⟩
  · exact hclaim
  · have hopen := hclaim.trans (.frame (openCatalog_writes hb) (by simp) (by simp))
    rcases hrest with rfl | ⟨subject, ht⟩
    · exact hopen
    · exact hopen.trans (provisionOwner_attributed ht)

end DefaultRoomService

/-! ## Messages -/

namespace MessagesCoreService

theorem create_attributed {s t : Db} {now : Time} {ids : Nat → Uuid} {roomId userId : Uuid}
    {viewer : ActiveMember} {input : SendInput} {streamId : Uuid} {reply : SendReceipt}
    (hviewer : Resident s viewer.id roomId)
    (h : create s now ids roomId userId viewer input streamId = .ok (t, reply)) :
    Attributed s t := by
  have hseat := Db.seat_congr ((create_writes h).roomMembers (by simp))
  obtain ⟨a, order, -, hmessages⟩ := create_messages h
  refine ⟨fun _ _ hid => hid.congr hseat, ?_⟩
  intro n hn
  rcases hmessages n hn with hn | ⟨hroom, hsender, -⟩
  · exact .inl ⟨n, hn, .refl n⟩
  · rw [hroom, hsender]
    exact .inr (hviewer.congr hseat)

theorem send_attributed {s t : Db} {now : Time} {ids : Nat → Uuid} {roomId userId : Uuid}
    {input : SendInput} {reply : SendReceipt}
    (h : send s now ids roomId userId input = .ok (t, reply)) : Attributed s t := by
  obtain ⟨admission, hadmitted, ⟨r, -, rfl, -⟩ | ⟨-, h⟩⟩ := send_ok h
  · exact .refl _
  · obtain ⟨u, streamId, hu, ht⟩ := sendNew_ok h
    have hroom : admission.room.id = roomId := by
      have hid := Table.holds_of_find? hadmitted.room
      exact hid
    have hseat := resolveStream_seat hu
    have hviewer : Resident u admission.viewer.id admission.room.id := by
      rw [hroom]
      exact (Resident.of_active hadmitted.viewer).congr hseat
    exact (Attributed.aged hseat (.of_eq ((resolveStream_writes hu).messages (by simp)))).trans
      (create_attributed hviewer ht)

theorem remove_attributed {s t : Db} {now : Time} {ids : Nat → Uuid} {intent : DeletionIntent}
    {done : Bool} (h : remove s now ids intent = .ok (t, done)) : Attributed s t := by
  refine .aged (Db.seat_congr ((remove_writes h).roomMembers (by simp))) ?_
  rcases remove_ok h with ⟨rfl, -⟩ | ⟨roomId, row, -, -, -, h⟩
  · exact .refl _
  · obtain ⟨request, existing, a, -, -, ha, ht⟩ := removeRow_ok h
    have hassets : Db.Writes [.mediaAssets] a ((MessagesRepository.attachedAssets a roomId
        intent.targetId).foldl (fun db x => MessagesRepository.blockAsset db now x) a) :=
      Writes.foldl (fun db x => MessagesRepository.blockAsset_writes db now x) _ a
    rw [(deletionEvent_writes ht).messages (by simp), hassets.messages (by simp)]
    exact MessagesRepository.blockMessageAndCopies_aged ha

theorem invalidateRows_aged {rows : List Message} {s t : Db} {ids : Nat → Uuid}
    (h : invalidateRows s ids rows = .ok t) : Aged s.messages t.messages := by
  induction rows generalizing s ids with
  | nil =>
    cases h
    exact .refl _
  | cons row rows ih =>
    simp only [invalidateRows, recordEvent, bind_ok] at h
    obtain ⟨-, -, ⟨a, order⟩, ha, b, hb, hrest⟩ := h
    have hsame : b.messages = (moderateSticker s row).messages := by
      rw [(MessagesRepository.event_ok hb).2.messages (by simp),
        (nextDeletionOrder_writes ha).messages (by simp)]
    have hrows := ih hrest
    rw [hsame] at hrows
    exact (moderateSticker_aged s row).trans hrows

theorem invalidateRevokedSticker_attributed {s t : Db} {ids : Nat → Uuid} {assetId : Uuid}
    {cursor : Option Uuid} (h : invalidateRevokedSticker s ids assetId = .ok (t, cursor)) :
    Attributed s t := by
  refine .aged (Db.seat_congr ((invalidateRevokedSticker_writes h).roomMembers (by simp))) ?_
  rcases invalidateRevokedSticker_ok h with rfl | ⟨rows, -, h⟩
  · exact .refl _
  · exact invalidateRows_aged h

end MessagesCoreService

theorem ReactionsCoreService.setReaction_attributed {s t : Db} {now : Time} {ids : Nat → Uuid}
    {roomId userId messageId : Uuid} {emoji : Option String}
    (h : setReaction s now ids roomId userId messageId emoji = .ok t) : Attributed s t := by
  refine .aged (Db.seat_congr ((setReaction_writes h).roomMembers (by simp))) ?_
  rcases setReaction_ok h with rfl | ⟨viewer, row, a, b, order, -, -, -, ha, hb, he⟩
  · exact .refl _
  · rw [(MessagesRepository.event_ok he).2.messages (by simp),
      (RoomStateService.nextOrder_writes hb).messages (by simp),
      ← (ReactionsRepository.write_writes ha).messages (by simp)]
    exact ReactionsRepository.advanceVersion_aged a roomId messageId

namespace PublicationsCoreService

theorem publishCopy_attributed {s t : Db} {now : Time} {ids : Nat → Uuid}
    {roomId publicationId : Uuid} {e : Eligible} {text : Option String}
    {attempts : Option (List PhotoAttempt)} (hviewer : Resident s e.viewer.id roomId)
    (h : publishCopy s now ids roomId publicationId e text attempts = .ok t) : Attributed s t := by
  have hseat := Db.seat_congr ((publishCopy_writes h).roomMembers (by simp))
  obtain ⟨a, order, -, hmessages⟩ := publishCopy_messages h
  refine ⟨fun _ _ hid => hid.congr hseat, ?_⟩
  intro n hn
  rcases hmessages n hn with hold | ⟨hroom, hsender, -⟩
  · exact .inl hold
  · rw [hroom, hsender]
    exact .inr (hviewer.congr hseat)

theorem publishText_attributed {s t : Db} {now : Time} {ids : Nat → Uuid}
    {lease : PublicationLease} {held : Bool} (h : publishText s now ids lease held = .ok t) :
    Attributed s t := by
  rcases publishText_ok h with rfl | ⟨p, -, -, rfl | ⟨userId, e, hsource, -, h⟩⟩
  · exact .refl _
  · exact .frame (PublicationsRepository.revoke_writes s p.id) (by simp) (by simp)
  · exact publishCopy_attributed (.of_active hsource.viewer) h

theorem finalizePhoto_attributed {s t : Db} {now : Time} {ids : Nat → Uuid}
    {lease : PublicationLease} {held : Bool} {attempts : List PhotoAttempt}
    (h : finalizePhoto s now ids lease held attempts = .ok t) : Attributed s t := by
  obtain ⟨p, -, ⟨-, rfl⟩ | ⟨-, rfl⟩ | ⟨-, rfl | ⟨userId, e, a, hsource, -, ha, h⟩⟩⟩ :=
    finalizePhoto_ok h
  · exact .refl _
  · exact .frame (discardCopies_writes s now p.id) (by simp) (by simp)
  · exact (Attributed.frame (PublicationsRepository.revoke_writes s p.id) (by simp) (by simp)).trans
      (.frame (discardCopies_writes _ now p.id) (by simp) (by simp))
  · have hready := PublicationPhotoRepository.readyAll_writes ha
    have hviewer := (Resident.of_active hsource.viewer).congr
      (Db.seat_congr (hready.roomMembers (by simp)))
    exact (Attributed.frame hready (by simp) (by simp)).trans (publishCopy_attributed hviewer h)

end PublicationsCoreService

/-! ## Every command -/

/-- A command that takes no order writes no message. -/
theorem Journaled.aged {s t : Db} (h : Journaled s t)
    (horder : ∀ room, t.order room = s.order room) :
    Aged s.messages t.messages := by
  intro n hn
  rcases h.message n hn with hold | ⟨hlt, hle⟩
  · exact hold
  · rw [horder] at hle
    exact absurd hle (Nat.not_le.mpr hlt)

theorem Command.exec_attributed {c : Command} {s t : Db} (hs : Seated s) (h : c.exec s = .ok t) :
    Attributed s t := by
  have hw := exec_writes h
  have heffect := exec_effect hs h
  cases c with
  | leaveRoom =>
    exact (RoomStateService.leaveRoom_level h).attributed heffect (hw.messages (by simp [tables]))
  | block =>
    exact (ModerationCoreService.block_level h).attributed heffect (hw.messages (by simp [tables]))
  | ban =>
    exact (ModerationCoreService.ban_level h).attributed heffect (hw.messages (by simp [tables]))
  | setReaction => exact ReactionsCoreService.setReaction_attributed h
  | publishText => exact PublicationsCoreService.publishText_attributed h
  | finalizePhoto => exact PublicationsCoreService.finalizePhoto_attributed h
  | createOwnedRoom | joinRoom | provision | send | remove | invalidateRevokedSticker =>
    simp only [Command.exec, bind_ok, pure_ok] at h
    obtain ⟨⟨t, reply⟩, h, rfl⟩ := h
    first
      | exact RoomStateService.createOwnedRoom_attributed h
      | exact RoomStateService.joinRoom_attributed h
      | exact DefaultRoomService.provision_attributed h
      | exact MessagesCoreService.send_attributed h
      | exact MessagesCoreService.remove_attributed h
      | exact MessagesCoreService.invalidateRevokedSticker_attributed h
  | purgeStep | accountContentPage =>
    exact .aged (Db.seat_congr (hw.roomMembers (by simp [tables])))
      ((exec_journaled h).aged (Db.order_congr (hw.roomCounters (by simp [tables]))))
  | setHistoryPolicy | requestPublication | preparePhoto | recoverPhotos | environment =>
    exact .frame hw (by simp [tables]) (by simp [tables])

/-- The sender of a message belongs to its room. -/
theorem reachable_resident {allowed : Command → Prop} {s : Db}
    (h : (chatOf allowed).Reachable s) :
    ∀ m ∈ s.messages, Resident s m.senderMemberId m.roomId := by
  induction h with
  | init hs =>
    subst hs
    exact fun m hm => absurd hm (Table.not_mem_empty m)
  | step hs hstep ih =>
    have hsent := Command.exec_attributed (reachable_seated hs) hstep.2
    intro n hn
    rcases hsent.message n hn with ⟨m, hm, hlater⟩ | hresident
    · rw [hlater.sender, hlater.roomId]
      exact hsent.resident _ _ (ih m hm)
    · exact hresident

end Rogichat
