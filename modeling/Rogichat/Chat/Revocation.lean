import Rogichat.Chat.Streams

/-!
# Revoked grants

A ban revokes a member's grants in private streams. The row stays, no later join,
unban or send replaces it, and the stream of a pair is never given up for another
one: the pair's private line is closed for good.

* **`revoked_grants`** — from a state with a revoked grant, over every run: what
  the member can no longer read, and which sends are refused.
* **`Wired.participants`** — who holds grants in a private stream.
-/

namespace Rogichat

open Lib

/-- The member's grant in the stream is revoked. -/
def Revoked (db : Db) (actorId streamId : Uuid) : Prop :=
  ∃ g ∈ db.streamGrants, g.memberId = actorId ∧ g.streamId = streamId ∧ g.revokedAt ≠ none

namespace Revoked

variable {s t : Db} {actorId streamId : Uuid}

theorem grown (h : Revoked s actorId streamId) (hgrown : Grown s t) :
    Revoked t actorId streamId := by
  obtain ⟨g, hg, hmember, hstream, hrev⟩ := h
  obtain ⟨g', hg', hstream', hmember', -, hrev'⟩ := hgrown.grants g hg
  exact ⟨g', hg', hmember'.trans hmember, hstream'.trans hstream, hrev' hrev⟩

/-- The member has no other grant in the stream. -/
theorem ineffective (h : Revoked s actorId streamId) {g : StreamGrant} (hg : g ∈ s.streamGrants)
    (hmember : g.memberId = actorId) (hstream : g.streamId = streamId) (now : Time) :
    ¬MessagesRepository.Effective now g := by
  obtain ⟨g', hg', hmember', hstream', hrev⟩ := h
  have hsame : g = g' := Table.eq_of_key hg hg' (k := (1, [streamId, actorId]))
    (by rw [← hmember, ← hstream]; exact .tail _ (.head _))
    (by rw [← hmember', ← hstream']; exact .tail _ (.head _))
  intro heffective
  exact hrev (hsame ▸ heffective.1)

/-- The stream is there, and is a private one. -/
theorem stream (hs : Wired s) (h : Revoked s actorId streamId) :
    ∃ st ∈ s.messageStreams, st.id = streamId ∧ st.kind = .restricted := by
  obtain ⟨g, hg, -, hstream, -⟩ := h
  obtain ⟨st, hst, hid, -, hkind⟩ := hs.grantStream g hg
  exact ⟨st, hst, hid.trans hstream, hkind⟩

theorem restricted (hs : Wired s) (h : Revoked s actorId streamId) {st : MessageStream}
    (hst : st ∈ s.messageStreams) (hid : st.id = streamId) : st.kind = .restricted := by
  obtain ⟨st', hst', hid', hkind⟩ := h.stream hs
  have hsame : st = st' := Table.eq_of_key hst hst' (k := (0, [st.id])) List.mem_cons_self
    (by rw [hid, ← hid']; exact List.mem_cons_self)
  rw [hsame]
  exact hkind

/-- A new stream is another one. -/
theorem ne_fresh (hs : Wired s) (h : Revoked s actorId streamId) {st : MessageStream}
    {streams : Table MessageStream} (hinsert : s.messageStreams.insert st = some streams) :
    st.id ≠ streamId := by
  obtain ⟨st', hst', hid', -⟩ := h.stream hs
  intro hid
  exact MessageStream.fresh hinsert hst' (hid'.trans hid.symm)

end Revoked

/-! ## Reading -/

/-- Without a delegation the member reads nothing in the stream: no message loads
as readable, and no page or event page of the stream admits the member. -/
structure Unreadable (db : Db) (actorId streamId : Uuid) : Prop where
  readable : ∀ now w roomId userId viewer,
    MembershipRepository.findActive db w now roomId userId = some viewer → viewer.id = actorId →
    viewer.temporaryGrantId = none →
    ∀ w' roomId' messageId row, MessagesRepository.load db w' roomId' messageId = some row →
      row.streamId = streamId → MessagesCoreService.readable db now viewer row = false
  page : ∀ now visibleFrom m, m.streamId = streamId →
    (∀ rm ∈ db.roomMembers, rm.id = actorId → ¬delegatedMemberSql db now rm) →
    ¬MessagesQueryRepository.audience db now actorId visibleFrom m ∧
      ∀ e, ¬MessagesQueryRepository.Joined db m
        (MessagesQueryRepository.eventAudienceOf db now actorId visibleFrom e m)

namespace Revoked

variable {s : Db} {actorId streamId : Uuid}

/-- The fragment `grant` refuses the member. -/
theorem not_grantSql (h : Revoked s actorId streamId) {now : Time} {m : Message}
    (hstream : m.streamId = streamId)
    (hdelegated : ∀ rm ∈ s.roomMembers, rm.id = actorId → ¬delegatedMemberSql s now rm) :
    ¬MessagesQueryRepository.grantSql s now m actorId := by
  rintro ⟨rm, hrm, -, hid, hdeleg | ⟨g, hg, -, hgs, hgm, -, heffective⟩⟩
  · exact hdelegated rm hrm hid hdeleg
  · exact h.ineffective hg (hgm.trans hid) (hgs.trans hstream) now heffective

theorem unreadable (hs : Wired s) (h : Revoked s actorId streamId) :
    Unreadable s actorId streamId := by
  constructor
  · intro now w roomId userId viewer _ hid htemp w' roomId' messageId row hload hstream
    have hloaded := MessagesRepository.load_some hload
    obtain ⟨st, hst, -, hsid, hkind⟩ := hloaded.stream
    have hrestricted : row.streamKind = .restricted := by
      rw [← hkind]
      exact h.restricted hs hst (hsid.trans hstream)
    rw [Bool.eq_false_iff]
    intro hread
    rcases MessagesCoreService.allowed_restricted hrestricted
      (MessagesCoreService.readable_allowed hread) with hdeleg | ⟨g, hg, -, hgs, hgm, heffective, -⟩
    · rw [htemp] at hdeleg
      cases hdeleg
    · exact h.ineffective hg (hgm.trans hid) (hgs.trans hstream) now heffective
  · intro now visibleFrom m hstream hdelegated
    have hgrant := h.not_grantSql hstream hdelegated
    have hkind : ∀ st ∈ s.messageStreams, st.id = m.streamId → st.kind = .restricted :=
      fun st hst hid => h.restricted hs hst (hid.trans hstream)
    constructor
    · rintro ⟨st, hst, hid, -, r, -, -, -, ⟨hshared, -⟩ | ⟨-, hsql⟩⟩
      · rw [hkind st hst hid] at hshared
        cases hshared
      · exact hgrant hsql
    · rintro e ⟨st, hst, hid, -, r, -, -, -, ⟨hshared, -⟩ | ⟨-, hsql⟩⟩
      · rw [hkind st hst hid] at hshared
        cases hshared
      · exact hgrant hsql

end Revoked

/-! ## Sending -/

namespace MessagesRepository

theorem mem_sendGrants {db : Db} {now : Time} {roomId streamId left right : Uuid}
    {g : StreamGrant} : g ∈ sendGrants db now roomId streamId left right ↔
      g ∈ db.streamGrants ∧ g.roomId = roomId ∧ g.streamId = streamId ∧
        (g.memberId = left ∨ g.memberId = right) ∧ Effective now g := by
  unfold sendGrants
  rw [List.mem_insertionSort, Table.mem_select]

theorem sendGrants_nodup (db : Db) (now : Time) (roomId streamId left right : Uuid) :
    (sendGrants db now roomId streamId left right).Nodup := by
  unfold sendGrants
  rw [(List.perm_insertionSort _ _).nodup_iff]
  exact (Table.nodup _).filter _

/-- With one side's grant revoked the two grants of a private send are not there. -/
theorem sendGrants_length {db : Db} {now : Time} {roomId streamId left right actorId : Uuid}
    (h : Revoked db actorId streamId) (hside : actorId = left ∨ actorId = right) :
    (sendGrants db now roomId streamId left right).length ≤ 1 := by
  -- Whatever grants there are belong to the other side, which has one row.
  have hother : ∀ g ∈ sendGrants db now roomId streamId left right,
      ∀ k ∈ sendGrants db now roomId streamId left right, g = k := by
    intro g hg k hk
    obtain ⟨hgdb, -, hgs, hgm, hge⟩ := mem_sendGrants.mp hg
    obtain ⟨hkdb, -, hks, hkm, hke⟩ := mem_sendGrants.mp hk
    have hg' : g.memberId ≠ actorId := fun hm => h.ineffective hgdb hm hgs now hge
    have hk' : k.memberId ≠ actorId := fun hm => h.ineffective hkdb hm hks now hke
    have hsame : g.memberId = k.memberId := by
      rcases hside with rfl | rfl
      · rw [hgm.resolve_left hg', hkm.resolve_left hk']
      · rw [hgm.resolve_right hg', hkm.resolve_right hk']
    exact Table.eq_of_key hgdb hkdb (k := (1, [g.streamId, g.memberId])) (.tail _ (.head _))
      (by rw [hsame, hgs, ← hks]; exact .tail _ (.head _))
  have hnodup := sendGrants_nodup db now roomId streamId left right
  revert hother hnodup
  generalize sendGrants db now roomId streamId left right = grants
  intro hother hnodup
  match grants with
  | [] => simp
  | [_] => simp
  | g :: k :: rest =>
    have hne : g ≠ k := by
      intro heq
      rw [heq] at hnodup
      exact (List.nodup_cons.mp hnodup).1 List.mem_cons_self
    exact absurd (hother g List.mem_cons_self k (.tail _ (.head _))) hne

theorem target_id {db : Db} {now : Time} {roomId actorId : Uuid} {row : TargetRow}
    (h : target db now roomId actorId = some row) : row.id = actorId := by
  simp only [target, Option.bind_eq_bind, Option.bind_eq_some_iff, Option.pure_def,
    Option.some.injEq] at h
  obtain ⟨m, hm, p, -, u, -, rfl⟩ := h
  have hholds := Table.holds_of_find? hm
  exact hholds.2.1

end MessagesRepository

namespace MessagesCoreService

open MessagesRepository

/-- No new message finds its way into the stream. -/
theorem resolveStream_elsewhere {s t : Db} {now : Time} {ids : Nat → Uuid} {room : Room}
    {owner : Option RoomSendOwner} {awaiting : Bool} {viewer : ActiveMember} {intent : Intent}
    {recipient : Option Uuid} {id actorId streamId : Uuid} (hs : Wired s)
    (hrevoked : Revoked s actorId streamId)
    (h : resolveStream s now ids room owner awaiting viewer intent recipient = .ok (t, id)) :
    id ≠ streamId := by
  have hgrown := resolveStream_grown h
  rintro rfl
  rcases resolveStream_ok h with ⟨-, -, -, -, h⟩ | ⟨intent', recipient', -, -, h⟩
  · obtain ⟨-, hinbox, hlen, -⟩ := inboxStream_ok h
    rcases pendingInbox_ok hinbox with ⟨rfl, st, hst, hid⟩ | ⟨hinsert, -⟩
    · -- The fan's own inbox has one grant, and that one is revoked.
      obtain ⟨g, hg⟩ := List.exists_mem_of_length_pos (by omega : 0 < (sendGrants t now room.id id
        viewer.id viewer.id).length)
      obtain ⟨hgdb, -, hgs, -, hge⟩ := mem_sendGrants.mp hg
      obtain ⟨-, -, hunpaired, -⟩ := mem_inboxes hs hst
      have hrow := hrevoked
      obtain ⟨g', hg', hgm', hgs', -⟩ := hrow
      have hsame : g = g' := hs.inbox g hgdb g' hg' (hgs.trans hgs'.symm)
        (by rw [hgs, ← hid]; exact hunpaired)
      exact hrevoked.ineffective hgdb (hsame ▸ hgm') hgs now hge
    · exact hrevoked.ne_fresh hs hinsert rfl
  · rcases sendStream_ok h with ⟨-, rfl, st, hst, hid⟩ | ⟨-, h⟩
    · have hmem : st ∈ sharedStreams t viewer.roomId := by
        rw [hst]
        exact List.mem_cons_self
      obtain ⟨hdb, -, hkind⟩ := Table.mem_select.mp hmem
      rw [hrevoked.restricted hs hdb hid.symm] at hkind
      cases hkind
    · obtain ⟨-, tgt, -, -, -, -, -, hstream, hadmitted⟩ := privateStream_ok h
      rcases pairStream_ok hstream with ⟨rfl, p, hp, hid⟩ | ⟨-, hpaired⟩
      · have hrow := hrevoked
        obtain ⟨g, hg, hgm, hgs, -⟩ := hrow
        have hpair := Table.holds_of_find? hp
        have hside := hs.pairGrants p (Table.mem_of_find? hp) g hg (hgs.trans hid.symm)
        rw [hgm, hpair.2.1, hpair.2.2] at hside
        have hlen : (sendGrants t now viewer.roomId id _ _).length ≤ 1 :=
          sendGrants_length hrevoked hside
        have htwo := hadmitted.1
        omega
      · exact hrevoked.ne_fresh hs hpaired.streams rfl

/-- The message of a new send, which is the only one it adds. -/
theorem create_message {s t : Db} {now : Time} {ids : Nat → Uuid} {roomId userId : Uuid}
    {viewer : ActiveMember} {input : SendInput} {streamId : Uuid} {reply : SendReceipt}
    (h : create s now ids roomId userId viewer input streamId = .ok (t, reply)) :
    ∃ m : Message, m.id = reply.messageId ∧ m.streamId = streamId ∧ m.deletionRootId = none ∧
      s.messages.insert m = some t.messages := by
  obtain ⟨a, b, c, d, order, ha, hb, hc, hd, he, rfl⟩ := create_ok h
  obtain ⟨hinsert, -⟩ := insertMessage_ok hb
  refine ⟨newMessage now (ids 4) roomId streamId viewer.id userId input.quoteId input.content order,
    rfl, rfl, rfl, ?_⟩
  rw [(event_ok he).2.messages (by simp), (insertReceipt_ok hd).2.messages (by simp),
    (attachSticker_writes hc).messages (by simp),
    ← (RoomStateService.nextOrder_writes ha).messages (by simp)]
  exact hinsert

/-- The viewer of a send is the member its receipt is kept under. -/
theorem Admitted.viewer_eq {s : Db} {now : Time} {roomId userId : Uuid} {input : SendInput}
    {admission : Admission} (h : Admitted s now roomId userId input admission)
    {member : RoomMember} (hmember : MessagesRepository.member s roomId userId = some member) :
    admission.viewer.id = member.id ∧ admission.viewer.roomId = roomId := by
  obtain ⟨m, r, p, hrow, hviewer⟩ := MembershipRepository.findActive_some h.viewer
  have hholds := Table.holds_of_find? hmember
  have hsame : m = member := Table.eq_of_key hrow.member (Table.mem_of_find? hmember)
    (k := (1, [roomId, userId])) (by rw [← hrow.memberRoom, ← hrow.memberUser]; exact .tail _ (.head _))
    (by rw [← hholds.1, ← hholds.2]; exact .tail _ (.head _))
  rw [hviewer]
  simp only [MembershipRepository.project_id, MembershipRepository.project_roomId]
  exact ⟨congrArg RoomMember.id hsame, hrow.memberRoom⟩

end MessagesCoreService

/-- What a send does while a grant of the stream is revoked: a retry of a recorded
command changes nothing, and every other send goes elsewhere. -/
def Refused (db : Db) (streamId : Uuid) : Prop :=
  ∀ now ids roomId userId input t reply,
    MessagesCoreService.send db now ids roomId userId input = .ok (t, reply) →
    (t = db ∧ ∃ member, MessagesRepository.member db roomId userId = some member ∧
        (MessagesRepository.receipt db roomId member.id input.clientMessageId).isSome = true) ∨
      ∃ m : Message, m.id = reply.messageId ∧ m.streamId ≠ streamId ∧
        db.messages.insert m = some t.messages

/-- A command between two members that no receipt records yet fails. -/
def Closed (db : Db) (roomId left right : Uuid) : Prop :=
  ∀ now ids userId input member, MessagesRepository.member db roomId userId = some member →
    (member.id = left ∧ input.recipientActorId = some right ∨
      member.id = right ∧ input.recipientActorId = some left) →
    input.intent = .private_ →
    MessagesRepository.receipt db roomId member.id input.clientMessageId = none →
    ∃ e, MessagesCoreService.send db now ids roomId userId input = .error e

namespace Revoked

open MessagesRepository MessagesCoreService

variable {s : Db} {actorId streamId : Uuid}

theorem refused (hs : Wired s) (h : Revoked s actorId streamId) : Refused s streamId := by
  intro now ids roomId userId input t reply hsend
  obtain ⟨admission, hadmitted, ⟨r, hr, rfl, -⟩ | ⟨-, hnew⟩⟩ := send_ok hsend
  · exact .inl ⟨rfl, admission.member, hadmitted.member, by rw [hr]; rfl⟩
  · obtain ⟨u, id, hu, ht⟩ := sendNew_ok hnew
    obtain ⟨m, hid, hstream, -, hinsert⟩ := create_message ht
    refine .inr ⟨m, hid, ?_, ?_⟩
    · rw [hstream]
      exact resolveStream_elsewhere hs h hu
    · rw [← (resolveStream_writes hu).messages (by simp)]
      exact hinsert

theorem closed (hs : Wired s) (h : Revoked s actorId streamId) {p : StreamPair}
    (hp : p ∈ s.streamPairs) (hstream : p.streamId = streamId) :
    Closed s p.roomId p.leftMemberId p.rightMemberId := by
  intro now ids userId input member hmember hsides hintent hreceipt
  cases hsend : send s now ids p.roomId userId input with
  | error e => exact ⟨e, rfl⟩
  | ok result =>
    exfalso
    obtain ⟨admission, hadmitted, ⟨r, hr, -⟩ | ⟨-, hnew⟩⟩ := send_ok hsend
    · have hsame : admission.member = member :=
        Option.some.inj (hadmitted.member.symm.trans hmember)
      rw [hsame, hreceipt] at hr
      cases hr
    · obtain ⟨hid, hroom⟩ := hadmitted.viewer_eq hmember
      obtain ⟨u, id, hu, -⟩ := sendNew_ok hnew
      have heffective : effectiveIntent admission.viewer input.intent = .private_ := by
        rw [hintent]
        simp [effectiveIntent]
      rw [heffective] at hu
      have helsewhere := resolveStream_elsewhere hs h hu
      rcases resolveStream_ok hu with ⟨hne, -⟩ | ⟨intent', recipient', hshared, hrecipient, hu⟩
      · cases hne
      rcases sendStream_ok hu with ⟨heq, -⟩ | ⟨-, hu⟩
      · cases hshared.mp heq
      obtain ⟨other, tgt, hother, -, htarget, -, -, hpaired, -⟩ := privateStream_ok hu
      rw [hrecipient rfl] at hother
      have htid : tgt.id = other := target_id htarget
      -- The pair's key is the two members in order, whoever sends.
      have hkey : min admission.viewer.id tgt.id = p.leftMemberId ∧
          max admission.viewer.id tgt.id = p.rightMemberId := by
        have hle := hs.sorted p hp
        rcases hsides with ⟨hm, hr⟩ | ⟨hm, hr⟩
        · rw [hr, Option.some.injEq] at hother
          rw [htid, hid, hm, ← hother]
          exact ⟨min_eq_left hle, max_eq_right hle⟩
        · rw [hr, Option.some.injEq] at hother
          rw [htid, hid, hm, ← hother]
          exact ⟨min_eq_right hle, max_eq_left hle⟩
      have hfound : pair s admission.viewer.roomId (min admission.viewer.id tgt.id)
          (max admission.viewer.id tgt.id) = some p := by
        rw [hroom, hkey.1, hkey.2]
        refine Table.find?_eq_some hp ⟨rfl, rfl, rfl⟩
          (k := (2, [p.roomId, p.leftMemberId, p.rightMemberId])) (.tail _ (.tail _ (.head _))) ?_
        rintro q ⟨hqroom, hqleft, hqright⟩
        rw [← hqroom, ← hqleft, ← hqright]
        exact .tail _ (.tail _ (.head _))
      rcases pairStream_ok hpaired with ⟨-, q, hq, hqid⟩ | ⟨hnone, -⟩
      · rw [hfound, Option.some.injEq] at hq
        exact helsewhere (by rw [← hqid, ← hq, hstream])
      · rw [hfound] at hnone
        cases hnone

end Revoked

/-! ## Whole runs -/

/-- Who holds grants in a private stream: the two members of its pair, or the one
fan of an inbox that waits for the room's owner or has become the owner's own. -/
def Participants (db : Db) (streamId : Uuid) : Prop :=
  (∃ p ∈ db.streamPairs, p.streamId = streamId ∧ ∀ g ∈ db.streamGrants, g.streamId = streamId →
      g.memberId = p.leftMemberId ∨ g.memberId = p.rightMemberId) ∨
    ¬db.PairOf streamId ∧ ∃ memberId, ∀ g ∈ db.streamGrants, g.streamId = streamId →
      g.memberId = memberId ∧ Awaited db g.roomId memberId

theorem Wired.participants {s : Db} (hs : Wired s) (streamId : Uuid) :
    Participants s streamId := by
  by_cases hpaired : s.PairOf streamId
  · obtain ⟨p, hp, hstream⟩ := hpaired
    exact .inl ⟨p, hp, hstream, fun g hg hgs => hs.pairGrants p hp g hg (hgs.trans hstream.symm)⟩
  · refine .inr ⟨hpaired, ?_⟩
    by_cases hgrant : ∃ g ∈ s.streamGrants, g.streamId = streamId
    · obtain ⟨g, hg, rfl⟩ := hgrant
      refine ⟨g.memberId, fun k hk hks => ?_⟩
      have hsame : k = g := hs.inbox k hk g hg hks (by rw [hks]; exact hpaired)
      rw [hsame]
      exact ⟨rfl, hs.awaited g hg hpaired⟩
    · exact ⟨0, fun g hg hgs => absurd ⟨g, hg, hgs⟩ hgrant⟩

/-- **Revoked private grants never come back.** In every state a private stream's
grants belong to its participants, and once a member's grant is revoked, then in
every later state it is revoked, the member reads nothing in the stream without a
delegation, no send adds a message to it, and its pair keeps it and can send
nothing new in it, from neither side. -/
theorem revoked_grants {s u : Db} {cs : List Command} (hs : chat.Reachable s)
    (hrun : chat.Run s cs u) :
    (∀ streamId, Participants u streamId) ∧
    ∀ actorId streamId, Revoked s actorId streamId →
      Revoked u actorId streamId ∧ Unreadable u actorId streamId ∧ Refused u streamId ∧
      ∀ p ∈ s.streamPairs, p.streamId = streamId →
        p ∈ u.streamPairs ∧ Closed u p.roomId p.leftMemberId p.rightMemberId := by
  have hwired : Wired u := reachable_wired (hrun.reachable hs)
  have hgrown : Grown s u := run_grown hs hrun
  refine ⟨hwired.participants, fun actorId streamId hrevoked => ?_⟩
  have hlater : Revoked u actorId streamId := hrevoked.grown hgrown
  refine ⟨hlater, hlater.unreadable hwired, hlater.refused hwired, fun p hp hstream => ?_⟩
  exact ⟨hgrown.pairs p hp, hlater.closed hwired (hgrown.pairs p hp) hstream⟩

/-- The owner's first message to a fan, in a room of the two. -/
def ownerMessage (clientMessageId : Uuid) : SendInput where
  membershipScope := ⟨1, 7, 11⟩
  clientMessageId := clientMessageId
  intent := .private_
  recipientActorId := some 20
  quoteId := none
  content := .text "hi"

/-- The owner writes to the fan and bans it. -/
def writtenAndBanned : List Command :=
  [.environment .twoMembers, .createOwnedRoom (fun i => 10 + i) "room" .fan .sinceJoin 1 7,
    .joinRoom (fun i => 20 + i) 7 2, .send 0 (fun i => 30 + i) 7 1 (ownerMessage 5),
    .ban 1 1 7 20 true]

/-- The fan is unbanned and joins again: its old grant stays revoked, and the owner's
next message to it is refused. -/
theorem revoked_grants_rejoined : ∃ s u : Db, Revoked s 20 30 ∧ Revoked u 20 30 ∧
    (∃ viewer, MembershipRepository.findActive u true 3 7 2 = some viewer ∧ viewer.id = 20) ∧
    ∃ e, MessagesCoreService.send u 3 (fun i => 50 + i) 7 1 (ownerMessage 6) = .error e := by
  obtain ⟨s, hs⟩ : ∃ s, ({} : Db).after writtenAndBanned = .ok s := ⟨_, rfl⟩
  obtain ⟨u, hu⟩ : ∃ u, s.after [.ban 2 1 7 20 false, .joinRoom (fun i => 40 + i) 7 2] = .ok u := by
    cases hs
    exact ⟨_, rfl⟩
  have hall := revoked_grants ((run_of_after hs).reachable (.init rfl)) (run_of_after hu)
  refine ⟨s, u, ?_⟩
  cases hs
  cases hu
  have hrevoked := hall.2 20 30 ⟨_, .tail _ (.head _), rfl, rfl, by decide⟩
  refine ⟨⟨_, .tail _ (.head _), rfl, rfl, by decide⟩, hrevoked.1, ⟨_, rfl, rfl⟩, ?_⟩
  refine (hrevoked.2.2.2 _ (.head _) rfl).2 3 (fun i => 50 + i) 1 (ownerMessage 6) _ rfl ?_ rfl rfl
  exact .inl ⟨rfl, rfl⟩

/-- The same command sent again after the ban is answered from its receipt. -/
theorem revoked_retry : ∃ s : Db, chat.Reachable s ∧ Revoked s 20 30 ∧
    (∃ p ∈ s.streamPairs, p.streamId = 30 ∧ p.roomId = 7 ∧ p.leftMemberId = 10 ∧
      p.rightMemberId = 20) ∧
    (∃ member, MessagesRepository.member s 7 1 = some member ∧ member.id = 10) ∧
    s.roomTestGrants = .empty ∧
    MessagesCoreService.send s 2 (fun i => 50 + i) 7 1 (ownerMessage 5) =
      .ok (s, .committed 5 34 1) := by
  obtain ⟨s, hs⟩ : ∃ s, ({} : Db).after writtenAndBanned = .ok s := ⟨_, rfl⟩
  refine ⟨s, (run_of_after hs).reachable (.init rfl), ?_⟩
  cases hs
  exact ⟨⟨_, .tail _ (.head _), rfl, rfl, by decide⟩, ⟨_, .head _, rfl, rfl, rfl, rfl⟩,
    ⟨_, rfl, rfl⟩, rfl, rfl⟩

end Rogichat
