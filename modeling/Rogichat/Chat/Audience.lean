import Rogichat.Chat.Ranks
import Rogichat.Chat.Revocation

/-!
# The audience of a new message

Who can read a message of a fan room right after its commit, personal blocks
aside. The audience is stored nowhere: a fan's message goes into the private stream
it shares with the room's owner, or into its pending inbox, a private one into the
stream of its pair, and a shared one into the room's stream, where the sender rule
for the messages of fans decides.

* **`fresh_allowed`** — the reading policy on a message that was just sent.
* **`privateStream_reads`** — who reads a pair's new message.
* **`send_audience`** — when the readers are the members the send was announced to.
-/

namespace Rogichat

open Lib

/-! ## Active members -/

/-- The active member `v` of the room, with the account `u`. -/
structure ActiveAs (db : Db) (w : Bool) (now : Time) (roomId : Uuid) (u : User)
    (v : ActiveMember) : Prop where
  user : u ∈ db.users
  chat : chatUser db now u
  member : MembershipRepository.findActive db w now roomId u.id = some v

/-- The members a message is announced to: a fan's own message and a private one have
one recipient, and the delegates read them with it. -/
def Announced (room : Room) (sender : ActiveMember) (input : SendInput) (v : ActiveMember) : Prop :=
  if input.intent = .private_ then
    input.recipientActorId = some v.id ∨ v.temporaryGrantId ≠ none
  else if input.intent = .roomOwner ∨ sender.role = .fan then
    room.ownerMemberId = some v.id ∨ v.temporaryGrantId ≠ none
  else True

/-- Of the other active members exactly those the message is announced to can read it. -/
def ReachesAudience (db : Db) (w : Bool) (now : Time) (room : Room) (sender : ActiveMember)
    (input : SendInput) (messageId : Uuid) : Prop :=
  ∃ row, MessagesRepository.load db w room.id messageId = some row ∧
    ∀ u v, ActiveAs db w now room.id u v → v.id ≠ sender.id →
      (MessagesCoreService.allowed db now v row = true ↔ Announced room sender input v)

/-- A shared message of a delegate misses nobody: the room has no further active
member besides it and the owner. -/
def DelegateAlone (db : Db) (w : Bool) (now : Time) (room : Room) (sender : ActiveMember) : Prop :=
  sender.temporaryGrantId ≠ none → room.ownerMemberId ≠ some sender.id →
    ∀ u v, ActiveAs db w now room.id u v → v.id = sender.id ∨ room.ownerMemberId = some v.id

/-- An owner whose delegation from before is still live reads the fan's stream by a
grant of its own, since its role no longer takes the delegation into account. -/
def OwnerGranted (db : Db) (now : Time) (room : Room) (sender : ActiveMember) : Prop :=
  ∀ m ∈ db.roomMembers, room.ownerMemberId = some m.id → m.role ≠ .fan →
    delegatedMemberSql db now m →
    ∃ p, MessagesRepository.pair db room.id (min sender.id m.id) (max sender.id m.id) = some p ∧
      ∃ g ∈ db.streamGrants, g.streamId = p.streamId ∧ g.memberId = m.id ∧ g.canRead = true

namespace MembershipRepository

/-- Only a fan of a fan room holds a delegation, and it acts as a streamer. -/
theorem findActive_role {db : Db} {w : Bool} {now : Time} {roomId userId : Uuid}
    {v : ActiveMember} (h : findActive db w now roomId userId = some v) :
    ∃ m r p, ActiveRow db roomId userId m r p ∧ v.id = m.id ∧ v.roomId = roomId ∧ v.mode = r.mode ∧
      v.visibleFromOrder = p.visibleFromOrder ∧ v.activePeriodId = p.id ∧
      (v.temporaryGrantId = none ∧ v.role = m.role ∨
        v.temporaryGrantId ≠ none ∧ v.role = .streamer ∧ m.role = .fan ∧ r.mode = .fan) := by
  obtain ⟨m, r, p, hrow, rfl⟩ := findActive_some h
  refine ⟨m, r, p, hrow, by simp, by simpa using hrow.memberRoom, by simp, by simp, by simp, ?_⟩
  rcases project_eq db w now
      { id := m.id, roomId := m.roomId, userId := m.userId, role := m.role, mode := r.mode,
        activePeriodId := p.id, visibleFromOrder := p.visibleFromOrder } with
    heq | ⟨hmode, hrole, g, -, -, heq⟩
  · rw [heq]
    exact .inl ⟨rfl, rfl⟩
  · rw [heq]
    exact .inr ⟨by simp, rfl, hrole, hmode⟩

/-- A fan with a live test grant acts under it. -/
theorem findActive_delegated {db : Db} {w : Bool} {now : Time} {roomId userId : Uuid}
    {v : ActiveMember} {m : RoomMember} {r : Room} {p : MembershipPeriod}
    (h : findActive db w now roomId userId = some v) (hrow : ActiveRow db roomId userId m r p)
    (hfan : r.mode = .fan) (hrole : m.role = .fan) (hlive : delegatedMemberSql db now m) :
    v.temporaryGrantId ≠ none := by
  obtain ⟨m', r', p', hrow', rfl⟩ := findActive_some h
  obtain rfl : m' = m := Table.eq_of_key hrow'.member hrow.member (k := (1, [roomId, userId]))
    (by rw [← hrow'.memberRoom, ← hrow'.memberUser]; exact .tail _ (.head _))
    (by rw [← hrow.memberRoom, ← hrow.memberUser]; exact .tail _ (.head _))
  obtain rfl : r' = r := Table.eq_of_key hrow'.room hrow.room (k := (0, [roomId]))
    (by rw [← hrow'.roomId_eq]; exact List.mem_cons_self)
    (by rw [← hrow.roomId_eq]; exact List.mem_cons_self)
  obtain ⟨⟨g, hg, hgroom, hgmember, hgperiod, hgrevoked, -, hgexpires⟩, ⟨a, ha, hauser, hamanage⟩,
    x, hx, hxid, hxactive⟩ := hlive
  have hgp : g.periodId = p'.id := by
    rw [hrow'.points, Option.some.injEq] at hgperiod
    exact hgperiod.symm
  -- The grant is one of those `project` chooses from.
  intro hnone
  unfold project at hnone
  rw [if_neg (by simp [hfan, hrole])] at hnone
  split at hnone
  · rename_i hno
    refine Table.first?_eq_none.mp hno g hg ⟨hgroom, hgmember, hgp, hgrevoked, hgexpires, ?_, .inr ?_⟩
    · exact ⟨a, ha, hauser, hamanage⟩
    · exact ⟨x, hx, hxid, hxactive⟩
  · simp at hnone

end MembershipRepository

/-! ## Reading a message that was just sent -/

namespace MessagesRepository

/-- A message whose rows are all there loads. -/
theorem load_of_rows {db : Db} {w : Bool} {m : Message} {st : MessageStream} {r : Room}
    {sender : RoomMember} {u : User} (hm : m ∈ db.messages) (hst : st ∈ db.messageStreams)
    (hstroom : st.roomId = m.roomId) (hstid : st.id = m.streamId) (hr : r ∈ db.rooms)
    (hrid : r.id = m.roomId) (hsender : sender ∈ db.roomMembers)
    (hsroom : sender.roomId = m.roomId) (hsid : sender.id = m.senderMemberId)
    (hu : u ∈ db.users) (huid : u.id = m.contentOwnerUserId) :
    ∃ row, load db w m.roomId m.id = some row ∧ row.toMessage = m ∧ row.streamKind = st.kind ∧
      row.roomMode = r.mode ∧ row.ownerMemberId = r.ownerMemberId ∧
      row.contentOwnerStatus = u.status ∧ row.rootBlocked = rootBlocked db m := by
  -- every join is on a key, so each lookup finds the row it names
  have hmessage : (db.messages.find? fun x => x.roomId = m.roomId ∧ x.id = m.id) = some m := by
    refine Table.find?_eq_some hm ⟨rfl, rfl⟩ (k := (0, [m.id])) List.mem_cons_self ?_
    rintro x ⟨-, hx⟩
    rw [← hx]
    exact List.mem_cons_self
  have hstream : (db.messageStreams.find? fun s => s.roomId = m.roomId ∧ s.id = m.streamId) =
      some st := by
    refine Table.find?_eq_some hst ⟨hstroom, hstid⟩ (k := (0, [st.id])) List.mem_cons_self ?_
    rintro x ⟨-, hx⟩
    rw [hstid, ← hx]
    exact List.mem_cons_self
  have hroom : (db.rooms.find? fun r => r.id = m.roomId) = some r := by
    refine Table.find?_eq_some hr hrid (k := (0, [r.id])) List.mem_cons_self ?_
    intro x hx
    rw [hrid, ← hx]
    exact List.mem_cons_self
  have hmember : (db.roomMembers.find? fun s => s.roomId = m.roomId ∧ s.id = m.senderMemberId) =
      some sender := by
    refine Table.find?_eq_some hsender ⟨hsroom, hsid⟩ (k := (0, [sender.id])) List.mem_cons_self ?_
    rintro x ⟨-, hx⟩
    rw [hsid, ← hx]
    exact List.mem_cons_self
  have huser : (db.users.find? fun u => u.id = m.contentOwnerUserId) = some u := by
    refine Table.find?_eq_some hu huid (k := (0, [u.id])) List.mem_cons_self ?_
    intro x hx
    rw [huid, ← hx]
    exact List.mem_cons_self
  unfold load
  simp only [hmessage, hstream, hroom, hmember, huser, Option.bind_eq_bind, Option.bind_some,
    Option.pure_def]
  exact ⟨_, rfl, rfl, rfl, rfl, rfl, rfl, rfl⟩

/-- A grant is found by its stream and its member. -/
theorem grant_iff {db : Db} {now : Time} {roomId streamId memberId : Uuid} {q : StreamGrant → Prop} :
    (∃ g, grant db now roomId streamId memberId = some g ∧ q g) ↔
      ∃ g ∈ db.streamGrants, g.roomId = roomId ∧ g.streamId = streamId ∧ g.memberId = memberId ∧
        Effective now g ∧ q g := by
  constructor
  · rintro ⟨g, hg, hq⟩
    have hholds := Table.holds_of_find? hg
    exact ⟨g, Table.mem_of_find? hg, hholds.1, hholds.2.1, hholds.2.2.1, hholds.2.2.2, hq⟩
  · rintro ⟨g, hg, hroom, hstream, hmember, heffective, hq⟩
    refine ⟨g, Table.find?_eq_some hg ⟨hroom, hstream, hmember, heffective⟩
      (k := (1, [streamId, memberId])) ?_ ?_, hq⟩
    · rw [← hstream, ← hmember]
      exact .tail _ (.head _)
    · rintro x ⟨-, hx, hx', -⟩
      rw [← hx, ← hx']
      exact .tail _ (.head _)

end MessagesRepository

/-- A message as a send stores it, loaded. -/
structure Fresh (row : MessageRow) (roomId streamId senderId : Uuid) (kind : StreamKind)
    (owner : Option Uuid) : Prop where
  roomId_eq : row.roomId = roomId
  stream : row.streamId = streamId
  sender : row.senderMemberId = senderId
  kind_eq : row.streamKind = kind
  owner_eq : row.ownerMemberId = owner
  mode : row.roomMode = .fan
  live : row.deletedAt = none
  unmoderated : row.moderated = false
  original : row.deletionRootId = none
  unblocked : row.rootBlocked = false
  kept : row.contentOwnerStatus.leaving = false

namespace MessagesCoreService

open MessagesRepository

/-- Read access in a private stream. -/
def Granted (db : Db) (now : Time) (roomId streamId memberId : Uuid) : Prop :=
  ∃ g ∈ db.streamGrants, g.roomId = roomId ∧ g.streamId = streamId ∧ g.memberId = memberId ∧
    Effective now g ∧ g.canRead = true

/-- The members that read a message that was just sent, by the kind of its stream. -/
def Reader (db : Db) (now : Time) (kind : StreamKind) (roomId streamId senderId : Uuid)
    (owner : Option Uuid) (v : ActiveMember) : Prop :=
  match kind with
  | .roomShared => senderId = v.id ∨ owner = some v.id ∨ owner = some senderId
  | .restricted => v.temporaryGrantId ≠ none ∨ Granted db now roomId streamId v.id

theorem fresh_allowed {db : Db} {now : Time} {v : ActiveMember} {row : MessageRow}
    {roomId streamId senderId : Uuid} {kind : StreamKind} {owner : Option Uuid}
    (h : Fresh row roomId streamId senderId kind owner) (hroom : v.roomId = roomId)
    (hfrom : v.visibleFromOrder ≤ row.createdOrder) :
    allowed db now v row = true ↔ Reader db now kind roomId streamId senderId owner v := by
  have havailable : Available v row :=
    ⟨hroom.trans h.roomId_eq.symm, h.live, h.unmoderated, h.unblocked, h.kept, hfrom⟩
  rw [allowed, canReadMessage_iff, available_iff]
  have hkind : (readFacts row (loadedGrant db now v row)).streamKind = kind := h.kind_eq
  rw [hkind]
  cases kind with
  | roomShared =>
    simp only [Reader, havailable, true_and, reduceCtorEq, false_and, or_false, fanSharedVisible,
      ReadFacts.shared, readFacts, accessFacts, h.mode, h.sender, h.owner_eq, h.original,
      bne_self_eq_false, Bool.false_or, Option.isSome_none, Bool.not_false, Bool.true_and,
      Bool.false_and, Bool.or_false, Bool.or_eq_true, beq_iff_eq]
    rw [or_assoc, eq_comm (a := some senderId)]
  | restricted =>
    have hgrant : loadedGrant db now v row = grant db now roomId streamId v.id := by
      rw [loadedGrant, h.kind_eq, h.roomId_eq, h.stream]
    have hdelegated : (accessFacts v row.ownerMemberId).delegated = true ↔
        v.temporaryGrantId ≠ none := by
      simp [accessFacts, Option.isSome_iff_ne_none]
    have hgranted : (readFacts row (loadedGrant db now v row)).granted
        (accessFacts v row.ownerMemberId) = true ↔ Granted db now roomId streamId v.id := by
      unfold Granted
      rw [hgrant, ← grant_iff]
      simp only [MessageFacts.granted, readFacts, messageFacts, accessFacts, Option.any_map,
        Option.any_eq_true, Bool.and_eq_true, beq_iff_eq, Bool.true_and]
      constructor
      · rintro ⟨g, hg, ⟨⟨hread, -⟩, -⟩, -⟩
        exact ⟨g, hg, hread⟩
      · rintro ⟨g, hg, hread⟩
        have hholds := Table.holds_of_find? hg
        exact ⟨g, hg, ⟨⟨hread, hholds.2.2.1⟩, hholds.1.trans hroom.symm⟩,
          hholds.2.1.trans h.stream.symm⟩
    simp only [Reader, havailable, true_and, reduceCtorEq, false_and, false_or, hdelegated,
      hgranted]

end MessagesCoreService

/-! ## The stream of a pair -/

namespace MessagesRepository

/-- A member a private message may be addressed to is active and may chat. -/
theorem target_some {db : Db} {now : Time} {roomId actorId : Uuid} {row : TargetRow}
    (h : target db now roomId actorId = some row) :
    ∃ m ∈ db.roomMembers, ∃ p ∈ db.membershipPeriods, ∃ u ∈ db.users, m.roomId = roomId ∧
      m.id = actorId ∧ row.id = m.id ∧ m.status = .active ∧ m.activePeriodId = some p.id ∧
      p.roomId = m.roomId ∧ p.memberId = m.id ∧ p.leftAt = none ∧ u.id = m.userId ∧
      chatUser db now u ∧ (row.delegated = true ↔ delegatedMemberSql db now m) ∧
      (row.delegated = false → row.role = m.role) ∧ (row.delegated = true → row.role = .streamer) := by
  simp only [target, Option.bind_eq_bind, Option.bind_eq_some_iff, Option.pure_def,
    Option.some.injEq] at h
  obtain ⟨m, hm, p, hp, u, hu, rfl⟩ := h
  have hmember := Table.holds_of_find? hm
  have hperiod := Table.holds_of_find? hp
  have huser := Table.holds_of_find? hu
  refine ⟨m, Table.mem_of_find? hm, p, Table.mem_of_find? hp, u, Table.mem_of_find? hu, hmember.1,
    hmember.2.1, rfl, hmember.2.2, hperiod.1, hperiod.2.1, hperiod.2.2.1, hperiod.2.2.2, huser.1,
    huser.2, by simp, ?_, ?_⟩
  · intro hno
    simp only at hno ⊢
    rw [if_neg (by simpa using hno)]
  · intro hyes
    simp only at hyes ⊢
    rw [if_pos (by simpa using hyes)]

/-- The grants of a new pair: the delegated actor has none of its rights. -/
theorem createPair_grants {s t : Db} {now : Time} {ids : Nat → Uuid}
    {roomId streamId left right : Uuid} {delegated : Option Uuid} (hs : Wired s)
    (h : createPair s now ids roomId streamId left right delegated = .ok t) {g : StreamGrant}
    (hg : g ∈ t.streamGrants) (hstream : g.streamId = streamId) :
    g.canRead = true ↔ delegated ≠ some g.memberId := by
  have hpaired := createPair_ok h
  simp only [createPair, bind_ok, require_ok, pure_ok] at h
  obtain ⟨streams, hstreams, pairs, -, grants, hgrants, rfl⟩ := h
  rcases (Table.mem_insertAll hgrants).mp hg with hg | hg
  · -- No stored grant uses the new stream.
    obtain ⟨st, hst, hid, -⟩ := hs.grantStream g hg
    exact absurd (hid.trans hstream) (MessageStream.fresh hstreams hst)
  · simp only [List.mapIdx_cons, List.mapIdx_nil, List.mem_cons, List.not_mem_nil, or_false] at hg
    rcases hg with rfl | rfl <;> simp

end MessagesRepository

namespace MessagesCoreService

open MessagesRepository

/-- The grants that admitted a private send, one of each side. -/
theorem admitted_target {db : Db} {now : Time} {roomId streamId : Uuid} {viewer : ActiveMember}
    {tgt : TargetRow} (hne : tgt.id ≠ viewer.id)
    (h : SendAdmitted viewer tgt (sendGrants db now roomId streamId (min viewer.id tgt.id)
      (max viewer.id tgt.id))) :
    ∃ g ∈ db.streamGrants, g.roomId = roomId ∧ g.streamId = streamId ∧ g.memberId = tgt.id ∧
      Effective now g ∧ (tgt.delegated = true ∨ g.canRead = true) := by
  obtain ⟨hlen, hall⟩ := h
  have hside : ∀ g ∈ sendGrants db now roomId streamId (min viewer.id tgt.id)
      (max viewer.id tgt.id), g.memberId = viewer.id ∨ g.memberId = tgt.id := by
    intro g hg
    obtain ⟨-, -, -, hmember, -⟩ := mem_sendGrants.mp hg
    rcases le_total viewer.id tgt.id with hle | hle
    · rwa [min_eq_left hle, max_eq_right hle] at hmember
    · rw [min_eq_right hle, max_eq_left hle] at hmember
      exact hmember.symm
  -- Two grants cannot both be the sender's, which has one in the stream.
  obtain ⟨g, hg, hmember⟩ : ∃ g ∈ sendGrants db now roomId streamId (min viewer.id tgt.id)
      (max viewer.id tgt.id), g.memberId = tgt.id := by
    by_contra hno
    push Not at hno
    have hsame : ∀ g ∈ sendGrants db now roomId streamId (min viewer.id tgt.id)
        (max viewer.id tgt.id), ∀ k ∈ sendGrants db now roomId streamId (min viewer.id tgt.id)
        (max viewer.id tgt.id), g = k := by
      intro g hg k hk
      obtain ⟨hgdb, -, hgs, -⟩ := mem_sendGrants.mp hg
      obtain ⟨hkdb, -, hks, -⟩ := mem_sendGrants.mp hk
      have hgm := (hside g hg).resolve_right (hno g hg)
      have hkm := (hside k hk).resolve_right (hno k hk)
      exact Table.eq_of_key hgdb hkdb (k := (1, [g.streamId, g.memberId])) (.tail _ (.head _))
        (by rw [hgs, hgm, ← hks, ← hkm]; exact .tail _ (.head _))
    have hnodup := sendGrants_nodup db now roomId streamId (min viewer.id tgt.id)
      (max viewer.id tgt.id)
    revert hlen hsame hnodup
    generalize sendGrants db now roomId streamId _ _ = grants
    intro hlen hsame hnodup
    match grants, hlen with
    | [g, k], _ =>
      have heq := hsame g List.mem_cons_self k (.tail _ (.head _))
      rw [heq] at hnodup
      exact (List.nodup_cons.mp hnodup).1 List.mem_cons_self
  obtain ⟨hgdb, hroom, hstream, -, heffective⟩ := mem_sendGrants.mp hg
  have hadmits := hall g hg
  rw [if_neg (by rw [hmember]; exact hne)] at hadmits
  exact ⟨g, hgdb, hroom, hstream, hmember, heffective, hadmits⟩

/-- Who reads what a private send adds to its stream, besides the sender. -/
structure PairReads (s t : Db) (now : Time) (viewer : ActiveMember) (tgt : TargetRow)
    (streamId : Uuid) : Prop where
  stream : ∃ st ∈ t.messageStreams, st.id = streamId ∧ st.roomId = viewer.roomId ∧
    st.kind = .restricted
  others : ∀ memberId, memberId ≠ viewer.id → Granted t now viewer.roomId streamId memberId →
    memberId = tgt.id
  target : tgt.delegated = false → Granted t now viewer.roomId streamId tgt.id
  delegated : tgt.delegated = true → viewer.temporaryGrantId = none →
    (Granted t now viewer.roomId streamId tgt.id ↔
      ∃ p, pair s viewer.roomId (min viewer.id tgt.id) (max viewer.id tgt.id) = some p ∧
        ∃ g ∈ s.streamGrants, g.streamId = p.streamId ∧ g.memberId = tgt.id ∧ g.canRead = true)

theorem privateStream_reads {s t : Db} {now : Time} {ids : Nat → Uuid} {viewer : ActiveMember}
    {recipient : Option Uuid} {streamId : Uuid} (hs : Wired s) (ht : Wired t)
    (h : privateStream s now ids viewer recipient = .ok (t, streamId)) :
    ∃ tgt, recipient = some tgt.id ∧ target s now viewer.roomId tgt.id = some tgt ∧
      tgt.id ≠ viewer.id ∧ FanPair viewer tgt ∧ PairReads s t now viewer tgt streamId := by
  obtain ⟨actorId, tgt, hrecipient, hself, htarget, hpair, -, hstream, hadmitted⟩ :=
    privateStream_ok h
  have hid : tgt.id = actorId := target_id htarget
  rw [← hid] at htarget hself hrecipient
  refine ⟨tgt, hrecipient, htarget, hself, hpair, ?_⟩
  obtain ⟨g, hg, hgroom, hgstream, hgmember, hgeffective, hgread⟩ := admitted_target hself hadmitted
  -- A grant of the stream and the member is this one.
  have hunique : ∀ k ∈ t.streamGrants, k.streamId = streamId → k.memberId = tgt.id → k = g := by
    intro k hk hks hkm
    exact Table.eq_of_key hk hg (k := (1, [k.streamId, k.memberId])) (.tail _ (.head _))
      (by rw [hks, hkm, ← hgstream, ← hgmember]; exact .tail _ (.head _))
  have hread : Granted t now viewer.roomId streamId tgt.id ↔ g.canRead = true := by
    constructor
    · rintro ⟨k, hk, -, hks, hkm, -, hkread⟩
      rwa [← hunique k hk hks hkm]
    · intro hyes
      exact ⟨g, hg, hgroom, hgstream, hgmember, hgeffective, hyes⟩
  refine ⟨?_, ?_, ?_, ?_⟩
  · obtain ⟨st, hst, hstid, hstroom, hkind⟩ := ht.grantStream g hg
    exact ⟨st, hst, hstid.trans hgstream, hstroom.trans hgroom, hkind⟩
  · rintro memberId hne ⟨k, hk, -, hks, hkm, -, -⟩
    obtain ⟨p, hp, hps, hsides⟩ : ∃ p ∈ t.streamPairs, p.streamId = streamId ∧
        (p.leftMemberId = min viewer.id tgt.id ∧ p.rightMemberId = max viewer.id tgt.id) := by
      rcases pairStream_ok hstream with ⟨rfl, p, hp, hps⟩ | ⟨-, hpaired⟩
      · have hholds := Table.holds_of_find? hp
        exact ⟨p, Table.mem_of_find? hp, hps, hholds.2.1, hholds.2.2⟩
      · obtain ⟨p, hps, -, hleft, hright, hall⟩ := hpaired.pair
        exact ⟨p, (hall p).mpr (.inr rfl), hps, hleft, hright⟩
    have hin := ht.pairGrants p hp k hk (hks.trans hps.symm)
    rw [hkm, hsides.1, hsides.2] at hin
    rcases le_total viewer.id tgt.id with hle | hle
    · rw [min_eq_left hle, max_eq_right hle] at hin
      exact hin.resolve_left hne
    · rw [min_eq_right hle, max_eq_left hle] at hin
      exact hin.resolve_right hne
  · intro hno
    exact hread.mpr (hgread.resolve_left (by rw [hno]; simp))
  · intro hyes htemporary
    rw [hread]
    rcases pairStream_ok hstream with ⟨rfl, p, hp, hps⟩ | ⟨hnone, -⟩
    · constructor
      · intro hcan
        exact ⟨p, hp, g, hg, hgstream.trans hps.symm, hgmember, hcan⟩
      · rintro ⟨q, hq, k, hk, hks, hkm, hkread⟩
        rw [hp, Option.some.injEq] at hq
        rw [← hq, hps] at hks
        rwa [← hunique k hk hks hkm]
    · -- A new pair leaves the delegated side without rights.
      constructor
      · intro hcan
        unfold pairStream at hstream
        simp only [hnone, bind_ok, pure_ok] at hstream
        obtain ⟨a, ha, heq⟩ := hstream
        cases heq
        rw [if_neg (by simp [htemporary]), if_pos hyes] at ha
        exact absurd (by rw [hgmember]) ((createPair_grants hs ha hg hgstream).mp hcan)
      · rintro ⟨p, hp, -⟩
        rw [hnone] at hp
        cases hp

end MessagesCoreService

/-! ## Where a send goes -/

namespace MessagesCoreService

open MessagesRepository

/-- A pending inbox is read by its fan alone. -/
theorem inboxStream_reads {s t : Db} {now : Time} {ids : Nat → Uuid} {room : Room}
    {awaiting : Bool} {viewer : ActiveMember} {streamId : Uuid} (hs : Wired s) (ht : Wired t)
    (h : inboxStream s now ids room awaiting viewer = .ok (t, streamId)) :
    (∃ st ∈ t.messageStreams, st.id = streamId ∧ st.roomId = room.id ∧ st.kind = .restricted) ∧
      ∀ memberId, Granted t now room.id streamId memberId → memberId = viewer.id := by
  obtain ⟨-, hinbox, hlen, -⟩ := inboxStream_ok h
  obtain ⟨g, hg⟩ := List.exists_mem_of_length_pos (by omega : 0 < (sendGrants t now room.id streamId
    viewer.id viewer.id).length)
  obtain ⟨hgdb, hgroom, hgstream, hgmember, -⟩ := mem_sendGrants.mp hg
  refine ⟨?_, ?_⟩
  · obtain ⟨st, hst, hid, hroom, hkind⟩ := ht.grantStream g hgdb
    exact ⟨st, hst, hid.trans hgstream, hroom.trans hgroom, hkind⟩
  · have hunpaired : ¬t.PairOf streamId := by
      rcases pendingInbox_ok hinbox with ⟨rfl, st, hst, hid⟩ | ⟨hinsert, -⟩
      · rw [← hid]
        exact (mem_inboxes hs hst).2.2.1
      · rintro ⟨p, hp, hps⟩
        rw [(pendingInbox_writes hinbox).streamPairs (by simp)] at hp
        obtain ⟨st, hst, hid, -⟩ := hs.pairStream p hp
        exact MessageStream.fresh hinsert hst (hid.trans hps)
    rintro memberId ⟨k, hk, -, hks, hkm, -⟩
    have hsame := ht.inbox k hk g hgdb (hks.trans hgstream.symm) (by rwa [hks])
    rw [← hkm, hsame]
    rcases hgmember with hgm | hgm <;> exact hgm

/-- The ways a new message finds its stream, with what each checked. -/
theorem resolveStream_cases {s t : Db} {now : Time} {ids : Nat → Uuid} {room : Room}
    {owner : Option RoomSendOwner} {awaiting : Bool} {viewer : ActiveMember} {intent : Intent}
    {recipient : Option Uuid} {streamId : Uuid}
    (h : resolveStream s now ids room owner awaiting viewer intent recipient = .ok (t, streamId)) :
    (intent = .roomOwner ∧ viewer.role = .fan ∧ room.ownerMemberId = none ∧
      inboxStream s now ids room awaiting viewer = .ok (t, streamId)) ∨
    (intent = .shared ∧ t = s ∧ ∃ stream, sharedStreams s viewer.roomId = [stream] ∧
      streamId = stream.id) ∨
    ∃ recipient', (intent = .private_ ∧ recipient' = recipient ∧
        (viewer.mode = .fan → viewer.role = .fan → recipient = room.ownerMemberId) ∨
      intent = .roomOwner ∧ viewer.role = .fan ∧ recipient' = room.ownerMemberId) ∧
      privateStream s now ids viewer recipient' = .ok (t, streamId) := by
  unfold resolveStream at h
  split at h
  · rename_i hinbox
    exact .inl ⟨hinbox.1, hinbox.2.2.1, hinbox.2.2.2, h⟩
  · simp only [bind_ok, ensure_ok] at h
    obtain ⟨-, -, -, howner, -, hfan, h⟩ := h
    right
    split at h
    · rename_i hroom
      rcases sendStream_ok h with ⟨heq, -⟩ | ⟨-, h⟩
      · cases heq
      · exact .inr ⟨_, .inr ⟨hroom, (howner hroom).2, rfl⟩, h⟩
    · rename_i hroom
      rcases sendStream_ok h with ⟨hshared, rfl, hstream⟩ | ⟨hshared, h⟩
      · exact .inl ⟨hshared, rfl, hstream⟩
      · have hprivate : intent = .private_ := by cases intent <;> simp_all
        exact .inr ⟨recipient, .inl ⟨hprivate, rfl, fun hmode hrole => hfan ⟨hmode, hrole, hprivate⟩⟩, h⟩

/-- The message a send created, as it loads. -/
theorem create_fresh {s t : Db} {w : Bool} {now : Time} {ids : Nat → Uuid} {userId : Uuid}
    {viewer : ActiveMember} {input : SendInput} {streamId : Uuid} {reply : SendReceipt}
    {st : MessageStream} {r : Room} {m : RoomMember} {u : User}
    (h : create s now ids r.id userId viewer input streamId = .ok (t, reply))
    (hst : st ∈ s.messageStreams) (hstroom : st.roomId = r.id) (hstid : st.id = streamId)
    (hr : r ∈ s.rooms) (hmode : r.mode = .fan) (hm : m ∈ s.roomMembers) (hmroom : m.roomId = r.id)
    (hmid : m.id = viewer.id) (hu : u ∈ s.users) (huid : u.id = userId)
    (hkept : u.status.leaving = false) :
    ∃ row, load t w r.id reply.messageId = some row ∧
      Fresh row r.id streamId viewer.id st.kind r.ownerMemberId ∧
      row.createdOrder = s.order r.id + 1 := by
  have hw := create_writes h
  obtain ⟨a, b, c, d, order, ha, hb, hc, hd, he, rfl⟩ := create_ok h
  have horder := (RoomStateService.nextOrder_taken ha).next
  obtain ⟨hinsert, -⟩ := insertMessage_ok hb
  -- the receipt, the sticker and the event leave the message that was inserted
  have hstored : newMessage now (ids 4) r.id streamId viewer.id userId input.quoteId input.content
      order ∈ t.messages := by
    rw [(event_ok he).2.messages (by simp), (insertReceipt_ok hd).2.messages (by simp),
      (attachSticker_writes hc).messages (by simp)]
    exact (Table.mem_insert hinsert).mpr (.inr rfl)
  obtain ⟨row, hload, hrow, hkind, hmode', howner, hstatus, hroot⟩ := load_of_rows (w := w) hstored
    (hw.messageStreams (by simp) ▸ hst) hstroom hstid (hw.rooms (by simp) ▸ hr) rfl
    (hw.roomMembers (by simp) ▸ hm) hmroom hmid
    (hw.users (by simp) ▸ hu) huid
  refine ⟨row, hload, ?_, ?_⟩
  · exact
      { roomId_eq := congrArg Message.roomId hrow
        stream := congrArg Message.streamId hrow
        sender := congrArg Message.senderMemberId hrow
        kind_eq := hkind
        owner_eq := howner
        mode := hmode'.trans hmode
        live := congrArg Message.deletedAt hrow
        unmoderated := congrArg Message.moderated hrow
        original := congrArg Message.deletionRootId hrow
        unblocked := hroot
        kept := by rw [hstatus, hkept] }
  · rw [← horder]
    exact congrArg Message.createdOrder hrow

end MessagesCoreService

/-! ## Active members around a send -/

namespace MembershipRepository

theorem findActive_of_row {db : Db} (w : Bool) (now : Time) {roomId userId : Uuid} {m : RoomMember}
    {r : Room} {p : MembershipPeriod} (h : ActiveRow db roomId userId m r p) :
    ∃ v, findActive db w now roomId userId = some v ∧ v.id = m.id := by
  have hmember : (db.roomMembers.find? fun m => m.roomId = roomId ∧ m.userId = userId ∧
      m.status = .active) = some m := by
    refine Table.find?_eq_some h.member ⟨h.memberRoom, h.memberUser, h.memberActive⟩
      (k := (1, [roomId, userId])) ?_ ?_
    · rw [← h.memberRoom, ← h.memberUser]
      exact .tail _ (.head _)
    · rintro x ⟨hx, hx', -⟩
      rw [← hx, ← hx']
      exact .tail _ (.head _)
  have hroom : (db.rooms.find? fun r => r.id = m.roomId ∧ r.status = .active) = some r := by
    refine Table.find?_eq_some h.room ⟨h.roomId_eq.trans h.memberRoom.symm, h.roomActive⟩
      (k := (0, [r.id])) List.mem_cons_self ?_
    rintro x ⟨hx, -⟩
    rw [h.roomId_eq, ← h.memberRoom, ← hx]
    exact List.mem_cons_self
  have hperiod : (db.membershipPeriods.find? fun p => m.activePeriodId = some p.id ∧
      p.roomId = m.roomId ∧ p.memberId = m.id ∧ p.leftAt = none) = some p := by
    refine Table.find?_eq_some h.period ⟨h.points, h.periodRoom.trans h.memberRoom.symm,
      h.periodMember, h.periodOpen⟩ (k := (0, [p.id])) List.mem_cons_self ?_
    rintro x ⟨hx, -⟩
    rw [h.points, Option.some.injEq] at hx
    rw [hx]
    exact List.mem_cons_self
  refine ⟨project db w now
    { id := m.id, roomId := m.roomId, userId := m.userId, role := m.role, mode := r.mode,
      activePeriodId := p.id, visibleFromOrder := p.visibleFromOrder }, ?_, by simp⟩
  simp only [findActive, activeRow, hmember, hroom, hperiod, Option.bind_eq_bind, Option.bind_some,
    Option.pure_def, Option.map_some]

/-- The rows of one membership are determined by its member. -/
theorem ActiveRow.unique {db : Db} {roomId userId userId' : Uuid} {m m' : RoomMember} {r r' : Room}
    {p p' : MembershipPeriod} (h : ActiveRow db roomId userId m r p)
    (h' : ActiveRow db roomId userId' m' r' p') (hid : m.id = m'.id) : m = m' ∧ r = r' := by
  refine ⟨Table.eq_of_key h.member h'.member (k := (0, [m.id])) List.mem_cons_self ?_,
    Table.eq_of_key h.room h'.room (k := (0, [r.id])) List.mem_cons_self ?_⟩
  · rw [hid]
    exact List.mem_cons_self
  · rw [h.roomId_eq, ← h'.roomId_eq]
    exact List.mem_cons_self

end MembershipRepository

theorem chatUser_congr {ts : List TableName} {s t : Db} (h : Db.Writes ts s t)
    (hsoop : .platformSoop ∉ ts) (hidentities : .authIdentities ∉ ts)
    {now : Time} {u : User} : chatUser t now u ↔ chatUser s now u := by
  have hs : t.platformSoop = s.platformSoop := h .platformSoop hsoop
  have hi : t.authIdentities = s.authIdentities := h .authIdentities hidentities
  unfold chatUser chatAccountSql
  rw [hs, hi]

/-- An active member stays one over a change that keeps member rows. -/
theorem ActiveAs.transfer {s t : Db} {w : Bool} {now : Time} {roomId : Uuid} {u : User}
    {v : ActiveMember} (h : ActiveAs s w now roomId u v) (husers : t.users = s.users)
    (hchat : chatUser t now u ↔ chatUser s now u) (hmembers : t.roomMembers = s.roomMembers)
    (hrooms : t.rooms = s.rooms) (hperiods : t.membershipPeriods = s.membershipPeriods) :
    ∃ v', ActiveAs t w now roomId u v' ∧ v'.id = v.id := by
  obtain ⟨m, r, p, hrow, hid, -⟩ := MembershipRepository.findActive_role h.member
  have hrow' : MembershipRepository.ActiveRow t roomId u.id m r p :=
    { hrow with
      member := hmembers ▸ hrow.member
      room := hrooms ▸ hrow.room
      period := hperiods ▸ hrow.period }
  obtain ⟨v', hv', hid'⟩ := MembershipRepository.findActive_of_row w now hrow'
  exact ⟨v', ⟨husers ▸ h.user, hchat.mpr h.chat, hv'⟩, hid'.trans hid.symm⟩

/-- The recipient of a private send is an active member, before and after it. Only a
fan still counts under its delegation. -/
theorem MessagesRepository.target_active {s t : Db} {w : Bool} {now : Time} {room : Room}
    {tgt : TargetRow} {ts : List TableName} (hw : Db.Writes ts s t)
    (hts : .users ∉ ts ∧ .rooms ∉ ts ∧ .membershipPeriods ∉ ts ∧ .roomTestGrants ∉ ts ∧
      .adminCapabilities ∉ ts ∧ .platformSoop ∉ ts ∧ .authIdentities ∉ ts)
    (hlevel : Level s t) (hseat : ∀ id, t.seat id = s.seat id) (hroom : room ∈ s.rooms)
    (hactive : room.status = .active) (hmode : room.mode = .fan)
    (h : MessagesRepository.target s now room.id tgt.id = some tgt) :
    ∃ m ∈ s.roomMembers, m.id = tgt.id ∧ (tgt.delegated = true ↔ delegatedMemberSql s now m) ∧
      (∃ u v, ActiveAs t w now room.id u v ∧ v.id = tgt.id) ∧
      ∀ u v, ActiveAs t w now room.id u v → v.id = tgt.id →
        (m.role ≠ .fan → v.temporaryGrantId = none) ∧
        (m.role = .fan → delegatedMemberSql s now m → v.temporaryGrantId ≠ none) := by
  obtain ⟨m, hm, p, hp, u, hu, hmroom, hmid, -, hstatus, hpoints, hproom, hpmember, hopen, huid, hchat,
    hdelegated, -, -⟩ := MessagesRepository.target_some h
  -- The member's row after the send: the same seat and the same role.
  have hmseat := Db.seat_of_mem hm
  rw [← hseat] at hmseat
  obtain ⟨m', hm', hid', hsame⟩ := Db.mem_of_seat hmseat
  obtain ⟨n, hn, hnid, -, hnrole⟩ := hlevel.members m' hm'
  have hnm : n = m := Table.eq_of_key hn hm (k := (0, [n.id])) List.mem_cons_self
    (by rw [hnid, hid']; exact List.mem_cons_self)
  have hrole : m'.role = m.role := by rw [← hnrole, hnm]
  have hroom' : m'.roomId = m.roomId := congrArg Seat.roomId hsame
  have huser' : m'.userId = m.userId := congrArg Seat.userId hsame
  have hperiod' : m'.activePeriodId = m.activePeriodId := congrArg Seat.period hsame
  have hrow : MembershipRepository.ActiveRow t room.id u.id m' room p :=
    { member := hm'
      room := hw.rooms hts.2.1 ▸ hroom
      period := hw.membershipPeriods hts.2.2.1 ▸ hp
      memberRoom := hroom'.trans hmroom
      memberUser := huser'.trans huid.symm
      memberActive := (congrArg Seat.status hsame).trans hstatus
      roomId_eq := rfl
      roomActive := hactive
      points := hperiod'.trans hpoints
      periodRoom := hproom.trans hmroom
      periodMember := hpmember.trans hid'.symm
      periodOpen := hopen }
  have hlive : delegatedMemberSql s now m → delegatedMemberSql t now m' := by
    unfold delegatedMemberSql
    rw [hid', hroom', huser', hperiod', hw.users hts.1, hw.roomTestGrants hts.2.2.2.1,
      hw.adminCapabilities hts.2.2.2.2.1]
    exact id
  refine ⟨m, hm, hmid, hdelegated, ?_, ?_⟩
  · obtain ⟨v, hv, hvid⟩ := MembershipRepository.findActive_of_row w now hrow
    refine ⟨u, v, ⟨hw.users hts.1 ▸ hu, ?_, hv⟩, hvid.trans (hid'.trans hmid)⟩
    exact (chatUser_congr hw hts.2.2.2.2.2.1 hts.2.2.2.2.2.2).mpr hchat
  · intro x v hv hvid
    obtain ⟨m₁, r₁, p₁, hrow₁, hid₁, -, -, -, -, hcases⟩ :=
      MembershipRepository.findActive_role hv.member
    obtain ⟨rfl, rfl⟩ := hrow₁.unique hrow (hid₁.symm.trans (hvid.trans (hmid.symm.trans hid'.symm)))
    refine ⟨?_, ?_⟩
    · intro hne
      rcases hcases with ⟨hnone, -⟩ | ⟨-, -, hfan, -⟩
      · exact hnone
      · exact absurd (hrole.symm.trans hfan) hne
    · intro hfan hd
      exact MembershipRepository.findActive_delegated hv.member hrow₁ hmode (hrole.trans hfan)
        (hlive hd)

/-! ## The audience -/

namespace MessagesCoreService

open MessagesRepository

/-- The audience of a message that was just created, by the kind of its stream. -/
theorem reachesAudience_iff {s t : Db} {w : Bool} {now : Time} {ids : Nat → Uuid} {userId : Uuid}
    {sender : ActiveMember} {input : SendInput} {streamId : Uuid} {reply : SendReceipt}
    {st : MessageStream} {r : Room} {m : RoomMember} {u : User} (hs : Ranked s)
    (h : create s now ids r.id userId sender input streamId = .ok (t, reply))
    (hst : st ∈ s.messageStreams) (hstroom : st.roomId = r.id) (hstid : st.id = streamId)
    (hr : r ∈ s.rooms) (hmode : r.mode = .fan) (hm : m ∈ s.roomMembers) (hmroom : m.roomId = r.id)
    (hmid : m.id = sender.id) (hu : u ∈ s.users) (huid : u.id = userId)
    (hkept : u.status.leaving = false) :
    ReachesAudience t w now r sender input reply.messageId ↔
      ∀ x v, ActiveAs t w now r.id x v → v.id ≠ sender.id →
        (Reader t now st.kind r.id streamId sender.id r.ownerMemberId v ↔
          Announced r sender input v) := by
  obtain ⟨row, hload, hfresh, horder⟩ := create_fresh (w := w) h hst hstroom hstid hr hmode hm
    hmroom hmid hu huid hkept
  have hread : ∀ x v, ActiveAs t w now r.id x v → (allowed t now v row = true ↔
      Reader t now st.kind r.id streamId sender.id r.ownerMemberId v) := by
    intro x v hv
    obtain ⟨n, q, p, hrow, -, hvroom, -, hfrom, -⟩ := MembershipRepository.findActive_role hv.member
    have hboundary : v.visibleFromOrder ≤ row.createdOrder := by
      have hp : p ∈ s.membershipPeriods :=
        (create_writes h).membershipPeriods (by simp) ▸ hrow.period
      have hle := hs.boundaries p hp
      rw [hrow.periodRoom] at hle
      omega
    exact fresh_allowed hfresh hvroom hboundary
  constructor
  · rintro ⟨row', hload', hall⟩ x v hv hne
    rw [hload, Option.some.injEq] at hload'
    rw [← hread x v hv, hload']
    exact hall x v hv hne
  · intro hall
    exact ⟨row, hload, fun x v hv hne => (hread x v hv).trans (hall x v hv hne)⟩

/-- A message in the room's own stream reaches every member if the owner wrote it, and the
owner alone if a delegate did. -/
theorem shared_audience {s t : Db} {w : Bool} {now : Time} {room : Room} {sender : ActiveMember}
    {userId streamId : Uuid} {m : RoomMember} {p : MembershipPeriod} {ts : List TableName}
    (hw : Db.Writes ts s t)
    (hts : .users ∉ ts ∧ .rooms ∉ ts ∧ .roomMembers ∉ ts ∧ .membershipPeriods ∉ ts ∧
      .platformSoop ∉ ts ∧ .authIdentities ∉ ts)
    (hranked : Ranked s) (hmode : room.mode = .fan)
    (hrow : MembershipRepository.ActiveRow s room.id userId m room p) (hid : sender.id = m.id)
    (hrole : sender.temporaryGrantId = none ∧ sender.role = m.role ∨
      sender.temporaryGrantId ≠ none ∧ sender.role = .streamer ∧ m.role = .fan ∧ room.mode = .fan)
    (hnofan : sender.role ≠ .fan) :
    (∀ y v, ActiveAs t w now room.id y v → v.id ≠ sender.id →
      Reader t now .roomShared room.id streamId sender.id room.ownerMemberId v) ↔
      DelegateAlone s w now room sender := by
  obtain ⟨husers, hrooms, hmembers, hperiods, hsoop, hidentities⟩ := hts
  have hback : ∀ y v, ActiveAs s w now room.id y v →
      ∃ v', ActiveAs t w now room.id y v' ∧ v'.id = v.id :=
    fun y v hv => hv.transfer (hw.users husers) (chatUser_congr hw hsoop hidentities)
      (hw.roomMembers hmembers) (hw.rooms hrooms) (hw.membershipPeriods hperiods)
  have hforth : ∀ y v, ActiveAs t w now room.id y v →
      ∃ v', ActiveAs s w now room.id y v' ∧ v'.id = v.id :=
    fun y v hv => hv.transfer (hw.users husers).symm (chatUser_congr hw hsoop hidentities).symm
      (hw.roomMembers hmembers).symm (hw.rooms hrooms).symm (hw.membershipPeriods hperiods).symm
  simp only [Reader]
  constructor
  · intro hall _ hnotowner y v hv
    obtain ⟨v', hv', hid'⟩ := hback y v hv
    by_cases hself : v.id = sender.id
    · exact .inl hself
    · rcases hall y v' hv' (by rwa [hid']) with heq | howner | howner
      · exact absurd (heq.trans hid').symm hself
      · exact .inr (by rw [howner, hid'])
      · exact absurd howner hnotowner
  · intro halone y v hv hne
    by_cases howner : room.ownerMemberId = some sender.id
    · exact .inr (.inr howner)
    -- a streamer that is no delegate owns the room
    have hdelegate : sender.temporaryGrantId ≠ none := by
      intro hnone
      rcases hrole with ⟨-, hstored⟩ | ⟨hsome, -⟩
      · obtain ⟨r, hr, hrid, hstreamer, hmember⟩ := hranked.members m hrow.member
        obtain rfl : r = room := Table.eq_of_key hr hrow.room (k := (0, [r.id])) List.mem_cons_self
          (by rw [hrid, hrow.memberRoom]; exact List.mem_cons_self)
        cases hmrole : m.role with
        | fan => exact hnofan (hstored.trans hmrole)
        | streamer => exact howner ((hstreamer hmrole).trans (by rw [hid]))
        | member => exact hmember hmode hmrole
      · exact hsome hnone
    obtain ⟨v', hv', hid'⟩ := hforth y v hv
    rcases halone hdelegate howner y v' hv' with hself | hown
    · exact absurd (hid'.symm.trans hself) hne
    · exact .inr (.inl (by rw [hown, hid']))

/-- The audience a private send announces is its recipient and the delegates. -/
theorem announced_private {room : Room} {sender v : ActiveMember} {input : SendInput}
    {recipient : Option Uuid} {actorId : Uuid}
    (h : effectiveIntent sender input.intent = .private_ ∧ recipient = input.recipientActorId ∨
      effectiveIntent sender input.intent = .roomOwner ∧ sender.role = .fan ∧
        recipient = room.ownerMemberId) (hactor : recipient = some actorId) :
    Announced room sender input v ↔ v.id = actorId ∨ v.temporaryGrantId ≠ none := by
  have hcomm : some actorId = some v.id ↔ v.id = actorId := by
    rw [Option.some.injEq, eq_comm]
  unfold Announced
  rcases h with ⟨hprivate, hrecipient⟩ | ⟨hroom, hrole, hrecipient⟩
  · have hintent : input.intent = .private_ := by
      unfold effectiveIntent at hprivate
      split at hprivate
      · cases hprivate
      · exact hprivate
    rw [if_pos hintent, ← hrecipient, hactor, hcomm]
  · have hintent : input.intent ≠ .private_ := by
      intro heq
      simp [effectiveIntent, heq] at hroom
    rw [if_neg hintent, if_pos (.inr hrole), ← hrecipient, hactor, hcomm]

/-- A private send reaches its recipient unless that is an owner whose delegation is
still live and whose stream with the sender gives it nothing. -/
theorem private_audience {s t : Db} {w : Bool} {now : Time} {room : Room} {sender : ActiveMember}
    {tgt : TargetRow} {streamId : Uuid} {ts : List TableName} (hw : Db.Writes ts s t)
    (hts : .users ∉ ts ∧ .rooms ∉ ts ∧ .membershipPeriods ∉ ts ∧ .roomTestGrants ∉ ts ∧
      .adminCapabilities ∉ ts ∧ .platformSoop ∉ ts ∧ .authIdentities ∉ ts)
    (hlevel : Level s t) (hseat : ∀ id, t.seat id = s.seat id) (hroom : room ∈ s.rooms)
    (hactive : room.status = .active) (hmode : room.mode = .fan) (hin : sender.roomId = room.id)
    (hsmode : sender.mode = .fan) (hrole : sender.role = .fan → sender.temporaryGrantId = none)
    (htarget : target s now sender.roomId tgt.id = some tgt) (hpair : FanPair sender tgt)
    (howner : sender.role = .fan → room.ownerMemberId = some tgt.id)
    (hne : tgt.id ≠ sender.id) (hreads : PairReads s t now sender tgt streamId) :
    (∀ x v, ActiveAs t w now room.id x v → v.id ≠ sender.id →
      (v.temporaryGrantId ≠ none ∨ Granted t now room.id streamId v.id ↔
        v.id = tgt.id ∨ v.temporaryGrantId ≠ none)) ↔
      (sender.role = .fan → OwnerGranted s now room sender) := by
  rw [hin] at htarget
  have hgranted : ∀ memberId, Granted t now room.id streamId memberId ↔
      Granted t now sender.roomId streamId memberId := by
    intro memberId
    rw [hin]
  obtain ⟨m, hm, hmid, hdelegated, ⟨x₀, v₀, hv₀, hid₀⟩, hall⟩ :=
    target_active (w := w) hw hts hlevel hseat hroom hactive hmode htarget
  constructor
  · intro hreach hfan m' hm' howner' hne' hlive
    -- The owner is the recipient, and no delegate any more.
    have hmtgt : m'.id = tgt.id := Option.some.inj (howner'.symm.trans (howner hfan))
    have hsame : m' = m := Table.eq_of_key hm' hm (k := (0, [m'.id])) List.mem_cons_self
      (by rw [hmtgt, ← hmid]; exact List.mem_cons_self)
    have hnone := (hall x₀ v₀ hv₀ hid₀).1 (hsame ▸ hne')
    have hread := ((hreach x₀ v₀ hv₀ (hid₀ ▸ hne)).mpr (.inl hid₀)).resolve_left (not_not.mpr hnone)
    rw [hid₀, hgranted] at hread
    rw [← hin, hmtgt]
    exact (hreads.delegated (hdelegated.mpr (hsame ▸ hlive)) (hrole hfan)).mp hread
  · intro hcondition x v hv hvne
    rw [hgranted]
    constructor
    · rintro (htemporary | hread)
      · exact .inr htemporary
      · exact .inl (hreads.others v.id hvne hread)
    · rintro (hid | htemporary)
      swap
      · exact .inl htemporary
      rw [hid]
      cases hd : tgt.delegated with
      | false => exact .inr (hreads.target hd)
      | true =>
        have hlive := hdelegated.mp hd
        by_cases hmfan : m.role = .fan
        · exact .inl ((hall x v hv hid).2 hmfan hlive)
        · -- A streamer writes to fans alone, so that the sender is one.
          have hfan : sender.role = .fan := by
            rcases hpair hsmode with ⟨hfan, -⟩ | ⟨-, htfan⟩
            · exact hfan
            · obtain ⟨-, -, -, -, -, -, -, -, -, -, -, -, -, -, -, -, -, -, hstreamer⟩ :=
                target_some htarget
              rw [hstreamer hd] at htfan
              cases htfan
          obtain ⟨p, hp, hgrant⟩ := hcondition hfan m hm
            ((howner hfan).trans (by rw [hmid])) hmfan hlive
          rw [hmid, ← hin] at hp
          rw [hmid] at hgrant
          exact .inr ((hreads.delegated hd (hrole hfan)).mpr ⟨p, hp, hgrant⟩)

theorem Granted.congr {s t : Db} (h : t.streamGrants = s.streamGrants) {now : Time}
    {roomId streamId memberId : Uuid} :
    Granted t now roomId streamId memberId ↔ Granted s now roomId streamId memberId := by
  unfold Granted
  rw [h]

/-- Writing the message changes nothing about who reads its stream. -/
theorem PairReads.frame {s u t : Db} {now : Time} {viewer : ActiveMember} {tgt : TargetRow}
    {streamId : Uuid} (h : PairReads s u now viewer tgt streamId)
    (hstreams : t.messageStreams = u.messageStreams) (hgrants : t.streamGrants = u.streamGrants) :
    PairReads s t now viewer tgt streamId where
  stream := hstreams ▸ h.stream
  others memberId hne hread := h.others memberId hne ((Granted.congr hgrants).mp hread)
  target hd := (Granted.congr hgrants).mpr (h.target hd)
  delegated hd hnone := (Granted.congr hgrants).trans (h.delegated hd hnone)

/-- **The audience of a new message.** Right after a new send in a fan room the other
active members that can read the message are the ones it is announced to, for every
intent and every role of the sender, exactly if a delegate's shared message has no
further member to reach and a fan's message has an owner that reads it by a grant of its
own or does not act under an older delegation. -/
theorem send_audience {s t : Db} {w : Bool} {now : Time} {ids : Nat → Uuid} {roomId : Uuid}
    {input : SendInput} {reply : SendReceipt} {room : Room} {x : User} {sender : ActiveMember}
    (hs : chat.Reachable s) (hroom : MessagesRepository.room s roomId = some room)
    (hmode : room.mode = .fan) (hsender : ActiveAs s true now roomId x sender)
    (hnew : ∀ member, MessagesRepository.member s roomId x.id = some member →
      receipt s roomId member.id input.clientMessageId = none)
    (hsend : send s now ids roomId x.id input = .ok (t, reply)) :
    ReachesAudience t w now room sender input reply.messageId ↔
      (input.intent = .shared → DelegateAlone s w now room sender) ∧
        (sender.role = .fan → OwnerGranted s now room sender) := by
  obtain ⟨admission, hadmitted, ⟨r, hr, -⟩ | ⟨-, h⟩⟩ := send_ok hsend
  · rw [hnew _ hadmitted.member] at hr
    cases hr
  obtain ⟨u, streamId, hu, ht⟩ := sendNew_ok h
  obtain ⟨ar, am, av⟩ := admission
  obtain rfl : ar = room := Option.some.inj (hadmitted.room.symm.trans hroom)
  obtain rfl : av = sender := Option.some.inj (hadmitted.viewer.symm.trans hsender.member)
  simp only at hu ht
  have hrid : ar.id = roomId := by
    have hholds := Table.holds_of_find? hroom
    exact hholds
  subst hrid
  have hrdb : ar ∈ s.rooms := Table.mem_of_find? hroom
  -- The sender's own rows.
  obtain ⟨m, q, p, hrow, hid, hin, hvmode, -, -, hrole⟩ :=
    MembershipRepository.findActive_role hsender.member
  obtain rfl : q = ar := Table.eq_of_key hrow.room hrdb (k := (0, [q.id])) List.mem_cons_self
    (by rw [hrow.roomId_eq]; exact List.mem_cons_self)
  have htemporary : av.role = .fan → av.temporaryGrantId = none := by
    intro hfan
    rcases hrole with ⟨hnone, -⟩ | ⟨-, hstreamer, -⟩
    · exact hnone
    · rw [hfan] at hstreamer
      cases hstreamer
  -- What stays as it was over the send.
  have hranked := reachable_ranked hs
  have hwired := reachable_wired hs
  have hwiredt := (send_wired hwired hsend).1
  have hw := create_writes ht
  have hsw := send_writes hsend
  have huw := resolveStream_writes hu
  have hrankedu := hranked.level (resolveStream_level hu)
  have hwiredu : Wired u := by
    refine resolveStream_wired hwired ?_ hu
    intro hawait
    rw [Bool.and_eq_true] at hawait
    obtain ⟨b, hb, hbin, hbound⟩ := Table.find?_isSome.mp hawait.2
    exact ⟨b, hb, hbin, hbound⟩
  have hseat : ∀ id, t.seat id = s.seat id := fun id =>
    (Db.seat_congr (hw.roomMembers (by simp)) id).trans (resolveStream_seat hu id)
  obtain ⟨mu, hmu, hmuid, hmusame⟩ : ∃ mu ∈ u.roomMembers, mu.id = av.id ∧ mu.roomId = q.id := by
    have hm := Db.seat_of_mem hrow.member
    rw [← resolveStream_seat hu] at hm
    obtain ⟨mu, hmu, hmuid, hmusame⟩ := Db.mem_of_seat hm
    exact ⟨mu, hmu, hmuid.trans hid.symm, (congrArg Seat.roomId hmusame).trans hrow.memberRoom⟩
  have hkept : x.status.leaving = false := by
    rw [hsender.chat.1]
    rfl
  have hreach : ∀ {st : MessageStream}, st ∈ u.messageStreams → st.roomId = q.id →
      st.id = streamId → (ReachesAudience t w now q av input reply.messageId ↔
        ∀ y v, ActiveAs t w now q.id y v → v.id ≠ av.id →
          (Reader t now st.kind q.id streamId av.id q.ownerMemberId v ↔ Announced q av input v)) :=
    fun hst hstroom hstid => reachesAudience_iff hrankedu ht hst hstroom hstid
      (huw.rooms (by simp) ▸ hrdb) hmode hmu hmusame hmuid
      (huw.users (by simp) ▸ hsender.user) rfl hkept
  rcases resolveStream_cases hu with ⟨hintent, hfan, hnone, hinbox⟩ | ⟨hshared, rfl, st, hst, rfl⟩ |
    ⟨recipient, hrecipient, hprivate⟩
  · -- A pending inbox: its fan and the delegates, and there is no owner yet.
    obtain ⟨⟨st, hst, hstid, hstroom, hkind⟩, honly⟩ := inboxStream_reads hwired hwiredu hinbox
    rw [hreach hst hstroom hstid, hkind]
    have hintent' : input.intent ≠ .private_ := by
      intro heq
      simp [effectiveIntent, heq] at hintent
    refine iff_of_true ?_ ⟨fun _ hd => absurd (htemporary hfan) hd, ?_⟩
    · intro y v hv hne
      have hno : ¬Granted t now q.id streamId v.id :=
        fun hread => hne (honly v.id ((Granted.congr (hw.streamGrants (by simp))).mp hread))
      simp [Reader, Announced, hintent', hfan, hnone, hno]
    · intro _ m' _ howner
      rw [hnone] at howner
      cases howner
  · -- The room's own stream: the owner, and everyone if the owner wrote it.
    have hmem : st ∈ sharedStreams u av.roomId := by
      rw [hst]
      exact List.mem_cons_self
    obtain ⟨hstdb, hstroom, hkind⟩ := Table.mem_select.mp hmem
    rw [hreach hstdb (hstroom.trans hin) rfl, hkind]
    have hintent : input.intent = .shared := by
      unfold effectiveIntent at hshared
      split at hshared
      · cases hshared
      · exact hshared
    have hnofan : av.role ≠ .fan := by
      intro hfan
      rw [effectiveIntent, if_pos ⟨hvmode.trans hmode, hfan, hintent⟩] at hshared
      cases hshared
    have hannounced : ∀ v, Announced q av input v ↔ True := by
      intro v
      simp [Announced, hintent, hnofan]
    simp only [hannounced, iff_true]
    rw [shared_audience hw (by simp) hranked hmode hrow hid hrole hnofan]
    exact ⟨fun halone => ⟨fun _ => halone, fun hfan => absurd hfan hnofan⟩, fun h => h.1 hintent⟩
  · -- A pair's stream.
    obtain ⟨tgt, htgt, htarget, hne, hpair, hreads⟩ := privateStream_reads hwired hwiredu hprivate
    obtain ⟨st, hst, hstid, hstroom, hkind⟩ := hreads.stream
    rw [hreach hst (hstroom.trans hin) hstid, hkind]
    have hannounced : ∀ v, Announced q av input v ↔ v.id = tgt.id ∨ v.temporaryGrantId ≠ none := by
      intro v
      refine announced_private ?_ htgt
      rcases hrecipient with ⟨hi, hr, -⟩ | ⟨hi, hfan, hr⟩
      · exact .inl ⟨hi, hr⟩
      · exact .inr ⟨hi, hfan, hr⟩
    have howner : av.role = .fan → q.ownerMemberId = some tgt.id := by
      intro hfan
      rcases hrecipient with ⟨-, hr, hchecked⟩ | ⟨-, -, hr⟩
      · rw [← hchecked (hvmode.trans hmode) hfan, ← hr, htgt]
      · rw [← hr, htgt]
    have hshared : input.intent = .shared → DelegateAlone s w now q av := by
      intro hintent htemp
      rcases hrecipient with ⟨hi, -⟩ | ⟨-, hfan, -⟩
      · rw [effectiveIntent, hintent] at hi
        split at hi <;> cases hi
      · exact absurd (htemporary hfan) htemp
    have hprivately := private_audience (w := w) hsw (by simp) (send_level hsend) hseat hrdb
      hrow.roomActive hmode hin (hvmode.trans hmode) htemporary htarget hpair howner hne
      (hreads.frame (hw.messageStreams (by simp)) (hw.streamGrants (by simp)))
    simp only [hannounced, Reader]
    rw [hprivately]
    exact ⟨fun h => ⟨hshared, h⟩, fun h => h.2⟩

end MessagesCoreService

/-! ## A delegate and a further fan -/

/-- An owner, a fan with a live delegation and another fan. -/
def Environment.delegation : Environment where
  users := ⟨[{ id := 1 }, { id := 2 }, { id := 3 }], by decide⟩
  userProfiles := .empty
  platformSoop := ⟨[⟨1, 1, 1, .verified⟩, ⟨2, 2, 2, .verified⟩, ⟨3, 3, 3, .verified⟩], by decide⟩
  authIdentities := .empty
  adminCapabilities := ⟨[{ userId := 2, manageTestAccess := true }], by decide⟩
  roomTestGrants := ⟨[{ id := 50, roomId := 7, memberId := 20, periodId := 21, requestId := 51,
                        createdAt := 0, expiresAt := 60 }], by decide⟩
  stickerCatalog := .empty
  mediaAssets := .empty
  mediaObjects := .empty
  roomMediaPolicy := .empty
  deletionIntents := .empty
  accountDeletionObligations := .empty

/-- Their room. -/
def delegationRoom : List Command :=
  [.environment .delegation, .createOwnedRoom (fun i => 10 + i) "room" .fan .sinceJoin 1 7,
    .joinRoom (fun i => 20 + i) 7 2, .joinRoom (fun i => 30 + i) 7 3]

/-- A shared message of the account in the given period. -/
def sharedMessage (userId periodId : Uuid) : SendInput where
  membershipScope := ⟨userId, 7, periodId⟩
  clientMessageId := 5
  intent := .shared
  recipientActorId := none
  quoteId := none
  content := .text "hi"

/-- The owner's shared message reaches both fans. -/
theorem send_audience_owner : ∃ (s t : Db) (room : Room) (sender : ActiveMember)
    (reply : SendReceipt), chat.Reachable s ∧
    MessagesCoreService.send s 1 (fun i => 40 + i) 7 1 (sharedMessage 1 11) = .ok (t, reply) ∧
    sender.id = 10 ∧
    ReachesAudience t false 1 room sender (sharedMessage 1 11) reply.messageId := by
  obtain ⟨s, hs, t, reply, room, sender, hsend, hroom, hmode, hactive, hnew, hid, hrole, hnone⟩ :
      ∃ s, ({} : Db).after delegationRoom = .ok s ∧ ∃ t reply room sender,
        MessagesCoreService.send s 1 (fun i => 40 + i) 7 1 (sharedMessage 1 11) = .ok (t, reply) ∧
        MessagesRepository.room s 7 = some room ∧ room.mode = .fan ∧
        ActiveAs s true 1 7 ⟨1, .active, 1, none⟩ sender ∧
        (∀ member, MessagesRepository.member s 7 1 = some member →
          MessagesRepository.receipt s 7 member.id (sharedMessage 1 11).clientMessageId = none) ∧
        sender.id = 10 ∧ sender.role = .streamer ∧ sender.temporaryGrantId = none := by
    refine ⟨_, rfl, _, _, _, _, rfl, rfl, rfl, ⟨.head _, by decide, rfl⟩, ?_, rfl, rfl, rfl⟩
    intro member hmember
    cases hmember
    rfl
  have hreach : chat.Reachable s := (run_of_after hs).reachable (.init rfl)
  refine ⟨s, t, room, sender, reply, hreach, hsend, hid,
    (MessagesCoreService.send_audience hreach hroom hmode hactive hnew hsend).mpr ⟨?_, ?_⟩⟩
  · intro _ hdelegate
    exact absurd hnone hdelegate
  · intro hfan
    rw [hrole] at hfan
    cases hfan

/-- The delegate's shared message does not reach the other fan. -/
theorem send_audience_delegate : ∃ (s t : Db) (room : Room) (x : User) (sender : ActiveMember)
    (reply : SendReceipt), chat.Reachable s ∧ MessagesRepository.room s 7 = some room ∧
    room.mode = .fan ∧ ActiveAs s true 1 7 x sender ∧ sender.role = .streamer ∧
    (∀ member, MessagesRepository.member s 7 x.id = some member →
      MessagesRepository.receipt s 7 member.id (sharedMessage 2 21).clientMessageId = none) ∧
    MessagesCoreService.send s 1 (fun i => 40 + i) 7 x.id (sharedMessage 2 21) = .ok (t, reply) ∧
    ¬ReachesAudience t false 1 room sender (sharedMessage 2 21) reply.messageId := by
  obtain ⟨s, hs⟩ : ∃ s, ({} : Db).after delegationRoom = .ok s := ⟨_, rfl⟩
  have hreach : chat.Reachable s := (run_of_after hs).reachable (.init rfl)
  cases hs
  refine ⟨_, _, _, ⟨2, .active, 1, none⟩, _, _, hreach, rfl, rfl,
    ⟨.tail _ (.head _), by decide, rfl⟩, rfl, ?_, rfl, ?_⟩
  · rintro member hmember
    cases hmember
    rfl
  · rintro ⟨row, hload, hall⟩
    cases hload
    have hfan := hall ⟨3, .active, 1, none⟩ _ ⟨.tail _ (.tail _ (.head _)), by decide, rfl⟩
      (by decide)
    have hread := hfan.mpr (by
      unfold Announced
      rw [if_neg (by decide), if_neg (by decide)]
      trivial)
    cases hread

end Rogichat
