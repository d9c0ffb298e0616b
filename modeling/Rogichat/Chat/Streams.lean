import Rogichat.Chat.Periods

/-!
# Private streams and their grants

A private stream belongs to a pair of members, or is the inbox of one fan that
waits for the room's owner. Streams, pairs and grants are only ever added; a grant
changes once, when a ban revokes it.

* **`Wired`** — how streams, pairs and grants fit together; **`reachable_wired`** —
  in every reachable state.
* **`Grown`** — from `s` to `t` nothing was taken away and no revocation undone.
* **`run_grown`** — over every run.
-/

namespace Rogichat

open Lib

/-! ## Rooms waiting for their owner -/

/-- The binding that a room's inboxes wait for, and the owner it ends with. -/
def Awaited (db : Db) (roomId memberId : Uuid) : Prop :=
  ∃ b ∈ db.defaultRoomBindings, b.roomId = roomId ∧
    (b.ownerBound = true → BoundOwner db memberId)

/-- Some pair uses the stream. -/
def Db.PairOf (db : Db) (streamId : Uuid) : Prop := ∃ p ∈ db.streamPairs, p.streamId = streamId

/-- How private streams, pairs and grants fit together. -/
structure Wired (db : Db) : Prop where
  grantStream : ∀ g ∈ db.streamGrants, ∃ st ∈ db.messageStreams, st.id = g.streamId ∧
    st.roomId = g.roomId ∧ st.kind = .restricted
  pairStream : ∀ p ∈ db.streamPairs, ∃ st ∈ db.messageStreams, st.id = p.streamId ∧
    st.roomId = p.roomId ∧ st.kind = .restricted
  sorted : ∀ p ∈ db.streamPairs, p.leftMemberId ≤ p.rightMemberId
  pairGrants : ∀ p ∈ db.streamPairs, ∀ g ∈ db.streamGrants, g.streamId = p.streamId →
    g.memberId = p.leftMemberId ∨ g.memberId = p.rightMemberId
  inbox : ∀ g ∈ db.streamGrants, ∀ h ∈ db.streamGrants, g.streamId = h.streamId →
    ¬db.PairOf g.streamId → g = h
  awaited : ∀ g ∈ db.streamGrants, ¬db.PairOf g.streamId → Awaited db g.roomId g.memberId

/-- From `s` to `t` streams and pairs were only added, and grants added or revoked. -/
structure Grown (s t : Db) : Prop where
  streams : ∀ st ∈ s.messageStreams, st ∈ t.messageStreams
  pairs : ∀ p ∈ s.streamPairs, p ∈ t.streamPairs
  grants : ∀ g ∈ s.streamGrants, ∃ h ∈ t.streamGrants, h.streamId = g.streamId ∧
    h.memberId = g.memberId ∧ h.roomId = g.roomId ∧ (g.revokedAt ≠ none → h.revokedAt ≠ none)

namespace Grown

theorem refl (s : Db) : Grown s s :=
  ⟨fun _ h => h, fun _ h => h, fun g hg => ⟨g, hg, rfl, rfl, rfl, fun h => h⟩⟩

theorem trans {s t u : Db} (h : Grown s t) (h' : Grown t u) : Grown s u where
  streams st hst := h'.streams st (h.streams st hst)
  pairs p hp := h'.pairs p (h.pairs p hp)
  grants := by
    intro g hg
    obtain ⟨g', hg', hstream, hmember, hroom, hrev⟩ := h.grants g hg
    obtain ⟨g'', hg'', hstream', hmember', hroom', hrev'⟩ := h'.grants g' hg'
    exact ⟨g'', hg'', hstream'.trans hstream, hmember'.trans hmember, hroom'.trans hroom,
      fun hne => hrev' (hrev hne)⟩

theorem of_eq {s t : Db} (hstreams : ∀ st ∈ s.messageStreams, st ∈ t.messageStreams)
    (hpairs : t.streamPairs = s.streamPairs) (hgrants : t.streamGrants = s.streamGrants) :
    Grown s t :=
  ⟨hstreams, fun _ hp => hpairs ▸ hp, fun g hg => ⟨g, hgrants ▸ hg, rfl, rfl, rfl, fun h => h⟩⟩

end Grown

/-! ## Keeping the wiring -/

namespace Wired

/-- A change that only adds streams and revokes grants. -/
theorem grown {s t : Db} (h : Wired s) (hstreams : ∀ st ∈ s.messageStreams, st ∈ t.messageStreams)
    (hpairs : t.streamPairs = s.streamPairs)
    (hgrants : ∀ g ∈ t.streamGrants, ∃ g' ∈ s.streamGrants, g'.id = g.id ∧
      g'.streamId = g.streamId ∧ g'.memberId = g.memberId ∧ g'.roomId = g.roomId)
    (hbindings : SameBindings s t) (hbound : ∀ m, BoundOwner s m → BoundOwner t m) : Wired t := by
  have hunpaired : ∀ {streamId}, ¬t.PairOf streamId → ¬s.PairOf streamId := by
    rintro streamId hn ⟨p, hp, hps⟩
    exact hn ⟨p, hpairs ▸ hp, hps⟩
  refine ⟨?_, ?_, ?_, ?_, ?_, ?_⟩
  · intro g hg
    obtain ⟨g', hg', -, hstream, -, hroom⟩ := hgrants g hg
    obtain ⟨st, hst, hid, hin, hkind⟩ := h.grantStream g' hg'
    exact ⟨st, hstreams st hst, hid.trans hstream, hin.trans hroom, hkind⟩
  · intro p hp
    rw [hpairs] at hp
    obtain ⟨st, hst, hrest⟩ := h.pairStream p hp
    exact ⟨st, hstreams st hst, hrest⟩
  · intro p hp
    exact h.sorted p (hpairs ▸ hp)
  · intro p hp g hg hgp
    obtain ⟨g', hg', -, hstream, hmember, -⟩ := hgrants g hg
    rw [← hmember]
    exact h.pairGrants p (hpairs ▸ hp) g' hg' (hstream.trans hgp)
  · intro g hg k hk hgk hn
    obtain ⟨g', hg', hgid, hgs, -⟩ := hgrants g hg
    obtain ⟨k', hk', hkid, hks, -⟩ := hgrants k hk
    have hsame : g' = k' := h.inbox g' hg' k' hk' (by rw [hgs, hks, hgk])
      (by rw [hgs]; exact hunpaired hn)
    refine Table.eq_of_key hg hk (k := (0, [g.id])) List.mem_cons_self ?_
    rw [← hgid, hsame, hkid]
    exact List.mem_cons_self
  · intro g hg hn
    obtain ⟨g', hg', -, hstream, hmember, hroom⟩ := hgrants g hg
    obtain ⟨b, hb, hin, hend⟩ := h.awaited g' hg' (by rw [hstream]; exact hunpaired hn)
    obtain ⟨b', hb', hroom', hbound'⟩ := hbindings b hb
    refine ⟨b', hb', hroom'.trans (hin.trans hroom), fun hend' => ?_⟩
    rw [← hmember]
    exact hbound _ (hend (hbound' ▸ hend'))

/-- A change that leaves grants alone. -/
theorem frame {s t : Db} (h : Wired s) (hstreams : ∀ st ∈ s.messageStreams, st ∈ t.messageStreams)
    (hpairs : t.streamPairs = s.streamPairs) (hgrants : t.streamGrants = s.streamGrants)
    (hbindings : SameBindings s t) (hbound : ∀ m, BoundOwner s m → BoundOwner t m) : Wired t :=
  h.grown hstreams hpairs (fun g hg => ⟨g, hgrants ▸ hg, rfl, rfl, rfl, rfl⟩) hbindings hbound

end Wired

/-- Streams only use fresh ids. -/
theorem MessageStream.fresh {s : Db} {st : MessageStream} {streams : Table MessageStream}
    (h : s.messageStreams.insert st = some streams) {x : MessageStream}
    (hx : x ∈ s.messageStreams) : x.id ≠ st.id := by
  intro hid
  refine Table.fresh_of_insert h hx ⟨(0, [x.id]), List.mem_cons_self, ?_⟩
  rw [hid]
  exact List.mem_cons_self

namespace MessagesRepository

/-- The rows of a new pair. -/
structure Paired (s t : Db) (roomId streamId left right : Uuid) : Prop where
  streams : s.messageStreams.insert { id := streamId, roomId := roomId, kind := .restricted } =
    some t.messageStreams
  pair : ∃ p, p.streamId = streamId ∧ p.roomId = roomId ∧ p.leftMemberId = left ∧
    p.rightMemberId = right ∧ ∀ q, q ∈ t.streamPairs ↔ q ∈ s.streamPairs ∨ q = p
  grants : ∀ g ∈ t.streamGrants, g ∈ s.streamGrants ∨ g.streamId = streamId ∧
    g.roomId = roomId ∧ (g.memberId = left ∨ g.memberId = right)
  kept : ∀ g ∈ s.streamGrants, g ∈ t.streamGrants
  writes : Db.Writes [.messageStreams, .streamPairs, .streamGrants, .roomMembers] s t

theorem createPair_ok {s t : Db} {now : Time} {ids : Nat → Uuid} {roomId streamId left right : Uuid}
    {delegated : Option Uuid} (h : createPair s now ids roomId streamId left right delegated = .ok t) :
    Paired s t roomId streamId left right := by
  have hw := createPair_writes h
  simp only [createPair, bind_ok, require_ok, pure_ok] at h
  obtain ⟨streams, hstreams, pairs, hpairs, grants, hgrants, rfl⟩ := h
  refine ⟨hstreams, ⟨_, rfl, rfl, rfl, rfl, fun q => Table.mem_insert hpairs⟩, ?_, ?_, hw⟩
  · intro g hg
    rcases (Table.mem_insertAll hgrants).mp hg with hg | hg
    · exact .inl hg
    · right
      simp only [List.mapIdx_cons, List.mapIdx_nil, List.mem_cons, List.not_mem_nil, or_false] at hg
      rcases hg with rfl | rfl
      · exact ⟨rfl, rfl, .inl rfl⟩
      · exact ⟨rfl, rfl, .inr rfl⟩
  · intro g hg
    exact (Table.mem_insertAll hgrants).mpr (.inl hg)

theorem Paired.grown {s t : Db} {roomId streamId left right : Uuid}
    (h : Paired s t roomId streamId left right) : Grown s t := by
  obtain ⟨p, -, -, -, -, hpairs⟩ := h.pair
  exact ⟨fun st hst => (Table.mem_insert h.streams).mpr (.inl hst),
    fun q hq => (hpairs q).mpr (.inl hq),
    fun g hg => ⟨g, h.kept g hg, rfl, rfl, rfl, fun hr => hr⟩⟩

theorem Paired.wired {s t : Db} {roomId streamId left right : Uuid} (hs : Wired s)
    (hsorted : left ≤ right) (h : Paired s t roomId streamId left right) : Wired t := by
  obtain ⟨p, hps, hpr, hpl, hpright, hpairs⟩ := h.pair
  have hnew : ({ id := streamId, roomId := roomId, kind := .restricted } : MessageStream) ∈
      t.messageStreams := (Table.mem_insert h.streams).mpr (.inr rfl)
  have hold : ∀ st ∈ s.messageStreams, st ∈ t.messageStreams := h.grown.streams
  -- No old grant and no old pair uses the new stream.
  have hgfresh : ∀ g ∈ s.streamGrants, g.streamId ≠ streamId := by
    intro g hg hid
    obtain ⟨st, hst, hsid, -⟩ := hs.grantStream g hg
    exact MessageStream.fresh h.streams hst (hsid.trans hid)
  have hpfresh : ∀ q ∈ s.streamPairs, q.streamId ≠ streamId := by
    intro q hq hid
    obtain ⟨st, hst, hsid, -⟩ := hs.pairStream q hq
    exact MessageStream.fresh h.streams hst (hsid.trans hid)
  have hunpaired : ∀ {id}, ¬t.PairOf id → ¬s.PairOf id := by
    rintro id hn ⟨q, hq, hqs⟩
    exact hn ⟨q, (hpairs q).mpr (.inl hq), hqs⟩
  refine ⟨?_, ?_, ?_, ?_, ?_, ?_⟩
  · intro g hg
    rcases h.grants g hg with hg | ⟨hid, hroom, -⟩
    · obtain ⟨st, hst, hrest⟩ := hs.grantStream g hg
      exact ⟨st, hold st hst, hrest⟩
    · exact ⟨_, hnew, hid.symm, hroom.symm, rfl⟩
  · intro q hq
    rcases (hpairs q).mp hq with hq | rfl
    · obtain ⟨st, hst, hrest⟩ := hs.pairStream q hq
      exact ⟨st, hold st hst, hrest⟩
    · exact ⟨_, hnew, hps.symm, hpr.symm, rfl⟩
  · intro q hq
    rcases (hpairs q).mp hq with hq | rfl
    · exact hs.sorted q hq
    · rw [hpl, hpright]
      exact hsorted
  · intro q hq g hg hgq
    rcases (hpairs q).mp hq with hq | rfl
    · rcases h.grants g hg with hg | ⟨hid, -, -⟩
      · exact hs.pairGrants q hq g hg hgq
      · exact absurd (hgq.symm.trans hid) (hpfresh q hq)
    · rcases h.grants g hg with hg | ⟨-, -, hmember⟩
      · exact absurd (hgq.trans hps) (hgfresh g hg)
      · rw [hpl, hpright]
        exact hmember
  · intro g hg k hk hgk hn
    have hne : ∀ x ∈ t.streamGrants, ¬t.PairOf x.streamId → x ∈ s.streamGrants := by
      intro x hx hnx
      rcases h.grants x hx with hx | ⟨hid, -, -⟩
      · exact hx
      · exact absurd ⟨p, (hpairs p).mpr (.inr rfl), hps.trans hid.symm⟩ hnx
    exact hs.inbox g (hne g hg hn) k (hne k hk (hgk ▸ hn)) hgk (hunpaired hn)
  · intro g hg hn
    rcases h.grants g hg with hg | ⟨hid, -, -⟩
    · obtain ⟨b, hb, hin, hend⟩ := hs.awaited g hg (hunpaired hn)
      exact ⟨b, h.writes.defaultRoomBindings (by simp) ▸ hb, hin, fun hbound =>
        (hend hbound).congr (h.writes.defaultRoomBindings (by simp)) fun r hr =>
          ⟨r, h.writes.rooms (by simp) ▸ hr, rfl, rfl⟩⟩
    · exact absurd ⟨p, (hpairs p).mpr (.inr rfl), hps.trans hid.symm⟩ hn

/-- A member's inbox has no pair, and a grant of the member. -/
theorem mem_inboxes {s : Db} {roomId actorId : Uuid} {st : MessageStream} (hs : Wired s)
    (h : st ∈ inboxes s roomId actorId) : st ∈ s.messageStreams ∧ st.kind = .restricted ∧
      ¬s.PairOf st.id ∧ ∃ g ∈ s.streamGrants, g.streamId = st.id ∧ g.memberId = actorId := by
  obtain ⟨hst, hroom, hkind, ⟨g, hg, -, hgs, hgm⟩, hno⟩ := Table.mem_select.mp h
  refine ⟨hst, hkind, ?_, g, hg, hgs, hgm⟩
  rintro ⟨p, hp, hps⟩
  obtain ⟨st', hst', hid, hin, -⟩ := hs.pairStream p hp
  have hsame : st' = st := Table.eq_of_key hst' hst (k := (0, [st'.id])) List.mem_cons_self
    (by rw [hid, hps]; exact List.mem_cons_self)
  exact hno ⟨p, hp, hin.symm.trans (by rw [hsame]), hps⟩

/-- A fan's pending inbox is the one it has, or a new stream with its grant. -/
theorem pendingInbox_ok {s t : Db} {now : Time} {ids : Nat → Uuid}
    {roomId actorId streamId : Uuid}
    (h : pendingInbox s now ids roomId actorId = .ok (t, streamId)) :
    (t = s ∧ ∃ st ∈ inboxes s roomId actorId, st.id = streamId) ∨
      s.messageStreams.insert { id := streamId, roomId := roomId, kind := .restricted } =
          some t.messageStreams ∧
        ∃ g : StreamGrant, g.streamId = streamId ∧ g.roomId = roomId ∧ g.memberId = actorId ∧
          s.streamGrants.insert g = some t.streamGrants := by
  unfold pendingInbox at h
  split at h
  · simp only [bind_ok, require_ok, pure_ok] at h
    obtain ⟨streams, hstreams, grants, hgrants, heq⟩ := h
    cases heq
    exact .inr ⟨hstreams, _, rfl, rfl, rfl, hgrants⟩
  · rename_i st hst
    cases h
    exact .inl ⟨rfl, st, by rw [hst]; exact List.mem_cons_self, rfl⟩
  · cases h

theorem pendingInbox_grown {s t : Db} {now : Time} {ids : Nat → Uuid}
    {roomId actorId streamId : Uuid}
    (h : pendingInbox s now ids roomId actorId = .ok (t, streamId)) : Grown s t := by
  rcases pendingInbox_ok h with ⟨rfl, -⟩ | ⟨hstreams, g, -, -, -, hgrants⟩
  · exact .refl _
  · exact ⟨fun st hst => (Table.mem_insert hstreams).mpr (.inl hst),
      fun p hp => (pendingInbox_writes h).streamPairs (by simp) ▸ hp,
      fun x hx => ⟨x, (Table.mem_insert hgrants).mpr (.inl hx), rfl, rfl, rfl, fun hr => hr⟩⟩

theorem pendingInbox_wired {s t : Db} {now : Time} {ids : Nat → Uuid}
    {roomId actorId streamId : Uuid} (hs : Wired s)
    (hawaiting : ∃ b ∈ s.defaultRoomBindings, b.roomId = roomId ∧ b.ownerBound = false)
    (h : pendingInbox s now ids roomId actorId = .ok (t, streamId)) : Wired t := by
  have hw := pendingInbox_writes h
  have hgrown := pendingInbox_grown h
  rcases pendingInbox_ok h with ⟨rfl, -⟩ | ⟨hstreams, g, hgs, hgr, hgm, hgrants⟩
  · exact hs
  -- no grant and no pair can name a stream that was not there
  have hgfresh : ∀ x ∈ s.streamGrants, x.streamId ≠ streamId := by
    intro x hx hid
    obtain ⟨st, hst, hsid, -⟩ := hs.grantStream x hx
    exact MessageStream.fresh hstreams hst (hsid.trans hid)
  have hpfresh : ∀ p ∈ s.streamPairs, p.streamId ≠ streamId := by
    intro p hp hid
    obtain ⟨st, hst, hsid, -⟩ := hs.pairStream p hp
    exact MessageStream.fresh hstreams hst (hsid.trans hid)
  have hunpaired : ∀ {id}, ¬t.PairOf id → ¬s.PairOf id := by
    rintro id hn ⟨p, hp, hps⟩
    exact hn ⟨p, hw.streamPairs (by simp) ▸ hp, hps⟩
  refine ⟨?_, ?_, ?_, ?_, ?_, ?_⟩
  · intro x hx
    rcases (Table.mem_insert hgrants).mp hx with hx | rfl
    · obtain ⟨st, hst, hrest⟩ := hs.grantStream x hx
      exact ⟨st, hgrown.streams st hst, hrest⟩
    · exact ⟨_, (Table.mem_insert hstreams).mpr (.inr rfl), hgs.symm, hgr.symm, rfl⟩
  · intro p hp
    rw [hw.streamPairs (by simp)] at hp
    obtain ⟨st, hst, hrest⟩ := hs.pairStream p hp
    exact ⟨st, hgrown.streams st hst, hrest⟩
  · intro p hp
    exact hs.sorted p (hw.streamPairs (by simp) ▸ hp)
  · intro p hp x hx hxp
    rw [hw.streamPairs (by simp)] at hp
    rcases (Table.mem_insert hgrants).mp hx with hx | rfl
    · exact hs.pairGrants p hp x hx hxp
    · exact absurd (hxp.symm.trans hgs) (hpfresh p hp)
  · intro x hx y hy hxy hn
    rcases (Table.mem_insert hgrants).mp hx with hx | rfl
    · rcases (Table.mem_insert hgrants).mp hy with hy | rfl
      · exact hs.inbox x hx y hy hxy (hunpaired hn)
      · exact absurd (hxy.trans hgs) (hgfresh x hx)
    · rcases (Table.mem_insert hgrants).mp hy with hy | rfl
      · exact absurd (hxy.symm.trans hgs) (hgfresh y hy)
      · rfl
  · intro x hx hn
    rcases (Table.mem_insert hgrants).mp hx with hx | rfl
    · obtain ⟨b, hb, hin, hend⟩ := hs.awaited x hx (hunpaired hn)
      exact ⟨b, hw.defaultRoomBindings (by simp) ▸ hb, hin, fun hbound =>
        (hend hbound).congr (hw.defaultRoomBindings (by simp)) fun r hr =>
        ⟨r, hw.rooms (by simp) ▸ hr, rfl, rfl⟩⟩
    · obtain ⟨b, hb, hin, hbound⟩ := hawaiting
      refine ⟨b, hw.defaultRoomBindings (by simp) ▸ hb, hin.trans hgr.symm, fun hend => ?_⟩
      rw [hbound] at hend
      cases hend

end MessagesRepository

/-! ## Sends -/

namespace MessagesCoreService

open MessagesRepository

/-- The stream of a pair is the one it has, or a new one. -/
theorem pairStream_ok {s t : Db} {now : Time} {ids : Nat → Uuid} {viewer : ActiveMember}
    {target : TargetRow} {streamId : Uuid}
    (h : pairStream s now ids viewer target = .ok (t, streamId)) :
    (t = s ∧ ∃ p, pair s viewer.roomId (min viewer.id target.id) (max viewer.id target.id) = some p ∧
        p.streamId = streamId) ∨
      pair s viewer.roomId (min viewer.id target.id) (max viewer.id target.id) = none ∧
      Paired s t viewer.roomId streamId (min viewer.id target.id) (max viewer.id target.id) := by
  unfold pairStream at h
  simp only at h
  split at h
  · rename_i p hp
    cases h
    exact .inl ⟨rfl, p, hp, rfl⟩
  · rename_i hnone
    simp only [bind_ok, pure_ok] at h
    obtain ⟨a, ha, heq⟩ := h
    cases heq
    exact .inr ⟨hnone, createPair_ok ha⟩

theorem pairStream_grown {s t : Db} {now : Time} {ids : Nat → Uuid} {viewer : ActiveMember}
    {target : TargetRow} {streamId : Uuid}
    (h : pairStream s now ids viewer target = .ok (t, streamId)) : Grown s t := by
  rcases pairStream_ok h with ⟨rfl, -⟩ | ⟨-, hpaired⟩
  · exact .refl _
  · exact hpaired.grown

theorem resolveStream_grown {s t : Db} {now : Time} {ids : Nat → Uuid} {room : Room}
    {owner : Option RoomSendOwner} {awaiting : Bool} {viewer : ActiveMember} {intent : Intent}
    {recipient : Option Uuid} {streamId : Uuid}
    (h : resolveStream s now ids room owner awaiting viewer intent recipient = .ok (t, streamId)) :
    Grown s t := by
  rcases resolveStream_ok h with ⟨-, -, -, -, h⟩ | ⟨intent', recipient', -, -, h⟩
  · exact pendingInbox_grown (inboxStream_ok h).2.1
  · rcases sendStream_ok h with ⟨-, rfl, -⟩ | ⟨-, h⟩
    · exact .refl _
    · obtain ⟨-, tgt, -, -, -, -, -, h, -⟩ := privateStream_ok h
      exact pairStream_grown h

theorem resolveStream_wired {s t : Db} {now : Time} {ids : Nat → Uuid} {room : Room}
    {owner : Option RoomSendOwner} {awaiting : Bool} {viewer : ActiveMember} {intent : Intent}
    {recipient : Option Uuid} {streamId : Uuid} (hs : Wired s)
    (hawaiting : awaiting = true →
      ∃ b ∈ s.defaultRoomBindings, b.roomId = room.id ∧ b.ownerBound = false)
    (h : resolveStream s now ids room owner awaiting viewer intent recipient = .ok (t, streamId)) :
    Wired t := by
  rcases resolveStream_ok h with ⟨-, -, -, -, h⟩ | ⟨intent', recipient', -, -, h⟩
  · obtain ⟨hawait, hinbox, -⟩ := inboxStream_ok h
    exact pendingInbox_wired hs (hawaiting hawait) hinbox
  · rcases sendStream_ok h with ⟨-, rfl, -⟩ | ⟨-, h⟩
    · exact hs
    · obtain ⟨-, tgt, -, -, -, -, -, h, -⟩ := privateStream_ok h
      rcases pairStream_ok h with ⟨rfl, -⟩ | ⟨-, hpaired⟩
      · exact hs
      · exact hpaired.wired hs (min_le_max)

/-- What a send does to private streams, whatever it sends. -/
theorem send_wired {s t : Db} {now : Time} {ids : Nat → Uuid} {roomId userId : Uuid}
    {input : SendInput} {reply : SendReceipt} (hs : Wired s)
    (h : send s now ids roomId userId input = .ok (t, reply)) : Wired t ∧ Grown s t := by
  obtain ⟨admission, hadmitted, ⟨r, -, rfl, -⟩ | ⟨-, h⟩⟩ := send_ok h
  · exact ⟨hs, .refl _⟩
  · obtain ⟨u, streamId, hu, ht⟩ := sendNew_ok h
    have hroomId : admission.room.id = roomId := by
      have h := Table.holds_of_find? hadmitted.room
      exact h
    have hw := create_writes ht
    have hwired : Wired u := by
      refine resolveStream_wired hs ?_ hu
      intro hawait
      rw [Bool.and_eq_true] at hawait
      obtain ⟨b, hb, hin, hbound⟩ := Table.find?_isSome.mp hawait.2
      exact ⟨b, hb, hin.trans hroomId.symm, hbound⟩
    refine ⟨?_, (resolveStream_grown hu).trans
      (.of_eq (fun st hst => hw.messageStreams (by simp) ▸ hst)
      (hw.streamPairs (by simp)) (hw.streamGrants (by simp)))⟩
    exact hwired.frame (fun st hst => hw.messageStreams (by simp) ▸ hst)
      (hw.streamPairs (by simp)) (hw.streamGrants (by simp))
      (.of_eq (hw.defaultRoomBindings (by simp))) fun m hm => hm.congr
      (hw.defaultRoomBindings (by simp)) fun r hr =>
        ⟨r, hw.rooms (by simp) ▸ hr, rfl, rfl⟩

end MessagesCoreService

/-! ## Bans -/

theorem ModerationCoreService.ban_grants {s t : Db} {now : Time} {userId roomId actorId : Uuid}
    {banned : Bool} (h : ban s now userId roomId actorId banned = .ok t) :
    t.streamGrants = s.streamGrants ∨ t.streamGrants = s.streamGrants.update
      (fun g => g.roomId = roomId ∧ g.memberId = actorId ∧ g.revokedAt = none)
      (fun g => { g with revokedAt := some now, canRead := false, canSend := false }) := by
  rcases ban_ok h with rfl | ⟨m, -, -, -, -, -, rfl⟩
  · exact .inl rfl
  · cases banned with
    | true => exact .inr rfl
    | false => exact .inl rfl

/-- A ban revokes grants and takes none away. -/
theorem ModerationCoreService.ban_wired {s t : Db} {now : Time} {userId roomId actorId : Uuid}
    {banned : Bool} (hs : Wired s) (h : ban s now userId roomId actorId banned = .ok t) :
    Wired t ∧ Grown s t := by
  have hw := ban_writes h
  have hstreams : ∀ st ∈ s.messageStreams, st ∈ t.messageStreams := fun st hst =>
    hw.messageStreams (by simp) ▸ hst
  have hbound : ∀ m, BoundOwner s m → BoundOwner t m := fun m hm =>
    hm.congr (hw.defaultRoomBindings (by simp)) fun r hr => ⟨r, hw.rooms (by simp) ▸ hr, rfl, rfl⟩
  rcases ban_grants h with hgrants | hgrants
  · exact ⟨hs.frame hstreams (hw.streamPairs (by simp)) hgrants
      (.of_eq (hw.defaultRoomBindings (by simp))) hbound,
      .of_eq hstreams (hw.streamPairs (by simp)) hgrants⟩
  · refine ⟨hs.grown hstreams (hw.streamPairs (by simp)) ?_
      (.of_eq (hw.defaultRoomBindings (by simp))) hbound,
      hstreams, fun p hp => hw.streamPairs (by simp) ▸ hp, ?_⟩
    · intro g hg
      rw [hgrants] at hg
      obtain ⟨g', hg', rfl⟩ := Table.mem_update.mp hg
      refine ⟨g', hg', ?_⟩
      split <;> exact ⟨rfl, rfl, rfl, rfl⟩
    · intro g hg
      rw [hgrants]
      refine ⟨_, Table.mem_update_of_mem hg, ?_⟩
      split
      · exact ⟨rfl, rfl, rfl, fun _ => Option.some_ne_none _⟩
      · exact ⟨rfl, rfl, rfl, fun hr => hr⟩

/-! ## New rooms -/

namespace RoomStateService

theorem createRoom_streams {s t : Db} {streamId id : Uuid} {name : String} {mode : RoomMode}
    (h : createRoom s streamId name mode id = .ok t) :
    ∀ st ∈ s.messageStreams, st ∈ t.messageStreams := by
  simp only [createRoom, bind_ok] at h
  obtain ⟨a, ha, b, hb, ht⟩ := h
  simp only [RoomStateRepository.insertSharedStream, bind_ok, require_ok, pure_ok] at ht
  obtain ⟨streams, hstreams, rfl⟩ := ht
  intro st hst
  rw [← (RoomStateRepository.insertRoom_writes ha).messageStreams (by simp),
    ← (RoomStateRepository.insertCounter_writes hb).messageStreams (by simp)] at hst
  exact (Table.mem_insert hstreams).mpr (.inl hst)

theorem createOwnedRoom_streams {s t : Db} {ids : Nat → Uuid} {name : String} {mode : RoomMode}
    {policy : HistoryPolicy} {ownerId roomId : Uuid} {result : Uuid × Uuid}
    (h : createOwnedRoom s ids name mode policy ownerId roomId = .ok (t, result)) :
    ∀ st ∈ s.messageStreams, st ∈ t.messageStreams := by
  simp only [createOwnedRoom, bind_ok, pure_ok] at h
  obtain ⟨a, ha, ⟨b, actorId⟩, hb, heq⟩ := h
  cases heq
  intro st hst
  have hjoined : b.messageStreams = a.messageStreams :=
    (joinRoom_writes hb).messageStreams (by simp)
  exact hjoined ▸ createRoom_streams ha st hst

end RoomStateService

/-! ## Binding the inboxes -/

namespace DefaultRoomRepository

theorem mem_inboxes {s : Db} {roomId : Uuid} {g : StreamGrant} : g ∈ inboxes s roomId ↔
    g ∈ s.streamGrants ∧ g.roomId = roomId ∧
      s.messageStreams.Has (fun st => st.roomId = roomId ∧ st.id = g.streamId ∧
        st.kind = .restricted) ∧
      ¬s.streamPairs.Has (fun p => p.roomId = roomId ∧ p.streamId = g.streamId) := by
  unfold inboxes
  rw [List.mem_insertionSort, Table.mem_select]

/-- In a wired database a room's inboxes are its grants on unpaired streams. -/
theorem mem_inboxes_wired {s : Db} {roomId : Uuid} {g : StreamGrant} (hs : Wired s) :
    g ∈ inboxes s roomId ↔ g ∈ s.streamGrants ∧ g.roomId = roomId ∧ ¬s.PairOf g.streamId := by
  rw [mem_inboxes]
  constructor
  · rintro ⟨hg, hroom, -, hno⟩
    refine ⟨hg, hroom, ?_⟩
    rintro ⟨p, hp, hps⟩
    obtain ⟨st, hst, hid, hin, -⟩ := hs.pairStream p hp
    obtain ⟨st', hst', hid', hin', -⟩ := hs.grantStream g hg
    have hsame : st = st' := Table.eq_of_key hst hst' (k := (0, [st.id])) List.mem_cons_self
      (by rw [hid, hps, ← hid']; exact List.mem_cons_self)
    exact hno ⟨p, hp, by rw [← hin, hsame, hin', hroom], hps⟩
  · rintro ⟨hg, hroom, hno⟩
    obtain ⟨st, hst, hid, hin, hkind⟩ := hs.grantStream g hg
    refine ⟨hg, hroom, ⟨st, hst, hin.trans hroom, hid, hkind⟩, ?_⟩
    rintro ⟨p, hp, -, hps⟩
    exact hno ⟨p, hp, hps⟩

/-- What binding the pending inboxes adds: a pair and the owner's grant for each. -/
structure Inboxed (s t : Db) (roomId actorId : Uuid) (pending : List StreamGrant) : Prop where
  pairs : ∀ q ∈ t.streamPairs, q ∈ s.streamPairs ∨ ∃ row ∈ pending, q.streamId = row.streamId ∧
    q.roomId = roomId ∧ q.leftMemberId = min actorId row.memberId ∧
      q.rightMemberId = max actorId row.memberId
  grants : ∀ g ∈ t.streamGrants, g ∈ s.streamGrants ∨ ∃ row ∈ pending,
    g.streamId = row.streamId ∧ g.roomId = roomId ∧ g.memberId = actorId
  paired : ∀ row ∈ pending, t.PairOf row.streamId
  grown : Grown s t

theorem bindInboxes_ok {s t : Db} {now : Time} {ids : Nat → Uuid} {roomId actorId : Uuid}
    {pending : List StreamGrant} (h : bindInboxes s now ids roomId actorId pending = .ok t) :
    Inboxed s t roomId actorId pending := by
  have hw := bindInboxes_writes h
  simp only [bindInboxes, bind_ok, require_ok, pure_ok] at h
  obtain ⟨pairs, hpairs, grants, hgrants, rfl⟩ := h
  refine ⟨?_, ?_, ?_, fun st hst => hst, fun p hp => (Table.mem_insertAll hpairs).mpr (.inl hp),
    fun g hg => ⟨g, (Table.mem_insertAll hgrants).mpr (.inl hg), rfl, rfl, rfl, fun hr => hr⟩⟩
  · intro q hq
    rcases (Table.mem_insertAll hpairs).mp hq with hq | hq
    · exact .inl hq
    · obtain ⟨i, hi, rfl⟩ := List.mem_mapIdx.mp hq
      exact .inr ⟨pending[i], List.getElem_mem hi, rfl, rfl, rfl, rfl⟩
  · intro g hg
    rcases (Table.mem_insertAll hgrants).mp hg with hg | hg
    · exact .inl hg
    · obtain ⟨i, hi, rfl⟩ := List.mem_mapIdx.mp hg
      exact .inr ⟨pending[i], List.getElem_mem hi, rfl, rfl, rfl⟩
  · intro row hrow
    obtain ⟨i, hi, rfl⟩ := List.getElem_of_mem hrow
    exact ⟨_, (Table.mem_insertAll hpairs).mpr (.inr (List.mem_mapIdx.mpr ⟨i, hi, rfl⟩)), rfl⟩

/-- Binding the owner leaves every other inbox paired with it. -/
theorem finish_wired {s t : Db} {now : Time} {ids : Nat → Uuid} {roomId actorId : Uuid}
    {b : DefaultRoomBinding} {r : Room} (hs : Wired s) (hb : b ∈ s.defaultRoomBindings)
    (hroom : b.roomId = roomId) (hr : r ∈ s.rooms) (hid : r.id = roomId)
    (h : finish s now ids roomId actorId = .ok t) : Wired t ∧ Grown s t := by
  obtain ⟨u, hu, rfl⟩ := finish_ok h
  have huw := bindInboxes_writes hu
  have hin := bindInboxes_ok hu
  have hgrown : Grown s (bindOwner u roomId actorId) :=
    hin.grown.trans (.of_eq (fun _ hst => hst) rfl rfl)
  have hpending : ∀ row ∈ (inboxes s roomId).filter (fun row => row.memberId ≠ actorId),
      row ∈ s.streamGrants ∧ row.roomId = roomId ∧ ¬s.PairOf row.streamId := by
    intro row hrow
    exact (mem_inboxes_wired hs).mp (List.mem_of_mem_filter hrow)
  have hunpaired : ∀ {id}, ¬(bindOwner u roomId actorId).PairOf id → ¬s.PairOf id := by
    rintro id hn ⟨p, hp, hps⟩
    exact hn ⟨p, hgrown.pairs p hp, hps⟩
  -- A grant on a stream that is still unpaired was there before.
  have hold : ∀ g ∈ (bindOwner u roomId actorId).streamGrants,
      ¬(bindOwner u roomId actorId).PairOf g.streamId → g ∈ s.streamGrants := by
    intro g hg hn
    rcases hin.grants g hg with hg | ⟨row, hrow, hstream, -, -⟩
    · exact hg
    · exact absurd (hstream ▸ hin.paired row hrow) hn
  refine ⟨⟨?_, ?_, ?_, ?_, ?_, ?_⟩, hgrown⟩
  · intro g hg
    rcases hin.grants g hg with hg | ⟨row, hrow, hstream, hgroom, -⟩
    · obtain ⟨st, hst, hrest⟩ := hs.grantStream g hg
      exact ⟨st, hgrown.streams st hst, hrest⟩
    · obtain ⟨hmem, hrr, -⟩ := hpending row hrow
      obtain ⟨st, hst, hsid, hsr, hkind⟩ := hs.grantStream row hmem
      exact ⟨st, hgrown.streams st hst, hsid.trans hstream.symm,
        hsr.trans (hrr.trans hgroom.symm), hkind⟩
  · intro q hq
    rcases hin.pairs q hq with hq | ⟨row, hrow, hstream, hqroom, -, -⟩
    · obtain ⟨st, hst, hrest⟩ := hs.pairStream q hq
      exact ⟨st, hgrown.streams st hst, hrest⟩
    · obtain ⟨hmem, hrr, -⟩ := hpending row hrow
      obtain ⟨st, hst, hsid, hsr, hkind⟩ := hs.grantStream row hmem
      exact ⟨st, hgrown.streams st hst, hsid.trans hstream.symm,
        hsr.trans (hrr.trans hqroom.symm), hkind⟩
  · intro q hq
    rcases hin.pairs q hq with hq | ⟨row, -, -, -, hleft, hright⟩
    · exact hs.sorted q hq
    · rw [hleft, hright]
      exact min_le_max
  · intro q hq g hg hgq
    rcases hin.pairs q hq with hq | ⟨row, hrow, hstream, -, hleft, hright⟩
    · rcases hin.grants g hg with hg | ⟨row, hrow, hgs, -, -⟩
      · exact hs.pairGrants q hq g hg hgq
      · exact absurd ⟨q, hq, hgq.symm.trans hgs⟩ (hpending row hrow).2.2
    · have hmember : g.memberId = actorId ∨ g.memberId = row.memberId := by
        rcases hin.grants g hg with hg | ⟨-, -, -, -, hgm⟩
        · obtain ⟨hmem, -, hno⟩ := hpending row hrow
          have hgrow : g.streamId = row.streamId := hgq.trans hstream
          exact .inr (congrArg StreamGrant.memberId
            (hs.inbox g hg row hmem hgrow (by rw [hgrow]; exact hno)))
        · exact .inl hgm
      rw [hleft, hright]
      rcases hmember with hm | hm <;> rcases le_total actorId row.memberId with hle | hle <;>
        simp [hm, hle]
  · intro g hg k hk hgk hn
    exact hs.inbox g (hold g hg hn) k (hold k hk (hgk ▸ hn)) hgk (hunpaired hn)
  · intro g hg hn
    have hgs := hold g hg hn
    obtain ⟨b', hb', hbr, -⟩ := hs.awaited g hgs (hunpaired hn)
    have hsame : b' = b := Table.eq_of_key hb' hb (k := (0, [])) List.mem_cons_self
      List.mem_cons_self
    have hgroom : g.roomId = roomId := by rw [← hbr, hsame, hroom]
    have hactor : g.memberId = actorId := by
      by_contra hne
      refine hn (hin.paired g (List.mem_filter.mpr ⟨?_, decide_eq_true hne⟩))
      exact (mem_inboxes_wired hs).mpr ⟨hgs, hgroom, hunpaired hn⟩
    refine ⟨{ b with ownerBound := true }, ?_, hroom.trans hgroom.symm, fun _ => ?_⟩
    · exact (Table.mem_update (k := by exact ⟨fun _ => rfl⟩)).mpr
        ⟨b, huw.defaultRoomBindings (by simp) ▸ hb, by simp⟩
    · rw [hactor]
      exact bindOwner_bound (huw.defaultRoomBindings (by simp) ▸ hb) hroom
        (huw.rooms (by simp) ▸ hr) hid

end DefaultRoomRepository

namespace DefaultRoomService

open DefaultRoomRepository

theorem bindSpec_bindings (s : Db) (subject : Nat) : SameBindings s (bindSpec s subject) := by
  intro b hb
  refine ⟨_, Table.mem_update_of_mem (k := by exact ⟨fun _ => rfl⟩) hb, ?_⟩
  split <;> exact ⟨rfl, rfl⟩

theorem activate_owners {s t : Db} {roomId userId : Uuid} (h : activate s roomId userId = .ok t) :
    ∀ r ∈ s.rooms, ∃ r' ∈ t.rooms, r'.id = r.id ∧ r'.ownerMemberId = r.ownerMemberId := by
  simp only [activate, bind_ok, pure_ok] at h
  obtain ⟨accounts, -, rfl⟩ := h
  intro r hr
  refine ⟨_, Table.mem_update_of_mem (k := by exact ⟨fun _ => rfl⟩) hr, ?_⟩
  split <;> exact ⟨rfl, rfl⟩

theorem provisionOwner_wired {s t : Db} {now : Time} {ids : Nat → Uuid} {guarded : Bool}
    {subject : Nat} {state : State} {binding : DefaultRoomBinding} {r : Room} (hs : Wired s)
    (hbinding : binding ∈ s.defaultRoomBindings) (hr : r ∈ s.rooms) (hid : r.id = binding.roomId)
    (h : provisionOwner s now ids binding.roomId guarded subject = .ok (t, state)) :
    Wired t ∧ Grown s t := by
  have hspec := bindSpec_writes s subject
  have hbindings := bindSpec_bindings s subject
  rcases provisionOwner_ok h with rfl | ⟨ownerId, a, b, actor, ha, hb, ht⟩
  · exact ⟨hs.frame (fun _ hst => hst) rfl rfl hbindings fun m hm =>
      hm.mono hbindings fun r hr => ⟨r, hr, rfl, rfl⟩, .of_eq (fun _ hst => hst) rfl rfl⟩
  · have haw := activate_writes ha
    have hbw := RoomStateService.joinRoom_writes hb
    have hstreams : b.messageStreams = s.messageStreams := by
      rw [hbw.messageStreams (by simp), haw.messageStreams (by simp),
        hspec.messageStreams (by simp)]
    have hpairs : b.streamPairs = s.streamPairs := by
      rw [hbw.streamPairs (by simp), haw.streamPairs (by simp), hspec.streamPairs (by simp)]
    have hgrants : b.streamGrants = s.streamGrants := by
      rw [hbw.streamGrants (by simp), haw.streamGrants (by simp), hspec.streamGrants (by simp)]
    have hsame : SameBindings s b := by
      intro x hx
      obtain ⟨x', hx', hrest⟩ := hbindings x hx
      exact ⟨x', by rw [hbw.defaultRoomBindings (by simp),
        haw.defaultRoomBindings (by simp)]; exact hx', hrest⟩
    have howners : ∀ r ∈ s.rooms, ∃ r' ∈ b.rooms, r'.id = r.id ∧
        r'.ownerMemberId = r.ownerMemberId := by
      intro r hr
      rw [hbw.rooms (by simp)]
      exact activate_owners ha r hr
    have hbs : Wired b := hs.frame (fun st hst => hstreams ▸ hst) hpairs hgrants hsame
      fun m hm => hm.mono hsame howners
    obtain ⟨x, hx, hxroom, -⟩ := hsame binding hbinding
    obtain ⟨r', hr', hid', -⟩ := howners r hr
    obtain ⟨hwired, hgrown⟩ := finish_wired hbs hx hxroom hr' (hid'.trans hid) ht
    exact ⟨hwired, .trans (.of_eq (fun st hst => hstreams ▸ hst) hpairs hgrants) hgrown⟩

theorem provision_wired {s t : Db} {now : Time} {ids : Nat → Uuid} {config : DefaultRoomConfig}
    {guarded catalogOnly : Bool} {state : State} (hs : Wired s)
    (h : provision s now ids config guarded catalogOnly = .ok (t, state)) : Wired t ∧ Grown s t := by
  obtain ⟨a, binding, created, ha, hrest⟩ := provision_ok h
  have haw := claim_writes ha
  obtain ⟨hbinding, hclaim⟩ := claim_ok ha
  have hsame : SameBindings s a := by
    rcases hclaim with rfl | ⟨-, hnone⟩
    · exact .of_eq rfl
    · intro b hb
      exact absurd hb (hnone b)
  have hga : Grown s a := .of_eq (fun st hst => haw.messageStreams (by simp) ▸ hst)
    (haw.streamPairs (by simp))
    (haw.streamGrants (by simp))
  have hsa : Wired a := hs.frame (fun st hst => haw.messageStreams (by simp) ▸ hst)
    (haw.streamPairs (by simp))
    (haw.streamGrants (by simp)) hsame fun m hm => hm.mono hsame fun r hr =>
    ⟨r, haw.rooms (by simp) ▸ hr, rfl, rfl⟩
  rcases hrest with rfl | ⟨-, b, hb, hrest⟩
  · exact ⟨hsa, hga⟩
  · have hbw := openCatalog_writes hb
    obtain ⟨hopened, r, hr, hid, -⟩ := openCatalog_ok hb
    have hstreams : ∀ st ∈ a.messageStreams, st ∈ b.messageStreams := by
      rcases hopened with rfl | hcreated
      · exact fun st hst => hst
      · exact RoomStateService.createRoom_streams hcreated
    have howners : ∀ r ∈ a.rooms, ∃ r' ∈ b.rooms, r'.id = r.id ∧
        r'.ownerMemberId = r.ownerMemberId := by
      rcases hopened with rfl | hcreated
      · exact fun r hr => ⟨r, hr, rfl, rfl⟩
      · exact fun r hr => ⟨r, (Table.mem_insert (RoomStateService.createRoom_rooms hcreated)).mpr
          (.inl hr), rfl, rfl⟩
    have hbindings : SameBindings a b := .of_eq (hbw.defaultRoomBindings (by simp))
    have hgb : Grown a b := .of_eq hstreams (hbw.streamPairs (by simp)) (hbw.streamGrants (by simp))
    have hsb : Wired b := hsa.frame hstreams (hbw.streamPairs (by simp))
      (hbw.streamGrants (by simp)) hbindings
      fun m hm => hm.mono hbindings howners
    rcases hrest with rfl | ⟨subject, ht⟩
    · exact ⟨hsb, hga.trans hgb⟩
    · rw [← hbw.defaultRoomBindings (by simp)] at hbinding
      obtain ⟨hwired, hgrown⟩ := provisionOwner_wired hsb hbinding hr hid ht
      exact ⟨hwired, hga.trans (hgb.trans hgrown)⟩

end DefaultRoomService

/-! ## Every command -/

theorem Command.exec_wired {c : Command} {s t : Db} (hs : Wired s) (h : c.exec s = .ok t) :
    Wired t ∧ Grown s t := by
  have hw := exec_writes h
  have hbound : ∀ m, BoundOwner s m → BoundOwner t m := fun m => exec_boundOwner h
  have framed : (∀ st ∈ s.messageStreams, st ∈ t.messageStreams) →
      t.streamPairs = s.streamPairs → t.streamGrants = s.streamGrants →
      t.defaultRoomBindings = s.defaultRoomBindings → Wired t ∧ Grown s t :=
    fun hstreams hpairs hgrants hbindings =>
      ⟨hs.frame hstreams hpairs hgrants (.of_eq hbindings) hbound, .of_eq hstreams hpairs hgrants⟩
  cases c with
  | ban => exact ModerationCoreService.ban_wired hs h
  | send =>
    simp only [Command.exec, bind_ok, pure_ok] at h
    obtain ⟨⟨t, reply⟩, h, rfl⟩ := h
    exact MessagesCoreService.send_wired hs h
  | provision =>
    simp only [Command.exec, bind_ok, pure_ok] at h
    obtain ⟨⟨t, reply⟩, h, rfl⟩ := h
    exact DefaultRoomService.provision_wired hs h
  | createOwnedRoom =>
    simp only [Command.exec, bind_ok, pure_ok] at h
    obtain ⟨⟨t, reply⟩, h, rfl⟩ := h
    exact framed (RoomStateService.createOwnedRoom_streams h) (hw.streamPairs (by simp [tables]))
      (hw.streamGrants (by simp [tables])) (hw.defaultRoomBindings (by simp [tables]))
  | _ =>
    exact framed (fun st hst => hw.messageStreams (by simp [tables]) ▸ hst)
      (hw.streamPairs (by simp [tables])) (hw.streamGrants (by simp [tables]))
      (hw.defaultRoomBindings (by simp [tables]))

/-- Streams, pairs and grants fit together in every reachable state. -/
theorem reachable_wired {allowed : Command → Prop} {s : Db} (h : (chatOf allowed).Reachable s) :
    Wired s := by
  induction h with
  | init hs =>
    subst hs
    refine ⟨?_, ?_, ?_, ?_, ?_, ?_⟩
    all_goals
      intro x hx
      exact absurd hx (Table.not_mem_empty x)
  | step _ hstep ih => exact (Command.exec_wired ih hstep.2).1

/-- Over a run no stream, pair or revocation is lost. -/
theorem run_grown {s t : Db} {cs : List Command} (hs : chat.Reachable s) (h : chat.Run s cs t) :
    Grown s t := by
  induction h with
  | nil => exact .refl _
  | cons hstep _ ih =>
    exact (Command.exec_wired (reachable_wired hs) hstep.2).2.trans (ih (.step hs hstep))

end Rogichat
