import Rogichat.Chat.Audience
import Rogichat.Chat.Batches

/-!
# The page reads what a single read reads

`readable`, which decides on loaded facts, and the page query, which filters in SQL over
joins and truth values that may be unknown, admit the same messages.

* **`readable_iff`** — a message is readable iff the query's condition on it holds.
-/

namespace Rogichat

open Lib

/-! ## The rows the schema and its writers vouch for -/

/-- The foreign keys of a message. -/
structure Referential (db : Db) : Prop where
  stream : ∀ m ∈ db.messages, ∃ s ∈ db.messageStreams, s.roomId = m.roomId ∧ s.id = m.streamId
  room : ∀ m ∈ db.messages, ∃ r ∈ db.rooms, r.id = m.roomId
  sender : ∀ m ∈ db.messages, ∃ s ∈ db.roomMembers, s.roomId = m.roomId ∧
    s.id = m.senderMemberId
  owner : ∀ m ∈ db.messages, ∃ u ∈ db.users, u.id = m.contentOwnerUserId

/-- A sticker asset has at most one stored image, within the catalogue's limits. -/
def Shelved (db : Db) : Prop :=
  ∀ a ∈ db.mediaAssets, a.kind = .sticker → ∀ o ∈ db.mediaObjects, o.assetId = a.id →
    o.variant = .image → o.state = .ready → StickersCoreService.WithinLimits (a, o) ∧
      ∀ o' ∈ db.mediaObjects, o'.assetId = a.id → o'.variant = .image → o'.state = .ready → o' = o

/-- A live delegation of the account in the room was made before now, for a fan of a fan room. -/
def Delegating (db : Db) (now : Time) (roomId userId : Uuid) : Prop :=
  ∀ g ∈ db.roomTestGrants, g.revokedAt = none → now < g.expiresAt →
    ∀ m ∈ db.roomMembers, m.roomId = roomId → m.userId = userId → m.roomId = g.roomId →
      m.id = g.memberId → m.activePeriodId = some g.periodId → g.createdAt ≤ now ∧ m.role = .fan ∧
        ∃ r ∈ db.rooms, r.id = m.roomId ∧ r.mode = .fan

/-- A text that was not deleted is stored. -/
def Worded (db : Db) : Prop :=
  ∀ m ∈ db.messages, m.contentKind = .text → m.deletedAt = none → m.textContent ≠ none

/-! ## Delegations -/

namespace MembershipRepository

/-- The viewer of a read is delegated for the query exactly when it acts under a grant. -/
theorem findActive_delegated_iff {db : Db} {now : Time} {roomId userId : Uuid} {v : ActiveMember}
    {m : RoomMember} {r : Room} {p : MembershipPeriod} (hdb : Delegating db now roomId userId)
    (h : findActive db false now roomId userId = some v) (hrow : ActiveRow db roomId userId m r p) :
    v.temporaryGrantId.isSome = true ↔ delegatedMemberSql db now m := by
  constructor
  · intro hsome
    obtain ⟨m', r', p', hrow', rfl⟩ := findActive_some h
    obtain rfl : m' = m := Table.eq_of_key hrow'.member hrow.member (k := (1, [roomId, userId]))
      (by rw [← hrow'.memberRoom, ← hrow'.memberUser]; exact .tail _ (.head _))
      (by rw [← hrow.memberRoom, ← hrow.memberUser]; exact .tail _ (.head _))
    rcases project_eq db false now _ with heq | ⟨hmode, hrole, g, hg, hlive, heq⟩
    · rw [heq] at hsome
      cases hsome
    · obtain ⟨hgroom, hgmember, hgperiod, hgrevoked, hgexpires, hadmin, hactive⟩ := hlive
      have hpoints : m'.activePeriodId = some g.periodId := by rw [hrow'.points, hgperiod]
      have hcreated := (hdb g hg hgrevoked hgexpires m' hrow'.member hrow'.memberRoom
        hrow'.memberUser hgroom.symm hgmember.symm hpoints).1
      rcases hactive with hwrite | hactive
      · cases hwrite
      · exact ⟨⟨g, hg, hgroom, hgmember, hpoints, hgrevoked, hcreated, hgexpires⟩, hadmin, hactive⟩
  · intro hlive
    obtain ⟨⟨g, hg, hgroom, hgmember, hgperiod, hgrevoked, -, hgexpires⟩, -⟩ := id hlive
    obtain ⟨-, hfan, r', hr', hrid, hmode⟩ := hdb g hg hgrevoked hgexpires m hrow.member
      hrow.memberRoom hrow.memberUser hgroom.symm hgmember.symm hgperiod
    obtain rfl : r' = r := Table.eq_of_key hr' hrow.room (k := (0, [roomId]))
      (by rw [← hrow.memberRoom, ← hrid]; exact List.mem_cons_self)
      (by rw [← hrow.roomId_eq]; exact List.mem_cons_self)
    exact Option.isSome_iff_ne_none.mpr (findActive_delegated h hrow hmode hfan hlive)

end MembershipRepository

/-! ## The conditions, one by one -/

namespace MessagesQueryRepository

/-- A personal block, as a query and as a list. -/
theorem personalSql_iff {db : Db} {m : Message} {actorId : Uuid} :
    personalSql db m actorId ↔
      AccessService.actorBlocked db m.roomId actorId m.senderMemberId false = false := by
  unfold personalSql AccessService.actorBlocked BlockPolicyRepository.targets
  rw [← Bool.not_eq_true, List.contains_iff_mem, Table.has_iff]
  refine not_congr ?_
  simp only [List.mem_map, Table.mem_select, reduceCtorEq, and_false, or_false]
  constructor
  · rintro ⟨b, hb, hroom, hblocker, htarget⟩
    exact ⟨b, ⟨hb, hroom, hblocker⟩, by rw [if_pos hblocker, htarget]⟩
  · rintro ⟨b, ⟨hb, hroom, hblocker⟩, htarget⟩
    rw [if_pos hblocker] at htarget
    exact ⟨b, hb, hroom, hblocker, htarget⟩

/-- The blocked root, loaded and queried: the owner a root refers to is there. -/
theorem rootBlockedSql_fails {db : Db} {m : Message} (hdb : Referential db) :
    (rootBlockedSql db m).Fails ↔ MessagesRepository.rootBlocked db m = false := by
  unfold rootBlockedSql MessagesRepository.rootBlocked rootOwner root
  cases hroot : m.deletionRootId with
  | none => simp
  | some id =>
    cases hfound : db.messages.find? fun root => root.roomId = m.roomId ∧ root.id = id with
    | none => simp [hfound]
    | some root =>
      obtain ⟨u, hu, huid⟩ := hdb.owner root (Table.mem_of_find? hfound)
      have howner : (db.users.find? fun ru => ru.id = root.contentOwnerUserId) = some u := by
        refine Table.find?_eq_some hu huid (k := (0, [u.id])) List.mem_cons_self ?_
        intro x hx
        rw [huid, ← hx]
        exact List.mem_cons_self
      simp [hfound, howner, and_assoc]

theorem rootBlockedSql_fails_iff_rootLiveSql {db : Db} {m : Message} :
    (rootBlockedSql db m).Fails ↔ (rootLiveSql db m).Holds := by
  unfold rootBlockedSql rootLiveSql
  simp

/-- The rows a stored message is joined to. -/
structure Joined.To (db : Db) (m : Message) (j : Joins) : Prop where
  message : m ∈ db.messages
  stream : j.s ∈ db.messageStreams ∧ j.s.roomId = m.roomId ∧ j.s.id = m.streamId
  room : j.r ∈ db.rooms ∧ j.r.id = m.roomId
  owner : j.u ∈ db.users ∧ j.u.id = m.contentOwnerUserId
  sender : j.sender ∈ db.roomMembers ∧ j.sender.roomId = m.roomId ∧ j.sender.id = m.senderMemberId

/-! Each joined row is the one its lookup finds. -/

theorem Joined.To.find_stream {db : Db} {m : Message} {j : Joins} (h : Joined.To db m j) :
    (db.messageStreams.find? fun s => s.roomId = m.roomId ∧ s.id = m.streamId) = some j.s := by
  refine Table.find?_eq_some h.stream.1 h.stream.2 (k := (0, [j.s.id])) List.mem_cons_self ?_
  intro x hx
  rw [h.stream.2.2, ← hx.2]
  exact List.mem_cons_self

theorem Joined.To.find_room {db : Db} {m : Message} {j : Joins} (h : Joined.To db m j) :
    (db.rooms.find? fun r => r.id = m.roomId) = some j.r := by
  refine Table.find?_eq_some h.room.1 h.room.2 (k := (0, [j.r.id])) List.mem_cons_self ?_
  intro x hx
  rw [h.room.2, ← hx]
  exact List.mem_cons_self

theorem Joined.To.find_owner {db : Db} {m : Message} {j : Joins} (h : Joined.To db m j) :
    (db.users.find? fun u => u.id = m.contentOwnerUserId) = some j.u := by
  refine Table.find?_eq_some h.owner.1 h.owner.2 (k := (0, [j.u.id])) List.mem_cons_self ?_
  intro x hx
  rw [h.owner.2, ← hx]
  exact List.mem_cons_self

theorem Joined.To.find_sender {db : Db} {m : Message} {j : Joins} (h : Joined.To db m j) :
    (db.roomMembers.find? fun s => s.roomId = m.roomId ∧ s.id = m.senderMemberId) =
      some j.sender := by
  refine Table.find?_eq_some h.sender.1 h.sender.2 (k := (0, [j.sender.id])) List.mem_cons_self ?_
  intro x hx
  rw [h.sender.2.2, ← hx.2]
  exact List.mem_cons_self

/-- What a read loads of a message with these joins. -/
def loadedRow (db : Db) (m : Message) (j : Joins) : MessageRow :=
  { m with
    senderRole := j.sender.role
    senderUserId := j.sender.userId
    streamKind := j.s.kind
    roomMode := j.r.mode
    ownerMemberId := j.r.ownerMemberId
    publishedActive := decide (publishedCopySql db m false)
    nickname := some (((db.userProfiles.find? fun p => p.userId = j.sender.userId).map
      UserProfile.nickname).getD "")
    contentOwnerStatus := j.u.status
    rootBlocked := MessagesRepository.rootBlocked db m
    avatarId := MessagesRepository.avatarId db j.sender }

/-- The two reads of one message join the same rows. -/
theorem load_joins {db : Db} {m : Message} {viewer : RoomMember} (hdb : Referential db)
    (hm : m ∈ db.messages) (hviewer : viewer ∈ db.roomMembers) (hroom : viewer.roomId = m.roomId) :
    ∃ j, Joined.To db m j ∧ joins db viewer.id m = some j ∧
      MessagesRepository.load db false m.roomId m.id = some (loadedRow db m j) := by
  obtain ⟨s, hs, hsroom, hsid⟩ := hdb.stream m hm
  obtain ⟨r, hr, hrid⟩ := hdb.room m hm
  obtain ⟨u, hu, huid⟩ := hdb.owner m hm
  obtain ⟨sender, hsender, hsenderroom, hsenderid⟩ := hdb.sender m hm
  have hj : Joined.To db m ⟨s, r, u, sender⟩ :=
    ⟨hm, ⟨hs, hsroom, hsid⟩, ⟨hr, hrid⟩, ⟨hu, huid⟩, hsender, hsenderroom, hsenderid⟩
  have hmessage : (db.messages.find? fun x => x.roomId = m.roomId ∧ x.id = m.id) = some m := by
    refine Table.find?_eq_some hm ⟨rfl, rfl⟩ (k := (0, [m.id])) List.mem_cons_self ?_
    intro x hx
    rw [← hx.2]
    exact List.mem_cons_self
  have hviewerfind : (db.roomMembers.find? fun v => v.id = viewer.id ∧ v.roomId = m.roomId) =
      some viewer := by
    refine Table.find?_eq_some hviewer ⟨rfl, hroom⟩ (k := (0, [viewer.id])) List.mem_cons_self ?_
    intro x hx
    rw [← hx.1]
    exact List.mem_cons_self
  refine ⟨_, hj, ?_, ?_⟩
  · simp only [joins, hj.find_stream, hj.find_room, hviewerfind, hj.find_owner, hj.find_sender,
      Option.bind_eq_bind, Option.bind_some, Option.pure_def]
  · simp only [MessagesRepository.load, hmessage, hj.find_stream, hj.find_room, hj.find_owner,
      hj.find_sender, Option.bind_eq_bind, Option.bind_some, Option.pure_def, loadedRow,
      Bool.false_eq_true, if_false]

end MessagesQueryRepository

/-! ## Stickers -/

namespace StickersCoreService

/-- The sticker of a message is served exactly when the query says so, and the page shows the
same one. -/
theorem messageContent_iff {db : Db} {m : Message} (hdb : Shelved db) :
    (∃ c, messageContent db m.roomId m.id = .ok c) ↔
      MessagesQueryRepository.stickerServed db m := by
  simp only [messageContent, catalog, bind_ok, require_ok, ensure_ok, pure_ok]
  constructor
  · rintro ⟨c, link, hlink, s, hs, u, ⟨hstatus, happroved⟩, ⟨a, o⟩, hasset, rfl⟩
    have hlinkp := Table.holds_of_find? hlink
    refine ⟨link, Table.mem_of_find? hlink, hlinkp.1, hlinkp.2, s, Table.mem_of_find? hs,
      Table.holds_of_find? (p := fun s : Sticker => s.id = link.stickerId) hs, hstatus, happroved,
      ?_⟩
    unfold asset StickersRepository.serviceAsset at hasset
    split at hasset
    · rename_i row hrow
      split at hrow
      · cases hrow
      · rename_i a' ha'
        have ha'p := Table.holds_of_find? ha'
        have hmem : row ∈ (db.mediaObjects.select fun o => o.assetId = a'.id ∧
            o.variant = .image ∧ o.state = .ready).map fun o => (a', o) := by
          rw [hrow]
          exact List.mem_cons_self
        obtain ⟨o', ho', rfl⟩ := List.mem_map.mp hmem
        obtain ⟨ho', hop⟩ := Table.mem_select.mp ho'
        exact ⟨a', Table.mem_of_find? ha', ha'p.1, ha'p.2.1, ha'p.2.2.1, ha'p.2.2.2.1,
          ha'p.2.2.2.2, o', ho', hop.1, hop.2.1, hop.2.2⟩
    · cases hasset
  · rintro ⟨link, hlink, hroom, hmessage, s, hs, hsid, hstatus, happroved, a, ha, haid, hkind,
      haroom, hastate, hadeleted, o, ho, hoasset, hovariant, hostate⟩
    -- the rows are those the lookups find, each by its own key
    have hlinkfind : (db.messageStickers.find? fun l => l.roomId = m.roomId ∧
        l.messageId = m.id) = some link := by
      refine Table.find?_eq_some hlink ⟨hroom, hmessage⟩ (k := (0, [m.roomId, m.id])) ?_ ?_
      · rw [← hroom, ← hmessage]
        exact List.mem_cons_self
      · intro x hx
        rw [← hx.1, ← hx.2]
        exact List.mem_cons_self
    have hsfind : (db.stickerCatalog.find? fun s => s.id = link.stickerId) = some s := by
      refine Table.find?_eq_some hs hsid (k := (0, [s.id])) List.mem_cons_self ?_
      intro x hx
      rw [hsid, ← hx]
      exact List.mem_cons_self
    have hafind : (db.mediaAssets.find? fun x => x.id = s.assetId ∧ x.kind = .sticker ∧
        x.roomId = none ∧ x.state = .ready ∧ x.deletedAt = none) = some a := by
      refine Table.find?_eq_some ha ⟨haid, hkind, haroom, hastate, hadeleted⟩ (k := (0, [a.id]))
        List.mem_cons_self ?_
      intro x hx
      rw [haid, ← hx.1]
      exact List.mem_cons_self
    -- the only object of the asset, and within its limits
    obtain ⟨hlimits, hone⟩ := hdb a ha hkind o ho hoasset hovariant hostate
    have hobjects : (db.mediaObjects.select fun x => x.assetId = a.id ∧ x.variant = .image ∧
        x.state = .ready) = [o] :=
      Table.select_eq_singleton ho ⟨hoasset, hovariant, hostate⟩ fun x hx hp =>
        hone x hx hp.1 hp.2.1 hp.2.2
    have hasset : asset db s.assetId = .ok (a, o) := by
      simp only [asset, StickersRepository.serviceAsset, hafind, hobjects, List.map_cons,
        List.map_nil, ensure_pos hlimits, ok_bind]
      rfl
    exact ⟨_, link, hlinkfind, s, hsfind, (), ⟨hstatus, happroved⟩, (a, o), hasset, rfl⟩

/-- The sticker read for a page is the one read alone. -/
theorem stickerOf_eq {db : Db} {roomId id : Uuid} {ids : List Uuid} {c : StickerContent}
    (h : messageContent db roomId id = .ok c) (hid : id ∈ ids) :
    MessagesQueryRepository.stickerOf db roomId ids id = some c := by
  simp only [messageContent, catalog, bind_ok, require_ok, ensure_ok, pure_ok] at h
  obtain ⟨link, hlink, s, hs, u, -, ⟨a, o⟩, hasset, rfl⟩ := h
  have hlink' : (db.messageStickers.find? fun l => l.roomId = roomId ∧ l.messageId ∈ ids ∧
      l.messageId = id) = some link := by
    have hp := Table.holds_of_find? hlink
    refine Table.find?_eq_some (Table.mem_of_find? hlink) ⟨hp.1, hp.2 ▸ hid, hp.2⟩
      (k := (0, [roomId, id])) ?_ ?_
    · rw [← hp.1, ← hp.2]
      exact List.mem_cons_self
    · intro x hx
      rw [← hx.1, ← hx.2.2]
      exact List.mem_cons_self
  unfold asset StickersRepository.serviceAsset at hasset
  split at hasset
  · rename_i row hrow
    simp only [bind_ok, ensure_ok, pure_ok] at hasset
    obtain ⟨u, -, rfl⟩ := hasset
    split at hrow
    · cases hrow
    · rename_i a' ha'
      have ha'p := Table.holds_of_find? ha'
      have hafind : (db.mediaAssets.find? fun x => x.id = s.assetId) = some a' := by
        refine Table.find?_eq_some (Table.mem_of_find? ha') ha'p.1 (k := (0, [a'.id]))
          List.mem_cons_self ?_
        intro x hx
        rw [ha'p.1, ← hx]
        exact List.mem_cons_self
      obtain ⟨o', hobjects, heq⟩ := List.map_eq_singleton_iff.mp hrow
      obtain ⟨rfl, rfl⟩ := Prod.mk.inj heq
      simp only [MessagesQueryRepository.stickerOf, hlink', hs, hafind, hobjects,
        Option.bind_eq_bind, Option.bind_some]
  · cases hasset

end StickersCoreService

/-! ## Who may read -/

namespace MessagesCoreService

open MessagesQueryRepository

/-- A message the query does not drop: nothing hides it. -/
theorem blockedSql_fails {db : Db} {m : Message} {u : User} (hdb : Referential db) :
    (blockedSql db m u).Fails ↔ m.deletedAt = none ∧ m.moderated = false ∧
      u.status.leaving = false ∧ MessagesRepository.rootBlocked db m = false ∧
      (m.contentKind = .sticker → stickerServed db m) := by
  simp only [blockedSql, Truth.fails_or, Truth.fails_of, Truth.fails_and, Truth.fails_not,
    Truth.holds_of, rootBlockedSql_fails hdb, not_not, Bool.not_eq_true]
  constructor
  · rintro ⟨hdeleted, hmoderated, howner, hroot, hsticker⟩
    refine ⟨hdeleted, hmoderated, howner, hroot, fun hkind => ?_⟩
    exact hsticker.resolve_left fun h => h hkind
  · rintro ⟨hdeleted, hmoderated, howner, hroot, hsticker⟩
    exact ⟨hdeleted, hmoderated, howner, hroot, (em _).symm.imp_right hsticker⟩

/-- Shared messages of a fan room, decided on facts and in the query. -/
theorem fanSharedVisible_iff {db : Db} {m : Message} {j : Joins} {v : ActiveMember}
    {g : Option StreamGrant} :
    fanSharedVisible ((readFacts (loadedRow db m j) g).shared
        (accessFacts v (loadedRow db m j).ownerMemberId)) = true ↔
      fanSharedVisibleSql db m j.r v.id false := by
  simp only [fanSharedVisible, ReadFacts.shared, readFacts, accessFacts, loadedRow,
    Bool.or_eq_true, bne_iff_ne, beq_iff_eq, Bool.and_eq_true, Bool.not_eq_true',
    Option.isSome_eq_false_iff, Option.isNone_iff_eq_none, decide_eq_true_eq,
    fanSharedVisibleSql, Option.isSome_iff_ne_none, or_assoc]
  rw [eq_comm (a := some m.senderMemberId)]

/-- Grants of private messages, loaded and in the query. -/
theorem granted_iff {db : Db} {now : Time} {roomId userId : Uuid} {v : ActiveMember} {m : Message}
    {j : Joins} (hdel : Delegating db now roomId userId)
    (hv : MembershipRepository.findActive db false now roomId userId = some v)
    (hroom : m.roomId = roomId) (hkind : j.s.kind = .restricted) :
    ((accessFacts v (loadedRow db m j).ownerMemberId).delegated = true ∨
      (readFacts (loadedRow db m j) (loadedGrant db now v (loadedRow db m j))).granted
        (accessFacts v (loadedRow db m j).ownerMemberId) = true) ↔ grantSql db now m v.id := by
  obtain ⟨rm, r, p, hrow, hid, hvroom, -⟩ := MembershipRepository.findActive_role hv
  -- the two ways of being granted, each as its SQL condition
  have hdelegated : (accessFacts v (loadedRow db m j).ownerMemberId).delegated = true ↔
      delegatedMemberSql db now rm :=
    MembershipRepository.findActive_delegated_iff hdel hv hrow
  have hloaded : loadedGrant db now v (loadedRow db m j) =
      MessagesRepository.grant db now m.roomId m.streamId v.id := by
    simp [loadedGrant, loadedRow, hkind]
  have hgranted : (readFacts (loadedRow db m j) (loadedGrant db now v (loadedRow db m j))).granted
      (accessFacts v (loadedRow db m j).ownerMemberId) = true ↔
      ∃ g ∈ db.streamGrants, g.roomId = m.roomId ∧ g.streamId = m.streamId ∧ g.memberId = v.id ∧
        MessagesRepository.Effective now g ∧ g.canRead = true := by
    rw [hloaded, ← MessagesRepository.grant_iff]
    simp only [MessageFacts.granted, readFacts, messageFacts, accessFacts, loadedRow,
      Option.any_map, Option.any_eq_true, Bool.and_eq_true, beq_iff_eq, Bool.true_and]
    constructor
    · rintro ⟨g, hg, ⟨⟨hread, -⟩, -⟩, -⟩
      exact ⟨g, hg, hread⟩
    · rintro ⟨g, hg, hread⟩
      have hholds := Table.holds_of_find? hg
      exact ⟨g, hg, ⟨⟨hread, hholds.2.2.1⟩, hholds.1.trans (hroom.trans hvroom.symm)⟩,
        hholds.2.1⟩
  rw [hdelegated, hgranted]
  have hrmroom : rm.roomId = m.roomId := hrow.memberRoom.trans hroom.symm
  constructor
  · intro h
    refine ⟨rm, hrow.member, hrmroom, hid.symm, h.imp_right ?_⟩
    rintro ⟨g, hg, hgroom, hgstream, hgmember, heffective, hread⟩
    exact ⟨g, hg, hgroom, hgstream, hgmember.trans hid, hread, heffective⟩
  · rintro ⟨rm', hrm', -, hrmid, h⟩
    obtain rfl : rm' = rm := Table.eq_of_key hrm' hrow.member (k := (0, [v.id]))
      (by rw [← hrmid]; exact List.mem_cons_self) (by rw [hid]; exact List.mem_cons_self)
    refine h.imp_right ?_
    rintro ⟨g, hg, hgroom, hgstream, hgmember, hread, heffective⟩
    exact ⟨g, hg, hgroom, hgstream, hgmember.trans hrmid, heffective, hread⟩

/-- A message is readable iff the page query's condition on it holds. -/
theorem readable_iff {db : Db} {now : Time} {roomId userId : Uuid} {v : ActiveMember} {m : Message}
    {j : Joins} (hdb : Referential db) (hshelf : Shelved db)
    (hdel : Delegating db now roomId userId)
    (hv : MembershipRepository.findActive db false now roomId userId = some v)
    (hroom : m.roomId = roomId) :
    readable db now v (loadedRow db m j) = true ↔ personalSql db m v.id ∧
      audienceOf db now v.id v.visibleFromOrder false m j.s j.r ∧
      (blockedSql db m j.u).not.Holds := by
  have hvroom : v.roomId = m.roomId := by
    obtain ⟨-, -, -, -, -, hvroom, -⟩ := MembershipRepository.findActive_role hv
    exact hvroom.trans hroom.symm
  -- the service's checks one by one, as the query spells them
  have hallowed : allowed db now v (loadedRow db m j) = true ↔
      Available v (loadedRow db m j) ∧ (j.s.kind = .roomShared ∧
          fanSharedVisibleSql db m j.r v.id false ∨
        j.s.kind = .restricted ∧ grantSql db now m v.id) := by
    rw [allowed, canReadMessage_iff, available_iff, fanSharedVisible_iff]
    refine and_congr_right fun _ => or_congr Iff.rfl (and_congr_right fun hkind => ?_)
    exact granted_iff hdel hv hroom hkind
  have havailable : Available v (loadedRow db m j) ↔ m.deletedAt = none ∧ m.moderated = false ∧
      MessagesRepository.rootBlocked db m = false ∧ j.u.status.leaving = false ∧
      v.visibleFromOrder ≤ m.createdOrder :=
    ⟨fun h => ⟨h.live, h.unmoderated, h.root, h.owner, h.boundary⟩,
      fun h => ⟨hvroom, h.1, h.2.1, h.2.2.1, h.2.2.2.1, h.2.2.2.2⟩⟩
  have hsticker : (m.contentKind != .sticker ||
      (StickersCoreService.messageContent db m.roomId m.id).isOk) = true ↔
      (m.contentKind = .sticker → stickerServed db m) := by
    rw [← StickersCoreService.messageContent_iff hshelf]
    cases StickersCoreService.messageContent db m.roomId m.id with
    | ok c => simp [Except.isOk, Except.toBool]
    | error e => simp [Except.isOk, Except.toBool]
  have hunfold : readable db now v (loadedRow db m j) =
      if AccessService.actorBlocked db m.roomId v.id m.senderMemberId false = true then false
      else allowed db now v (loadedRow db m j) && (m.contentKind != .sticker ||
        (StickersCoreService.messageContent db m.roomId m.id).isOk) := by
    unfold readable
    rw [show (loadedRow db m j).roomId = m.roomId from rfl,
      show (loadedRow db m j).id = m.id from rfl]
    cases StickersCoreService.messageContent db m.roomId m.id with
    | ok c => rfl
    | error e => rfl
  rw [personalSql_iff, Truth.holds_not, blockedSql_fails hdb, hunfold]
  cases hblocked : AccessService.actorBlocked db m.roomId v.id m.senderMemberId false with
  | true => simp
  | false =>
    rw [if_neg (by simp), Bool.and_eq_true, hallowed, havailable, hsticker, audienceOf]
    constructor
    · rintro ⟨⟨⟨hdeleted, hmoderated, hroot, howner, horder⟩, haudience⟩, hserved⟩
      exact ⟨rfl, ⟨horder, haudience⟩, hdeleted, hmoderated, howner, hroot, hserved⟩
    · rintro ⟨-, ⟨horder, haudience⟩, hdeleted, hmoderated, howner, hroot, hserved⟩
      exact ⟨⟨⟨hdeleted, hmoderated, hroot, howner, horder⟩, haudience⟩, hserved⟩

/-! ## Quotes -/

/-- What the answer shows of a quote. -/
def MessageReadModel.Quote.shown (q : MessageReadModel.Quote) : MessageDto.Quote :=
  { id := q.id, authorName := nameOr q.authorName, text := q.text }

theorem nameOr_nameOr (name : Option String) : nameOr (some (nameOr name)) = nameOr name := by
  cases name with
  | none => rfl
  | some name =>
    by_cases h : name = ""
    · simp [nameOr, h, unnamed]
    · simp [nameOr, h]

/-- A missing name is shown the same whether it was filled in early or late. -/
theorem nameOr_getD (name : Option String) :
    nameOr (some (nameOr (some (name.getD "")))) = nameOr (some (name.getD unnamed)) := by
  rw [nameOr_nameOr]
  cases name with
  | none => rfl
  | some name => rfl

theorem quotePair_iff {db : Db} {m q : Message} :
    MessagesRepository.quotePair db m.roomId m.streamId m.senderMemberId q.senderMemberId = true ↔
      quotePairSql db m q := by
  rw [MessagesRepository.quotePair, Table.find?_isSome]
  exact Table.has_iff.symm

/-- A live root, as the query of a quote asks for it. -/
theorem rootLiveSql_holds {db : Db} {m : Message} (hdb : Referential db) :
    (rootLiveSql db m).Holds ↔ MessagesRepository.rootBlocked db m = false := by
  rw [← rootBlockedSql_fails_iff_rootLiveSql, rootBlockedSql_fails hdb]

section Quotes

variable {db : Db} {now : Time} {roomId userId : Uuid} {v : ActiveMember} {m q : Message}
  {j jq : Joins}

/-- A quote is shown by the query exactly when a read of it is allowed within the audience of
the message that quotes it. -/
theorem quotable_iff (hdb : Referential db) (hshelf : Shelved db)
    (hdel : Delegating db now roomId userId)
    (hv : MembershipRepository.findActive db false now roomId userId = some v)
    (hroom : m.roomId = roomId) (hj : Joined.To db m j) (hjq : Joined.To db q jq)
    (hqroom : q.roomId = m.roomId) (horiginal : m.deletionRootId = none)
    (author : Option UserProfile) :
    (quotableSql db now v.id v.visibleFromOrder m j ⟨q, some jq.s, some jq.u, author⟩).Holds ↔
      sameAudience db (loadedRow db m j) (loadedRow db q jq) ∧
        readable db now v (loadedRow db q jq) = true ∧ q.contentKind = .text := by
  have hr : jq.r = j.r := Table.eq_of_key hjq.room.1 hj.room.1 (k := (0, [m.roomId]))
    (by rw [← hqroom, ← hjq.room.2]; exact List.mem_cons_self)
    (by rw [← hj.room.2]; exact List.mem_cons_self)
  have hsame : sameAudience db (loadedRow db m j) (loadedRow db q jq) ↔
      jq.s.kind = .roomShared ∨ q.streamId = m.streamId ∨ j.s.kind = .restricted ∧
        q.senderMemberId ≠ m.senderMemberId ∧ quotePairSql db m q := by
    rw [← quotePair_iff]
    rfl
  rw [readable_iff hdb hshelf hdel hv (hqroom.trans hroom), hsame, Truth.holds_not,
    blockedSql_fails hdb, hr]
  simp only [quotableSql, Truth.holds_and, Truth.holds_of, Truth.holds_or, Truth.holds_cmp,
    Option.some.injEq, exists_eq_left', rootLiveSql_holds hdb, audienceOf, horiginal, true_and]
  constructor
  · rintro ⟨htext, hdeleted, hmoderated, howner, hroot, hpersonal, horder, haudience⟩
    have hserved : q.contentKind = .sticker → stickerServed db q := by
      intro h
      rw [htext] at h
      cases h
    rcases haudience with ⟨hshared, hfan⟩ | ⟨hrestricted, hpair, hgrant⟩
    · exact ⟨.inl hshared, ⟨hpersonal, ⟨horder, .inl ⟨hshared, hfan⟩⟩, hdeleted, hmoderated,
        howner, hroot, hserved⟩, htext⟩
    · exact ⟨.inr hpair, ⟨hpersonal, ⟨horder, .inr ⟨hrestricted, hgrant⟩⟩, hdeleted, hmoderated,
        howner, hroot, hserved⟩, htext⟩
  · rintro ⟨hsame, ⟨hpersonal, ⟨horder, haudience⟩, hdeleted, hmoderated, howner, hroot, -⟩, htext⟩
    refine ⟨htext, hdeleted, hmoderated, howner, hroot, hpersonal, horder, ?_⟩
    rcases haudience with hshared | ⟨hrestricted, hgrant⟩
    · exact .inl hshared
    · refine .inr ⟨hrestricted, ?_, hgrant⟩
      rcases hsame with hshared | hpair
      · rw [hrestricted] at hshared
        cases hshared
      · exact hpair

/-- The quote of a message, read alone and in a page. -/
theorem quote_eq (hdb : Referential db) (hshelf : Shelved db)
    (hdel : Delegating db now roomId userId) (hworded : Worded db)
    (hv : MembershipRepository.findActive db false now roomId userId = some v)
    (hroom : m.roomId = roomId) (hj : Joined.To db m j) (eventOrder : Option Nat) :
    ((quoteOf db now v (loadedRow db m j)).map MessageReadModel.Quote.shown) =
      (if m.deletionRootId ≠ none then none else
        (rowOf db now v.id v.visibleFromOrder m j eventOrder).quoteId.map fun id =>
          ({ id := id
             authorName := some ((rowOf db now v.id v.visibleFromOrder m j
               eventOrder).quoteAuthorName.getD unnamed)
             text := (rowOf db now v.id v.visibleFromOrder m j eventOrder).quoteText } :
            MessageReadModel.Quote)).map MessageReadModel.Quote.shown := by
  by_cases horiginal : m.deletionRootId = none
  swap
  · simp [quoteOf, loadedRow, horiginal]
  rw [if_neg (by simp [horiginal])]
  cases hquote : m.quoteId with
  | none => simp [quoteOf, loadedRow, horiginal, hquote, rowOf, quoted]
  | some qid =>
    cases hq : db.messages.find? fun q => q.roomId = m.roomId ∧ q.id = qid with
    | none =>
      have hload : MessagesRepository.load db false m.roomId qid = none := by
        simp [MessagesRepository.load, hq]
      simp [quoteOf, loadedRow, horiginal, hquote, rowOf, quoted, hq, hload]
    | some q =>
      have hqp := Table.holds_of_find? hq
      obtain ⟨viewer, r, p, hrow, hid, -⟩ := MembershipRepository.findActive_role hv
      -- the quoted message is there with all it refers to
      obtain ⟨jq, hjq, hjoins, hload⟩ := load_joins hdb (Table.mem_of_find? hq) hrow.member
        (hrow.memberRoom.trans (hroom.symm.trans hqp.1.symm))
      rw [hqp.1, hqp.2] at hload
      have hquoted : quoted db m = some ⟨q, some jq.s, some jq.u,
          db.userProfiles.find? fun p => p.userId = jq.sender.userId⟩ := by
        simp [quoted, hquote, hq, hjq.find_sender, hjq.find_stream, hjq.find_owner]
      have hiff := quotable_iff hdb hshelf hdel hv hroom hj hjq hqp.1 horiginal
        (db.userProfiles.find? fun p => p.userId = jq.sender.userId)
      -- shown by both, or by neither
      by_cases hshow : sameAudience db (loadedRow db m j) (loadedRow db q jq) ∧
        readable db now v (loadedRow db q jq) = true ∧ q.contentKind = .text
      · have hlive : q.deletedAt = none :=
          (allowed_available (readable_allowed hshow.2.1)).live
        obtain ⟨text, htext⟩ := Option.ne_none_iff_exists'.mp
          (hworded q hjq.message hshow.2.2 hlive)
        have hget : quoteOf db now v (loadedRow db m j) = some
            { id := q.id
              authorName := some (if q.deletionRootId ≠ none then published
                else nameOr (some (((db.userProfiles.find? fun p =>
                  p.userId = jq.sender.userId).map UserProfile.nickname).getD "")))
              text := some text } := by
          simp only [quoteOf]
          rw [show (loadedRow db m j).deletionRootId = none from horiginal, if_pos rfl,
            show (loadedRow db m j).quoteId = some qid from hquote]
          simp only [Option.bind_eq_bind, Option.bind_some]
          rw [show MessagesRepository.load db false (loadedRow db m j).roomId qid =
            some (loadedRow db q jq) from hload]
          simp only [Option.bind_some]
          rw [show (loadedRow db q jq).textContent = some text from htext]
          simp only [Option.bind_some]
          exact if_pos hshow
        rw [hget]
        simp only [rowOf, hquoted, Option.bind_some, if_pos (hiff.mpr hshow), Option.map_some,
          MessageReadModel.Quote.shown, htext]
        by_cases hcopy : q.deletionRootId = none
        · simp [hcopy, nameOr_getD]
        · simp [hcopy]
      · have hget : quoteOf db now v (loadedRow db m j) = none := by
          simp only [quoteOf]
          rw [show (loadedRow db m j).deletionRootId = none from horiginal, if_pos rfl,
            show (loadedRow db m j).quoteId = some qid from hquote]
          simp only [Option.bind_eq_bind, Option.bind_some]
          rw [show MessagesRepository.load db false (loadedRow db m j).roomId qid =
            some (loadedRow db q jq) from hload]
          simp only [Option.bind_some, Option.bind_eq_none_iff]
          intro text htext
          exact if_neg hshow
        rw [hget]
        simp only [rowOf, hquoted, Option.bind_some, if_neg (fun h => hshow (hiff.mp h)),
          Option.map_none]

end Quotes

/-! ## The rows of a page -/

theorem mem_snapshot {db : Db} {now : Time} {actorId roomId : Uuid} {visibleFrom from_ : Nat}
    {row : PageRow} :
    row ∈ windowRows db now actorId roomId visibleFrom (.snapshot from_) ↔
      ∃ m ∈ db.messages, m.roomId = roomId ∧ m.createdOrder ≤ from_ ∧
        liveRow db now actorId visibleFrom m = some row := by
  simp only [windowRows, List.mem_insertionSort, List.mem_filterMap, Table.mem_select]
  constructor
  · rintro ⟨m, ⟨hm, hroom, hfrom⟩, hrow⟩
    exact ⟨m, hm, hroom, hfrom, hrow⟩
  · rintro ⟨m, hm, hroom, hfrom, hrow⟩
    exact ⟨m, ⟨hm, hroom, hfrom⟩, hrow⟩

/-- A row of the query, for the message it is of. -/
theorem liveRow_iff {db : Db} {now : Time} {actorId : Uuid} {visibleFrom : Nat} {m : Message}
    {j : Joins} {row : PageRow} (hj : joins db actorId m = some j) :
    liveRow db now actorId visibleFrom m = some row ↔
      (personalSql db m actorId ∧ audienceOf db now actorId visibleFrom false m j.s j.r ∧
        (blockedSql db m j.u).not.Holds) ∧ rowOf db now actorId visibleFrom m j none = row := by
  simp only [liveRow, hj, Option.bind_eq_bind, Option.bind_some]
  split
  · rename_i h
    exact ⟨fun hrow => ⟨h, Option.some.inj hrow⟩, fun hrow => congrArg some hrow.2⟩
  · rename_i h
    exact ⟨fun hrow => absurd hrow (by simp), fun hrow => absurd hrow.1 h⟩

theorem liveRow_id {db : Db} {now : Time} {actorId : Uuid} {visibleFrom : Nat} {m : Message}
    {row : PageRow} (h : liveRow db now actorId visibleFrom m = some row) : row.id = m.id := by
  unfold liveRow at h
  simp only [Option.bind_eq_bind, Option.bind_eq_some_iff] at h
  obtain ⟨j, -, h⟩ := h
  split at h
  · cases h
    rfl
  · cases h

/-! ## One answer -/

/-- A message the viewer, as a delegate, sent in private. -/
def DelegateOwn (db : Db) (v : ActiveMember) (m : Message) : Prop :=
  v.temporaryGrantId ≠ none ∧ m.senderMemberId = v.id ∧
    ∃ s ∈ db.messageStreams, s.roomId = m.roomId ∧ s.id = m.streamId ∧ s.kind = .restricted

/-- Two answers about one message. They are equal, but for a message a delegate sent in private:
there the page may also offer a reply, depending on whose messages are on it. -/
structure Agree (a b : MessageDto) (own : Prop) : Prop where
  rest : a = { b with
    counterpart := a.counterpart
    allowedActions := { b.allowedActions with reply := a.allowedActions.reply } }
  all : ¬own → a = b

section Answers

variable {db : Db} {now : Time} {roomId userId : Uuid} {v : ActiveMember} {m : Message}
  {j : Joins}

theorem ownPrivate_of (hm : m ∈ db.messages) :
    (∃ x ∈ MessageEligibilityRepository.messages db v.roomId [m.id],
      MessageEligibilityService.OwnPrivate v x) → DelegateOwn db v m := by
  rintro ⟨x, hx, hdelegate, hsender, hkind⟩
  obtain ⟨m', hm', -, hid, hfacts⟩ := MessageEligibilityRepository.mem_messages.mp hx
  obtain rfl : m' = m := Table.eq_of_key hm' hm (k := (0, [m.id]))
    (by rw [← List.mem_singleton.mp hid]; exact List.mem_cons_self) List.mem_cons_self
  simp only [MessageEligibilityRepository.factsOf, Option.bind_eq_bind, Option.bind_eq_some_iff,
    Option.pure_def, Option.some.injEq] at hfacts
  obtain ⟨sender, -, stream, hstream, rfl⟩ := hfacts
  have hp := Table.holds_of_find? hstream
  refine ⟨hdelegate, hsender, stream, Table.mem_of_find? hstream, hp.1, hp.2, ?_⟩
  show stream.kind = .restricted
  cases hs : stream.kind with
  | roomShared => exact absurd hs hkind
  | restricted => rfl

/-- The row of a page, with what is read for the page at once. -/
def shownRow (db : Db) (now : Time) (v : ActiveMember) (m : Message) (j : Joins)
    (mediaIds stickerIds : List Uuid) : PageRow :=
  withMedia db v.roomId mediaIds stickerIds (rowOf db now v.id v.visibleFromOrder m j none)

/-- A message that may be read is hidden behind no block and no vanished sticker. -/
theorem readable_unblocked (hdb : Referential db) (hshelf : Shelved db)
    (hdel : Delegating db now roomId userId)
    (hv : MembershipRepository.findActive db false now roomId userId = some v)
    (hroom : m.roomId = roomId) (hreadable : readable db now v (loadedRow db m j) = true) :
    (blockedSql db m j.u).Fails := by
  have hholds := ((readable_iff hdb hshelf hdel hv hroom).mp hreadable).2.2
  rwa [Truth.holds_not] at hholds

/-- What the page shows of a message is what a read of it answers. -/
theorem contentOf_shown (hdb : Referential db) (hshelf : Shelved db)
    (hvroom : v.roomId = m.roomId) (hunblocked : (blockedSql db m j.u).Fails)
    {mediaIds stickerIds : List Uuid} {content : MessageDto.Content}
    (hmedia : m.contentKind = .photo ∨ m.contentKind = .video → m.id ∈ mediaIds)
    (hsticker : m.contentKind = .sticker → m.id ∈ stickerIds)
    (hcontent : MessagesQueryService.contentOf (shownRow db now v m j mediaIds stickerIds) =
      .ok content) : contentOf db (loadedRow db m j) = .ok content := by
  unfold MessagesQueryService.contentOf at hcontent
  unfold contentOf
  cases hkind : m.contentKind with
  | text =>
    rw [show (loadedRow db m j).contentKind = .text from hkind]
    rw [show (shownRow db now v m j mediaIds stickerIds).contentKind = .text from hkind] at hcontent
    exact hcontent
  | photo =>
    rw [show (loadedRow db m j).contentKind = .photo from hkind]
    rw [show (shownRow db now v m j mediaIds stickerIds).contentKind = .photo from hkind]
      at hcontent
    rw [← hcontent]
    show Except.ok (MessageDto.Content.photo (MessagesRepository.attachments db m.roomId m.id) _) =
      Except.ok (MessageDto.Content.photo (attachmentsOf db v.roomId mediaIds m.id) _)
    rw [attachmentsOf_eq (hmedia (.inl hkind)), hvroom]
    rfl
  | video =>
    rw [show (loadedRow db m j).contentKind = .video from hkind]
    rw [show (shownRow db now v m j mediaIds stickerIds).contentKind = .video from hkind]
      at hcontent
    rw [← hcontent]
    show Except.ok (MessageDto.Content.video (MessagesRepository.attachments db m.roomId m.id) _) =
      Except.ok (MessageDto.Content.video (attachmentsOf db v.roomId mediaIds m.id) _)
    rw [attachmentsOf_eq (hmedia (.inr hkind)), hvroom]
    rfl
  | sticker =>
    rw [show (loadedRow db m j).contentKind = .sticker from hkind]
    rw [show (shownRow db now v m j mediaIds stickerIds).contentKind = .sticker from hkind]
      at hcontent
    have hserved : stickerServed db m := by
      rw [blockedSql_fails hdb] at hunblocked
      exact hunblocked.2.2.2.2 hkind
    obtain ⟨c, hc⟩ := (StickersCoreService.messageContent_iff hshelf).mpr hserved
    have hshown : (shownRow db now v m j mediaIds stickerIds).sticker = some c := by
      show stickerOf db v.roomId stickerIds m.id = some c
      rw [hvroom]
      exact StickersCoreService.stickerOf_eq hc (hsticker hkind)
    simp only [hshown, require_some, ok_bind, pure_ok] at hcontent
    subst hcontent
    show (StickersCoreService.messageContent db m.roomId m.id >>= fun sticker =>
      return MessageDto.Content.sticker sticker) = _
    rw [hc, ok_bind]
    rfl
  | other name =>
    rw [show (shownRow db now v m j mediaIds stickerIds).contentKind = .other name from hkind]
      at hcontent
    cases hcontent

theorem nickname_loaded (hprofile : ∃ p ∈ db.userProfiles, p.userId = j.sender.userId) :
    (loadedRow db m j).nickname.getD unnamed =
      ((db.userProfiles.find? fun p => p.userId = j.sender.userId).map
        UserProfile.nickname).getD unnamed := by
  obtain ⟨p, hp, hpid⟩ := hprofile
  have hsome : (db.userProfiles.find? fun p => p.userId = j.sender.userId).isSome = true :=
    Table.find?_isSome.mpr ⟨p, hp, hpid⟩
  obtain ⟨q, hq⟩ := Option.isSome_iff_exists.mp hsome
  simp [loadedRow, hq]

/-- A read goes through once its parts do. -/
theorem project_loaded {content : MessageDto.Content} {hints : List (Uuid × MessageEligibility)}
    {e : MessageEligibility} {reactions : Uuid × MessageDto.Reactions}
    (hreadable : readable db now v (loadedRow db m j) = true)
    (hcontent : contentOf db (loadedRow db m j) = .ok content)
    (hhints : MessageEligibilityService.project db now v [m.id] = .ok hints)
    (hat : Keyed.at? Prod.fst hints m.id = some (m.id, e))
    (hreactions : Keyed.at? Prod.fst (reactionsFor db v [m.id]) m.id = some reactions) :
    project db now v (loadedRow db m j) = .ok (projectMessageDto
      (modelOf (loadedRow db m j) content (quoteOf db now v (loadedRow db m j)) e reactions.2)) := by
  simp only [project, ensure_pos hreadable, ok_bind, hcontent]
  show (MessageEligibilityService.project db now v [m.id] >>= _) = _
  rw [hhints, ok_bind]
  show (require (Keyed.at? Prod.fst hints m.id) _ >>= _) = _
  rw [hat, require_some, ok_bind]
  show (require (Keyed.at? Prod.fst (reactionsFor db v [m.id]) m.id) _ >>= _) = _
  rw [hreactions, require_some, ok_bind]
  rfl

/-- The item of a readable message and the answer of a read of it. -/
theorem item_agrees (hdb : Referential db) (hshelf : Shelved db)
    (hdel : Delegating db now roomId userId) (hworded : Worded db)
    (hv : MembershipRepository.findActive db false now roomId userId = some v)
    (hroom : m.roomId = roomId) (hj : Joined.To db m j)
    (hprofile : ∃ p ∈ db.userProfiles, p.userId = j.sender.userId)
    (hreadable : readable db now v (loadedRow db m j) = true)
    {window : MessageWindow} {ids mediaIds stickerIds : List Uuid}
    {hints : List (Uuid × MessageEligibility)} {it : MessagePageItem}
    (hids : m.id ∈ ids) (hmedia : m.contentKind = .photo ∨ m.contentKind = .video → m.id ∈ mediaIds)
    (hsticker : m.contentKind = .sticker → m.id ∈ stickerIds)
    (hhints : MessageEligibilityService.project db now v ids = .ok hints)
    (hit : MessagesQueryService.item window hints (reactionsFor db v ids)
      (shownRow db now v m j mediaIds stickerIds) = .ok it) :
    ∃ dto dto', project db now v (loadedRow db m j) = .ok dto ∧ it.message = some dto' ∧
      Agree dto' dto (DelegateOwn db v m) := by
  have hvroom : v.roomId = m.roomId := by
    obtain ⟨-, -, -, -, -, hvroom, -⟩ := MembershipRepository.findActive_role hv
    exact hvroom.trans hroom.symm
  have hunblocked := readable_unblocked hdb hshelf hdel hv hroom hreadable
  have hblocked : (blockedSql db m j.u) ≠ .true := fun h => Truth.Holds.not_fails h hunblocked
  obtain ⟨hints', e, e', hhints', hat, hat', halike⟩ :=
    MessageEligibilityService.project_at hhints hids
  have hreactions : Keyed.at? Prod.fst (reactionsFor db v ids) m.id =
      Keyed.at? Prod.fst (reactionsFor db v [m.id]) m.id := reactions_at hids
  -- The item goes through, and so do its parts.
  unfold MessagesQueryService.item at hit
  rw [if_neg (show ¬(shownRow db now v m j mediaIds stickerIds).blocked = .true from hblocked)]
    at hit
  simp only [bind_ok, require_ok, pure_ok] at hit
  obtain ⟨hint, hhint, reaction, hreaction, dto', hdto', rfl⟩ := hit
  obtain rfl : hint = (m.id, e) := Option.some.inj (hhint.symm.trans hat)
  have hreaction' : Keyed.at? Prod.fst (reactionsFor db v [m.id]) m.id = some reaction :=
    hreactions.symm.trans hreaction
  simp only [MessagesQueryService.project, bind_ok, pure_ok] at hdto'
  obtain ⟨content, hcontent, rfl⟩ := hdto'
  have hcontent' : contentOf db (loadedRow db m j) = .ok content :=
    contentOf_shown hdb hshelf hvroom hunblocked hmedia hsticker hcontent
  have hquote := quote_eq hdb hshelf hdel hworded hv hroom hj none
  have hproject := project_loaded hreadable hcontent' hhints' hat' hreaction'
  -- The two models differ in the hints at most.
  have hdto : ∀ model : MessageReadModel, model.toMessageEligibility = e →
      model.id = m.id → model.version = m.version → model.createdAt = m.createdAt →
      model.audience = audienceLabel j.s.kind j.r.mode m.deletionRootId
        (decide (publishedCopySql db m false)) m.senderMemberId j.r.ownerMemberId →
      model.author = (if m.deletionRootId ≠ none then .anonymous
        else .member m.senderMemberId (some (((db.userProfiles.find? fun p =>
          p.userId = j.sender.userId).map UserProfile.nickname).getD unnamed))
          (MessagesRepository.avatarId db j.sender)) →
      model.content = content → model.reactions = some reaction.2 →
      model.quote.map MessageReadModel.Quote.shown =
        (quoteOf db now v (loadedRow db m j)).map MessageReadModel.Quote.shown →
      projectMessageDto model =
        { projectMessageDto (modelOf (loadedRow db m j) content
            (quoteOf db now v (loadedRow db m j)) e' reaction.2) with
          counterpart := e.counterpart
          allowedActions := e.allowedActions } := by
    intro model he hid hversion hcreated haudience hauthor hcontent hreactions hquotes
    unfold projectMessageDto modelOf
    rw [nickname_loaded hprofile, ← he, hid, hversion, hcreated, haudience, hauthor, hcontent,
      hreactions, show (model.quote.map fun q =>
        ({ id := q.id, authorName := nameOr q.authorName, text := q.text } : MessageDto.Quote)) = _
        from hquotes]
    rfl
  have hactions : e.allowedActions =
      { e'.allowedActions with reply := e.allowedActions.reply } := by
    simp only [← halike.1, ← halike.2.1]
  refine ⟨_, _, hproject, rfl, ?_⟩
  rw [hdto]
  · constructor
    · exact congrArg (fun actions => { projectMessageDto (modelOf (loadedRow db m j) content
        (quoteOf db now v (loadedRow db m j)) e' reaction.2) with
          counterpart := e.counterpart, allowedActions := actions }) hactions
    · intro hown
      have hno : ¬∃ x ∈ MessageEligibilityRepository.messages db v.roomId [m.id],
          MessageEligibilityService.OwnPrivate v x :=
        fun h => hown (ownPrivate_of hj.message h)
      rw [halike.2.2 hno]
      rfl
  all_goals first
    | rfl
    | exact hquote.symm

end Answers

/-! ## The whole page -/

theorem item_ok {window : MessageWindow} {hints : List (Uuid × MessageEligibility)}
    {reactions : List (Uuid × MessageDto.Reactions)} {row : PageRow} {it : MessagePageItem}
    (h : MessagesQueryService.item window hints reactions row = .ok it) :
    it.id = row.id ∧ it.createdOrder = row.createdOrder := by
  unfold MessagesQueryService.item at h
  split at h
  · simp only [bind_ok, ensure_ok, pure_ok] at h
    obtain ⟨u, -, rfl⟩ := h
    exact ⟨rfl, rfl⟩
  · simp only [bind_ok, require_ok, pure_ok] at h
    obtain ⟨hint, -, reaction, -, dto, -, rfl⟩ := h
    exact ⟨rfl, rfl⟩

/-- The items of a page: the first rows of the window, each with its item. -/
theorem page_ok {db : Db} {now : Time} {v : ActiveMember} {window : MessageWindow} {limit : Nat}
    {p : MessagePage} (hp : MessagesQueryService.page db now v window limit = .ok p) :
    ∃ ids mediaIds stickerIds hints,
      MessageEligibilityService.project db now v ids = .ok hints ∧
      (∀ row ∈ (windowRows db now v.id v.roomId v.visibleFromOrder window).take limit,
        row.blocked ≠ .true →
        row.id ∈ ids ∧ (row.contentKind = .photo ∨ row.contentKind = .video → row.id ∈ mediaIds) ∧
          (row.contentKind = .sticker → row.id ∈ stickerIds)) ∧
      (((windowRows db now v.id v.roomId v.visibleFromOrder window).take limit).map
          (withMedia db v.roomId mediaIds stickerIds)).mapM
        (MessagesQueryService.item window hints (reactionsFor db v ids)) = .ok p.items ∧
      p.hasMore = decide
        (limit < (windowRows db now v.id v.roomId v.visibleFromOrder window).length) := by
  simp only [MessagesQueryService.page, MessagesQueryService.items, bind_ok, pure_ok] at hp
  obtain ⟨u, -, hints, hhints, items, hitems, rfl⟩ := hp
  obtain ⟨rows, hrows⟩ : ∃ rows,
      rows = windowRows db now v.id v.roomId v.visibleFromOrder window := ⟨_, rfl⟩
  -- The ids are those of the rows read, the one looked ahead to among them.
  obtain ⟨mediaIds, hmedia⟩ : ∃ ids, ids = ((rows.take (limit + 1)).filter fun row =>
        decide (row.blocked ≠ .true ∧ (row.contentKind = .photo ∨ row.contentKind = .video))).map
          PageRow.id := ⟨_, rfl⟩
  obtain ⟨stickerIds, hsticker⟩ : ∃ ids, ids = ((rows.take (limit + 1)).filter fun row =>
        decide (row.blocked ≠ .true ∧ row.contentKind = .sticker)).map PageRow.id := ⟨_, rfl⟩
  have hpage : MessagesQueryRepository.page db now v.id v.roomId v.visibleFromOrder window
      (limit + 1) = (rows.take (limit + 1)).map (withMedia db v.roomId mediaIds stickerIds) := by
    rw [MessagesQueryRepository.page, ← hrows, hmedia, hsticker]
  have hshown : (MessagesQueryRepository.page db now v.id v.roomId v.visibleFromOrder window
      (limit + 1)).take limit = (rows.take limit).map (withMedia db v.roomId mediaIds stickerIds) := by
    rw [hpage, ← List.map_take, List.take_take, Nat.min_eq_left (Nat.le_succ limit)]
  have hread : ∀ row ∈ rows.take limit, row ∈ rows.take (limit + 1) :=
    fun row hrow => (List.take_subset_take_left rows (Nat.le_succ limit)) hrow
  rw [hshown] at hhints hitems
  rw [← hrows]
  refine ⟨_, mediaIds, stickerIds, hints, hhints, ?_, hitems, ?_⟩
  · intro row hrow hblocked
    refine ⟨?_, ?_, ?_⟩
    · exact List.mem_map.mpr ⟨withMedia db v.roomId mediaIds stickerIds row,
        List.mem_filter.mpr ⟨List.mem_map_of_mem hrow, decide_eq_true hblocked⟩, rfl⟩
    · intro hkind
      rw [hmedia]
      exact List.mem_map.mpr
        ⟨row, List.mem_filter.mpr ⟨hread row hrow, decide_eq_true ⟨hblocked, hkind⟩⟩, rfl⟩
    · intro hkind
      rw [hsticker]
      exact List.mem_map.mpr
        ⟨row, List.mem_filter.mpr ⟨hread row hrow, decide_eq_true ⟨hblocked, hkind⟩⟩, rfl⟩
  · rw [hpage, decide_eq_decide, List.length_map, List.length_take]
    omega

/-- The rows of a snapshot come newest first. -/
theorem snapshot_sorted (db : Db) (now : Time) (actorId roomId : Uuid) (visibleFrom from_ : Nat) :
    (windowRows db now actorId roomId visibleFrom (.snapshot from_)).Pairwise
      fun a b => b.createdOrder ≤ a.createdOrder := by
  have : Std.Total fun a b : PageRow => b.createdOrder ≤ a.createdOrder :=
    ⟨fun a b => Nat.le_total b.createdOrder a.createdOrder⟩
  have : IsTrans PageRow fun a b => b.createdOrder ≤ a.createdOrder :=
    ⟨fun a b c hab hbc => Nat.le_trans hbc hab⟩
  exact List.pairwise_insertionSort _ _

/-- A snapshot has a row of a message exactly when the message may be read, and then one. -/
theorem snapshot_row_iff {db : Db} {now : Time} {userId : Uuid} {v : ActiveMember} {m : Message}
    {j : Joins} {from_ : Nat} {row : PageRow} (hdb : Referential db) (hshelf : Shelved db)
    (hdel : Delegating db now m.roomId userId)
    (hv : MembershipRepository.findActive db false now m.roomId userId = some v)
    (hvroom : v.roomId = m.roomId) (hm : m ∈ db.messages) (hfrom : m.createdOrder ≤ from_)
    (hj : joins db v.id m = some j) :
    row ∈ windowRows db now v.id v.roomId v.visibleFromOrder (.snapshot from_) ∧ row.id = m.id ↔
      readable db now v (loadedRow db m j) = true ∧
        row = rowOf db now v.id v.visibleFromOrder m j none := by
  rw [readable_iff hdb hshelf hdel hv rfl, mem_snapshot]
  constructor
  · rintro ⟨⟨m', hm', -, -, hrow⟩, hid⟩
    obtain rfl : m' = m := Table.eq_of_key hm' hm (k := (0, [m.id]))
      (by rw [← hid, liveRow_id hrow]; exact List.mem_cons_self) List.mem_cons_self
    obtain ⟨h, rfl⟩ := (liveRow_iff hj).mp hrow
    exact ⟨h, rfl⟩
  · rintro ⟨h, rfl⟩
    exact ⟨⟨m, hm, hvroom.symm, hfrom, (liveRow_iff hj).mpr ⟨h, rfl⟩⟩, rfl⟩

/-- A read of one message and a snapshot page agree. What the page lists the read answers, with
the same answer; what the read answers the page lists, or is full of messages that are no older.
Only for a message the viewer sent in private as a delegate may the page offer a reply that the
read does not. -/
theorem get_page {db : Db} {now : Time} {roomId userId : Uuid} {v : ActiveMember}
    (hdb : Referential db) (hshelf : Shelved db) (hdel : Delegating db now roomId userId)
    (hworded : Worded db)
    (hv : MembershipRepository.findActive db false now roomId userId = some v)
    {from_ limit : Nat} {p : MessagePage}
    (hp : MessagesQueryService.page db now v (.snapshot from_) limit = .ok p)
    {m : Message} (hm : m ∈ db.messages) (hroom : m.roomId = roomId)
    (hfrom : m.createdOrder ≤ from_)
    (hprofile : ∃ s ∈ db.roomMembers, s.id = m.senderMemberId ∧
      ∃ p ∈ db.userProfiles, p.userId = s.userId) :
    ((∃ it ∈ p.items, it.id = m.id) → ∃ dto, get db now roomId userId m.id = .ok dto) ∧
      ((∃ dto, get db now roomId userId m.id = .ok dto) → (∃ it ∈ p.items, it.id = m.id) ∨
        p.hasMore = true ∧ p.items.length = limit ∧
          ∀ it ∈ p.items, m.createdOrder ≤ it.createdOrder) ∧
      ∀ dto, get db now roomId userId m.id = .ok dto → ∀ it ∈ p.items, it.id = m.id →
        ∃ dto', it.message = some dto' ∧ Agree dto' dto (DelegateOwn db v m) := by
  subst hroom
  obtain ⟨viewer, r, period, hrow, hid, hvroom, -⟩ := MembershipRepository.findActive_role hv
  obtain ⟨j, hj, hjoins, hload⟩ := load_joins hdb hm hrow.member hrow.memberRoom
  rw [← hid] at hjoins
  have hget : get db now m.roomId userId m.id = project db now v (loadedRow db m j) := by
    simp only [get, AccessService.requireActiveMember, hv, require_some, ok_bind, hload]
  have hprofile' : ∃ p ∈ db.userProfiles, p.userId = j.sender.userId := by
    obtain ⟨s, hs, hsid, hp⟩ := hprofile
    obtain rfl : s = j.sender := Table.eq_of_key hs hj.sender.1 (k := (0, [m.senderMemberId]))
      (by rw [← hsid]; exact List.mem_cons_self)
      (by rw [← hj.sender.2.2]; exact List.mem_cons_self)
    exact hp
  obtain ⟨ids, mediaIds, stickerIds, hints, hhints, hcover, hitems, hmore⟩ := page_ok hp
  have hlive : ∀ {row : PageRow},
      row ∈ windowRows db now v.id v.roomId v.visibleFromOrder (.snapshot from_) ∧ row.id = m.id ↔
        readable db now v (loadedRow db m j) = true ∧
          row = rowOf db now v.id v.visibleFromOrder m j none :=
    snapshot_row_iff hdb hshelf hdel hv hvroom hm hfrom hjoins
  have hitem : readable db now v (loadedRow db m j) = true →
      rowOf db now v.id v.visibleFromOrder m j none ∈
        (windowRows db now v.id v.roomId v.visibleFromOrder (.snapshot from_)).take limit →
      ∀ it, MessagesQueryService.item (.snapshot from_) hints (reactionsFor db v ids)
        (shownRow db now v m j mediaIds stickerIds) = .ok it →
      ∃ dto dto', project db now v (loadedRow db m j) = .ok dto ∧ it.message = some dto' ∧
        Agree dto' dto (DelegateOwn db v m) := by
    intro hreadable htaken it hit
    have hnot : (rowOf db now v.id v.visibleFromOrder m j none).blocked ≠ .true := fun h =>
      Truth.Holds.not_fails h (readable_unblocked hdb hshelf hdel hv rfl hreadable)
    obtain ⟨hids, hmedia, hsticker⟩ := hcover _ htaken hnot
    exact item_agrees hdb hshelf hdel hworded hv rfl hj hprofile' hreadable hids hmedia hsticker
      hhints hit
  -- An item of the message is the item of its row.
  have hback : ∀ it ∈ p.items, it.id = m.id → readable db now v (loadedRow db m j) = true ∧
      rowOf db now v.id v.visibleFromOrder m j none ∈
        (windowRows db now v.id v.roomId v.visibleFromOrder (.snapshot from_)).take limit ∧
      MessagesQueryService.item (.snapshot from_) hints (reactionsFor db v ids)
        (shownRow db now v m j mediaIds stickerIds) = .ok it := by
    intro it hit hid'
    obtain ⟨shown, hshown, hok⟩ := (Listing.mem_mapM hitems).1 it hit
    obtain ⟨row, htaken, rfl⟩ := List.mem_map.mp hshown
    obtain ⟨hreadable, rfl⟩ :=
      hlive.mp ⟨List.mem_of_mem_take htaken, (item_ok hok).1.symm.trans hid'⟩
    exact ⟨hreadable, htaken, hok⟩
  refine ⟨?_, ?_, ?_⟩
  · rintro ⟨it, hit, hid'⟩
    obtain ⟨hreadable, htaken, hok⟩ := hback it hit hid'
    obtain ⟨dto, -, hdto, -⟩ := hitem hreadable htaken it hok
    exact ⟨dto, hget.trans hdto⟩
  · rintro ⟨dto, hdto⟩
    rw [hget] at hdto
    have hreadable : readable db now v (loadedRow db m j) = true := by
      simp only [project, bind_ok, ensure_ok] at hdto
      obtain ⟨u, hreadable, -⟩ := hdto
      exact hreadable
    by_cases htaken : rowOf db now v.id v.visibleFromOrder m j none ∈
        (windowRows db now v.id v.roomId v.visibleFromOrder (.snapshot from_)).take limit
    · obtain ⟨it, hit, hok⟩ := (Listing.mem_mapM hitems).2 _ (List.mem_map_of_mem htaken)
      exact .inl ⟨it, hit, (item_ok hok).1⟩
    -- The row is beyond the limit, so the page is full.
    have hrow' := (hlive.mpr ⟨hreadable, rfl⟩).1
    obtain ⟨hfull, hbefore⟩ := (Listing.mem_take_or_full _
      (snapshot_sorted db now v.id v.roomId v.visibleFromOrder from_) limit hrow').resolve_left
        htaken
    refine .inr ⟨?_, ?_, ?_⟩
    · rw [hmore, decide_eq_true_eq]
      by_contra hshort
      rw [List.take_of_length_le (Nat.le_of_not_lt hshort)] at htaken
      exact htaken hrow'
    · rw [Listing.length_mapM hitems, List.length_map, hfull]
    · intro it hit
      obtain ⟨shown, hshown, hok⟩ := (Listing.mem_mapM hitems).1 it hit
      obtain ⟨row, hrow, rfl⟩ := List.mem_map.mp hshown
      rw [(item_ok hok).2]
      exact hbefore row hrow
  · intro dto hdto it hit hid'
    obtain ⟨hreadable, htaken, hok⟩ := hback it hit hid'
    obtain ⟨dto₀, dto', hdto₀, hmessage, hagree⟩ := hitem hreadable htaken it hok
    obtain rfl : dto₀ = dto := Except.ok.inj (hdto₀.symm.trans (hget.symm.trans hdto))
    exact ⟨dto', hmessage, hagree⟩

end MessagesCoreService

/-- The two members with their names. -/
def Environment.named : Environment :=
  { Environment.twoMembers with
    userProfiles := ⟨[{ userId := 1, nickname := "owner" }, { userId := 2, nickname := "fan" }],
      by decide⟩ }

/-- The newer of two messages, on a page of one. -/
theorem get_page_fan : ∃ (db : Db) (v : ActiveMember) (p : MessagePage) (m : Message),
    MembershipRepository.findActive db false 1 7 2 = some v ∧
    MessagesQueryService.page db 1 v (.snapshot 9) 1 = .ok p ∧ p.hasMore = true ∧
    m ∈ db.messages ∧ (∃ it ∈ p.items, it.id = m.id) ∧
    ∃ dto, MessagesCoreService.get db 1 7 2 m.id = .ok dto := by
  obtain ⟨db, hdb⟩ : ∃ db, ({} : Db).after [.environment .named,
      .createOwnedRoom (fun i => 10 + i) "room" .fan .sinceJoin 1 7,
      .joinRoom (fun i => 20 + i) 7 2,
      .send 1 (fun i => 40 + i) 7 1 (sharedMessage 1 11),
      .send 1 (fun i => 50 + i) 7 1 { sharedMessage 1 11 with clientMessageId := 6 }] = .ok db := ⟨_, rfl⟩
  obtain ⟨m, m', v, p, hmessages, hv, hp, hmore, hitem, hroom, hfrom, htext, hassets, hgrants⟩ :
      ∃ m m' v p, db.messages.rows = [m', m] ∧
        MembershipRepository.findActive db false 1 7 2 = some v ∧
        MessagesQueryService.page db 1 v (.snapshot 9) 1 = .ok p ∧ p.hasMore = true ∧
        (∃ it ∈ p.items, it.id = m.id) ∧ m.roomId = 7 ∧ m.createdOrder ≤ 9 ∧
        (m.textContent ≠ none ∧ m'.textContent ≠ none) ∧ db.mediaAssets.rows = [] ∧
        db.roomTestGrants.rows = [] := by
    cases hdb
    refine ⟨_, _, _, _, rfl, rfl, rfl, rfl, ⟨_, .head _, rfl⟩, rfl, ?_, ⟨?_, ?_⟩, rfl, rfl⟩
    · decide
    · decide
    · decide
  obtain ⟨hstream, hrooms, ⟨s, hs, hsroom, hsid, hprofile⟩, howner⟩ :
      (∃ s ∈ db.messageStreams, s.roomId = m.roomId ∧ s.id = m.streamId) ∧
        (∃ r ∈ db.rooms, r.id = m.roomId) ∧
        (∃ s ∈ db.roomMembers, s.roomId = m.roomId ∧ s.id = m.senderMemberId ∧
          ∃ p ∈ db.userProfiles, p.userId = s.userId) ∧
        ∃ u ∈ db.users, u.id = m.contentOwnerUserId := by
    cases hdb
    cases hmessages
    exact ⟨⟨_, .head _, rfl, rfl⟩, ⟨_, .head _, rfl⟩, ⟨_, .head _, rfl, rfl, _, .head _, rfl⟩,
      ⟨_, .head _, rfl⟩⟩
  -- Both messages are the owner's, of one stream.
  have hsame : ∀ x ∈ db.messages, (x.roomId = m.roomId ∧ x.streamId = m.streamId ∧
      x.senderMemberId = m.senderMemberId ∧ x.contentOwnerUserId = m.contentOwnerUserId) ∧
        x.textContent ≠ none := by
    intro x hx
    rw [← Table.mem_rows, hmessages] at hx
    rcases List.mem_cons.mp hx with rfl | hx
    · refine ⟨?_, htext.2⟩
      cases hdb
      cases hmessages
      exact ⟨rfl, rfl, rfl, rfl⟩
    · rw [List.mem_singleton.mp hx]
      exact ⟨⟨rfl, rfl, rfl, rfl⟩, htext.1⟩
  have hdb' : Referential db := by
    constructor
    · intro x hx
      rw [(hsame x hx).1.1, (hsame x hx).1.2.1]
      exact hstream
    · intro x hx
      rw [(hsame x hx).1.1]
      exact hrooms
    · intro x hx
      rw [(hsame x hx).1.1, (hsame x hx).1.2.2.1]
      exact ⟨s, hs, hsroom, hsid⟩
    · intro x hx
      rw [(hsame x hx).1.2.2.2]
      exact howner
  have hshelf : Shelved db := by
    intro a ha
    rw [← Table.mem_rows, hassets] at ha
    cases ha
  have hdel : Delegating db 1 7 2 := by
    intro g hg
    rw [← Table.mem_rows, hgrants] at hg
    cases hg
  have hworded : Worded db := fun x hx _ _ => (hsame x hx).2
  have hm : m ∈ db.messages := by
    rw [← Table.mem_rows, hmessages]
    exact .tail _ (.head _)
  refine ⟨db, v, p, m, hv, hp, hmore, hm, hitem, ?_⟩
  exact (MessagesCoreService.get_page hdb' hshelf hdel hworded hv hp hm hroom hfrom
    ⟨s, hs, hsid, hprofile⟩).1 hitem

end Rogichat
