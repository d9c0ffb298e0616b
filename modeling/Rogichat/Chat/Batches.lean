import Rogichat.Chat.Pages
import Rogichat.Lib.Listing

/-!
# Reading for a page at once

A page reads the attachments, the reactions and the hints of all its messages at once. What
such a batch holds for a message is what the same read holds for it alone, so that whoever
else is on the page makes no difference.

* **`attachmentsOf_eq`**, **`reactions_at`**, **`project_at`** — the three batches, at one of
  their messages.
-/

namespace Rogichat

open Lib

namespace MessagesQueryRepository

/-! ## Attachments -/

theorem attachmentsOf_eq {db : Db} {roomId id : Uuid} {ids : List Uuid} (h : id ∈ ids) :
    attachmentsOf db roomId ids id = MessagesRepository.attachments db roomId id := by
  have : Std.Total fun a b : MessageAttachment => a.position ≤ b.position :=
    ⟨fun a b => Nat.le_total a.position b.position⟩
  have : IsTrans MessageAttachment fun a b => a.position ≤ b.position :=
    ⟨fun _ _ _ => Nat.le_trans⟩
  unfold attachmentsOf MessagesRepository.attachments
  rw [Listing.filter_insertionSort, Table.select, Table.select, List.filter_filter]
  congr 2
  refine List.filter_congr fun x _ => ?_
  by_cases hx : x.messageId = id
  · simp [hx, h]
  · simp [hx]

/-! ## Reactions -/

/-- The reactions counted for one of the messages do not depend on the others. -/
theorem counted_one {db : Db} {roomId id : Uuid} {ids blocked : List Uuid} (h : id ∈ ids)
    (r : MessageReaction) :
    (Counted db roomId ids blocked r ∧ r.messageId = id) ↔
      Counted db roomId [id] blocked r ∧ r.messageId = id := by
  unfold Counted
  constructor
  · rintro ⟨⟨hroom, -, hrest⟩, hid⟩
    exact ⟨⟨hroom, List.mem_singleton.mpr hid, hrest⟩, hid⟩
  · rintro ⟨⟨hroom, -, hrest⟩, hid⟩
    exact ⟨⟨hroom, hid ▸ h, hrest⟩, hid⟩

/-- The groups of one message, from the rows of that message alone. -/
theorem groups_of_message (rows : List (Uuid × String)) (id : Uuid) :
    (((rows.dedup.insertionSort fun a b => toLex a ≤ toLex b).map fun g =>
        (g.1, g.2, rows.count g)).filterMap fun g => if g.1 = id then some g.2 else none) =
      (((rows.filter fun g => g.1 = id).dedup.insertionSort fun a b => toLex a ≤ toLex b).map
        fun g => (g.2, (rows.filter fun g => g.1 = id).count g)) := by
  have : Std.Total fun a b : Uuid × String => toLex a ≤ toLex b :=
    ⟨fun a b => le_total (toLex a) (toLex b)⟩
  have : IsTrans (Uuid × String) fun a b => toLex a ≤ toLex b :=
    ⟨fun _ _ _ => le_trans⟩
  rw [← Listing.filter_dedup, ← Listing.filter_insertionSort, List.filterMap_map]
  generalize rows.dedup.insertionSort (fun a b => toLex a ≤ toLex b) = groups
  induction groups with
  | nil => rfl
  | cons g groups ih =>
    by_cases hg : g.1 = id
    · rw [List.filterMap_cons_some (b := (g.2, rows.count g)) (by simp [hg]),
        List.filter_cons_of_pos (by simpa using hg), List.map_cons, ih,
        List.count_filter (by simpa using hg)]
    · rw [List.filterMap_cons_none (by simp [hg]), List.filter_cons_of_neg (by simpa using hg), ih]

theorem reactions_at {db : Db} {roomId memberId id : Uuid} {ids blocked : List Uuid}
    (h : id ∈ ids) :
    Keyed.at? Prod.fst (reactions db roomId memberId ids blocked) id =
      Keyed.at? Prod.fst (reactions db roomId memberId [id] blocked) id := by
  have hrows : ((db.messageReactions.select (Counted db roomId ids blocked)).map fun r =>
        (r.messageId, r.emoji)).filter (fun g => g.1 = id) =
      ((db.messageReactions.select (Counted db roomId [id] blocked)).map fun r =>
        (r.messageId, r.emoji)).filter fun g => g.1 = id := by
    rw [List.filter_map, List.filter_map]
    congr 1
    unfold Table.select
    rw [List.filter_filter, List.filter_filter]
    refine List.filter_congr fun r _ => ?_
    rw [Bool.eq_iff_iff]
    have hone : (Counted db roomId ids blocked r ∧ r.messageId = id) ↔
        Counted db roomId [id] blocked r ∧ r.messageId = id := counted_one h r
    simpa [and_comm] using hone
  unfold reactions
  rw [Keyed.at?_ofList_map, Keyed.at?_ofList_map, if_pos h, if_pos List.mem_cons_self]
  simp only [reactionGroups, groups_of_message, hrows]

end MessagesQueryRepository

/-! ## Hints -/

namespace MessageEligibilityRepository

variable {db : Db} {now : Time} {roomId id t : Uuid} {ids ids' : List Uuid}

theorem factsOf_id {m : Message} {x : EligibleFacts} (h : factsOf db m = some x) : x.id = m.id := by
  simp only [factsOf, Option.bind_eq_bind, Option.bind_eq_some_iff, Option.pure_def,
    Option.some.injEq] at h
  obtain ⟨sender, -, stream, -, rfl⟩ := h
  rfl

theorem memberOf_id {m : RoomMember} {x : Member} (h : memberOf db now m = some x) :
    x.id = m.id := by
  simp only [memberOf, Option.bind_eq_bind, Option.bind_eq_some_iff, Option.pure_def,
    Option.some.injEq] at h
  obtain ⟨r, -, u, -, p, -, rfl⟩ := h
  rfl

/-- The facts of one message do not depend on the others of the batch. -/
theorem find?_messages (h : id ∈ ids) (h' : id ∈ ids') :
    ((messages db roomId ids).find? fun x => x.id = id) =
      (messages db roomId ids').find? fun x => x.id = id := by
  unfold messages Table.select
  rw [Listing.find?_select, Listing.find?_select]
  congr 2
  funext m
  rw [Bool.eq_iff_iff]
  simp only [Bool.and_eq_true, decide_eq_true_eq, Option.any_eq_true]
  constructor
  · rintro ⟨⟨hroom, -⟩, x, hx, hid⟩
    refine ⟨⟨hroom, ?_⟩, x, hx, hid⟩
    rwa [← factsOf_id hx, hid]
  · rintro ⟨⟨hroom, -⟩, x, hx, hid⟩
    refine ⟨⟨hroom, ?_⟩, x, hx, hid⟩
    rwa [← factsOf_id hx, hid]

theorem mem_messages {x : EligibleFacts} : x ∈ messages db roomId ids ↔
    ∃ m ∈ db.messages, m.roomId = roomId ∧ m.id ∈ ids ∧ factsOf db m = some x := by
  simp only [messages, List.mem_filterMap, Table.mem_select]
  constructor
  · rintro ⟨m, ⟨hm, hroom, hid⟩, hx⟩
    exact ⟨m, hm, hroom, hid, hx⟩
  · rintro ⟨m, hm, hroom, hid, hx⟩
    exact ⟨m, ⟨hm, hroom, hid⟩, hx⟩

theorem messages_nodup : ((messages db roomId ids).map EligibleFacts.id).Nodup := by
  have hids : ∀ ms : List Message, ((ms.filterMap (factsOf db)).map EligibleFacts.id).Sublist
      (ms.map Message.id) := by
    intro ms
    induction ms with
    | nil => exact List.Sublist.slnil
    | cons m ms ih =>
      cases hm : factsOf db m with
      | none =>
        rw [List.filterMap_cons_none hm, List.map_cons]
        exact ih.cons _
      | some x =>
        rw [List.filterMap_cons_some hm, List.map_cons, List.map_cons, factsOf_id hm]
        exact ih.cons_cons _
  refine (hids _).nodup ?_
  -- Rows with one id clash, so a table has each id once.
  have hrows : (db.messages.select fun m => m.roomId = roomId ∧ m.id ∈ ids).Pairwise
      fun a b => a.id ≠ b.id := by
    refine (db.messages.unique.filter _).imp fun {a b} hclash heq => hclash ?_
    exact ⟨(0, [a.id]), List.mem_cons_self, by rw [heq]; exact List.mem_cons_self⟩
  exact List.pairwise_map.mpr hrows

/-- The members found for a batch. -/
def memberRows (db : Db) (now : Time) (roomId : Uuid) (ids : List Uuid) : List Member :=
  (db.roomMembers.select fun m => m.roomId = roomId ∧ m.id ∈ ids ∧
    m.status = .active).filterMap (memberOf db now)

theorem mem_memberRows {x : Member} : x ∈ memberRows db now roomId ids ↔
    ∃ m ∈ db.roomMembers, m.roomId = roomId ∧ m.id ∈ ids ∧ m.status = .active ∧
      memberOf db now m = some x := by
  simp only [memberRows, List.mem_filterMap, Table.mem_select]
  constructor
  · rintro ⟨m, ⟨hm, hroom, hid, hactive⟩, hx⟩
    exact ⟨m, hm, hroom, hid, hactive, hx⟩
  · rintro ⟨m, hm, hroom, hid, hactive, hx⟩
    exact ⟨m, ⟨hm, hroom, hid, hactive⟩, hx⟩

/-- A member is found once. -/
theorem memberRows_unique {x y : Member} (hx : x ∈ memberRows db now roomId ids)
    (hy : y ∈ memberRows db now roomId ids') (h : x.id = y.id) : x = y := by
  obtain ⟨m, hm, -, -, -, hmx⟩ := mem_memberRows.mp hx
  obtain ⟨n, hn, -, -, -, hny⟩ := mem_memberRows.mp hy
  obtain rfl : m = n := Table.eq_of_key hm hn (k := (0, [x.id]))
    (by rw [memberOf_id hmx]; exact List.mem_cons_self)
    (by rw [h, memberOf_id hny]; exact List.mem_cons_self)
  exact Option.some.inj (hmx.symm.trans hny)

theorem memberRows_mono (h : ids' ⊆ ids) :
    memberRows db now roomId ids' ⊆ memberRows db now roomId ids := by
  intro x hx
  obtain ⟨m, hm, hroom, hid, hactive, hmx⟩ := mem_memberRows.mp hx
  exact mem_memberRows.mpr ⟨m, hm, hroom, h hid, hactive, hmx⟩

theorem find?_memberRows {q : Member → Prop} [DecidablePred q] (hq : ∀ x, q x → x.id = t)
    (h : t ∈ ids) (h' : t ∈ ids') :
    ((memberRows db now roomId ids).find? fun x => q x) =
      (memberRows db now roomId ids').find? fun x => q x := by
  unfold memberRows Table.select
  rw [Listing.find?_select, Listing.find?_select]
  congr 2
  funext m
  rw [Bool.eq_iff_iff]
  simp only [Bool.and_eq_true, decide_eq_true_eq, Option.any_eq_true]
  constructor
  · rintro ⟨⟨hroom, -, hactive⟩, x, hx, hqx⟩
    refine ⟨⟨hroom, ?_, hactive⟩, x, hx, hqx⟩
    rwa [← memberOf_id hx, hq x hqx]
  · rintro ⟨⟨hroom, -, hactive⟩, x, hx, hqx⟩
    refine ⟨⟨hroom, ?_, hactive⟩, x, hx, hqx⟩
    rwa [← memberOf_id hx, hq x hqx]

/-- Under a delegation a member acts as a streamer. -/
def delegate (grants : List RoomTestGrant) (row : Member) : Member :=
  if row.id ∈ grants.map RoomTestGrant.memberId then
    { row with role := .streamer, delegated := true }
  else row

theorem members_ok {ms : List Member} : members db now roomId ids = .ok ms ↔
    (db.roomTestGrants.select (Delegation db now roomId (memberRows db now roomId ids))).length ≤
      10000 ∧ ms = (memberRows db now roomId ids).map (delegate
        (db.roomTestGrants.select (Delegation db now roomId (memberRows db now roomId ids)))) := by
  simp only [members, bind_ok, ensure_ok, pure_ok]
  constructor
  · rintro ⟨u, hlimit, rfl⟩
    exact ⟨hlimit, rfl⟩
  · rintro ⟨hlimit, rfl⟩
    exact ⟨(), hlimit, rfl⟩

/-- A batch that goes through for many members goes through for some of them. -/
theorem members_total {ms : List Member} (h : members db now roomId ids = .ok ms)
    (hsub : ids' ⊆ ids) : ∃ ms', members db now roomId ids' = .ok ms' := by
  refine ⟨_, members_ok.mpr ⟨?_, rfl⟩⟩
  refine le_trans ?_ (members_ok.mp h).1
  refine List.Sublist.length_le (List.monotone_filter_right _ fun g hg => ?_)
  obtain ⟨hroom, hrevoked, hexpires, ⟨row, hrow, hown⟩, hfan⟩ := of_decide_eq_true hg
  exact decide_eq_true ⟨hroom, hrevoked, hexpires, ⟨row, memberRows_mono hsub hrow, hown⟩, hfan⟩

/-- Whether a member found in two batches is delegated is the same in both. -/
theorem delegate_eq {x : Member} (hx : x ∈ memberRows db now roomId ids)
    (hx' : x ∈ memberRows db now roomId ids') :
    delegate (db.roomTestGrants.select (Delegation db now roomId (memberRows db now roomId ids))) x =
      delegate (db.roomTestGrants.select
        (Delegation db now roomId (memberRows db now roomId ids'))) x := by
  have hmono : ∀ {as bs : List Uuid}, x ∈ memberRows db now roomId as →
      x ∈ memberRows db now roomId bs →
      x.id ∈ (db.roomTestGrants.select
        (Delegation db now roomId (memberRows db now roomId as))).map RoomTestGrant.memberId →
      x.id ∈ (db.roomTestGrants.select
        (Delegation db now roomId (memberRows db now roomId bs))).map RoomTestGrant.memberId := by
    intro as bs hxa hxb h
    obtain ⟨g, hg, hgx⟩ := List.mem_map.mp h
    obtain ⟨hg, hroom, hrevoked, hexpires, ⟨row, hrow, hmember, hperiod⟩, hfan⟩ :=
      Table.mem_select.mp hg
    obtain rfl := memberRows_unique hrow hxa (hmember.symm.trans hgx)
    exact List.mem_map.mpr ⟨g, Table.mem_select.mpr
      ⟨hg, hroom, hrevoked, hexpires, ⟨row, hxb, hmember, hperiod⟩, hfan⟩, hgx⟩
  unfold delegate
  by_cases h : x.id ∈ (db.roomTestGrants.select
      (Delegation db now roomId (memberRows db now roomId ids))).map RoomTestGrant.memberId
  · rw [if_pos h, if_pos (hmono hx hx' h)]
  · rw [if_neg h, if_neg fun h' => h (hmono hx' hx h')]

theorem find?_members {ms ms' : List Member} {q : Member → Prop} [DecidablePred q]
    (hms : members db now roomId ids = .ok ms) (hms' : members db now roomId ids' = .ok ms')
    (hq : ∀ x, q x → x.id = t) (hdelegate : ∀ gs x, q (delegate gs x) ↔ q x) (h : t ∈ ids)
    (h' : t ∈ ids') : (ms.find? fun x => q x) = ms'.find? fun x => q x := by
  obtain ⟨-, rfl⟩ := members_ok.mp hms
  obtain ⟨-, rfl⟩ := members_ok.mp hms'
  rw [List.find?_map, List.find?_map]
  simp only [Function.comp_def, hdelegate]
  have hrows : ((memberRows db now roomId ids).find? fun x => q x) =
      (memberRows db now roomId ids').find? fun x => q x := find?_memberRows hq h h'
  rw [hrows]
  cases hx : (memberRows db now roomId ids').find? fun x => q x with
  | none => rfl
  | some x =>
    rw [hx] at hrows
    rw [Option.map_some, Option.map_some,
      delegate_eq (List.mem_of_find?_eq_some hrows) (List.mem_of_find?_eq_some hx)]

end MessageEligibilityRepository

namespace MessageEligibilityService

open MessageEligibilityRepository

variable {db : Db} {now : Time} {v : ActiveMember} {id t : Uuid} {ids T T' : List Uuid}
  {b b' : Batch}

/-- The lookup of the viewer's own row. -/
theorem currentOf_eq {ms ms' : List Member}
    (hms : members db now v.roomId (v.id :: T) = .ok ms)
    (hms' : members db now v.roomId (v.id :: T') = .ok ms') : currentOf v ms = currentOf v ms' := by
  refine find?_members (t := v.id) hms hms' (fun x hx => hx.1) ?_ List.mem_cons_self
    List.mem_cons_self
  intro gs x
  unfold delegate
  split <;> exact Iff.rfl

/-- What a finished batch read. -/
structure Batched (db : Db) (now : Time) (v : ActiveMember) (T : List Uuid) (b : Batch) :
    Prop where
  members : members db now v.roomId (v.id :: T) = .ok b.members
  current : b.current = currentOf v b.members
  blocked : b.blocked = (blocks db v.roomId v.id).map fun x =>
    if x.blockerActorId = v.id then x.targetActorId else x.blockerActorId
  pairs : b.pairs = if b.current.isSome then pairs db v.roomId v.id T else []
  grants : b.grants = if b.pairs ≠ [] then
    grants db now v.roomId (b.pairs.map StreamPair.streamId) (v.id :: T) else []

theorem batch_ok (h : batch db now v T = .ok b) : Batched db now v T b := by
  simp only [batch, bind_ok, pure_ok] at h
  obtain ⟨ms, hms, rfl⟩ := h
  exact ⟨hms, rfl, rfl, rfl, rfl⟩

theorem batch_total (h : batch db now v T = .ok b) (hsub : T' ⊆ T) :
    ∃ b', batch db now v T' = .ok b' := by
  obtain ⟨ms, hms⟩ := members_total (batch_ok h).members (List.cons_subset_cons v.id hsub)
  simp only [batch, hms, ok_bind]
  exact ⟨_, rfl⟩

/-- The pair of the viewer and one of the targets. -/
theorem find?_pairs (h : t ∈ T) (h' : t ∈ T') :
    ((pairs db v.roomId v.id T).find? fun p => p.leftMemberId = v.id ∧ p.rightMemberId = t ∨
        p.rightMemberId = v.id ∧ p.leftMemberId = t) =
      (pairs db v.roomId v.id T').find? fun p => p.leftMemberId = v.id ∧ p.rightMemberId = t ∨
        p.rightMemberId = v.id ∧ p.leftMemberId = t := by
  unfold pairs Table.select
  rw [List.find?_filter, List.find?_filter]
  congr 1
  funext p
  rw [Bool.eq_iff_iff]
  simp only [decide_eq_true_eq]
  constructor
  · rintro ⟨⟨hroom, hstream, -⟩, hends⟩
    refine ⟨⟨hroom, hstream, ?_⟩, hends⟩
    rcases hends with ⟨hleft, hright⟩ | ⟨hright, hleft⟩
    · exact .inl ⟨hleft, hright ▸ h'⟩
    · exact .inr ⟨hright, hleft ▸ h'⟩
  · rintro ⟨⟨hroom, hstream, -⟩, hends⟩
    refine ⟨⟨hroom, hstream, ?_⟩, hends⟩
    rcases hends with ⟨hleft, hright⟩ | ⟨hright, hleft⟩
    · exact .inl ⟨hleft, hright ▸ h⟩
    · exact .inr ⟨hright, hleft ▸ h⟩

/-- A grant of one member in one of the pairs. -/
theorem find?_grants {streams streams' members members' : List Uuid} {streamId memberId : Uuid}
    (hs : streamId ∈ streams) (hs' : streamId ∈ streams') (hm : memberId ∈ members)
    (hm' : memberId ∈ members') :
    ((grants db now v.roomId streams members).find? fun g => g.streamId = streamId ∧
        g.memberId = memberId) =
      (grants db now v.roomId streams' members').find? fun g => g.streamId = streamId ∧
        g.memberId = memberId := by
  unfold grants Table.select
  rw [List.find?_filter, List.find?_filter]
  congr 1
  funext g
  rw [Bool.eq_iff_iff]
  simp only [decide_eq_true_eq]
  constructor
  · rintro ⟨⟨hroom, -, -, heffective⟩, hstream, hmember⟩
    exact ⟨⟨hroom, hstream ▸ hs', hmember ▸ hm', heffective⟩, hstream, hmember⟩
  · rintro ⟨⟨hroom, -, -, heffective⟩, hstream, hmember⟩
    exact ⟨⟨hroom, hstream ▸ hs, hmember ▸ hm, heffective⟩, hstream, hmember⟩

/-- Nobody writes to itself. -/
theorem eligibleTarget_self (b : Batch) (r : Option Uuid) : eligibleTarget b v v.id r = false := by
  unfold eligibleTarget
  split
  · simp
  · rfl

/-- A target of two batches is eligible in both or in neither. -/
theorem eligibleTarget_eq (hb : Batched db now v T b) (hb' : Batched db now v T' b')
    (h : t ∈ T) (h' : t ∈ T') (r : Option Uuid) :
    eligibleTarget b v t r = eligibleTarget b' v t r := by
  -- both batches hold the same rows for the viewer and the target
  have hcurrent : b.current = b'.current := by
    rw [hb.current, hb'.current]
    exact currentOf_eq hb.members hb'.members
  have htarget : (b.members.find? fun x => x.id = t ∧ x.periodMemberId = t) =
      b'.members.find? fun x => x.id = t ∧ x.periodMemberId = t := by
    refine find?_members (t := t) hb.members hb'.members (fun x hx => hx.1) ?_
      (List.mem_cons_of_mem _ h) (List.mem_cons_of_mem _ h')
    intro gs x
    unfold delegate
    split <;> exact Iff.rfl
  unfold eligibleTarget
  rw [← hcurrent, ← htarget, hb.blocked, hb'.blocked]
  cases hc : b.current with
  | none => rfl
  | some current =>
    cases ht : b.members.find? fun x => x.id = t ∧ x.periodMemberId = t with
    | none => rfl
    | some target =>
      have htid : target.id = t := by
        have hp := List.find?_some ht
        exact (of_decide_eq_true hp).1
      have hpairs : b.pairs = pairs db v.roomId v.id T := by
        rw [hb.pairs, hc]
        rfl
      have hpairs' : b'.pairs = pairs db v.roomId v.id T' := by
        rw [hb'.pairs, ← hcurrent, hc]
        rfl
      have hfind : (b.pairs.find? fun p => p.leftMemberId = v.id ∧ p.rightMemberId = t ∨
            p.rightMemberId = v.id ∧ p.leftMemberId = t) =
          b'.pairs.find? fun p => p.leftMemberId = v.id ∧ p.rightMemberId = t ∨
            p.rightMemberId = v.id ∧ p.leftMemberId = t := by
        rw [hpairs, hpairs']
        exact find?_pairs h h'
      simp only [hfind]
      cases hp : b'.pairs.find? fun p => p.leftMemberId = v.id ∧ p.rightMemberId = t ∨
          p.rightMemberId = v.id ∧ p.leftMemberId = t with
      | none => rfl
      | some p =>
        have hmem' : p ∈ b'.pairs := List.mem_of_find?_eq_some hp
        have hmem : p ∈ b.pairs := List.mem_of_find?_eq_some (hfind.trans hp)
        have hg : b.grants = grants db now v.roomId (b.pairs.map StreamPair.streamId) (v.id :: T) := by
          rw [hb.grants, if_pos (List.ne_nil_of_mem hmem)]
        have hg' : b'.grants =
            grants db now v.roomId (b'.pairs.map StreamPair.streamId) (v.id :: T') := by
          rw [hb'.grants, if_pos (List.ne_nil_of_mem hmem')]
        have hs : p.streamId ∈ b.pairs.map StreamPair.streamId := List.mem_map_of_mem hmem
        have hs' : p.streamId ∈ b'.pairs.map StreamPair.streamId := List.mem_map_of_mem hmem'
        -- the grants differ in whom else they name
        have hpaired : paired b v current target p = paired b' v current target p := by
          simp only [paired, hg, hg', htid]
          rw [find?_grants hs hs' List.mem_cons_self List.mem_cons_self,
            find?_grants hs hs' (List.mem_cons_of_mem _ h) (List.mem_cons_of_mem _ h')]
        simp only [hpaired]

/-- Whom a hint of the message may name: its sender, or both ends of its pair. -/
def Names (v : ActiveMember) (x : EligibleFacts) (t : Uuid) : Prop :=
  x.deletionRootId = none ∧
    if x.stream.kind = .roomShared ∨ v.temporaryGrantId ≠ none then t = x.senderMemberId
    else ∃ pair, x.pair = some pair ∧ (t = pair.leftMemberId ∨ t = pair.rightMemberId)

theorem mem_targetIds {xs : List EligibleFacts} :
    t ∈ targetIds v xs ↔ t ≠ v.id ∧ ∃ x ∈ xs, Names v x t := by
  simp only [targetIds, List.mem_filter, List.mem_flatMap, decide_eq_true_eq]
  rw [and_comm]
  refine and_congr_right fun _ => exists_congr fun x => and_congr_right fun _ => ?_
  unfold Names
  by_cases hroot : x.deletionRootId = none
  · rw [if_neg (by simp [hroot])]
    by_cases hshared : x.stream.kind = .roomShared ∨ v.temporaryGrantId ≠ none
    · rw [if_pos hshared, if_pos hshared, List.mem_singleton]
      simp [hroot]
    · rw [if_neg hshared, if_neg hshared]
      cases hpair : x.pair with
      | none => simp
      | some pair => simp [hroot]
  · simp [hroot]

/-- The reply hint of a message, unless it is a delegate's own private message. -/
theorem reply_eq {x : EligibleFacts} (hb : Batched db now v T b) (hb' : Batched db now v T' b')
    (hT : ∀ t, t ≠ v.id → Names v x t → t ∈ T) (hT' : ∀ t, t ≠ v.id → Names v x t → t ∈ T')
    (hown : v.temporaryGrantId = none ∨ x.senderMemberId ≠ v.id ∨ x.stream.kind = .roomShared) :
    reply b v x = reply b' v x := by
  -- Whoever is named is a target of both batches, or the viewer, to whom nobody replies.
  have hnamed : ∀ t r, Names v x t → eligibleTarget b v t r = eligibleTarget b' v t r := by
    intro t r hname
    by_cases ht : t = v.id
    · rw [ht, eligibleTarget_self, eligibleTarget_self]
    · exact eligibleTarget_eq hb hb' (hT t ht hname) (hT' t ht hname) r
  unfold reply
  by_cases hskip : x.deletionRootId ≠ none ∨ x.stream.roomId ≠ v.roomId
  · rw [if_pos hskip, if_pos hskip]
  rw [if_neg hskip, if_neg hskip]
  have horiginal : x.deletionRootId = none := by
    by_contra h
    exact hskip (.inl h)
  by_cases hshared : x.stream.kind = .roomShared
  · rw [if_pos hshared, if_pos hshared, hnamed _ _ ⟨horiginal, by rw [if_pos (.inl hshared)]⟩]
  rw [if_neg hshared, if_neg hshared]
  by_cases hdelegated : v.temporaryGrantId ≠ none
  · have hsender : Names v x x.senderMemberId := ⟨horiginal, by rw [if_pos (.inr hdelegated)]⟩
    have hother : x.senderMemberId ≠ v.id := by
      rcases hown with h | h | h
      · exact absurd h hdelegated
      · exact h
      · exact absurd h hshared
    rw [hnamed _ _ hsender]
    by_cases heligible : v.temporaryGrantId ≠ none ∧ x.senderMemberId ≠ v.id ∧
        eligibleTarget b' v x.senderMemberId none = true
    · rw [if_pos heligible, if_pos heligible]
    rw [if_neg heligible, if_neg heligible]
    cases hpair : x.pair with
    | none => rfl
    | some pair =>
      simp only
      by_cases hends : pair.roomId = v.roomId ∧ pair.streamId = x.stream.id ∧
          (pair.leftMemberId = x.senderMemberId ∨ pair.rightMemberId = x.senderMemberId)
      · rw [if_pos hends, if_pos hends]
        -- The end opposite to the viewer is the sender.
        by_cases hleft : pair.leftMemberId = v.id
        · rw [if_pos hleft]
          have hright : pair.rightMemberId = x.senderMemberId :=
            hends.2.2.resolve_left fun h => hother (h.symm.trans hleft)
          simp only [hright, hnamed _ _ hsender]
        · rw [if_neg hleft]
          by_cases hright : pair.rightMemberId = v.id
          · rw [if_pos hright]
            have hleft' : pair.leftMemberId = x.senderMemberId :=
              hends.2.2.resolve_right fun h => hother (h.symm.trans hright)
            simp only [hleft', hnamed _ _ hsender]
          · rw [if_neg hright]
      · rw [if_neg hends, if_neg hends]
  · rw [if_neg fun h => hdelegated h.1, if_neg fun h => hdelegated h.1]
    cases hpair : x.pair with
    | none => rfl
    | some pair =>
      have hends : ∀ t, t = pair.leftMemberId ∨ t = pair.rightMemberId → Names v x t := by
        intro t ht
        refine ⟨horiginal, ?_⟩
        rw [if_neg (by simp [hshared, not_not.mp hdelegated])]
        exact ⟨pair, hpair, ht⟩
      simp only
      split
      · split
        · rfl
        · rename_i opposite hopposite
          have hend : opposite = pair.leftMemberId ∨ opposite = pair.rightMemberId := by
            split at hopposite
            · exact .inr (Option.some.inj hopposite).symm
            · split at hopposite
              · exact .inl (Option.some.inj hopposite).symm
              · cases hopposite
          rw [hnamed _ _ (hends _ hend)]
      · rfl

theorem hints_eq {x : EligibleFacts} (hb : Batched db now v T b) (hb' : Batched db now v T' b')
    (h : reply b v x = reply b' v x) : hints b v x = hints b' v x := by
  have hcurrent : b.current = b'.current := by
    rw [hb.current, hb'.current]
    exact currentOf_eq hb.members hb'.members
  simp only [hints, h, hcurrent]

/-- The hints of a batch, message by message. -/
theorem project_ok {hs : List (Uuid × MessageEligibility)} (h : project db now v ids = .ok hs)
    (hids : ids ≠ []) :
    ∃ b, batch db now v (targetIds v (messages db v.roomId ids)) = .ok b ∧
      ∀ id, Keyed.at? Prod.fst hs id =
        (((messages db v.roomId ids).find? fun x => x.id = id).map fun x =>
          (id, hints b v x)).or (if id ∈ ids then some (id, {}) else none) := by
  unfold project at h
  rw [if_neg hids] at h
  simp only [bind_ok, pure_ok] at h
  obtain ⟨b, hb, rfl⟩ := h
  refine ⟨b, hb, fun id => ?_⟩
  rw [Keyed.at?_foldl_set EligibleFacts.id (hints b v) messages_nodup, Keyed.at?_ofList_map]

/-- A message a delegate sent in private. The hint of a reply to it depends on who else is on
the page, because only the sender is looked up for a delegate. -/
def OwnPrivate (v : ActiveMember) (x : EligibleFacts) : Prop :=
  v.temporaryGrantId ≠ none ∧ x.senderMemberId = v.id ∧ x.stream.kind ≠ .roomShared

/-- The hints of a message on a page and alone: the same, but for a delegate's own private
message, of which the other two hints are. -/
def Alike (e e' : MessageEligibility) (own : Prop) : Prop :=
  e.allowedActions.publish = e'.allowedActions.publish ∧
    e.allowedActions.delete = e'.allowedActions.delete ∧ (¬own → e = e')

theorem project_at {hs : List (Uuid × MessageEligibility)} (h : project db now v ids = .ok hs)
    (hid : id ∈ ids) :
    ∃ hs' e e', project db now v [id] = .ok hs' ∧ Keyed.at? Prod.fst hs id = some (id, e) ∧
      Keyed.at? Prod.fst hs' id = some (id, e') ∧
      Alike e e' (∃ x ∈ messages db v.roomId [id], OwnPrivate v x) := by
  have hids : ids ≠ [] := List.ne_nil_of_mem hid
  obtain ⟨b, hb, hat⟩ := project_ok h hids
  -- a batch of one message asks about fewer members
  have hsub : targetIds v (messages db v.roomId [id]) ⊆ targetIds v (messages db v.roomId ids) := by
    intro t ht
    obtain ⟨hne, x, hx, hname⟩ := mem_targetIds.mp ht
    obtain ⟨m, hm, hroom, hmid, hfacts⟩ := mem_messages.mp hx
    refine mem_targetIds.mpr ⟨hne, x, mem_messages.mpr ⟨m, hm, hroom, ?_, hfacts⟩, hname⟩
    rwa [List.mem_singleton.mp hmid]
  obtain ⟨b', hb'⟩ := batch_total hb hsub
  have hone : ∃ hs', project db now v [id] = .ok hs' := by
    unfold project
    rw [if_neg (List.cons_ne_nil _ _)]
    simp only [hb', ok_bind]
    exact ⟨_, rfl⟩
  obtain ⟨hs', hs'_ok⟩ := hone
  obtain ⟨b'', hb'', hat'⟩ := project_ok hs'_ok (List.cons_ne_nil _ _)
  obtain rfl : b' = b'' := Except.ok.inj (hb'.symm.trans hb'')
  have hfind : ((messages db v.roomId ids).find? fun x => x.id = id) =
      (messages db v.roomId [id]).find? fun x => x.id = id :=
    find?_messages hid List.mem_cons_self
  have hread := hat id
  have hread' := hat' id
  rw [if_pos hid, hfind] at hread
  rw [if_pos List.mem_cons_self] at hread'
  cases hx : (messages db v.roomId [id]).find? fun x => x.id = id with
  | none =>
    rw [hx] at hread hread'
    exact ⟨hs', {}, {}, hs'_ok, hread, hread', rfl, rfl, fun _ => rfl⟩
  | some x =>
    rw [hx] at hread hread'
    have hmem' : x ∈ messages db v.roomId [id] := List.mem_of_find?_eq_some hx
    have hmem : x ∈ messages db v.roomId ids := List.mem_of_find?_eq_some (hfind.trans hx)
    have hcurrent : b.current = b'.current := by
      rw [(batch_ok hb).current, (batch_ok hb').current]
      exact currentOf_eq (batch_ok hb).members (batch_ok hb').members
    refine ⟨hs', hints b v x, hints b' v x, hs'_ok, hread, hread', ?_, ?_, ?_⟩
    · simp only [hints, hcurrent]
    · simp only [hints]
    · -- what decides a reply is known of every sender but the delegate's own private message
      intro hown
      refine hints_eq (batch_ok hb) (batch_ok hb') (reply_eq (batch_ok hb) (batch_ok hb') ?_ ?_ ?_)
      · exact fun t hne hname => mem_targetIds.mpr ⟨hne, x, hmem, hname⟩
      · exact fun t hne hname => mem_targetIds.mpr ⟨hne, x, hmem', hname⟩
      · by_cases hd : v.temporaryGrantId = none
        · exact .inl hd
        · by_cases hs : x.senderMemberId = v.id
          · by_cases hk : x.stream.kind = .roomShared
            · exact .inr (.inr hk)
            · exact absurd ⟨x, hmem', hd, hs, hk⟩ hown
          · exact .inr (.inl hs)

end MessageEligibilityService

end Rogichat
