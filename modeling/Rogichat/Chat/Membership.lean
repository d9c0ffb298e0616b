import Rogichat.Chat.Journal

/-!
# Seats and membership periods

What the commands do to memberships, over two functions of a database: the seat a
member holds and the row of a period. A seat is opened by a join, closed by
leaving or a ban, and everything else leaves it alone; a period's row is written
when it opens and when it closes, and once more if its member becomes the owner of
the default room.

* **`Effect`** — the three things a command can do to seats and periods.
* **`exec_effect`** — every command does one of them.
* **`Seated`** — a member is active exactly while it points to an open period of
  its own; **`reachable_seated`** — in every reachable state.
-/

namespace Rogichat

open Lib

/-- What a member row says about the membership. -/
structure Seat where
  roomId : Uuid
  userId : Uuid
  status : MemberStatus
  period : Option Uuid
  deriving DecidableEq, Repr

def RoomMember.seat (m : RoomMember) : Seat :=
  { roomId := m.roomId, userId := m.userId, status := m.status, period := m.activePeriodId }

/-- The seat of a member. -/
def Db.seat (db : Db) (memberId : Uuid) : Option Seat :=
  (db.roomMembers.find? fun m => m.id = memberId).map RoomMember.seat

/-- The row of a period. -/
def Db.period (db : Db) (periodId : Uuid) : Option MembershipPeriod :=
  db.membershipPeriods.find? fun p => p.id = periodId

theorem Db.seat_of_mem {db : Db} {m : RoomMember} (h : m ∈ db.roomMembers) :
    db.seat m.id = some m.seat := by
  have hfind : (db.roomMembers.find? fun n => n.id = m.id) = some m := by
    refine Table.find?_eq_some h rfl (k := (0, [m.id])) List.mem_cons_self ?_
    intro s hs
    rw [← hs]
    exact List.mem_cons_self
  rw [Db.seat, hfind, Option.map_some]

theorem Db.mem_of_seat {db : Db} {memberId : Uuid} {x : Seat} (h : db.seat memberId = some x) :
    ∃ m ∈ db.roomMembers, m.id = memberId ∧ m.seat = x := by
  simp only [Db.seat, Option.map_eq_some_iff] at h
  obtain ⟨m, hm, rfl⟩ := h
  have hid := Table.holds_of_find? hm
  exact ⟨m, Table.mem_of_find? hm, hid, rfl⟩

theorem Db.period_iff {db : Db} {periodId : Uuid} {p : MembershipPeriod} :
    db.period periodId = some p ↔ p ∈ db.membershipPeriods ∧ p.id = periodId := by
  constructor
  · intro h
    have hid := Table.holds_of_find? h
    exact ⟨Table.mem_of_find? h, hid⟩
  · rintro ⟨hp, rfl⟩
    refine Table.find?_eq_some hp rfl (k := (0, [p.id])) List.mem_cons_self ?_
    intro s hs
    rw [← hs]
    exact List.mem_cons_self

/-! ## What a write does to seats and periods -/

/-- A change of member rows, seen on their seats. -/
theorem Db.seat_update {s t : Db} {p : RoomMember → Prop} [DecidablePred p]
    {f : RoomMember → RoomMember} {k : Table.Keeps f} (ht : t.roomMembers = s.roomMembers.update p f k)
    (hid : ∀ m, (f m).id = m.id) (memberId : Uuid) :
    t.seat memberId = (s.roomMembers.find? fun m => m.id = memberId).map
      fun m => if p m then (f m).seat else m.seat := by
  rw [Db.seat, ht, Table.find?_update fun m => by rw [hid]]
  rw [Option.map_map]
  congr 1
  funext m
  simp only [Function.comp_apply]
  split <;> rfl

/-- A change of member rows that no seat sees. -/
theorem Db.seat_map {s t : Db} {g : RoomMember → RoomMember}
    (ht : t.roomMembers.rows = s.roomMembers.rows.map g)
    (hg : ∀ m, (g m).id = m.id ∧ (g m).seat = m.seat) (memberId : Uuid) :
    t.seat memberId = s.seat memberId := by
  unfold Db.seat Table.find?
  rw [ht, List.find?_map, Option.map_map]
  have hsame : (fun m : RoomMember => decide (m.id = memberId)) ∘ g =
      fun m => decide (m.id = memberId) := by
    funext m
    simp only [Function.comp_apply, (hg m).1]
  rw [hsame]
  congr 1
  funext m
  exact (hg m).2

theorem Db.seat_congr {s t : Db} (h : t.roomMembers = s.roomMembers) (memberId : Uuid) :
    t.seat memberId = s.seat memberId := by
  rw [Db.seat, h, Db.seat]

theorem Db.period_congr {s t : Db} (h : t.membershipPeriods = s.membershipPeriods)
    (periodId : Uuid) : t.period periodId = s.period periodId := by
  rw [Db.period, h, Db.period]

theorem Db.period_update {s t : Db} {q : MembershipPeriod → Prop} [DecidablePred q]
    {f : MembershipPeriod → MembershipPeriod} {k : Table.Keeps f}
    (ht : t.membershipPeriods = s.membershipPeriods.update q f k) (hid : ∀ p, (f p).id = p.id)
    (periodId : Uuid) :
    t.period periodId = (s.period periodId).map fun p => if q p then f p else p := by
  rw [Db.period, ht, Table.find?_update fun p => by rw [hid], Db.period]

/-! ## Effects -/

/-- The owner default-room provisioning bound. -/
def BoundOwner (db : Db) (memberId : Uuid) : Prop :=
  ∃ b ∈ db.defaultRoomBindings, b.ownerBound = true ∧
    ∃ r ∈ db.rooms, r.id = b.roomId ∧ r.ownerMemberId = some memberId

/-- No seat changed, and a period's row only by becoming the bound owner's. -/
structure Settled (s t : Db) : Prop where
  seat : ∀ id, t.seat id = s.seat id
  absent : ∀ id, s.period id = none → t.period id = none
  period : ∀ id p, s.period id = some p → t.period id = some p ∨
    BoundOwner t p.memberId ∧
      t.period id = some { p with visibleFromOrder := 0, historyPolicy := .allAvailable }

namespace Settled

theorem still {s t : Db} (hseat : ∀ id, t.seat id = s.seat id)
    (hperiod : ∀ id, t.period id = s.period id) : Settled s t where
  seat := hseat
  absent id h := by rw [hperiod, h]
  period id p h := .inl (by rw [hperiod, h])

theorem frame {ts : List TableName} {s t : Db} (h : Db.Writes ts s t)
    (hmembers : .roomMembers ∉ ts) (hperiods : .membershipPeriods ∉ ts) : Settled s t :=
  still (Db.seat_congr (h.roomMembers hmembers)) (Db.period_congr (h.membershipPeriods hperiods))

/-- Nothing, and then a settling. -/
theorem after {s t u : Db} (hseat : ∀ id, t.seat id = s.seat id)
    (hperiod : ∀ id, t.period id = s.period id) (h : Settled t u) : Settled s u where
  seat id := (h.seat id).trans (hseat id)
  absent id hn := h.absent id (by rw [hperiod, hn])
  period id p hp := h.period id p (by rw [hperiod, hp])

end Settled

/-- Period `p` opened, for a member that had none. -/
structure Opens (s t : Db) (p : MembershipPeriod) : Prop where
  fresh : s.period p.id = none
  vacant : ∀ x, s.seat p.memberId = some x → x.status ≠ .active ∨ x.period = none
  seat : ∃ userId, ∀ id, t.seat id = if id = p.memberId
    then some { roomId := p.roomId, userId := userId, status := .active, period := some p.id }
    else s.seat id
  period : ∀ id, t.period id = if id = p.id then some p else s.period id
  isOpen : p.leftAt = none
  boundary : p.historyPolicy = .sinceJoin → p.visibleFromOrder = t.order p.roomId
  policy : ∀ r ∈ t.rooms, r.id = p.roomId → r.historyPolicy = p.historyPolicy

/-- The member's seat was given up, and its open period closed. -/
structure Closes (s t : Db) (memberId : Uuid) (x y : Seat) : Prop where
  held : s.seat memberId = some x
  seat : ∀ id, t.seat id = if id = memberId then some y else s.seat id
  inactive : y.status ≠ .active
  vacated : y.period = none
  absent : ∀ id, s.period id = none → t.period id = none
  period : ∀ id p, s.period id = some p → ∃ p', t.period id = some p' ∧
    (p' = p ∨ ∃ now, p' = { p with leftAt := some now })
  closed : ∀ id p, s.period id = some p → t.period id = some p → p.leftAt = none →
    x.period = some id → p.memberId = memberId → p.roomId ≠ x.roomId
  others : ∀ id, x.period ≠ some id → t.period id = s.period id

/-- What a command does to seats and periods. -/
inductive Effect (s t : Db) : Prop
  | settled (h : Settled s t)
  | closed (memberId : Uuid) (x y : Seat) (h : Closes s t memberId x y)
  | joined (a b : Db) (p : MembershipPeriod) (seat : ∀ id, a.seat id = s.seat id)
      (period : ∀ id, a.period id = s.period id) (opens : Opens a b p) (settled : Settled b t)
      (order : ∀ room, t.order room = b.order room)
      (policy : ∀ r ∈ t.rooms, ∃ r' ∈ b.rooms, r'.id = r.id ∧ r'.historyPolicy = r.historyPolicy)

/-! ## Joining -/

namespace RoomStateRepository

theorem seat_activate (s : Db) (periodId memberId : Uuid) (id : Uuid) :
    (activate s periodId memberId).seat id = if id = memberId
      then (s.seat id).map fun x => { x with status := .active, period := some periodId }
      else s.seat id := by
  rw [Db.seat_update (s := s) (t := activate s periodId memberId) (k := by exact ⟨fun _ => rfl⟩) rfl
    fun _ => rfl, Db.seat]
  cases hm : s.roomMembers.find? fun m => m.id = id with
  | none => simp
  | some m =>
    have hid : m.id = id := by
      have h := Table.holds_of_find? hm
      exact h
    subst hid
    by_cases h : m.id = memberId <;> simp [h, RoomMember.seat]

theorem seat_insertMember {s t : Db} {id roomId userId : Uuid} {role : MemberRole}
    (h : insertMember s id roomId userId role = .ok t) :
    s.seat id = none ∧ ∀ memberId, t.seat memberId = if memberId = id
      then some { roomId := roomId, userId := userId, status := .active, period := none }
      else s.seat memberId := by
  simp only [insertMember, bind_ok, require_ok, pure_ok] at h
  obtain ⟨-, -, members, hmembers, rfl⟩ := h
  have hnone : s.seat id = none := by
    cases hx : s.seat id with
    | none => rfl
    | some x =>
      obtain ⟨m, hm, hid, -⟩ := Db.mem_of_seat hx
      refine absurd ?_ (Table.fresh_of_insert hmembers hm)
      exact ⟨(0, [m.id]), List.mem_cons_self, by rw [hid]; exact List.mem_cons_self⟩
  refine ⟨hnone, ?_⟩
  intro memberId
  simp only [Db.seat]
  rw [Table.find?_insert hmembers]
  by_cases hid : memberId = id
  · subst hid
    simp only [Db.seat, Option.map_eq_none_iff] at hnone
    simp [hnone, RoomMember.seat]
  · have : ¬id = memberId := fun h => hid h.symm
    simp [hid, this]

theorem period_insertPeriod {s t : Db} {id roomId memberId : Uuid} {version boundary : Nat}
    {history : HistoryPolicy} (h : insertPeriod s id roomId memberId version history boundary = .ok t) :
    s.period id = none ∧ ∀ periodId, t.period periodId = if periodId = id
      then some { id := id, roomId := roomId, memberId := memberId, policyVersion := version,
                  historyPolicy := history, visibleFromOrder := boundary }
      else s.period periodId := by
  simp only [insertPeriod, bind_ok, require_ok, pure_ok] at h
  obtain ⟨periods, hperiods, rfl⟩ := h
  have hnone : s.period id = none := by
    cases hp : s.period id with
    | none => rfl
    | some p =>
      obtain ⟨hmem, hid⟩ := Db.period_iff.mp hp
      refine absurd ?_ (Table.fresh_of_insert hperiods hmem)
      exact ⟨(0, [p.id]), List.mem_cons_self, by rw [hid]; exact List.mem_cons_self⟩
  refine ⟨hnone, ?_⟩
  intro periodId
  simp only [Db.period]
  rw [Table.find?_insert hperiods]
  by_cases hid : periodId = id
  · subst hid
    simp only [Db.period] at hnone
    simp [hnone]
  · have : ¬id = periodId := fun h => hid h.symm
    simp [hid, this]

end RoomStateRepository

namespace RoomStateService

open RoomStateRepository

/-- The period a join opened, under the room's policy at that moment. -/
theorem openPeriod_opens {s t : Db} {periodId memberId userId : Uuid} {room : Room} {x : Seat}
    (hroom : room ∈ s.rooms) (hseat : s.seat memberId = some x) (hin : x.roomId = room.id)
    (hvacant : x.status ≠ .active ∨ x.period = none)
    (h : openPeriod s periodId room memberId userId = .ok t) : ∃ p, p.memberId = memberId ∧
      p.roomId = room.id ∧ Opens s t p := by
  have hw := openPeriod_writes h
  simp only [openPeriod, bind_ok, pure_ok] at h
  obtain ⟨⟨a, order⟩, ha, b, hb, rfl⟩ := h
  -- the boundary is the order just taken, unless the policy shows everything
  obtain ⟨boundary, hsince, hb⟩ : ∃ boundary, (room.historyPolicy = .sinceJoin → boundary = order) ∧
      insertPeriod a periodId room.id memberId room.policyVersion room.historyPolicy boundary =
        .ok b := ⟨_, fun hpolicy => by rw [hpolicy], hb⟩
  have htaken := nextOrder_taken ha
  have hbw := insertPeriod_writes hb
  obtain ⟨hfresh, hperiod⟩ := period_insertPeriod hb
  have hbseat : ∀ id, b.seat id = s.seat id := fun id =>
    (Db.seat_congr (hbw.roomMembers (by simp)) id).trans
    (Db.seat_congr (htaken.writes.roomMembers (by simp)) id)
  have hsperiod : ∀ id, a.period id = s.period id :=
    Db.period_congr (htaken.writes.membershipPeriods (by simp))
  refine ⟨{ id := periodId, roomId := room.id, memberId := memberId, policyVersion := room.policyVersion,
            historyPolicy := room.historyPolicy, visibleFromOrder := boundary },
    rfl, rfl, (hsperiod periodId).symm.trans hfresh, ?_, ⟨x.userId, ?_⟩, ?_, rfl, ?_, ?_⟩
  · intro y hy
    rw [hseat, Option.some.injEq] at hy
    exact hy ▸ hvacant
  · intro id
    have hactivate := seat_activate b periodId memberId id
    have hmember := (advanceMembership_writes
      (activate b periodId memberId) userId).roomMembers (by simp)
    rw [Db.seat_congr hmember, hactivate]
    split
    · rename_i hid
      rw [hid, hbseat, hseat, Option.map_some, hin]
    · exact hbseat id
  · intro id
    have hid := hperiod id
    rw [hsperiod] at hid
    exact hid
  · intro hpolicy
    simp only at hpolicy
    have horder : (advanceMembership (activate b periodId memberId) userId).order room.id = order :=
      (Db.order_congr (hbw.roomCounters (by simp)) room.id).trans htaken.here
    rw [horder]
    exact hsince hpolicy
  · intro r hr hid
    rw [hw.rooms (by simp)] at hr
    have : r = room := Table.eq_of_key hr hroom (k := (0, [r.id])) List.mem_cons_self
      (by simp only at hid; rw [hid]; exact List.mem_cons_self)
    rw [this]

/-- A join: the member already sits, or a period opens for it. -/
theorem joinRoom_ok {s t : Db} {ids : Nat → Uuid} {roomId userId actorId : Uuid}
    (h : joinRoom s ids roomId userId = .ok (t, actorId)) :
    (t = s ∧ ∃ m ∈ s.roomMembers, m.id = actorId ∧ m.roomId = roomId ∧ m.userId = userId) ∨
      ∃ p, p.memberId = actorId ∧ p.roomId = roomId ∧ Opens s t p := by
  simp only [joinRoom, lockRoom, bind_ok, require_ok, ensure_ok, pure_ok] at h
  obtain ⟨room, ⟨r, hr, -, -, rfl⟩, -, -, hrest⟩ := h
  have hroom := Table.mem_of_find? hr
  have hid : r.id = roomId := by
    have h := Table.holds_of_find? hr
    exact h
  split at hrest
  · -- a member of before: still active, or back with a new period
    rename_i existing hexisting
    have hmem := Table.mem_of_find? hexisting
    have hkey := Table.holds_of_find? hexisting
    simp only [bind_ok, ensure_ok] at hrest
    obtain ⟨-, -, hrest⟩ := hrest
    split at hrest
    · cases hrest
      exact .inl ⟨rfl, existing, hmem, rfl, hkey.1, hkey.2⟩
    · rename_i hvacant
      simp only [bind_ok, pure_ok] at hrest
      obtain ⟨b, hb, heq⟩ := hrest
      cases heq
      obtain ⟨p, hpm, hpr, hopens⟩ := openPeriod_opens hroom (Db.seat_of_mem hmem)
        (hkey.1.trans hid.symm)
        (by rw [← not_ne_iff (a := existing.seat.period), ← not_and_or]; exact hvacant) hb
      exact .inr ⟨p, hpm, hpr.trans hid, hopens⟩
  · simp only [bind_ok, pure_ok] at hrest
    obtain ⟨a, ha, b, hb, heq⟩ := hrest
    cases heq
    have haw := insertMember_writes ha
    -- a new member sits nowhere yet
    obtain ⟨hnone, hseat⟩ := seat_insertMember ha
    have hnew := hseat (ids 0)
    rw [if_pos rfl] at hnew
    obtain ⟨p, hpm, hpr, hopens⟩ := openPeriod_opens (haw.rooms (by simp) ▸ hroom) hnew hid.symm
      (.inr rfl) hb
    refine .inr ⟨p, hpm, hpr.trans hid, ?_⟩
    obtain ⟨u, hu⟩ := hopens.seat
    exact
      { fresh := (Db.period_congr (haw.membershipPeriods (by simp)) p.id).symm.trans hopens.fresh
        vacant := by
          intro x hx
          rw [hpm, hnone] at hx
          cases hx
        seat := by
          refine ⟨u, fun id => ?_⟩
          rw [hu, hseat]
          by_cases hmember : id = p.memberId
          · simp [hmember]
          · rw [if_neg hmember, if_neg (hpm ▸ hmember), if_neg hmember]
        period := fun id => by rw [hopens.period, Db.period_congr (haw.membershipPeriods (by simp))]
        isOpen := hopens.isOpen
        boundary := hopens.boundary
        policy := hopens.policy }

end RoomStateService

/-! ## Seats and open periods -/

/-- A member is active exactly while it points to an open period of its own. -/
structure Seated (db : Db) : Prop where
  active : ∀ id x, db.seat id = some x → x.status = .active →
    ∃ periodId p, x.period = some periodId ∧ db.period periodId = some p ∧ p.memberId = id ∧
      p.roomId = x.roomId ∧ p.leftAt = none
  inactive : ∀ id x, db.seat id = some x → x.status ≠ .active → x.period = none
  occupied : ∀ id p, db.period id = some p → p.leftAt = none →
    ∃ x, db.seat p.memberId = some x ∧ x.status = .active ∧ x.period = some id

namespace Seated

/-- The period a seat points to is its member's. -/
theorem own {db : Db} (h : Seated db) {memberId periodId : Uuid} {x : Seat} {p : MembershipPeriod}
    (hx : db.seat memberId = some x) (hperiod : x.period = some periodId)
    (hp : db.period periodId = some p) :
    p.memberId = memberId ∧ p.roomId = x.roomId ∧ p.leftAt = none := by
  have hactive : x.status = .active := by
    by_contra hne
    rw [h.inactive memberId x hx hne] at hperiod
    cases hperiod
  obtain ⟨id, q, hid, hq, hmember, hroom, hopen⟩ := h.active memberId x hx hactive
  rw [hid, Option.some.injEq] at hperiod
  subst hperiod
  rw [hq, Option.some.injEq] at hp
  exact hp ▸ ⟨hmember, hroom, hopen⟩

theorem settled {s t : Db} (h : Seated s) (hst : Settled s t) : Seated t where
  active := by
    intro id x hx hactive
    rw [hst.seat] at hx
    obtain ⟨periodId, p, hid, hp, hmember, hroom, hopen⟩ := h.active id x hx hactive
    rcases hst.period periodId p hp with hp' | ⟨-, hp'⟩
    · exact ⟨periodId, p, hid, hp', hmember, hroom, hopen⟩
    · exact ⟨periodId, _, hid, hp', hmember, hroom, hopen⟩
  inactive := by
    intro id x hx
    rw [hst.seat] at hx
    exact h.inactive id x hx
  occupied := by
    intro id q hq hopen
    cases hp : s.period id with
    | none =>
      rw [hst.absent id hp] at hq
      cases hq
    | some p =>
      have hsame : q.memberId = p.memberId ∧ p.leftAt = none := by
        rcases hst.period id p hp with hp' | ⟨-, hp'⟩
        · rw [hp', Option.some.injEq] at hq
          exact hq ▸ ⟨rfl, hq ▸ hopen⟩
        · rw [hp', Option.some.injEq] at hq
          subst hq
          exact ⟨rfl, hopen⟩
      obtain ⟨x, hx, hactive, hperiod⟩ := h.occupied id p hp hsame.2
      exact ⟨x, by rw [hst.seat, hsame.1]; exact hx, hactive, hperiod⟩

theorem opens {s t : Db} {p : MembershipPeriod} (h : Seated s) (hst : Opens s t p) : Seated t := by
  obtain ⟨userId, hseat⟩ := hst.seat
  -- The member had no open period: it would have held an active seat.
  have hvacant : ∀ id q, s.period id = some q → q.leftAt = none → q.memberId ≠ p.memberId := by
    intro id q hq hopen hmember
    obtain ⟨x, hx, hactive, hperiod⟩ := h.occupied id q hq hopen
    rw [hmember] at hx
    rcases hst.vacant x hx with hne | hnone
    · exact hne hactive
    · rw [hnone] at hperiod
      cases hperiod
  refine ⟨?_, ?_, ?_⟩
  · intro id x hx hactive
    rw [hseat] at hx
    split at hx
    · rename_i hid
      rw [Option.some.injEq] at hx
      subst hx
      exact ⟨p.id, p, rfl, by rw [hst.period, if_pos rfl], hid.symm, rfl, hst.isOpen⟩
    · obtain ⟨periodId, q, hid, hq, hmember, hroom, hopen⟩ := h.active id x hx hactive
      refine ⟨periodId, q, hid, ?_, hmember, hroom, hopen⟩
      rw [hst.period, if_neg ?_]
      · exact hq
      · intro heq
        rw [heq, hst.fresh] at hq
        cases hq
  · intro id x hx hne
    rw [hseat] at hx
    split at hx
    · rw [Option.some.injEq] at hx
      subst hx
      exact absurd rfl hne
    · exact h.inactive id x hx hne
  · intro id q hq hopen
    rw [hst.period] at hq
    split at hq
    · rename_i hid
      rw [Option.some.injEq] at hq
      subst hq
      exact ⟨_, by rw [hseat, if_pos rfl], rfl, by rw [hid]⟩
    · obtain ⟨x, hx, hactive, hperiod⟩ := h.occupied id q hq hopen
      exact ⟨x, by rw [hseat, if_neg (hvacant id q hq hopen)]; exact hx, hactive, hperiod⟩

theorem closes {s t : Db} {memberId : Uuid} {x y : Seat} (h : Seated s)
    (hst : Closes s t memberId x y) : Seated t where
  active := by
    intro id z hz hactive
    rw [hst.seat] at hz
    split at hz
    · rw [Option.some.injEq] at hz
      subst hz
      exact absurd hactive hst.inactive
    · rename_i hid
      obtain ⟨periodId, p, hperiod, hp, hmember, hroom, hopen⟩ := h.active id z hz hactive
      refine ⟨periodId, p, hperiod, ?_, hmember, hroom, hopen⟩
      rw [hst.others, hp]
      intro hown
      exact hid (hmember.symm.trans (h.own hst.held hown hp).1)
  inactive := by
    intro id z hz hne
    rw [hst.seat] at hz
    split at hz
    · rw [Option.some.injEq] at hz
      exact hz ▸ hst.vacated
    · exact h.inactive id z hz hne
  occupied := by
    intro id q hq hopen
    cases hp : s.period id with
    | none =>
      -- a period that is there was there before
      rw [hst.absent id hp] at hq
      cases hq
    | some p =>
      have hpq : q = p := by
        obtain ⟨p', hp', hcase⟩ := hst.period id p hp
        rw [hp', Option.some.injEq] at hq
        subst hq
        rcases hcase with rfl | ⟨now, rfl⟩
        · rfl
        · cases hopen
      subst hpq
      obtain ⟨z, hz, hactive, hperiod⟩ := h.occupied id q hp hopen
      refine ⟨z, ?_, hactive, hperiod⟩
      rw [hst.seat, if_neg]
      · exact hz
      · -- The member's own open period was closed.
        intro hmember
        rw [hmember, hst.held, Option.some.injEq] at hz
        subst hz
        exact hst.closed id q hp hq hopen hperiod hmember (h.own hst.held hperiod hp).2.1

theorem effect {s t : Db} (h : Seated s) (hst : Effect s t) : Seated t := by
  cases hst with
  | settled hst => exact h.settled hst
  | closed memberId x y hst => exact h.closes hst
  | joined a b p hseat hperiod hopens hsettled =>
    have ha : Seated a := h.settled (.still hseat hperiod)
    exact (ha.opens hopens).settled hsettled

end Seated

/-! ## Leaving and bans -/

/-- One member's row changed. -/
theorem Db.seat_update_one {s t : Db} {m : RoomMember} (hm : m ∈ s.roomMembers)
    {p : RoomMember → Prop} [DecidablePred p] {f : RoomMember → RoomMember} {k : Table.Keeps f}
    (ht : t.roomMembers = s.roomMembers.update p f k) (hf : ∀ n, (f n).id = n.id) (hp : p m)
    (hother : ∀ n, p n → n.id = m.id) {y : Seat} (hy : (f m).seat = y) (id : Uuid) :
    t.seat id = if id = m.id then some y else s.seat id := by
  rw [Db.seat_update ht hf, ← hy]
  split
  · rename_i hid
    subst hid
    have hfind : (s.roomMembers.find? fun n => n.id = m.id) = some m := by
      refine Table.find?_eq_some hm rfl (k := (0, [m.id])) List.mem_cons_self ?_
      intro n hn
      rw [← hn]
      exact List.mem_cons_self
    rw [hfind, Option.map_some, if_pos hp]
  · rename_i hid
    rw [Db.seat]
    cases hn : s.roomMembers.find? fun n => n.id = id with
    | none => rfl
    | some n =>
      have hnid := Table.holds_of_find? hn
      rw [Option.map_some, Option.map_some, if_neg]
      intro hpn
      exact hid (hnid.symm.trans (hother n hpn))

/-- Giving up a seat, and closing the period it points to. -/
theorem Closes.of {s t : Db} {m : RoomMember} (hm : m ∈ s.roomMembers) {y : Seat}
    (hstatus : y.status ≠ .active) (hvacated : y.period = none)
    (hseat : ∀ id, t.seat id = if id = m.id then some y else s.seat id)
    {q : MembershipPeriod → Prop} [DecidablePred q] {n : Time} {k : Table.Keeps _}
    (hperiods : t.membershipPeriods =
      s.membershipPeriods.update q (fun p => { p with leftAt := some n }) k)
    (honly : ∀ p, q p → m.activePeriodId = some p.id)
    (hown : ∀ p, m.activePeriodId = some p.id → p.leftAt = none → p.memberId = m.id →
      p.roomId = m.roomId → q p) : Closes s t m.id m.seat y := by
  have hperiod := Db.period_update hperiods fun _ => rfl
  refine ⟨Db.seat_of_mem hm, hseat, hstatus, hvacated, ?_, ?_, ?_, ?_⟩
  · intro id hnone
    rw [hperiod, hnone, Option.map_none]
  · intro id p hp
    refine ⟨_, by rw [hperiod, hp, Option.map_some], ?_⟩
    split
    · exact .inr ⟨n, rfl⟩
    · exact .inl rfl
  · intro id p hp hp' hopen hpoints hmember hroom
    obtain ⟨-, hid⟩ := Db.period_iff.mp hp
    rw [hperiod, hp, Option.map_some,
      if_pos (hown p (by rw [hid]; exact hpoints) hopen hmember hroom), Option.some.injEq] at hp'
    rw [← hp'] at hopen
    cases hopen
  · intro id hne
    rw [hperiod]
    cases hp : s.period id with
    | none => rfl
    | some p =>
      obtain ⟨-, hid⟩ := Db.period_iff.mp hp
      rw [Option.map_some, if_neg]
      intro hq
      exact hne (by rw [← hid]; exact honly p hq)

theorem RoomStateService.leaveRoom_effect {s t : Db} {now : Time} {roomId userId : Uuid}
    (h : leaveRoom s now roomId userId = .ok t) : Effect s t := by
  simp only [leaveRoom, bind_ok] at h
  obtain ⟨room, -, hrest⟩ := h
  split at hrest
  · cases hrest
    exact .settled (.still (fun _ => rfl) fun _ => rfl)
  · rename_i m hm
    split at hrest
    · cases hrest
      exact .settled (.still (fun _ => rfl) fun _ => rfl)
    · simp only [bind_ok, ensure_ok, pure_ok] at hrest
      obtain ⟨-, -, rfl⟩ := hrest
      have hmem := Table.mem_of_find? hm
      have hrows : (RoomStateRepository.leave (RoomStateRepository.closePeriod s now m.activePeriodId)
          now m.id).roomMembers = s.roomMembers.update (fun n => n.id = m.id) fun n =>
            { n with status := .left, activePeriodId := none, aclEpoch := n.aclEpoch + 1 } := rfl
      refine .closed m.id m.seat { m.seat with status := .left, period := none }
        (Closes.of hmem (by simp) rfl ?_ (k := by exact ⟨fun _ => rfl⟩) rfl (fun _ hq => hq.1)
          fun _ hpoints hopen _ _ => ⟨hpoints, hopen⟩)
      exact Db.seat_update_one hmem hrows (fun _ => rfl) rfl (fun _ hn => hn) rfl

theorem ModerationCoreService.ban_effect {s t : Db} {now : Time} {userId roomId actorId : Uuid}
    {banned : Bool} (hs : Seated s) (h : ban s now userId roomId actorId banned = .ok t) :
    Effect s t := by
  rcases ban_ok h with rfl | ⟨m, hmem, hroom, hid, hstatus, -, rfl⟩
  · exact .settled (.still (fun _ => rfl) fun _ => rfl)
  · have hseat : ∀ id, (ModerationRepository.ban s now roomId actorId m.activePeriodId banned).seat id =
        if id = m.id then some { m.seat with
          status := if banned then .banned else .left, period := none } else s.seat id := by
      intro id
      have hrows : (ModerationRepository.ban s now roomId actorId m.activePeriodId banned).roomMembers =
          (s.roomMembers.update (fun n => n.roomId = roomId ∧ n.id = actorId) fun n =>
              { n with status := if banned then .banned else .left, activePeriodId := none }).update
            (fun n => n.roomId = roomId ∧ n.id = actorId)
            fun n => { n with aclEpoch := n.aclEpoch + 1 } := by
        cases banned <;> rfl
      refine (Db.seat_map (s := { s with
        roomMembers := s.roomMembers.update (fun n => n.roomId = roomId ∧ n.id = actorId) fun n =>
          { n with status := if banned then .banned else .left, activePeriodId := none } })
        (congrArg Table.rows hrows) (fun n => by split <;> exact ⟨rfl, rfl⟩) id).trans ?_
      exact Db.seat_update_one (f := fun n => { n with
          status := if banned then .banned else .left, activePeriodId := none })
        (k := by exact ⟨fun _ => rfl⟩) hmem rfl (fun _ => rfl) ⟨hroom, hid⟩
        (fun n hn => hn.2.trans hid.symm) rfl id
    refine .closed m.id m.seat { m.seat with
      status := if banned then .banned else .left, period := none } ?_
    cases banned with
    | true =>
      exact Closes.of hmem (by simp) rfl hseat (k := by exact ⟨fun _ => rfl⟩) rfl
        (fun _ hq => hq.2.2.1) fun p hpoints hopen hmember hin =>
          ⟨hin.trans hroom, hmember.trans hid, hpoints, hopen⟩
    | false =>
      -- A banned member points to no period.
      have hnone : m.activePeriodId = none :=
        hs.inactive m.id m.seat (Db.seat_of_mem hmem) (by
          rw [show m.seat.status = .banned from hstatus.mpr rfl]
          simp)
      refine Closes.of hmem (by simp) rfl hseat (q := fun _ => False) (n := now)
        (k := by exact ⟨fun _ => rfl⟩) ?_ (fun _ hq => hq.elim) ?_
      · exact (Table.update_eq_self fun _ _ hq => hq).symm
      · intro p hpoints
        rw [hnone] at hpoints
        cases hpoints

end Rogichat
