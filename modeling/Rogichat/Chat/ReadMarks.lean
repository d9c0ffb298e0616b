import Rogichat.Chat.ReadState

/-!
# Marks over a run

A mark belongs to the period it was reported in. While that period stays open the mark only
grows; a report in a later period replaces it, and the earlier one is closed by then.

* **`exec_forward`** — what one command does to the marks.
* **`run_forward`** — what a run does, while no account is purged.
* **`read_marks`** — marks only move forward, and the boundary is exact.
-/

namespace Rogichat

open Lib

/-! ## Closed periods -/

/-- Period `id` was closed. -/
def Ended (db : Db) (id : Uuid) : Prop := ∃ p, db.period id = some p ∧ p.leftAt ≠ none

namespace Ended

theorem settled {s t : Db} {id : Uuid} (h : Ended s id) (hst : Settled s t) : Ended t id := by
  obtain ⟨p, hp, hleft⟩ := h
  rcases hst.period id p hp with hp' | ⟨-, hp'⟩
  · exact ⟨p, hp', hleft⟩
  · exact ⟨_, hp', hleft⟩

/-- A closed period is not opened again. -/
theorem exec {c : Command} {s t : Db} {id : Uuid} (hs : Seated s) (hexec : c.exec s = .ok t)
    (h : Ended s id) : Ended t id := by
  cases Command.exec_effect hs hexec with
  | settled hst => exact h.settled hst
  | closed memberId x y hst =>
    obtain ⟨p, hp, hleft⟩ := h
    obtain ⟨p', hp', hcase⟩ := hst.period id p hp
    refine ⟨p', hp', ?_⟩
    rcases hcase with rfl | ⟨now, rfl⟩
    · exact hleft
    · exact Option.some_ne_none now
  | joined a b p hseat hperiod hopens hsettled =>
    obtain ⟨q, hq, hleft⟩ := h
    have hne : id ≠ p.id := by
      intro hid
      rw [← hperiod, hid, hopens.fresh] at hq
      cases hq
    have hb : Ended b id := by
      refine ⟨q, ?_, hleft⟩
      rw [hopens.period, if_neg hne, hperiod]
      exact hq
    exact hb.settled hsettled

end Ended

/-- A member's period other than the one it is active in was closed. -/
theorem ended_of_active {db : Db} {w : Bool} {now : Time} {roomId userId : Uuid}
    {v : ActiveMember} {p : MembershipPeriod} (hs : Seated db)
    (hv : MembershipRepository.findActive db w now roomId userId = some v)
    (hp : db.period p.id = some p) (hmember : p.memberId = v.id) (hne : p.id ≠ v.activePeriodId) :
    Ended db p.id := by
  refine ⟨p, hp, fun hopen => ?_⟩
  obtain ⟨m, r, q, hrow, hid, -, -, -, hperiod, -⟩ := MembershipRepository.findActive_role hv
  obtain ⟨x, hx, -, hpoints⟩ := hs.occupied p.id p hp hopen
  rw [hmember, hid, Db.seat_of_mem hrow.member, Option.some.injEq] at hx
  subst hx
  have hsame : some p.id = some q.id := hpoints.symm.trans hrow.points
  rw [hperiod] at hne
  exact hne (Option.some.inj hsame)

/-- The period a member is active in is open. -/
theorem not_ended_of_active {db : Db} {w : Bool} {now : Time} {roomId userId : Uuid}
    {v : ActiveMember} (hv : MembershipRepository.findActive db w now roomId userId = some v) :
    ¬Ended db v.activePeriodId := by
  rintro ⟨p, hp, hleft⟩
  obtain ⟨m, r, q, hrow, -, -, -, -, hperiod, -⟩ := MembershipRepository.findActive_role hv
  have hq : db.period q.id = some q := Db.period_iff.mpr ⟨hrow.period, rfl⟩
  rw [hperiod, hq, Option.some.injEq] at hp
  exact hleft (hp ▸ hrow.periodOpen)

/-! ## Marks and their periods -/

/-- Every mark names a period of its member, in its room. -/
def Owned (s : ReadDb) : Prop :=
  ∀ x ∈ s.ownReadStates, ∃ p, s.chat.period x.periodId = some p ∧ p.memberId = x.memberId ∧
    p.roomId = x.roomId

/-- `y` is the mark of the same member in the same stream, no lower in the same period, or in
another one after `x`'s was closed. -/
structure Succeeds (db : Db) (x y : OwnReadState) : Prop where
  memberId : y.memberId = x.memberId
  streamId : y.streamId = x.streamId
  roomId : y.roomId = x.roomId
  order : y.periodId = x.periodId ∧ x.lastReadOrder ≤ y.lastReadOrder ∨
    y.periodId ≠ x.periodId ∧ Ended db x.periodId

theorem Succeeds.refl (db : Db) (x : OwnReadState) : Succeeds db x x :=
  ⟨rfl, rfl, rfl, .inl ⟨rfl, le_refl _⟩⟩

/-- From `s` to `t` every mark is succeeded by one, of its own period or of one that was not
closed in `s`. -/
structure Forward (s t : ReadDb) : Prop where
  ended : ∀ id, Ended s.chat id → Ended t.chat id
  mark : ∀ x ∈ s.ownReadStates, ∃ y ∈ t.ownReadStates, Succeeds t.chat x y ∧
    (y.periodId = x.periodId ∨ ¬Ended s.chat y.periodId)

namespace Forward

theorem same {s t : ReadDb} (hended : ∀ id, Ended s.chat id → Ended t.chat id)
    (hmarks : t.ownReadStates = s.ownReadStates) : Forward s t :=
  ⟨hended, fun x hx => ⟨x, hmarks ▸ hx, .refl _ x, .inl rfl⟩⟩

theorem refl (s : ReadDb) : Forward s s := same (fun _ h => h) rfl

theorem trans {s t u : ReadDb} (h : Forward s t) (h' : Forward t u) : Forward s u where
  ended id hid := h'.ended id (h.ended id hid)
  mark := by
    intro x hx
    obtain ⟨y, hy, hxy, hfresh⟩ := h.mark x hx
    obtain ⟨z, hz, hyz, hfresh'⟩ := h'.mark y hy
    refine ⟨z, hz, ⟨hyz.memberId.trans hxy.memberId, hyz.streamId.trans hxy.streamId,
      hyz.roomId.trans hxy.roomId, ?_⟩, ?_⟩
    · rcases hxy.order with ⟨hperiod, hle⟩ | ⟨hperiod, hended⟩
      · have horder := hyz.order
        rw [hperiod] at horder
        exact horder.imp (fun h => ⟨h.1, hle.trans h.2⟩) fun h => h
      · right
        refine ⟨?_, h'.ended _ hended⟩
        intro hback
        rcases hfresh' with hsame | hopen
        · exact hperiod (hsame.symm.trans hback)
        · exact hopen (hback ▸ hended)
    · rcases hfresh' with hsame | hopen
      · rw [hsame]
        exact hfresh
      · exact .inr fun hended => hopen (h.ended _ hended)

end Forward

/-! ## Reports -/

/-- What a report does: the member's mark of a stream is put in its active period, and is no
lower if it was there already. -/
structure Advances (s t : ReadDb) (v : ActiveMember) : Prop where
  chat : t.chat = s.chat
  only : ∀ y ∈ t.ownReadStates, y ∈ s.ownReadStates ∨
    y.memberId = v.id ∧ y.roomId = v.roomId ∧ y.periodId = v.activePeriodId
  kept : ∀ x ∈ s.ownReadStates, ∃ y ∈ t.ownReadStates, y = x ∨ x.memberId = v.id ∧
    y.memberId = x.memberId ∧ y.streamId = x.streamId ∧ y.roomId = x.roomId ∧
    y.periodId = v.activePeriodId ∧
      (x.periodId = v.activePeriodId → x.lastReadOrder ≤ y.lastReadOrder)

namespace ReadStateRepository

theorem advance_advances {s t : ReadDb} {clock : Time} {v : ActiveMember} {streamId : Uuid}
    {order : Nat} (h : advance s clock v streamId order = .ok t) : Advances s t v := by
  unfold advance at h
  split at h
  · simp only [bind_ok, require_ok, pure_ok] at h
    obtain ⟨rows, hrows, rfl⟩ := h
    refine ⟨rfl, ?_, fun x hx => ⟨x, (Table.mem_insert hrows).mpr (.inl hx), .inl rfl⟩⟩
    intro y hy
    rcases (Table.mem_insert hrows).mp hy with hy | rfl
    · exact .inl hy
    · exact .inr ⟨rfl, rfl, rfl⟩
  · cases h
    refine ⟨rfl, ?_, ?_⟩
    · intro y hy
      obtain ⟨x, hx, rfl⟩ := (Table.mem_update (k := by exact ⟨fun _ => rfl⟩)).mp hy
      split
      · rename_i hbehind
        exact .inr ⟨hbehind.1, hbehind.2.2.1, rfl⟩
      · exact .inl hx
    · intro x hx
      refine ⟨_, Table.mem_update_of_mem (k := by exact ⟨fun _ => rfl⟩) hx, ?_⟩
      split
      · rename_i hbehind
        obtain ⟨hmember, -, -, hcase⟩ := hbehind
        refine .inr ⟨hmember, rfl, rfl, rfl, rfl, fun hperiod => ?_⟩
        rcases hcase with hother | ⟨-, hlt⟩
        · exact absurd hperiod hother
        · exact hlt.le
      · exact .inl rfl

theorem current_some {s : ReadDb} {v : ActiveMember} {streamId : Uuid} {x : OwnReadState}
    (h : current s v streamId = some x) : x ∈ s.ownReadStates ∧ x.roomId = v.roomId ∧
      x.memberId = v.id ∧ x.streamId = streamId ∧ x.periodId = v.activePeriodId := by
  have hx := Table.holds_of_find? h
  exact ⟨Table.mem_of_find? h, hx⟩

/-- The mark a report leaves is not below it. -/
theorem advance_reached {s t : ReadDb} {clock : Time} {v : ActiveMember} {streamId : Uuid}
    {order : Nat} {x : OwnReadState} (h : advance s clock v streamId order = .ok t)
    (hx : current t v streamId = some x) : order ≤ x.lastReadOrder := by
  obtain ⟨hmem, hroom, hmember, hstream, hperiod⟩ := current_some hx
  unfold advance at h
  split at h
  · rename_i hnone
    simp only [bind_ok, require_ok, pure_ok] at h
    obtain ⟨rows, hrows, rfl⟩ := h
    rcases (Table.mem_insert hrows).mp hmem with hold | rfl
    · exact absurd ⟨hmember, hstream⟩ (Table.find?_eq_none.mp hnone x hold)
    · exact le_refl _
  · cases h
    obtain ⟨y, -, rfl⟩ := (Table.mem_update (k := by exact ⟨fun _ => rfl⟩)).mp hmem
    split at hroom
    · rename_i hbehind
      rw [if_pos hbehind]
    · rename_i hahead
      rw [if_neg hahead] at hmember hstream hperiod ⊢
      by_contra hlt
      exact hahead ⟨hmember, hstream, hroom, .inr ⟨hperiod, Nat.lt_of_not_le hlt⟩⟩

end ReadStateRepository

theorem ReadStateCoreService.put_ok {mac : ReadMac} {s t : ReadDb} {now clock : Time}
    {roomId userId messageId : Uuid} {context : String} {binding : ReadContextBinding}
    {reply : Option Uuid}
    (h : put mac s now clock roomId userId messageId context binding = .ok (t, reply)) :
    ∃ v row x, MembershipRepository.findActive s.chat true now roomId userId = some v ∧
      Advances s t v ∧ MessagesRepository.load s.chat true roomId messageId = some row ∧
      ReadStateRepository.current t v row.streamId = some x ∧
      row.createdOrder ≤ x.lastReadOrder := by
  simp only [put, AccessService.requireActiveMember, bind_ok, ensure_ok, require_ok, pure_ok] at h
  obtain ⟨-, -, v, hv, -, -, row, hrow, -, -, a, ha, x, hx, heq⟩ := h
  obtain ⟨rfl, -⟩ := Prod.mk.inj heq
  exact ⟨v, row, x, hv, ReadStateRepository.advance_advances ha, hrow, hx,
    ReadStateRepository.advance_reached ha hx⟩

theorem Owned.advances {s t : ReadDb} {w : Bool} {now : Time} {roomId userId : Uuid}
    {v : ActiveMember} (hs : Owned s)
    (hv : MembershipRepository.findActive s.chat w now roomId userId = some v)
    (h : Advances s t v) : Owned t := by
  intro y hy
  rw [h.chat]
  rcases h.only y hy with hy | ⟨hmember, hroom, hperiod⟩
  · exact hs y hy
  · obtain ⟨m, r, p, hrow, hid, hvroom, -, -, hactive, -⟩ := MembershipRepository.findActive_role hv
    refine ⟨p, ?_, ?_, ?_⟩
    · rw [hperiod, hactive]
      exact Db.period_iff.mpr ⟨hrow.period, rfl⟩
    · rw [hrow.periodMember, hmember, hid]
    · rw [hrow.periodRoom, hroom, hvroom]

theorem Owned.exec {mac : ReadMac} {c : ReadCommand} {s t : ReadDb} (hseated : Seated s.chat)
    (hs : Owned s) (h : c.exec mac s = .ok t) : Owned t := by
  cases c with
  | chat d =>
    simp only [ReadCommand.exec, bind_ok, pure_ok] at h
    obtain ⟨db, hdb, rfl⟩ := h
    intro x hx
    obtain ⟨p, hp, hmember, hroom⟩ := hs x hx
    have hid := (Db.period_iff.mp hp).2
    obtain ⟨q, hq, hmember', hroom', -⟩ := Period.Kept.exec hseated hdb
      (p := p) ⟨p, hid ▸ hp, rfl, rfl, .inl rfl⟩
    exact ⟨q, hid ▸ hq, hmember'.trans hmember, hroom'.trans hroom⟩
  | put now clock roomId userId messageId context binding =>
    simp only [ReadCommand.exec, bind_ok, pure_ok] at h
    obtain ⟨⟨u, reply⟩, h, rfl⟩ := h
    obtain ⟨v, row, x, hv, hadvances, -⟩ := ReadStateCoreService.put_ok h
    exact hs.advances hv hadvances
  | purgeAccount userId limit =>
    simp only [ReadCommand.exec, ReadStateCoreService.purgeAccount, bind_ok, ensure_ok,
      pure_ok] at h
    obtain ⟨⟨u, deleted, more⟩, ⟨-, -, heq⟩, rfl⟩ := h
    obtain ⟨rfl, -⟩ := Prod.mk.inj heq
    intro x hx
    exact hs x (Table.mem_delete.mp hx).1

theorem reachable_owned {mac : ReadMac} {s : ReadDb} (hs : (readStates mac).Reachable s) :
    Owned s := by
  induction hs with
  | init hs =>
    subst hs
    exact fun x hx => absurd hx (Table.not_mem_empty x)
  | step hs hstep ih => exact ih.exec (reachable_seated (reachable_readChat hs)) hstep

/-! ## One command and a run -/

/-- The command is not the purge of an account. -/
def ReadCommand.Keeps : ReadCommand → Prop
  | .purgeAccount .. => False
  | _ => True

theorem Forward.advances {s t : ReadDb} {w : Bool} {now : Time} {roomId userId : Uuid}
    {v : ActiveMember} (hseated : Seated s.chat) (hs : Owned s)
    (hv : MembershipRepository.findActive s.chat w now roomId userId = some v)
    (h : Advances s t v) : Forward s t where
  ended id hid := by
    rw [h.chat]
    exact hid
  mark := by
    intro x hx
    obtain ⟨y, hy, heq | ⟨hmember, hmember', hstream, hroom, hperiod, hle⟩⟩ := h.kept x hx
    · exact ⟨y, hy, heq ▸ .refl _ _, .inl (heq ▸ rfl)⟩
    · refine ⟨y, hy, ⟨hmember', hstream, hroom, ?_⟩, ?_⟩
      · by_cases hsame : x.periodId = v.activePeriodId
        · exact .inl ⟨hperiod.trans hsame.symm, hle hsame⟩
        · -- The mark is of an earlier period of the member.
          obtain ⟨p, hp, hpm, -⟩ := hs x hx
          have hid := (Db.period_iff.mp hp).2
          refine .inr ⟨fun h => hsame (h.symm.trans hperiod), ?_⟩
          rw [h.chat, ← hid]
          exact ended_of_active hseated hv (hid ▸ hp) (hpm.trans hmember) (hid ▸ hsame)
      · right
        rw [hperiod]
        exact not_ended_of_active hv

theorem ReadCommand.exec_forward {mac : ReadMac} {c : ReadCommand} {s t : ReadDb}
    (hseated : Seated s.chat) (hs : Owned s) (hc : c.Keeps) (h : c.exec mac s = .ok t) :
    Forward s t := by
  cases c with
  | chat d =>
    simp only [ReadCommand.exec, bind_ok, pure_ok] at h
    obtain ⟨db, hdb, rfl⟩ := h
    exact .same (fun id hid => hid.exec hseated hdb) rfl
  | put now clock roomId userId messageId context binding =>
    simp only [ReadCommand.exec, bind_ok, pure_ok] at h
    obtain ⟨⟨u, reply⟩, h, rfl⟩ := h
    obtain ⟨v, row, x, hv, hadvances, -⟩ := ReadStateCoreService.put_ok h
    exact .advances hseated hs hv hadvances
  | purgeAccount => exact absurd hc id

theorem run_forward {mac : ReadMac} {s t : ReadDb} {cs : List ReadCommand}
    (hs : (readStates mac).Reachable s) (hrun : (readStates mac).Run s cs t)
    (hcs : ∀ c ∈ cs, c.Keeps) : Forward s t := by
  refine hrun.keeps (P := Forward s) hs (.refl s) ?_
  intro a b c hc ha hforward hstep
  exact hforward.trans (ReadCommand.exec_forward (reachable_seated (reachable_readChat ha))
    (reachable_owned ha) (hcs c hc) hstep)

/-! ## What was reported stays read -/

/-- A mark not below a message's order keeps it read while the member's period lasts. -/
theorem Forward.read {s t : ReadDb} {w : Bool} {now : Time} {roomId userId : Uuid}
    {v : ActiveMember} {x : OwnReadState} {m : Message} (h : Forward s t) (ht : Owned t)
    (hv : MembershipRepository.findActive t.chat w now roomId userId = some v)
    (hx : x ∈ s.ownReadStates) (hroom : x.roomId = v.roomId)
    (hperiod : x.periodId = v.activePeriodId) (hstream : m.streamId = x.streamId)
    (horder : m.createdOrder ≤ x.lastReadOrder) : ¬ReadStateRepository.Unread t v m := by
  rintro ⟨-, hlt⟩
  obtain ⟨y, hy, hxy, -⟩ := h.mark x hx
  rcases hxy.order with ⟨hsame, hle⟩ | ⟨-, hended⟩
  · -- The period's member is the viewer, so the mark is the viewer's.
    obtain ⟨p, hp, hmember, -⟩ := ht y hy
    obtain ⟨n, r, q, hrow, hid, -, -, -, hactive, -⟩ := MembershipRepository.findActive_role hv
    have hq : t.chat.period q.id = some q := Db.period_iff.mpr ⟨hrow.period, rfl⟩
    have hyperiod : y.periodId = v.activePeriodId := hsame.trans hperiod
    rw [hyperiod, hactive, hq, Option.some.injEq] at hp
    subst hp
    have hviewer : y.memberId = v.id := by rw [← hmember, hrow.periodMember, hid]
    have hfind : ReadStateRepository.current t v m.streamId = some y := by
      refine Table.find?_eq_some hy ⟨hxy.roomId.trans hroom, hviewer,
        hxy.streamId.trans hstream.symm, hyperiod⟩ (k := (0, [y.memberId, y.streamId]))
        List.mem_cons_self ?_
      rintro z ⟨-, hzmember, hzstream, -⟩
      rw [hviewer, ← hzmember, hxy.streamId, ← hstream, ← hzstream]
      exact List.mem_cons_self
    rw [ReadStateRepository.highWater, hfind, Option.elim_some] at hlt
    exact absurd (horder.trans hle) (Nat.not_le.mpr hlt)
  · rw [hperiod] at hended
    exact not_ended_of_active hv hended

/-- From `s` on the message is not unread to the account while this period of it lasts. -/
def StaysRead (mac : ReadMac) (s : ReadDb) (roomId userId periodId : Uuid) (m : Message) : Prop :=
  ∀ cs t, (readStates mac).Run s cs t → (∀ c ∈ cs, c.Keeps) → ∀ w now v,
    MembershipRepository.findActive t.chat w now roomId userId = some v →
    v.activePeriodId = periodId → ∀ n, m.Later n → ¬ReadStateRepository.Unread t v n

/-- A message a report named stays read. -/
theorem reported_read {mac : ReadMac} {s t : ReadDb} {now clock : Time}
    {roomId userId messageId : Uuid} {context : String} {binding : ReadContextBinding}
    {reply : Option Uuid} (hs : (readStates mac).Reachable s)
    (h : ReadStateCoreService.put mac s now clock roomId userId messageId context binding =
      .ok (t, reply)) :
    ∃ v, MembershipRepository.findActive s.chat true now roomId userId = some v ∧
      ∃ m ∈ s.chat.messages, m.id = messageId ∧
        StaysRead mac t roomId userId v.activePeriodId m := by
  have ht : (readStates mac).Reachable t := by
    refine .step hs (c := .put now clock roomId userId messageId context binding) ?_
    show ReadCommand.exec mac _ s = .ok t
    rw [ReadCommand.exec, h]
    rfl
  obtain ⟨v, row, x, hv, -, hload, hcurrent, hle⟩ := ReadStateCoreService.put_ok h
  have hloaded := MessagesRepository.load_some hload
  obtain ⟨hx, hxroom, -, hxstream, hxperiod⟩ := ReadStateRepository.current_some hcurrent
  refine ⟨v, hv, row.toMessage, hloaded.message, hloaded.id_eq, ?_⟩
  intro cs u hrun hcs w' now' v' hv' hperiod n hlater
  obtain ⟨a, r, p, -, -, hvroom, -⟩ := MembershipRepository.findActive_role hv
  obtain ⟨a', r', p', -, -, hvroom', -⟩ := MembershipRepository.findActive_role hv'
  refine (run_forward ht hrun hcs).read (reachable_owned (hrun.reachable ht)) hv' hx
    (hxroom.trans (hvroom.trans hvroom'.symm)) (hxperiod.trans hperiod.symm) ?_ ?_
  · rw [hlater.streamId, hxstream]
  · rw [hlater.order]
    exact hle

/-! ## Purging an account -/

/-- The account's marks. -/
def accountMarks (s : ReadDb) (userId : Uuid) : List OwnReadState :=
  s.ownReadStates.select (ReadStateRepository.OfAccount s.chat userId)

/-- What a batch of the purge leaves. -/
structure PurgeBatch (s t : ReadDb) (userId : Uuid) (limit : Nat) (more : Bool) : Prop where
  chat : t.chat = s.chat
  only : ∀ x ∈ t.ownReadStates, x ∈ s.ownReadStates
  others : ∀ x ∈ s.ownReadStates, ¬ReadStateRepository.OfAccount s.chat userId x →
    x ∈ t.ownReadStates
  count : (accountMarks t userId).length + min limit (accountMarks s userId).length =
    (accountMarks s userId).length
  more : more = true ↔ accountMarks t userId ≠ []

namespace ReadStateRepository

theorem purgeAccount_batch (s : ReadDb) (userId : Uuid) (limit : Nat) :
    PurgeBatch s (purgeAccount s userId limit).1 userId limit (purgeAccount s userId limit).2.2 := by
  have hkeys : ((accountMarks s userId).map fun x => (x.memberId, x.streamId)).Nodup := by
    refine List.Nodup.map_on ?_ (s.ownReadStates.nodup.filter _)
    intro x hx y hy hxy
    obtain ⟨hmember, hstream⟩ := Prod.mk.inj hxy
    refine Table.eq_of_key (Table.mem_select.mp hx).1 (Table.mem_select.mp hy).1
      (k := (0, [x.memberId, x.streamId])) List.mem_cons_self ?_
    rw [hmember, hstream]
    exact List.mem_cons_self
  refine ⟨rfl, fun x hx => (Table.mem_delete.mp hx).1, ?_, ?_, ?_⟩
  · intro x hx hother
    exact Table.mem_delete.mpr ⟨hx, fun h => hother h.1⟩
  · have hleft := Listing.length_filter_taken (List.perm_insertionSort (fun a b : OwnReadState =>
      toLex (a.memberId, a.streamId) ≤ toLex (b.memberId, b.streamId)) _) hkeys limit
    refine Eq.trans ?_ hleft
    congr 2
    simp only [accountMarks, purgeAccount, Table.select, Table.delete, List.filter_filter]
    refine List.filter_congr ?_
    intro x hx
    by_cases hof : OfAccount s.chat userId x <;> simp [hof]
  · simp only [purgeAccount, decide_eq_true_eq, ne_eq, accountMarks,
      List.eq_nil_iff_forall_not_mem, not_forall, not_not, Table.mem_select, Table.has_iff]

end ReadStateRepository

/-- Repeated batches take exactly the account's marks, and come to an end. -/
theorem purge_drains {mac : ReadMac} {userId : Uuid} {limit : Nat}
    (hlimit : 1 ≤ limit ∧ limit ≤ 500) (s : ReadDb) : ∃ n t, (readStates mac).Run s
      (List.replicate n (.purgeAccount userId limit)) t ∧ t.chat = s.chat ∧
      ∀ x, x ∈ t.ownReadStates ↔ x ∈ s.ownReadStates ∧
        ¬ReadStateRepository.OfAccount s.chat userId x := by
  induction hn : (accountMarks s userId).length using Nat.strong_induction_on generalizing s with
  | _ n ih =>
    by_cases hempty : accountMarks s userId = []
    · refine ⟨0, s, .nil s, rfl, fun x => ⟨fun hx => ⟨hx, fun hof => ?_⟩, And.left⟩⟩
      have hmem : x ∈ accountMarks s userId := Table.mem_select.mpr ⟨hx, hof⟩
      rw [hempty] at hmem
      cases hmem
    · have hbatch := ReadStateRepository.purgeAccount_batch s userId limit
      have hpos : 0 < (accountMarks s userId).length := List.length_pos_of_ne_nil hempty
      have hcount := hbatch.count
      obtain ⟨k, t, hrun, hchat, hmarks⟩ := ih (accountMarks
        (ReadStateRepository.purgeAccount s userId limit).1 userId).length (by omega) _ rfl
      refine ⟨k + 1, t, .cons ?_ hrun, hchat.trans hbatch.chat, fun x => ?_⟩
      · show ReadCommand.exec mac (.purgeAccount userId limit) s = .ok _
        simp only [ReadCommand.exec, ReadStateCoreService.purgeAccount, ensure, if_pos hlimit]
        rfl
      · rw [hmarks, hbatch.chat]
        constructor
        · rintro ⟨hx, hother⟩
          exact ⟨hbatch.only x hx, hother⟩
        · rintro ⟨hx, hother⟩
          exact ⟨hbatch.others x hx hother, hother⟩

/-- Two members of a room: the one has a mark in each of two streams, the other in one. -/
def ReadDb.threeMarks : ReadDb where
  chat :=
    { roomMembers := ⟨[{ id := 20, roomId := 7, userId := 2, role := .fan },
        { id := 30, roomId := 7, userId := 3, role := .fan }], by decide⟩
      membershipPeriods :=
        ⟨[{ id := 21, roomId := 7, memberId := 20, policyVersion := 1, historyPolicy := .sinceJoin,
            visibleFromOrder := 0 },
          { id := 31, roomId := 7, memberId := 30, policyVersion := 1, historyPolicy := .sinceJoin,
            visibleFromOrder := 0 }], by decide⟩ }
  ownReadStates :=
    ⟨[{ memberId := 20, streamId := 12, roomId := 7, periodId := 21, lastReadOrder := 3,
        updatedAt := 1 },
      { memberId := 20, streamId := 13, roomId := 7, periodId := 21, lastReadOrder := 4,
        updatedAt := 1 },
      { memberId := 30, streamId := 12, roomId := 7, periodId := 31, lastReadOrder := 3,
        updatedAt := 1 }], by decide⟩

/-- In batches of one mark the two marks of the first account go and the other one stays. -/
theorem purge_drains_marks : (accountMarks ReadDb.threeMarks 2).length = 2 ∧
    ∃ n t, (readStates fun _ _ _ _ => "").Run ReadDb.threeMarks
      (List.replicate n (.purgeAccount 2 1)) t ∧ t.chat = ReadDb.threeMarks.chat ∧
      ∀ x, x ∈ t.ownReadStates ↔ x ∈ ReadDb.threeMarks.ownReadStates ∧
        ¬ReadStateRepository.OfAccount ReadDb.threeMarks.chat 2 x :=
  ⟨by decide, purge_drains (by decide) ReadDb.threeMarks⟩

/-! ## Read states -/

/-- What members can rely on. -/
structure Reliable (mac : ReadMac) : Prop where
  /-- Unless an account is purged, a mark never goes back in its period, and starts over only
  when that period was closed. -/
  forward : ∀ s t cs, (readStates mac).Reachable s → (readStates mac).Run s cs t →
    (∀ c ∈ cs, c.Keeps) → Forward s t
  /-- The boundary is the first unread message of the unlimited snapshot page. -/
  boundary : ∀ s now v, (readStates mac).Reachable s → ReadStateRepository.Boundary s now v
  /-- A reported message is not unread again in that membership period. -/
  reported : ∀ s t now clock roomId userId messageId context binding reply,
    (readStates mac).Reachable s →
    ReadStateCoreService.put mac s now clock roomId userId messageId context binding =
      .ok (t, reply) →
    ∃ v, MembershipRepository.findActive s.chat true now roomId userId = some v ∧
      ∃ m ∈ s.chat.messages, m.id = messageId ∧
        StaysRead mac t roomId userId v.activePeriodId m

theorem read_states (mac : ReadMac) : Reliable mac where
  forward _ _ _ hs hrun hcs := run_forward hs hrun hcs
  boundary _ _ _ hs := ReadStateRepository.firstUnread_boundary hs
  reported _ _ _ _ _ _ _ _ _ _ hs h := reported_read hs h

/-- The only context of a key that is no key. -/
def onlyContext : String := String.ofList (List.replicate 43 'A')

/-- Every context has the same MAC. -/
def constantMac : ReadMac := fun _ _ _ _ => onlyContext

/-- The owner of a room sends two messages to a fan. -/
def twoMessages : List ReadCommand :=
  [.environment .named, .createOwnedRoom (fun i => 10 + i) "room" .fan .sinceJoin 1 7,
    .joinRoom (fun i => 20 + i) 7 2, .send 1 (fun i => 40 + i) 7 1 (sharedMessage 1 11),
    .send 2 (fun i => 50 + i) 7 1 { sharedMessage 1 11 with clientMessageId := 6 }].map .chat

/-- The fan reports the second message and then, late, the first one: its mark stays where it was,
and the second message stays read. -/
theorem read_states_reported : ∃ (s t u : ReadDb) (v : ActiveMember) (reply : Option Uuid),
    (readStates constantMac).Reachable s ∧
    MembershipRepository.findActive s.chat true 3 7 2 = some v ∧
    ReadStateRepository.firstUnread s 3 v = some 44 ∧
    ReadStateCoreService.put constantMac s 3 3 7 2 54 onlyContext ⟨"web", 1⟩ =
      .ok (t, reply) ∧
    (readStates constantMac).Run t [.put 4 4 7 2 44 onlyContext ⟨"web", 1⟩] u ∧
    (∀ x ∈ t.ownReadStates, ∃ y ∈ u.ownReadStates, Succeeds u.chat x y) ∧
    ∃ m ∈ s.chat.messages, m.id = 54 ∧ ¬ReadStateRepository.Unread u v m := by
  obtain ⟨s, hs⟩ : ∃ s, System.play (fun c s => (ReadCommand.exec constantMac c s).toOption)
      twoMessages {} = some s := ⟨_, rfl⟩
  have hreach : (readStates constantMac).Reachable s := by
    refine (System.Run.of_play (S := readStates constantMac) ?_ hs).reachable (.init rfl)
    intro c s t h
    exact toOption_eq_some.mp h
  obtain ⟨v, hv, hfirst⟩ : ∃ v, MembershipRepository.findActive s.chat true 3 7 2 = some v ∧
      ReadStateRepository.firstUnread s 3 v = some 44 := by
    cases hs
    exact ⟨_, rfl, rfl⟩
  obtain ⟨t, reply, ht⟩ : ∃ t reply, ReadStateCoreService.put constantMac s 3 3 7 2 54 onlyContext
      ⟨"web", 1⟩ = .ok (t, reply) := by
    cases hs
    exact ⟨_, _, rfl⟩
  obtain ⟨u, hu⟩ : ∃ u, ReadCommand.exec constantMac (.put 4 4 7 2 44 onlyContext ⟨"web", 1⟩) t =
      .ok u := by
    cases hs
    cases ht
    exact ⟨_, rfl⟩
  -- the first report, and a later one of an earlier message
  have hstep : (readStates constantMac).step (.put 3 3 7 2 54 onlyContext ⟨"web", 1⟩) s t := by
    show ReadCommand.exec _ _ _ = _
    rw [ReadCommand.exec, ht]
    rfl
  have hlate : (readStates constantMac).Run t [.put 4 4 7 2 44 onlyContext ⟨"web", 1⟩] u :=
    .single hu
  have hkeeps : ∀ c ∈ [ReadCommand.put 4 4 7 2 44 onlyContext ⟨"web", 1⟩], c.Keeps := by
    intro c hc
    obtain rfl := List.mem_singleton.mp hc
    trivial
  have hsound := read_states constantMac
  obtain ⟨v', hv', m, hm, hid, hread⟩ := hsound.reported _ _ _ _ _ _ _ _ _ _ hreach ht
  obtain rfl : v = v' := Option.some.inj (hv.symm.trans hv')
  -- the later report leaves the mark where it is
  have hforward := hsound.forward t u _ (.step hreach hstep) hlate hkeeps
  have hsame : MembershipRepository.findActive u.chat true 3 7 2 = some v := by
    cases hs
    cases ht
    cases hu
    exact hv
  refine ⟨s, t, u, v, reply, hreach, hv, hfirst, ht, hlate, fun x hx => ?_, m, hm, hid,
    hread _ u hlate hkeeps true 3 v hsame rfl m (.refl m)⟩
  obtain ⟨y, hy, hsucceeds, -⟩ := hforward.mark x hx
  exact ⟨y, hy, hsucceeds⟩

end Rogichat
