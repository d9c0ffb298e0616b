import Rogichat.SongLive.System

/-!
# The order of the queue

Two active requests of a session share an order only after one of two steps: a request that left
the queue comes back to an order that was taken meanwhile, or a removal closes a gap that was
already closed. A run without these steps is `Orderly`.

* **`Distinct`** — the active requests of a session have distinct orders.
* **`KeepsOrder`** — what a command does not move keeps its relative order.
* **`reachable_distinct`** — orderly runs keep the orders distinct.
-/

namespace Rogichat.SongLive

open Lib

/-- The active requests of a session have distinct orders. -/
def Distinct (room : Room) : Prop :=
  ∀ r ∈ room.requests, ∀ q ∈ room.requests, r.status.Active → q.status.Active →
    r.liveSessionId = q.liveSessionId → r.queueOrder = q.queueOrder → r = q

instance : DecidablePred Distinct := fun _ => by unfold Distinct; infer_instance

/-- The request is the only one of its session that plays. -/
def OnlyPlaying (room : Room) (q : SongRequest) : Prop :=
  q.status = .playing ∧ ∀ p ∈ room.requests, p.liveSessionId = q.liveSessionId →
    p.status = .playing → p = q

/-- The command neither brings a request back to a taken order nor closes a closed gap. -/
def Orderly (room : Room) : SongCommand → Prop
  | .updateStatus requestId status _ => status.Active → ∀ r ∈ room.requests, r.id = requestId →
      ¬r.status.Active → ∀ q ∈ room.requests, q.status.Active →
        q.liveSessionId = r.liveSessionId → q.queueOrder ≠ r.queueOrder
  -- the only request that plays is completed, so it makes room
  | .playNow requestId => ∀ r ∈ room.requests, r.id = requestId → ¬r.status.Active →
      ∀ q ∈ room.requests, q.status.Active → q.liveSessionId = r.liveSessionId →
        q.queueOrder = r.queueOrder → OnlyPlaying room q
  | .removeFromQueue requestId => ∀ r ∈ room.requests, r.id = requestId →
      ∀ p ∈ room.requests, p.id ≠ requestId → p.status.Active →
        p.liveSessionId = r.liveSessionId → p.queueOrder = r.queueOrder →
        ∀ q ∈ room.requests, q.status.Active → q.liveSessionId = r.liveSessionId →
          q.queueOrder ≠ r.queueOrder + 1
  | _ => True

instance (room : Room) (q : SongRequest) : Decidable (OnlyPlaying room q) :=
  inferInstanceAs (Decidable (_ ∧ _))

instance (room : Room) (c : SongCommand) : Decidable (Orderly room c) := by
  cases c <;> unfold Orderly <;> infer_instance

/-- Active requests of a session that are still there have their relative order. -/
def KeepsOrder (s t : Room) : Prop :=
  ∀ r ∈ s.requests, ∀ q ∈ s.requests, ∀ r' ∈ t.requests, ∀ q' ∈ t.requests,
    r'.id = r.id → q'.id = q.id → r.liveSessionId = q.liveSessionId →
    r.status.Active → q.status.Active →
    (r.queueOrder < q.queueOrder ↔ r'.queueOrder < q'.queueOrder)

variable {channel : Channel} {s t : Room} {now : Time} {any : AnyOrder} {c : SongCommand}
  {requestId liveSessionId : Nat}

/-! ## Changes of statuses -/

/-- Orders stay distinct where no request becomes active at a taken order. -/
theorem Distinct.restated {change : Change} (hs : Distinct s) (h : Restated change s t)
    (hnew : ∀ r ∈ s.requests, (change r.id r.status).Active → ¬r.status.Active →
      ∀ q ∈ s.requests, (change q.id q.status).Active → q.liveSessionId = r.liveSessionId →
        q.queueOrder = r.queueOrder → q = r) : Distinct t := by
  intro r' hr' q' hq' hractive hqactive hsession horder
  obtain ⟨r, hr, hrplaced, hrstatus⟩ := h.back r' hr'
  obtain ⟨q, hq, hqplaced, hqstatus⟩ := h.back q' hq'
  rw [hrstatus] at hractive
  rw [hqstatus] at hqactive
  rw [hrplaced.liveSessionId, hqplaced.liveSessionId] at hsession
  rw [hrplaced.queueOrder, hqplaced.queueOrder] at horder
  have heq : r = q := by
    by_cases hrold : r.status.Active
    · by_cases hqold : q.status.Active
      · exact hs r hr q hq hrold hqold hsession horder
      · exact hnew q hq hqactive hqold r hr hractive hsession horder
    · exact (hnew r hr hractive hrold q hq hqactive hsession.symm horder.symm).symm
  exact eq_of_request hr' hq' (by rw [hrplaced.id, hqplaced.id, heq])

theorem KeepsOrder.of_same (h : ∀ r ∈ s.requests, ∀ r' ∈ t.requests, r'.id = r.id →
    r'.queueOrder = r.queueOrder) : KeepsOrder s t := by
  intro r hr q hq r' hr' q' hq' hrid hqid _ _ _
  rw [h r hr r' hr' hrid, h q hq q' hq' hqid]

theorem KeepsOrder.restated {change : Change} (h : Restated change s t) : KeepsOrder s t := by
  refine .of_same fun r hr r' hr' hid => ?_
  obtain ⟨q, hq, hplaced, -⟩ := h.back r' hr'
  obtain rfl := eq_of_request hq hr (hplaced.id.symm.trans hid)
  exact hplaced.queueOrder

/-- Completing a request makes none active. -/
theorem active_of_setAny {request : Option SongRequest} {status : SongRequestStatus} {id : Nat}
    {before : SongRequestStatus} (hstatus : ¬status.Active)
    (h : (Change.setAny request status id before).Active) :
    before.Active ∧ ∀ r ∈ request, id ≠ r.id := by
  cases request with
  | none => exact ⟨h, fun r hr => absurd hr (Option.not_mem_none r)⟩
  | some r =>
    by_cases hid : id = r.id
    · rw [Change.setAny, Change.set, if_pos hid] at h
      exact absurd h hstatus
    · rw [Change.setAny, Change.set, if_neg hid] at h
      refine ⟨h, fun q hq => ?_⟩
      obtain rfl := Option.some.inj hq
      exact hid

theorem not_active_completed : ¬SongRequestStatus.completed.Active := by decide

theorem not_active_rejected : ¬SongRequestStatus.rejected.Active := by decide

/-- What `playNext` starts was waiting. -/
theorem active_of_playNextChange {r : SongRequest} (hr : r ∈ s.requests)
    (h : (playNextChange s liveSessionId any r.id r.status).Active) : r.status.Active := by
  unfold playNextChange at h
  by_cases hactive : SessionActive s liveSessionId
  · rw [if_pos hactive] at h
    cases hnext : nextRequest s liveSessionId any with
    | none =>
      rw [hnext] at h
      exact h
    | some next =>
      rw [hnext] at h
      obtain ⟨hmem, -, hwaiting⟩ := findFirst_some hnext
      by_cases hid : r.id = next.id
      · obtain rfl := eq_of_request hr hmem hid
        exact hwaiting.active
      · simp only [Change.set, if_neg hid] at h
        exact (active_of_setAny not_active_completed h).1
  · rw [if_neg hactive] at h
    exact h

/-- Playing the next request keeps the orders distinct. -/
theorem Distinct.playNext (hs : Distinct s) :
    Distinct (SongRequestService.playNext s now liveSessionId any) :=
  hs.restated playNext_restated fun _ hr hactive hold =>
    absurd (active_of_playNextChange hr hactive) hold

theorem Distinct.skipped {reason : Option String} (hs : Distinct s) :
    Distinct (skipped s liveSessionId reason any) :=
  hs.restated skipped_restated fun _ _ hactive hold =>
    absurd (active_of_setAny not_active_rejected hactive).1 hold

/-- A status change keeps the orders distinct when it brings no request back to an order in use. -/
theorem Distinct.updateStatus {status : SongRequestStatus} {reason : Option String}
    (hs : Distinct s) (ho : Orderly s (.updateStatus requestId status reason))
    (h : SongRequestService.updateStatus s now requestId status reason = .ok t) : Distinct t := by
  refine hs.restated (updateStatus_restated h) ?_
  intro r hr hactive hold q hq hqactive hsession horder
  have hid : r.id = requestId := by
    by_contra hne
    rw [Change.set, if_neg hne] at hactive
    exact hold hactive
  rw [Change.set, if_pos hid] at hactive
  by_cases hqid : q.id = requestId
  · exact eq_of_request hq hr (hqid.trans hid.symm)
  · rw [Change.set, if_neg hqid] at hqactive
    exact absurd horder (ho hactive r hr hid hold q hq hqactive hsession)

/-- The only request that plays is the one `playNow` completes. -/
theorem replaced_of_onlyPlaying {r q : SongRequest} (hq : q ∈ s.requests)
    (hsession : q.liveSessionId = r.liveSessionId) (hne : q.id ≠ r.id)
    (honly : OnlyPlaying s q) : replaced s r any = some q := by
  unfold replaced
  cases hcurrent : findFirst s.requests
      (fun p => p.liveSessionId = r.liveSessionId ∧ p.status = .playing) (fun _ => ())
      SongRequest.id any with
  | none => exact absurd ⟨hsession, honly.1⟩ (findFirst_none.mp hcurrent q hq)
  | some p =>
    obtain ⟨hp, hpsession, hplaying⟩ := findFirst_some hcurrent
    obtain rfl := honly.2 p hp (hpsession.trans hsession.symm) hplaying
    rw [Option.filter_some, if_pos (by simpa using hne)]

theorem Distinct.playNow (hs : Distinct s) (ho : Orderly s (.playNow requestId))
    (h : SongRequestService.playNow s now requestId any = .ok t) : Distinct t := by
  obtain ⟨request, hrequest, hid, hchange⟩ := playNow_restated h
  refine hs.restated hchange ?_
  intro r hr hactive hold q hq hqactive hsession horder
  have hrid : r.id = requestId := by
    by_contra hne
    simp only [Change.set, if_neg hne] at hactive
    exact hold (active_of_setAny not_active_completed hactive).1
  obtain rfl := eq_of_request hrequest hr (hid.trans hrid.symm)
  by_cases hqid : q.id = requestId
  · exact eq_of_request hq hr (hqid.trans hrid.symm)
  · simp only [Change.set, if_neg hqid] at hqactive
    obtain ⟨hqold, hnot⟩ := active_of_setAny not_active_completed hqactive
    have honly := ho request hr hrid hold q hq hqold hsession horder
    have hreplaced : replaced s request any = some q :=
      replaced_of_onlyPlaying hq hsession (fun heq => hqid (heq.trans hrid)) honly
    exact absurd rfl (hnot q hreplaced)

/-! ## Additions -/

/-- The new request is where its position says, among the active ones. -/
def InsertedAt (t : Room) (data : RequestData) (r : SongRequest) : Prop :=
  match data.position with
  | .front => ∀ q ∈ t.requests, q.liveSessionId = r.liveSessionId → q.status.Active → q ≠ r →
      r.queueOrder < q.queueOrder
  | .back => ∀ q ∈ t.requests, q.liveSessionId = r.liveSessionId → q.status.Active → q ≠ r →
      q.queueOrder < r.queueOrder
  | .after => ∃ a ∈ t.requests, data.insertAfterRequestId = some a.id ∧
      a.liveSessionId = r.liveSessionId ∧ (a.status.Active → a.queueOrder < r.queueOrder ∧
        ∀ q ∈ t.requests, q.liveSessionId = r.liveSessionId → q.status.Active → q ≠ a → q ≠ r →
          q.queueOrder < a.queueOrder ∨ r.queueOrder < q.queueOrder)

/-- A request that is added has an order of its own. -/
theorem addToQueue_distinct {placed : Room} {r : SongRequest} {data : RequestData}
    (hs : Distinct s) (hplace : Placing s placed liveSessionId data r.queueOrder)
    (hadded : Added s placed t liveSessionId r) : Distinct t := by
  obtain ⟨shift, hshift, hmono, hfree⟩ := hplace.reordered
  -- a moved row has its own order, and the new order is free
  have hold : ∀ p ∈ placed.requests, p.status.Active → p.liveSessionId = liveSessionId →
      p.queueOrder ≠ r.queueOrder := by
    intro p hp hactive hsession
    obtain ⟨p₀, hp₀, rfl⟩ := (hshift p).mp hp
    exact hfree p₀ hp₀ hsession hactive.not_rejected
  intro p hp q hq hpactive hqactive hsession horder
  rcases (hadded.requests p).mp hp with hp | rfl
  · rcases (hadded.requests q).mp hq with hq | rfl
    · obtain ⟨p₀, hp₀, rfl⟩ := (hshift p).mp hp
      obtain ⟨q₀, hq₀, rfl⟩ := (hshift q).mp hq
      have heq : p₀ = q₀ := by
        refine hs p₀ hp₀ q₀ hq₀ hpactive hqactive hsession ?_
        rcases lt_trichotomy p₀.queueOrder q₀.queueOrder with hlt | heq | hlt
        · exact absurd horder (hmono p₀ q₀ hsession hlt).ne
        · exact heq
        · exact absurd horder (hmono q₀ p₀ hsession.symm hlt).ne'
      rw [heq]
    · exact absurd horder (hold p hp hpactive (hsession.trans hadded.liveSessionId))
  · rcases (hadded.requests q).mp hq with hq | rfl
    · exact absurd horder.symm (hold q hq hqactive (hsession.symm.trans hadded.liveSessionId))
    · rfl

/-- The rows from before an addition are rows after it, with moved orders. -/
theorem Added.keepsOrder {placed : Room} {r : SongRequest} {data : RequestData}
    (hs : Distinct s) (hplace : Placing s placed liveSessionId data r.queueOrder)
    (hadded : Added s placed t liveSessionId r) : KeepsOrder s t := by
  obtain ⟨shift, hshift, hmono, -⟩ := hplace.reordered
  have hrow : ∀ p ∈ s.requests, ∀ p' ∈ t.requests, p'.id = p.id → p'.queueOrder = shift p := by
    intro p hp p' hp' hid
    have hmoved := (hshift _).mpr ⟨p, hp, rfl⟩
    rcases (hadded.requests p').mp hp' with hold | rfl
    · rw [eq_of_request hold hmoved hid]
    · exact absurd hid.symm (hadded.fresh { p with queueOrder := shift p } hmoved)
  intro p hp q hq p' hp' q' hq' hpid hqid hsession hpactive hqactive
  rw [hrow p hp p' hp' hpid, hrow q hq q' hq' hqid]
  constructor
  · exact hmono p q hsession
  · intro hlt
    by_contra hge
    rcases (Int.not_lt.mp hge).lt_or_eq with hlt' | heq
    · exact absurd hlt (hmono q p hsession.symm hlt').le.not_gt
    · have hsame := hs p hp q hq hpactive hqactive hsession heq.symm
      rw [hsame] at hlt
      exact lt_irrefl _ hlt

/-- A request that is added stands where it was put. -/
theorem Added.insertedAt {placed : Room} {r : SongRequest} {data : RequestData}
    (hs : Distinct s) (hplace : Placing s placed liveSessionId data r.queueOrder)
    (hadded : Added s placed t liveSessionId r) : InsertedAt t data r := by
  unfold InsertedAt
  cases hplace with
  | front hposition heq hbelow =>
    subst heq
    rw [hposition]
    intro q hq hsession hactive hne
    have hold := ((hadded.requests q).mp hq).resolve_right hne
    exact hbelow q hold (hsession.trans hadded.liveSessionId) hactive.not_rejected
  | back hposition heq habove =>
    subst heq
    rw [hposition]
    intro q hq hsession hactive hne
    have hold := ((hadded.requests q).mp hq).resolve_right hne
    exact habove q hold (hsession.trans hadded.liveSessionId) hactive.not_rejected
  | after a hposition ha hid hsession horder hgap =>
    rw [hposition]
    have hmoved : ∀ q : SongRequest, gap liveSessionId r.queueOrder q =
        if q.liveSessionId = liveSessionId ∧ a.queueOrder < q.queueOrder then q.queueOrder + 1
        else q.queueOrder := by
      intro q
      rw [gap, horder]
      rfl
    have haorder : gap liveSessionId r.queueOrder a = a.queueOrder := by
      rw [hmoved, if_neg (fun h => lt_irrefl _ h.2)]
    have hkept : a ∈ placed.requests := (hgap a).mpr ⟨a, ha, by rw [haorder]⟩
    refine ⟨a, (hadded.requests a).mpr (.inl hkept), hid,
      hsession.trans hadded.liveSessionId.symm, fun hactive => ⟨by omega, ?_⟩⟩
    intro q hq hqsession hqactive hqa hqr
    have hold := ((hadded.requests q).mp hq).resolve_right hqr
    obtain ⟨q₀, hq₀, rfl⟩ := (hgap q).mp hold
    show gap liveSessionId r.queueOrder q₀ < a.queueOrder ∨
      r.queueOrder < gap liveSessionId r.queueOrder q₀
    have hq₀session : q₀.liveSessionId = liveSessionId := hqsession.trans hadded.liveSessionId
    -- distinct orders: the request is before or behind the given one
    have hne : q₀.queueOrder ≠ a.queueOrder := by
      intro heq
      refine hqa ?_
      rw [hs q₀ hq₀ a ha hqactive hactive (hq₀session.trans hsession.symm) heq, haorder]
    rw [hmoved]
    simp only [hq₀session, true_and]
    split <;> omega

/-! ## Reordering and removal -/

theorem length_others {r : SongRequest} (hr : r ∈ s.requests) (hwaiting : r.status.Waiting) :
    (((pendingRequests s r.liveSessionId any).map SongRequest.id).filter
      fun id => id ≠ r.id).length = (pendingRequests s r.liveSessionId any).length - 1 := by
  have hnodup : ((pendingRequests s r.liveSessionId any).map SongRequest.id).Nodup :=
    nodup_ids nodup_findMany fun _ hq => (mem_pendingRequests.mp hq).1
  have hmem : r.id ∈ (pendingRequests s r.liveSessionId any).map SongRequest.id :=
    List.mem_map.mpr ⟨r, mem_pendingRequests.mpr ⟨hr, rfl, hwaiting⟩, rfl⟩
  have hlength := List.length_erase_of_mem hmem
  rw [hnodup.erase_eq_filter, List.length_map] at hlength
  rw [← hlength]
  congr 1
  refine List.filter_congr fun id _ => ?_
  by_cases heq : id = r.id
  · simp [heq]
  · simp [heq]

/-- Moving a waiting id neither loses an id nor adds one. -/
theorem mem_reorderedIds {r : SongRequest} {newOrder id : Nat} (hr : r ∈ s.requests)
    (hwaiting : r.status.Waiting)
    (hle : newOrder ≤ (pendingRequests s r.liveSessionId any).length) :
    id ∈ reorderedIds s r.liveSessionId r.id newOrder any ↔
      ∃ q ∈ s.requests, q.liveSessionId = r.liveSessionId ∧ q.status.Waiting ∧ q.id = id := by
  have hlength := @length_others s any r hr hwaiting
  rw [reorderedIds, List.mem_insertIdx (by omega), List.mem_filter, List.mem_map]
  constructor
  · rintro (rfl | ⟨⟨q, hq, rfl⟩, -⟩)
    · exact ⟨r, hr, rfl, hwaiting, rfl⟩
    · obtain ⟨hq, hsession, hstatus⟩ := mem_pendingRequests.mp hq
      exact ⟨q, hq, hsession, hstatus, rfl⟩
  · rintro ⟨q, hq, hsession, hstatus, rfl⟩
    by_cases heq : q.id = r.id
    · exact .inl heq
    · exact .inr ⟨⟨q, mem_pendingRequests.mpr ⟨hq, hsession, hstatus⟩, rfl⟩, by simpa using heq⟩

/-- A list whose members stand in the order of another list is that list. -/
theorem eq_of_ranked {l ids : List Nat} (hl : l.Nodup) (hids : ids.Nodup)
    (hmem : ∀ id, id ∈ l ↔ id ∈ ids)
    (hranked : l.Pairwise fun x y => ids.idxOf x ≤ ids.idxOf y) : l = ids := by
  refine List.Perm.eq_of_pairwise ?_ hranked ?_ ((List.perm_ext_iff_of_nodup hl hids).mpr hmem)
  · intro x y hx _ hle hge
    exact (List.idxOf_inj ((hmem x).mp hx)).mp (Nat.le_antisymm hle hge)
  · rw [List.pairwise_iff_getElem]
    intro i j hi hj hij
    rw [hids.idxOf_getElem i hi, hids.idxOf_getElem j hj]
    exact hij.le

/-- The request is at the position among the waiting ones, the others in their old order. -/
def MovedTo (s t : Room) (r : SongRequest) (newOrder : Nat) (any : AnyOrder) : Prop :=
  (∀ any', (pendingRequests t r.liveSessionId any').map SongRequest.id =
    (((pendingRequests s r.liveSessionId any).map SongRequest.id).filter
      fun id => id ≠ r.id).insertIdx (newOrder - 1) r.id) ∧
  1 ≤ newOrder ∧ newOrder ≤ (pendingRequests s r.liveSessionId any).length

/-- The orders after `updateOrder`: the waiting requests follow the base in their new turn. -/
theorem updateOrder_orders {newOrder : Nat}
    (h : SongRequestQueueService.updateOrder s requestId newOrder any = .ok t) :
    ∃ r ∈ s.requests, r.id = requestId ∧ r.status.Waiting ∧ 1 ≤ newOrder ∧
      newOrder ≤ (pendingRequests s r.liveSessionId any).length ∧
      Reordered (fun q => if q.liveSessionId = r.liveSessionId ∧ q.status.Waiting then
          baseOrder s r.liveSessionId any + 1 +
            (reorderedIds s r.liveSessionId r.id newOrder any).idxOf q.id
        else q.queueOrder) s.requests t.requests := by
  obtain ⟨r, hr, rfl, hwaiting, hpos, hle, -, hrequests⟩ := updateOrder_spec h
  refine ⟨r, hr, rfl, hwaiting, hpos, hle, fun q' => ?_⟩
  have hids := fun id => @mem_reorderedIds s any r newOrder id hr hwaiting hle
  rw [hrequests, renumber_reordered nodup_reorderedIds q']
  have hrow : ∀ q ∈ s.requests, (q.id ∈ reorderedIds s r.liveSessionId r.id newOrder any) =
      (q.liveSessionId = r.liveSessionId ∧ q.status.Waiting) := by
    intro q hq
    refine propext ((hids q.id).trans ⟨?_, ?_⟩)
    · rintro ⟨p, hp, hsession, hstatus, hid⟩
      obtain rfl := eq_of_request hp hq hid
      exact ⟨hsession, hstatus⟩
    · rintro ⟨hsession, hstatus⟩
      exact ⟨q, hq, hsession, hstatus, rfl⟩
  constructor
  · rintro ⟨q, hq, rfl⟩
    exact ⟨q, hq, by simp only [hrow q hq]⟩
  · rintro ⟨q, hq, rfl⟩
    exact ⟨q, hq, by simp only [hrow q hq]⟩

/-- A request that is moved stands where it was put. -/
theorem updateOrder_moved {newOrder : Nat}
    (h : SongRequestQueueService.updateOrder s requestId newOrder any = .ok t) :
    ∃ r ∈ s.requests, r.id = requestId ∧ MovedTo s t r newOrder any := by
  obtain ⟨r, hr, rfl, hwaiting, hpos, hle, hmoved⟩ := updateOrder_orders h
  refine ⟨r, hr, rfl, fun any' => ?_, hpos, hle⟩
  have hids := fun id => @mem_reorderedIds s any r newOrder id hr hwaiting hle
  refine eq_of_ranked ?_ nodup_reorderedIds ?_ ?_
  · exact nodup_ids nodup_findMany fun _ hq => (mem_pendingRequests.mp hq).1
  · intro id
    rw [← reorderedIds, hids id, List.mem_map]
    constructor
    · rintro ⟨q', hq', rfl⟩
      obtain ⟨hq', hsession, hstatus⟩ := mem_pendingRequests.mp hq'
      obtain ⟨q, hq, rfl⟩ := (hmoved q').mp hq'
      exact ⟨q, hq, hsession, hstatus, rfl⟩
    · rintro ⟨q, hq, hsession, hstatus, rfl⟩
      exact ⟨_, mem_pendingRequests.mpr ⟨(hmoved _).mpr ⟨q, hq, rfl⟩, hsession, hstatus⟩, rfl⟩
  · have hsorted : (pendingRequests t r.liveSessionId any').Pairwise _ := findMany_sorted
    rw [List.pairwise_map]
    refine List.Pairwise.imp_of_mem ?_ hsorted
    intro p' q' hp' hq' hle'
    obtain ⟨hp', hpsession, hpstatus⟩ := mem_pendingRequests.mp hp'
    obtain ⟨hq', hqsession, hqstatus⟩ := mem_pendingRequests.mp hq'
    obtain ⟨p, hp, rfl⟩ := (hmoved p').mp hp'
    obtain ⟨q, hq, rfl⟩ := (hmoved q').mp hq'
    have horder := Prod.Lex.monotone_fst _ _ hle'
    simp only [ofLex_toLex] at horder
    rw [if_pos ⟨hpsession, hpstatus⟩, if_pos ⟨hqsession, hqstatus⟩] at horder
    rw [← reorderedIds]
    show (reorderedIds s r.liveSessionId r.id newOrder any).idxOf p.id ≤
      (reorderedIds s r.liveSessionId r.id newOrder any).idxOf q.id
    omega

/-- Moving a request keeps the orders distinct. -/
theorem updateOrder_distinct {newOrder : Nat} (hs : Distinct s)
    (h : SongRequestQueueService.updateOrder s requestId newOrder any = .ok t) : Distinct t := by
  obtain ⟨r, hr, rfl, hwaiting, -, hle, hmoved⟩ := updateOrder_orders h
  have hids := fun id => @mem_reorderedIds s any r newOrder id hr hwaiting hle
  intro p' hp' q' hq' hpactive hqactive hsession horder
  obtain ⟨p, hp, rfl⟩ := (hmoved p').mp hp'
  obtain ⟨q, hq, rfl⟩ := (hmoved q').mp hq'
  -- what is active and not waiting plays, so its order is not above the base
  have hbelow : ∀ x ∈ s.requests, x.liveSessionId = r.liveSessionId → x.status.Active →
      ¬x.status.Waiting → x.queueOrder ≤ baseOrder s r.liveSessionId any := by
    intro x hx hxsession hxactive hxwaiting
    exact le_baseOrder hx hxsession (.inr (hxactive.cases.resolve_left hxwaiting))
  have heq : p = q := by
    change p.liveSessionId = q.liveSessionId at hsession
    simp only at horder hpactive hqactive
    by_cases hpmoved : p.liveSessionId = r.liveSessionId ∧ p.status.Waiting
    · by_cases hqmoved : q.liveSessionId = r.liveSessionId ∧ q.status.Waiting
      · rw [if_pos hpmoved, if_pos hqmoved] at horder
        have hmem := (hids p.id).mpr ⟨p, hp, hpmoved.1, hpmoved.2, rfl⟩
        have hidx : (reorderedIds s r.liveSessionId r.id newOrder any).idxOf p.id =
            (reorderedIds s r.liveSessionId r.id newOrder any).idxOf q.id := by omega
        exact eq_of_request hp hq ((List.idxOf_inj hmem).mp hidx)
      · rw [if_pos hpmoved, if_neg hqmoved] at horder
        have hqsession := hsession.symm.trans hpmoved.1
        have := hbelow q hq hqsession hqactive fun h => hqmoved ⟨hqsession, h⟩
        omega
    · by_cases hqmoved : q.liveSessionId = r.liveSessionId ∧ q.status.Waiting
      · rw [if_neg hpmoved, if_pos hqmoved] at horder
        have hpsession := hsession.trans hqmoved.1
        have := hbelow p hp hpsession hpactive fun h => hpmoved ⟨hpsession, h⟩
        omega
      · rw [if_neg hpmoved, if_neg hqmoved] at horder
        exact hs p hp q hq hpactive hqactive hsession horder
  rw [heq]

/-! ## Removal -/

/-- Where the rows behind a removed one go. -/
def closed (r q : SongRequest) : Int :=
  if q.liveSessionId = r.liveSessionId ∧ r.queueOrder < q.queueOrder then q.queueOrder - 1
  else q.queueOrder

/-- An orderly removal moves no two active rows together. -/
theorem closed_lt {r p q : SongRequest}
    (ho : Orderly s (.removeFromQueue requestId)) (hr : r ∈ s.requests) (hid : r.id = requestId)
    (hp : p ∈ s.requests) (hq : q ∈ s.requests) (hpid : p.id ≠ requestId)
    (hpactive : p.status.Active) (hqactive : q.status.Active)
    (hsession : p.liveSessionId = q.liveSessionId) :
    p.queueOrder < q.queueOrder ↔ closed r p < closed r q := by
  unfold closed
  rw [hsession]
  by_cases hqsession : q.liveSessionId = r.liveSessionId
  · have hgap := fun heq => ho r hr hid p hp hpid hpactive (hsession.trans hqsession) heq q hq
      hqactive hqsession
    simp only [hqsession, true_and]
    split <;> split <;> omega
  · simp only [hqsession, false_and, if_false]

/-- Removing a request keeps the order of the others. -/
theorem removeFromQueue_order (ho : Orderly s (.removeFromQueue requestId))
    (h : SongRequestQueueService.removeFromQueue s requestId = .ok t) :
    KeepsOrder s t ∧ (Distinct s → Distinct t) := by
  obtain ⟨r, hr, hid, -, hclosed⟩ := removeFromQueue_spec h
  change Reordered (closed r) _ _ at hclosed
  constructor
  · intro p hp q hq p' hp' q' hq' hpid hqid hsession hpactive hqactive
    obtain ⟨p₀, hp₀, rfl⟩ := (hclosed p').mp hp'
    obtain ⟨q₀, hq₀, rfl⟩ := (hclosed q').mp hq'
    obtain ⟨hp₀, hpne⟩ := Table.mem_delete.mp hp₀
    obtain ⟨hq₀, -⟩ := Table.mem_delete.mp hq₀
    obtain rfl := eq_of_request hp₀ hp hpid
    obtain rfl := eq_of_request hq₀ hq hqid
    exact closed_lt ho hr hid hp hq hpne hpactive hqactive hsession
  · intro hs p' hp' q' hq' hpactive hqactive hsession horder
    obtain ⟨p, hp, rfl⟩ := (hclosed p').mp hp'
    obtain ⟨q, hq, rfl⟩ := (hclosed q').mp hq'
    obtain ⟨hp, hpne⟩ := Table.mem_delete.mp hp
    obtain ⟨hq, hqne⟩ := Table.mem_delete.mp hq
    have heq : p = q := by
      refine hs p hp q hq hpactive hqactive hsession ?_
      have hlt := closed_lt ho hr hid hp hq hpne hpactive hqactive hsession
      have hgt := closed_lt ho hr hid hq hp hqne hqactive hpactive hsession.symm
      change closed r p = closed r q at horder
      omega
    rw [heq]

/-! ## Over runs -/

theorem Distinct.of_subset (hs : Distinct s) (h : ∀ q ∈ t.requests, q ∈ s.requests) :
    Distinct t :=
  fun r hr q hq => hs r (h r hr) q (h q hq)

theorem KeepsOrder.of_subset (h : ∀ q ∈ t.requests, q ∈ s.requests) : KeepsOrder s t := by
  refine .of_same fun r hr r' hr' hid => ?_
  rw [eq_of_request (h r' hr') hr hid]

/-- A clone numbers its rows anew, in a session that had none. -/
theorem cloneSession_order {sourceSessionId drawn : Nat} (hok : RoomOk s)
    (h : LiveSessionService.cloneSession s now sourceSessionId drawn any = .ok t) :
    KeepsOrder s t ∧ (Distinct s → Distinct t) := by
  obtain ⟨l, first, hopened, hmem⟩ := cloneSession_opened h
  have hfresh : ∀ q ∈ s.requests, q.liveSessionId ≠ l.id := fun q hq => hopened.no_requests hok hq
  constructor
  · refine .of_same fun r hr r' hr' hid => ?_
    rw [eq_of_request hr' ((hmem r).mpr (.inl hr)) hid]
  · intro hs p hp q hq hpactive hqactive hsession horder
    rcases (hmem p).mp hp with hp | ⟨i, x, hx, rfl⟩
    · rcases (hmem q).mp hq with hq | ⟨j, y, hy, rfl⟩
      · exact hs p hp q hq hpactive hqactive hsession horder
      · exact absurd hsession (hfresh p hp)
    · rcases (hmem q).mp hq with hq | ⟨j, y, hy, rfl⟩
      · exact absurd hsession.symm (hfresh q hq)
      · change (i : Int) + 1 = (j : Int) + 1 at horder
        obtain rfl : i = j := by omega
        obtain rfl : x = y := Option.some.inj (hx.symm.trans hy)
        rfl

/-- A step keeps the orders distinct. -/
theorem exec_distinct (hok : RoomOk s) (hs : Distinct s) (ho : Orderly s c)
    (h : exec channel c now any s = .ok t) : Distinct t := by
  cases c with
  | startSession =>
    obtain ⟨_, -, hrequests⟩ := startSession_opened h
    exact hs.of_subset fun q hq => hrequests ▸ hq
  | cloneSession => exact (cloneSession_order hok h).2 hs
  | endSession =>
    obtain ⟨-, -, hrequests⟩ := endSession_spec h
    exact hs.of_subset hrequests
  | addToQueue =>
    obtain ⟨placed, r, hplace, hadded⟩ := addToQueue_added h
    exact addToQueue_distinct hs (place_placing hplace) hadded
  | updateStatus => exact hs.updateStatus ho h
  | updateOrder => exact updateOrder_distinct hs h
  | removeFromQueue => exact (removeFromQueue_order ho h).2 hs
  | playNext =>
    obtain rfl := Except.ok.inj h
    exact hs.playNext
  | skipCurrent =>
    obtain rfl := Except.ok.inj h
    exact hs.skipped.playNext
  | playNow => exact hs.playNow ho h
  | clearQueue =>
    obtain rfl := Except.ok.inj h
    exact hs.of_subset fun q hq => (mem_clearQueue.mp hq).1

/-- A step keeps the order of the requests it does not move. -/
theorem exec_keepsOrder (hok : RoomOk s) (hs : Distinct s) (ho : Orderly s c)
    (hc : ∀ id newOrder, c ≠ .updateOrder id newOrder)
    (h : exec channel c now any s = .ok t) : KeepsOrder s t := by
  cases c with
  | startSession =>
    obtain ⟨_, -, hrequests⟩ := startSession_opened h
    exact .of_subset fun q hq => hrequests ▸ hq
  | cloneSession => exact (cloneSession_order hok h).1
  | endSession =>
    obtain ⟨-, -, hrequests⟩ := endSession_spec h
    exact .of_subset hrequests
  | addToQueue =>
    obtain ⟨placed, r, hplace, hadded⟩ := addToQueue_added h
    exact hadded.keepsOrder hs (place_placing hplace)
  | updateStatus => exact .restated (updateStatus_restated h)
  | updateOrder id newOrder => exact absurd rfl (hc id newOrder)
  | removeFromQueue => exact (removeFromQueue_order ho h).1
  | playNext =>
    obtain rfl := Except.ok.inj h
    exact .restated playNext_restated
  | skipCurrent =>
    obtain rfl := Except.ok.inj h
    exact .restated (skipped_restated.trans playNext_restated)
  | playNow =>
    obtain ⟨_, -, -, hchange⟩ := playNow_restated h
    exact .restated hchange
  | clearQueue =>
    obtain rfl := Except.ok.inj h
    exact .of_subset fun q hq => (mem_clearQueue.mp hq).1

/-- Orderly runs keep the orders distinct. -/
theorem reachable_distinct (h : (songSystem channel Orderly).Reachable s) : Distinct s := by
  refine System.Reachable.induct (P := Distinct) ⟨?_, ?_⟩ h
  · rintro _ rfl r hr
    exact absurd hr (Table.not_mem_empty r)
  · rintro u v c hr hu ⟨hexec, ho⟩
    exact exec_distinct (reachable_roomOk hr) hu ho hexec

/-- In an orderly run the queue order is a strict order that every command respects. -/
theorem queue_order (h : (songSystem channel Orderly).Reachable s) :
    Distinct s ∧ ∀ c now any t, (songSystem channel Orderly).step (c, now, any) s t →
      ((∀ id newOrder, c ≠ .updateOrder id newOrder) → KeepsOrder s t) ∧
      (∀ liveSessionId data random, c = .addToQueue liveSessionId data random →
        ∃ r ∈ t.requests, (∀ q ∈ s.requests, q.id ≠ r.id) ∧ r.liveSessionId = liveSessionId ∧
          r.status = .pending ∧ InsertedAt t data r) ∧
      ∀ id newOrder, c = .updateOrder id newOrder →
        ∃ r ∈ s.requests, r.id = id ∧ MovedTo s t r newOrder any := by
  have hs := reachable_distinct h
  refine ⟨hs, ?_⟩
  rintro c now any t ⟨hexec, ho⟩
  refine ⟨fun hc => exec_keepsOrder (reachable_roomOk h) hs ho hc hexec, ?_, ?_⟩
  · rintro liveSessionId data random rfl
    obtain ⟨placed, r, hplace, hadded⟩ := addToQueue_added hexec
    have hplacing := place_placing hplace
    refine ⟨r, (hadded.requests r).mpr (.inr rfl), ?_, hadded.liveSessionId, hadded.status,
      hadded.insertedAt hs hplacing⟩
    intro q hq
    obtain ⟨shift, hshift, -⟩ := hplacing.reordered
    have hmoved := (hshift _).mpr ⟨q, hq, rfl⟩
    exact hadded.fresh { q with queueOrder := shift q } hmoved
  · rintro id newOrder rfl
    exact updateOrder_moved hexec

/-- Three requests, the last one put in front; then the second is moved to the front. -/
theorem queue_order_moved : ∃ s t : Room, Distinct s ∧
    s.requests.rows.map (fun r => (r.id, r.queueOrder)) = [(3, 1), (4, 2), (5, 0)] ∧
    t.requests.rows.map (fun r => (r.id, r.queueOrder)) = [(3, 3), (4, 1), (5, 2)] ∧
    ∃ r ∈ s.requests, r.id = 4 ∧ MovedTo s t r 1 fun id => id := by
  let any : AnyOrder := fun id => id
  let commands : List (SongCommand × Time × AnyOrder) :=
    [(.startSession false 7, 10, any),
      (.addToQueue 1 (operatorRequest none none) 0, 11, any),
      (.addToQueue 1 (operatorRequest none none) 0, 12, any),
      (.addToQueue 1 (operatorRequest (some .front) none) 0, 13, any)]
  obtain ⟨s, t, hs, ht, hbefore, hafter⟩ : ∃ s t,
      System.play (execWhere {} Orderly) commands {} = some s ∧
      execWhere {} Orderly (.updateOrder 4 1, 14, any) s = some t ∧
      s.requests.rows.map (fun r => (r.id, r.queueOrder)) = [(3, 1), (4, 2), (5, 0)] ∧
      t.requests.rows.map (fun r => (r.id, r.queueOrder)) = [(3, 3), (4, 1), (5, 2)] :=
    ⟨_, _, rfl, rfl, rfl, rfl⟩
  obtain ⟨hdistinct, hqueue⟩ := queue_order (reachable_of_play hs)
  have hmoved := (hqueue _ _ _ _ (step_of_execWhere ht)).2.2 4 1 rfl
  exact ⟨s, t, hdistinct, hbefore, hafter, hmoved⟩

/-- Removing a rejected request, whose order was given out again, moves two active requests
together. -/
theorem orders_collide :
    ¬∀ channel s, (songSystem channel anyCommand).Reachable s → Distinct s := by
  intro hclaim
  let any : AnyOrder := fun id => id
  let commands : List (SongCommand × Time × AnyOrder) :=
    [(.startSession false 7, 10, any),
      (.addToQueue 1 (operatorRequest none none) 0, 11, any),
      (.addToQueue 1 (operatorRequest none none) 0, 12, any),
      (.addToQueue 1 (operatorRequest none none) 0, 13, any),
      (.updateStatus 5 .rejected none, 14, any),
      (.addToQueue 1 (operatorRequest none none) 0, 15, any),
      (.addToQueue 1 (operatorRequest none none) 0, 16, any),
      (.removeFromQueue 5, 17, any)]
  obtain ⟨s, hs, hnot⟩ : ∃ s,
      System.play (execWhere {} anyCommand) commands {} = some s ∧ ¬Distinct s :=
    ⟨_, rfl, by decide +kernel⟩
  exact hnot (hclaim {} s (reachable_of_play hs))

end Rogichat.SongLive
