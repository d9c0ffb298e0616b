import Rogichat.SongLive.Model

/-!
# What the commands change

The commands that play, skip, clear or set a status change statuses and leave every order alone;
a `Change` says what becomes of the status of each request.

* **`Restated`** — a command as a change of statuses, row by row, both ways.
* **`findFirst_le`** — what an ordered lookup returns is first in its order.
-/

namespace Rogichat.SongLive

open Lib

/-! ## Lookups -/

section Lookups

variable {ρ κ : Type} [Row ρ] [LinearOrder κ] {t : Table ρ} {p : ρ → Prop} [DecidablePred p]
  {key : ρ → κ} {id : ρ → Nat} {any : AnyOrder}

theorem findFirst_some {r : ρ} (h : findFirst t p key id any = some r) : r ∈ t ∧ p r :=
  Table.first?_some h

theorem findFirst_none : findFirst t p key id any = none ↔ ∀ r ∈ t, ¬p r :=
  Table.first?_eq_none

/-- The order of an ordered lookup, ties as the database has them. -/
def lookupOrder (key : ρ → κ) (id : ρ → Nat) (any : AnyOrder) (a b : ρ) : Prop :=
  toLex (key a, any (id a)) ≤ toLex (key b, any (id b))

instance : Std.Total (lookupOrder key id any) := ⟨fun _ _ => le_total _ _⟩

instance : IsTrans ρ (lookupOrder key id any) := ⟨fun _ _ _ => le_trans⟩

instance : DecidableRel (lookupOrder key id any) := fun _ _ => inferInstanceAs (Decidable (_ ≤ _))

omit [Row ρ] in
theorem key_le_of_lookupOrder {a b : ρ} (h : lookupOrder key id any a b) : key a ≤ key b := by
  rcases Prod.Lex.toLex_le_toLex.mp h with hlt | ⟨heq, -⟩
  · exact hlt.le
  · exact heq.le

theorem findFirst_order {r s : ρ} (h : findFirst t p key id any = some r) (hs : s ∈ t)
    (hp : p s) : lookupOrder key id any r s :=
  @Table.first?_le ρ _ t p _ (lookupOrder key id any) _ _ _ r s h hs hp

theorem findFirst_le {r s : ρ} (h : findFirst t p key id any = some r) (hs : s ∈ t) (hp : p s) :
    key r ≤ key s :=
  key_le_of_lookupOrder (findFirst_order h hs hp)

theorem mem_findMany {r : ρ} : r ∈ findMany t p key id any ↔ r ∈ t ∧ p r := by
  rw [findMany, List.mem_insertionSort]
  exact Table.mem_select

theorem findMany_sorted : (findMany t p key id any).Pairwise fun a b => key a ≤ key b := by
  have hsorted := List.pairwise_insertionSort (lookupOrder key id any) (t.select p)
  exact hsorted.imp key_le_of_lookupOrder

end Lookups

theorem eq_of_request {t : Table SongRequest} {r s : SongRequest} (hr : r ∈ t) (hs : s ∈ t)
    (h : r.id = s.id) : r = s :=
  Table.eq_of_key hr hs (k := r.id) List.mem_cons_self (h ▸ List.mem_cons_self)

theorem SongRequestStatus.Waiting.active {status : SongRequestStatus} (h : status.Waiting) :
    status.Active := by
  rcases h with h | h
  · exact .inl h
  · exact .inr (.inl h)

theorem SongRequestStatus.Active.not_rejected {status : SongRequestStatus} (h : status.Active) :
    status ≠ .rejected := by
  rcases h with rfl | rfl | rfl
  · decide
  · decide
  · decide

theorem SongRequestStatus.Active.cases {status : SongRequestStatus} (h : status.Active) :
    status.Waiting ∨ status = .playing := by
  rcases h with h | h | h
  · exact .inl (.inl h)
  · exact .inl (.inr h)
  · exact .inr h

/-! ## Changes of statuses -/

/-- A request that keeps its place. -/
structure SongRequest.Placed (r r' : SongRequest) : Prop where
  id : r'.id = r.id
  liveSessionId : r'.liveSessionId = r.liveSessionId
  queueOrder : r'.queueOrder = r.queueOrder
  priority : r'.priority = r.priority
  source : r'.source = r.source

theorem SongRequest.Placed.refl (r : SongRequest) : r.Placed r := ⟨rfl, rfl, rfl, rfl, rfl⟩

theorem SongRequest.Placed.trans {r s t : SongRequest} (h : r.Placed s) (h' : s.Placed t) :
    r.Placed t :=
  ⟨h'.id.trans h.id, h'.liveSessionId.trans h.liveSessionId, h'.queueOrder.trans h.queueOrder,
    h'.priority.trans h.priority, h'.source.trans h.source⟩

/-- What becomes of the status of each request. -/
abbrev Change := Nat → SongRequestStatus → SongRequestStatus

/-- One request gets a status. -/
def Change.set (id : Nat) (status : SongRequestStatus) : Change :=
  fun id' before => if id' = id then status else before

/-- Some request may get a status. -/
def Change.setAny (request : Option SongRequest) (status : SongRequestStatus) : Change :=
  match request with
  | none => fun _ before => before
  | some r => .set r.id status

/-- Every request keeps its place, and its status is changed in this way. -/
structure Restated (change : Change) (s t : Room) : Prop where
  forward : ∀ r ∈ s.requests, ∃ r' ∈ t.requests, r.Placed r' ∧ r'.status = change r.id r.status
  back : ∀ r' ∈ t.requests, ∃ r ∈ s.requests, r.Placed r' ∧ r'.status = change r.id r.status

theorem Restated.refl (s : Room) : Restated (fun _ status => status) s s :=
  ⟨fun r hr => ⟨r, hr, .refl r, rfl⟩, fun r hr => ⟨r, hr, .refl r, rfl⟩⟩

theorem Restated.trans {f g : Change} {s t u : Room} (h : Restated f s t) (h' : Restated g t u) :
    Restated (fun id status => g id (f id status)) s u := by
  constructor
  · intro r hr
    obtain ⟨r₁, hr₁, hplaced, hstatus⟩ := h.forward r hr
    obtain ⟨r₂, hr₂, hplaced', hstatus'⟩ := h'.forward r₁ hr₁
    refine ⟨r₂, hr₂, hplaced.trans hplaced', ?_⟩
    rw [hstatus', hstatus, hplaced.id]
  · intro r₂ hr₂
    obtain ⟨r₁, hr₁, hplaced', hstatus'⟩ := h'.back r₂ hr₂
    obtain ⟨r, hr, hplaced, hstatus⟩ := h.back r₁ hr₁
    refine ⟨r, hr, hplaced.trans hplaced', ?_⟩
    rw [hstatus', hstatus, hplaced.id]

/-- The revision is not part of any request. -/
theorem Restated.bump {f : Change} {s t : Room} {liveSessionId : Nat} (h : Restated f s t) :
    Restated f s (bumpRevision t liveSessionId) :=
  ⟨h.forward, h.back⟩

theorem restated_set (status : SongRequestStatus) {s : Room} {id : Nat}
    {f : SongRequest → SongRequest} {hf : Table.Keeps f} (hplaced : ∀ r : SongRequest, r.Placed (f r))
    (hstatus : ∀ r : SongRequest, (f r).status = status) :
    Restated (.set id status) s (setRequest s id f hf) := by
  have hone : ∀ r : SongRequest, r.Placed (if r.id = id then f r else r) ∧
      (if r.id = id then f r else r).status = Change.set id status r.id r.status := by
    intro r
    by_cases hid : r.id = id
    · rw [if_pos hid, Change.set, if_pos hid]
      exact ⟨hplaced r, hstatus r⟩
    · rw [if_neg hid, Change.set, if_neg hid]
      exact ⟨.refl r, rfl⟩
  constructor
  · intro r hr
    exact ⟨_, Table.mem_update_of_mem (k := hf) hr, hone r⟩
  · intro r' hr'
    obtain ⟨r, hr, rfl⟩ := (Table.mem_update (k := hf)).mp hr'
    exact ⟨r, hr, hone r⟩

theorem restated_complete (s : Room) (now : Time) (current : Option SongRequest) :
    Restated (.setAny current .completed) s (completeRequest s now current) := by
  cases current with
  | none => exact .refl s
  | some r =>
    exact restated_set .completed (fun r => ⟨rfl, rfl, rfl, rfl, rfl⟩) fun _ => rfl

/-! ## The commands as changes -/

variable {room t : Room} {now : Time} {any : AnyOrder} {requestId liveSessionId : Nat}

/-- A status change restates its request. -/
theorem updateStatus_restated {status : SongRequestStatus} {reason : Option String}
    (h : SongRequestService.updateStatus room now requestId status reason = .ok t) :
    Restated (.set requestId status) room t := by
  simp only [SongRequestService.updateStatus, bind_ok, pure_ok] at h
  obtain ⟨existing, -, rfl⟩ := h
  exact (restated_set status (f := fun r => r.withStatus now status reason)
    (fun r => ⟨rfl, rfl, rfl, rfl, rfl⟩) fun _ => rfl).bump

/-- The session takes requests and plays them. -/
def SessionActive (room : Room) (liveSessionId : Nat) : Prop :=
  room.sessions.Has fun s => s.id = liveSessionId ∧ s.status = .active

instance (room : Room) (liveSessionId : Nat) : Decidable (SessionActive room liveSessionId) :=
  inferInstanceAs (Decidable (room.sessions.Has fun s => s.id = liveSessionId ∧ s.status = .active))

/-- What `playNext` does to the statuses. -/
def playNextChange (room : Room) (liveSessionId : Nat) (any : AnyOrder) : Change :=
  if SessionActive room liveSessionId then
    match nextRequest room liveSessionId any with
    | none => fun _ before => before
    | some next => fun id before =>
      Change.set next.id .playing id
        (Change.setAny (nowPlaying room liveSessionId any) .completed id before)
  else fun _ before => before

/-- Playing the next request restates it and what played before. -/
theorem playNext_restated : Restated (playNextChange room liveSessionId any) room
    (SongRequestService.playNext room now liveSessionId any) := by
  unfold SongRequestService.playNext playNextChange
  by_cases hactive : SessionActive room liveSessionId
  · rw [if_pos hactive, if_pos (show room.sessions.Has _ from hactive)]
    cases nextRequest room liveSessionId any with
    | none => exact .refl room
    | some next =>
      have hcompleted := restated_complete room now (nowPlaying room liveSessionId any)
      refine Restated.bump (hcompleted.trans ?_)
      exact restated_set .playing (fun r => ⟨rfl, rfl, rfl, rfl, rfl⟩) fun _ => rfl
  · rw [if_neg hactive, if_neg (show ¬room.sessions.Has _ from hactive)]
    exact .refl room

theorem keeps_rejected (reason : Option String) : Table.Keeps fun r : SongRequest =>
    { r with status := .rejected, rejectionReason := some (skipReason reason) } :=
  ⟨fun _ => rfl⟩

/-- `skipCurrent` after its rejection. -/
def skipped (room : Room) (liveSessionId : Nat) (reason : Option String) (any : AnyOrder) : Room :=
  match nowPlaying room liveSessionId any with
  | none => room
  | some current =>
    setRequest room current.id (fun r =>
      { r with status := .rejected, rejectionReason := some (skipReason reason) })
      (keeps_rejected reason)

theorem skipCurrent_eq {reason : Option String} :
    SongRequestService.skipCurrent room now liveSessionId reason any =
      SongRequestService.playNext (skipped room liveSessionId reason any) now liveSessionId any :=
  rfl

theorem skipped_restated {reason : Option String} :
    Restated (.setAny (nowPlaying room liveSessionId any) .rejected) room
      (skipped room liveSessionId reason any) := by
  unfold skipped
  cases nowPlaying room liveSessionId any with
  | none => exact .refl room
  | some current => exact restated_set .rejected (fun r => ⟨rfl, rfl, rfl, rfl, rfl⟩) fun _ => rfl

/-- The request `playNow` completes. -/
def replaced (room : Room) (request : SongRequest) (any : AnyOrder) : Option SongRequest :=
  (findFirst room.requests (fun r => r.liveSessionId = request.liveSessionId ∧ r.status = .playing)
    (fun _ => ()) SongRequest.id any).filter fun r => r.id ≠ request.id

/-- Playing a request now restates it and what played before. -/
theorem playNow_restated (h : SongRequestService.playNow room now requestId any = .ok t) :
    ∃ request ∈ room.requests, request.id = requestId ∧
      Restated (fun id before => Change.set requestId .playing id
        (Change.setAny (replaced room request any) .completed id before)) room t := by
  simp only [SongRequestService.playNow, bind_ok, require_ok] at h
  obtain ⟨request, hrequest, h⟩ := h
  have hid : request.id = requestId :=
    Table.holds_of_find? (p := fun r : SongRequest => r.id = requestId) hrequest
  refine ⟨request, Table.mem_of_find? hrequest, hid, ?_⟩
  have hcompleted := restated_complete room now (replaced room request any)
  rw [replaced, hid] at hcompleted ⊢
  exact hcompleted.trans (updateStatus_restated h)

/-! ## Sessions -/

/-- The sessions are the same but for their revisions. -/
structure SessionsKept (s t : Table LiveSession) : Prop where
  forward : ∀ l ∈ s, ∃ l' ∈ t, l'.id = l.id ∧ l'.status = l.status ∧
    l'.sessionType = l.sessionType ∧ l'.overlayToken = l.overlayToken
  back : ∀ l' ∈ t, ∃ l ∈ s, l'.id = l.id ∧ l'.status = l.status ∧
    l'.sessionType = l.sessionType ∧ l'.overlayToken = l.overlayToken

theorem SessionsKept.refl (s : Table LiveSession) : SessionsKept s s :=
  ⟨fun l hl => ⟨l, hl, rfl, rfl, rfl, rfl⟩, fun l hl => ⟨l, hl, rfl, rfl, rfl, rfl⟩⟩

theorem mem_bumpRevision {s : Room} {liveSessionId : Nat} {l : LiveSession} :
    l ∈ (bumpRevision s liveSessionId).sessions ↔
      ∃ k ∈ s.sessions, l = if k.id = liveSessionId then
        { k with playbackRevision := k.playbackRevision + 1 } else k :=
  Table.mem_update (k := by exact ⟨fun _ => rfl⟩)

theorem sessionsKept_bump (s : Room) (liveSessionId : Nat) :
    SessionsKept s.sessions (bumpRevision s liveSessionId).sessions := by
  constructor
  · intro l hl
    refine ⟨_, mem_bumpRevision.mpr ⟨l, hl, rfl⟩, ?_⟩
    by_cases hid : l.id = liveSessionId
    · simp only [if_pos hid, and_self]
    · simp only [if_neg hid, and_self]
  · intro l' hl'
    obtain ⟨l, hl, rfl⟩ := mem_bumpRevision.mp hl'
    refine ⟨l, hl, ?_⟩
    by_cases hid : l.id = liveSessionId
    · simp only [if_pos hid, and_self]
    · simp only [if_neg hid, and_self]

/-- A command on the requests: the sessions stay, and ids are only drawn. -/
structure SameSessions (s t : Room) : Prop where
  sessions : SessionsKept s.sessions t.sessions
  overlayToken : t.overlayToken = s.overlayToken
  counter : s.counter ≤ t.counter

theorem SameSessions.of_eq {s t : Room} (hsessions : t.sessions = s.sessions)
    (htoken : t.overlayToken = s.overlayToken) (hcounter : s.counter ≤ t.counter) :
    SameSessions s t :=
  ⟨hsessions ▸ .refl s.sessions, htoken, hcounter⟩

theorem SameSessions.refl (s : Room) : SameSessions s s := ⟨.refl _, rfl, Nat.le_refl _⟩

theorem SameSessions.trans {s t u : Room} (h : SameSessions s t) (h' : SameSessions t u) :
    SameSessions s u := by
  refine ⟨⟨?_, ?_⟩, h'.overlayToken.trans h.overlayToken, Nat.le_trans h.counter h'.counter⟩
  · intro l hl
    obtain ⟨l₁, hl₁, hid, hstatus, htype, htoken⟩ := h.sessions.forward l hl
    obtain ⟨l₂, hl₂, hid', hstatus', htype', htoken'⟩ := h'.sessions.forward l₁ hl₁
    exact ⟨l₂, hl₂, hid'.trans hid, hstatus'.trans hstatus, htype'.trans htype,
      htoken'.trans htoken⟩
  · intro l₂ hl₂
    obtain ⟨l₁, hl₁, hid', hstatus', htype', htoken'⟩ := h'.sessions.back l₂ hl₂
    obtain ⟨l, hl, hid, hstatus, htype, htoken⟩ := h.sessions.back l₁ hl₁
    exact ⟨l, hl, hid'.trans hid, hstatus'.trans hstatus, htype'.trans htype,
      htoken'.trans htoken⟩

theorem SameSessions.bump {s t : Room} {liveSessionId : Nat} (h : SameSessions s t) :
    SameSessions s (bumpRevision t liveSessionId) :=
  h.trans ⟨sessionsKept_bump t liveSessionId, rfl, Nat.le_refl _⟩

/-! ## Orders -/

/-- The rows are the same but for their orders. -/
def Reordered (order : SongRequest → Int) (s t : Table SongRequest) : Prop :=
  ∀ r', r' ∈ t ↔ ∃ r ∈ s, r' = { r with queueOrder := order r }

theorem Reordered.refl (s : Table SongRequest) : Reordered SongRequest.queueOrder s s :=
  fun r => ⟨fun hr => ⟨r, hr, rfl⟩, fun h => h.elim fun _ hr => hr.2 ▸ hr.1⟩

theorem reordered_update {s : Table SongRequest} {p : SongRequest → Prop} [DecidablePred p]
    {order : SongRequest → Int}
    {hf : Table.Keeps fun r : SongRequest => { r with queueOrder := order r }} :
    Reordered (fun r => if p r then order r else r.queueOrder) s
      (s.update p (fun r => { r with queueOrder := order r }) hf) := by
  have hone : ∀ r : SongRequest, (if p r then { r with queueOrder := order r } else r) =
      { r with queueOrder := if p r then order r else r.queueOrder } := by
    intro r
    by_cases hr : p r
    · rw [if_pos hr, if_pos hr]
    · rw [if_neg hr, if_neg hr]
  intro r'
  rw [Table.mem_update]
  simp only [hone]

/-- Each id gets the order of its place in the list. -/
theorem renumber_reordered {s : Table SongRequest} {base : Int} {ids : List Nat}
    (hids : ids.Nodup) :
    Reordered (fun r => if r.id ∈ ids then base + 1 + ids.idxOf r.id else r.queueOrder) s
      (renumber s base ids) := by
  induction ids generalizing s base with
  | nil =>
    intro r'
    simp only [renumber, List.not_mem_nil, if_false]
    exact Reordered.refl s r'
  | cons id ids ih =>
    obtain ⟨hid, hids⟩ := List.nodup_cons.mp hids
    intro r'
    rw [renumber, ih hids r']
    have hone : Reordered (fun r => if r.id = id then base + 1 else r.queueOrder) s
        (s.update (fun r => r.id = id) fun r => { r with queueOrder := base + 1 }) :=
      @reordered_update _ _ _ (fun _ => base + 1) _
    have hstep : ∀ r : SongRequest,
        ({ r with
          queueOrder := if r.id ∈ ids then base + 1 + 1 + ids.idxOf r.id
            else if r.id = id then base + 1 else r.queueOrder } : SongRequest) =
        { r with
          queueOrder := if r.id ∈ id :: ids then base + 1 + (id :: ids).idxOf r.id
            else r.queueOrder } := by
      intro r
      by_cases heq : r.id = id
      · simp only [heq, if_neg hid, List.mem_cons_self, if_true, List.idxOf_cons_self]
        simp
      · have hmem : (r.id ∈ id :: ids) = (r.id ∈ ids) := by simp [heq]
        have hidx : (id :: ids).idxOf r.id = ids.idxOf r.id + 1 :=
          List.idxOf_cons_ne ids (Ne.symm heq)
        simp only [hmem, hidx, if_neg heq]
        grind
    constructor
    · rintro ⟨q, hq, rfl⟩
      obtain ⟨r, hr, rfl⟩ := (hone q).mp hq
      exact ⟨r, hr, hstep r⟩
    · rintro ⟨r, hr, rfl⟩
      exact ⟨_, (hone _).mpr ⟨r, hr, rfl⟩, (hstep r).symm⟩

/-! ## The commands on the queue -/

theorem nextId_spec {id : Nat} (h : nextChannelContentId room = .ok (t, id)) :
    t = { room with counter := room.counter + 1 } ∧ id = room.counter + 1 := by
  simp only [nextChannelContentId, bind_ok, ensure_ok, pure_ok, Prod.mk.injEq] at h
  obtain ⟨-, -, rfl, rfl⟩ := h
  exact ⟨rfl, rfl⟩

/-- The rows of a session from an order on are moved back by one. -/
def gap (liveSessionId : Nat) (order : Int) (r : SongRequest) : Int :=
  if r.liveSessionId = liveSessionId ∧ order ≤ r.queueOrder then r.queueOrder + 1
  else r.queueOrder

/-- Where `place` puts a new request. -/
inductive Placing (s placed : Room) (liveSessionId : Nat) (data : RequestData) (order : Int) : Prop
  | front (hposition : data.position = .front) (heq : placed = s)
    (hbelow : ∀ q ∈ s.requests, q.liveSessionId = liveSessionId → q.status ≠ .rejected →
      order < q.queueOrder)
  | back (hposition : data.position = .back) (heq : placed = s)
    (habove : ∀ q ∈ s.requests, q.liveSessionId = liveSessionId → q.status ≠ .rejected →
      q.queueOrder < order)
  | after (a : SongRequest) (hposition : data.position = .after) (ha : a ∈ s.requests)
    (hid : data.insertAfterRequestId = some a.id) (hsession : a.liveSessionId = liveSessionId)
    (horder : order = a.queueOrder + 1)
    (hgap : Reordered (gap liveSessionId order) s.requests placed.requests)

/-- What making place does to the orders. -/
theorem place_placing {data : RequestData} {placed : Room} {order : Int}
    (h : SongRequestQueueService.place room liveSessionId data any = .ok (placed, order)) :
    Placing room placed liveSessionId data order := by
  unfold SongRequestQueueService.place at h
  cases hposition : data.position with
  | front =>
    simp only [hposition, pure_ok, Prod.mk.injEq] at h
    obtain ⟨rfl, horder⟩ := h
    refine .front hposition rfl fun q hq hsession hstatus => ?_
    cases hmin : findFirst room.requests
        (fun r => r.liveSessionId = liveSessionId ∧ r.status ≠ .rejected) SongRequest.byOrder
        SongRequest.id any with
    | none => exact absurd ⟨hsession, hstatus⟩ (findFirst_none.mp hmin q hq)
    | some r =>
      have hle : r.byOrder ≤ q.byOrder := findFirst_le hmin hq ⟨hsession, hstatus⟩
      unfold SongRequest.byOrder at hle
      rw [← horder, hmin]
      show r.queueOrder - 1 < q.queueOrder
      omega
  | back =>
    simp only [hposition, pure_ok, Prod.mk.injEq] at h
    obtain ⟨rfl, horder⟩ := h
    refine .back hposition rfl fun q hq hsession hstatus => ?_
    cases hlast : findFirst room.requests
        (fun r => r.liveSessionId = liveSessionId ∧ r.status ≠ .rejected) SongRequest.byOrderDesc
        SongRequest.id any with
    | none => exact absurd ⟨hsession, hstatus⟩ (findFirst_none.mp hlast q hq)
    | some r =>
      have hle : r.byOrderDesc ≤ q.byOrderDesc := findFirst_le hlast hq ⟨hsession, hstatus⟩
      unfold SongRequest.byOrderDesc at hle
      rw [← horder, hlast]
      show q.queueOrder < r.queueOrder + 1
      omega
  | after =>
    simp only [hposition, bind_ok, require_ok, pure_ok, Prod.mk.injEq] at h
    obtain ⟨afterId, hid, a, ha, rfl, rfl⟩ := h
    have hholds : a.id = afterId ∧ a.liveSessionId = liveSessionId :=
      Table.holds_of_find? (p := fun r : SongRequest => r.id = afterId ∧
        r.liveSessionId = liveSessionId) ha
    refine .after a hposition (Table.mem_of_find? ha) (hholds.1 ▸ hid) hholds.2 rfl ?_
    exact @reordered_update _ (fun r => r.liveSessionId = liveSessionId ∧
      a.queueOrder + 1 ≤ r.queueOrder) _ (fun r => r.queueOrder + 1) ⟨fun _ => rfl⟩

/-- Whatever the place, the rows keep their relative orders and the new order is free. -/
theorem Placing.reordered {s placed : Room} {data : RequestData} {order : Int}
    (h : Placing s placed liveSessionId data order) :
    ∃ shift : SongRequest → Int, Reordered shift s.requests placed.requests ∧
      (∀ r q : SongRequest, r.liveSessionId = q.liveSessionId → r.queueOrder < q.queueOrder →
        shift r < shift q) ∧
      ∀ q ∈ s.requests, q.liveSessionId = liveSessionId → q.status ≠ .rejected →
        shift q ≠ order := by
  cases h with
  | front _ heq hbelow =>
    subst heq
    exact ⟨_, .refl _, fun _ _ _ hlt => hlt,
      fun q hq hsession hstatus => (hbelow q hq hsession hstatus).ne'⟩
  | back _ heq habove =>
    subst heq
    exact ⟨_, .refl _, fun _ _ _ hlt => hlt,
      fun q hq hsession hstatus => (habove q hq hsession hstatus).ne⟩
  | after a _ _ _ _ _ hgap =>
    refine ⟨_, hgap, ?_, ?_⟩
    · intro r q hsession hlt
      unfold gap
      rw [hsession]
      split <;> split <;> omega
    · intro q _ hsession _
      unfold gap
      rw [hsession]
      split <;> omega

/-- A request was added to the placed rows. -/
structure Added (s placed t : Room) (liveSessionId : Nat) (r : SongRequest) : Prop where
  active : ∃ l ∈ s.sessions, l.id = liveSessionId ∧ l.status = .active
  same : SameSessions s t
  requests : ∀ q, q ∈ t.requests ↔ q ∈ placed.requests ∨ q = r
  fresh : ∀ q ∈ placed.requests, q.id ≠ r.id
  liveSessionId : r.liveSessionId = liveSessionId
  status : r.status = .pending
  source : r.source = .manual

theorem place_same {data : RequestData} {placed : Room} {order : Int}
    (h : SongRequestQueueService.place room liveSessionId data any = .ok (placed, order)) :
    placed.sessions = room.sessions ∧ placed.overlayToken = room.overlayToken ∧
      placed.counter = room.counter := by
  unfold SongRequestQueueService.place at h
  cases hposition : data.position with
  | front =>
    simp only [hposition, pure_ok, Prod.mk.injEq] at h
    obtain ⟨rfl, -⟩ := h
    exact ⟨rfl, rfl, rfl⟩
  | back =>
    simp only [hposition, pure_ok, Prod.mk.injEq] at h
    obtain ⟨rfl, -⟩ := h
    exact ⟨rfl, rfl, rfl⟩
  | after =>
    simp only [hposition, bind_ok, require_ok, pure_ok, Prod.mk.injEq] at h
    obtain ⟨_, -, _, -, rfl, -⟩ := h
    exact ⟨rfl, rfl, rfl⟩

/-- A request is added behind the place made for it. -/
theorem addToQueue_added {channel : Channel} {data : RequestData} {random : Nat}
    (h : SongRequestQueueService.addToQueue channel room now liveSessionId data random any
      = .ok t) :
    ∃ placed r, SongRequestQueueService.place room liveSessionId data any =
      .ok (placed, r.queueOrder) ∧ Added room placed t liveSessionId r := by
  simp only [SongRequestQueueService.addToQueue, bind_ok, require_ok, ensure_ok, pure_ok] at h
  obtain ⟨session, hsession, -, hactive, -, -, -, -, -, -, song, -, -, -, ⟨placed, order⟩, hplace,
    ⟨drawn, id⟩, hid, requests, hrequests, rfl⟩ := h
  obtain ⟨rfl, rfl⟩ := nextId_spec hid
  obtain ⟨hsessions, htoken, hcounter⟩ := place_same hplace
  refine ⟨placed, _, ?_, ⟨?_, ?_, fun q => Table.mem_insert hrequests, ?_, rfl, rfl, rfl⟩⟩
  · exact hplace
  · exact ⟨session, Table.mem_of_find? hsession,
      Table.holds_of_find? (p := fun s : LiveSession => s.id = liveSessionId) hsession, hactive⟩
  · refine SameSessions.bump (.of_eq hsessions htoken ?_)
    show room.counter ≤ placed.counter + 1
    omega
  · intro q hq heq
    exact Table.fresh_of_insert hrequests hq ⟨q.id, List.mem_cons_self, heq ▸ List.mem_cons_self⟩

/-- `removeFromQueue` moves up the rows behind the removed one. -/
theorem removeFromQueue_spec
    (h : SongRequestQueueService.removeFromQueue room requestId = .ok t) :
    ∃ r ∈ room.requests, r.id = requestId ∧ SameSessions room t ∧
      Reordered (fun q => if q.liveSessionId = r.liveSessionId ∧ r.queueOrder < q.queueOrder then
          q.queueOrder - 1 else q.queueOrder)
        (room.requests.delete fun q => q.id = requestId) t.requests := by
  simp only [SongRequestQueueService.removeFromQueue, bind_ok, require_ok, pure_ok] at h
  obtain ⟨r, hr, rfl⟩ := h
  refine ⟨r, Table.mem_of_find? hr,
    Table.holds_of_find? (p := fun q : SongRequest => q.id = requestId) hr, ?_, ?_⟩
  · exact SameSessions.bump (.of_eq rfl rfl (Nat.le_refl _))
  · exact @reordered_update _ (fun q => q.liveSessionId = r.liveSessionId ∧
      r.queueOrder < q.queueOrder) _ (fun q => q.queueOrder - 1) ⟨fun _ => rfl⟩

theorem mem_pendingRequests {r : SongRequest} :
    r ∈ pendingRequests room liveSessionId any ↔
      r ∈ room.requests ∧ r.liveSessionId = liveSessionId ∧ r.status.Waiting :=
  mem_findMany

theorem nodup_findMany {ρ κ : Type} [Row ρ] [LinearOrder κ] {s : Table ρ} {p : ρ → Prop}
    [DecidablePred p] {key : ρ → κ} {id : ρ → Nat} : (findMany s p key id any).Nodup := by
  rw [findMany, (List.perm_insertionSort _ _).nodup_iff]
  exact s.nodup.filter _

/-- The ids of rows of the table are distinct. -/
theorem nodup_ids {s : Table SongRequest} {rows : List SongRequest} (hrows : rows.Nodup)
    (hmem : ∀ r ∈ rows, r ∈ s) : (rows.map SongRequest.id).Nodup :=
  hrows.map_on fun _ hr _ hq h => eq_of_request (hmem _ hr) (hmem _ hq) h

/-- The waiting ids, with one of them moved to a position. -/
def reorderedIds (room : Room) (liveSessionId requestId newOrder : Nat) (any : AnyOrder) :
    List Nat :=
  (((pendingRequests room liveSessionId any).map SongRequest.id).filter
    fun id => id ≠ requestId).insertIdx (newOrder - 1) requestId

theorem nodup_reorderedIds {newOrder : Nat} :
    (reorderedIds room liveSessionId requestId newOrder any).Nodup := by
  have hpending : ((pendingRequests room liveSessionId any).map SongRequest.id).Nodup :=
    nodup_ids nodup_findMany fun _ hr => (mem_pendingRequests.mp hr).1
  have hothers := hpending.filter (fun id => decide (id ≠ requestId))
  by_cases hle : newOrder - 1 ≤ (((pendingRequests room liveSessionId any).map
      SongRequest.id).filter fun id => id ≠ requestId).length
  · rw [reorderedIds, (List.perm_insertIdx _ _ hle).nodup_iff, List.nodup_cons]
    exact ⟨by simp, hothers⟩
  · rw [reorderedIds, List.insertIdx_of_length_lt (Nat.lt_of_not_le hle)]
    exact hothers

theorem le_baseOrder {q : SongRequest} (hq : q ∈ room.requests)
    (hsession : q.liveSessionId = liveSessionId)
    (hstatus : q.status = .completed ∨ q.status = .playing) :
    q.queueOrder ≤ baseOrder room liveSessionId any := by
  unfold baseOrder
  cases hbase : findFirst room.requests
      (fun r => r.liveSessionId = liveSessionId ∧ (r.status = .completed ∨ r.status = .playing))
      SongRequest.byOrderDesc SongRequest.id any with
  | none => exact absurd ⟨hsession, hstatus⟩ (findFirst_none.mp hbase q hq)
  | some r =>
    have hle : r.byOrderDesc ≤ q.byOrderDesc := findFirst_le hbase hq ⟨hsession, hstatus⟩
    unfold SongRequest.byOrderDesc at hle
    show q.queueOrder ≤ r.queueOrder
    omega

/-- What `updateOrder` checks and writes. -/
theorem updateOrder_spec {newOrder : Nat}
    (h : SongRequestQueueService.updateOrder room requestId newOrder any = .ok t) :
    ∃ r ∈ room.requests, r.id = requestId ∧ r.status.Waiting ∧ 1 ≤ newOrder ∧
      newOrder ≤ (pendingRequests room r.liveSessionId any).length ∧ SameSessions room t ∧
      t.requests = renumber room.requests (baseOrder room r.liveSessionId any)
        (reorderedIds room r.liveSessionId requestId newOrder any) := by
  simp only [SongRequestQueueService.updateOrder, bind_ok, require_ok, ensure_ok, pure_ok] at h
  obtain ⟨r, hr, -, hwaiting, -, ⟨hpos, hle⟩, rfl⟩ := h
  refine ⟨r, Table.mem_of_find? hr,
    Table.holds_of_find? (p := fun q : SongRequest => q.id = requestId) hr, hwaiting, hpos, hle,
    ?_, rfl⟩
  exact SameSessions.bump (.of_eq rfl rfl (Nat.le_refl _))

theorem mem_clearQueue {q : SongRequest} :
    q ∈ (SongRequestService.clearQueue room liveSessionId).requests ↔
      q ∈ room.requests ∧ ¬(q.liveSessionId = liveSessionId ∧ q.status = .pending) := by
  unfold SongRequestService.clearQueue
  split
  · exact Table.mem_delete
  · exact Table.mem_delete

/-! ## The commands keep the sessions -/

/-- The commands on the requests of a session. -/
def SongCommand.OnRequests : SongCommand → Prop
  | .startSession .. | .cloneSession .. | .endSession .. => False
  | _ => True

theorem updateStatus_same {status : SongRequestStatus} {reason : Option String}
    (h : SongRequestService.updateStatus room now requestId status reason = .ok t) :
    SameSessions room t := by
  simp only [SongRequestService.updateStatus, bind_ok, pure_ok] at h
  obtain ⟨existing, -, rfl⟩ := h
  exact SameSessions.bump (.of_eq rfl rfl (Nat.le_refl _))

theorem setRequest_same {f : SongRequest → SongRequest} {hf : Table.Keeps f} :
    SameSessions room (setRequest room requestId f hf) :=
  .of_eq rfl rfl (Nat.le_refl _)

theorem completeRequest_same (current : Option SongRequest) :
    SameSessions room (completeRequest room now current) := by
  cases current with
  | none => exact .refl room
  | some r => exact setRequest_same

theorem playNext_same :
    SameSessions room (SongRequestService.playNext room now liveSessionId any) := by
  unfold SongRequestService.playNext
  split
  · split
    · exact .refl room
    · exact ((completeRequest_same _).trans setRequest_same).bump
  · exact .refl room

theorem skipped_same {reason : Option String} :
    SameSessions room (skipped room liveSessionId reason any) := by
  unfold skipped
  split
  · exact .refl room
  · exact setRequest_same

/-- No command on the requests touches the sessions. -/
theorem exec_same {channel : Channel} {c : SongCommand} (hc : c.OnRequests)
    (h : exec channel c now any room = .ok t) : SameSessions room t := by
  cases c with
  | startSession => exact absurd hc id
  | cloneSession => exact absurd hc id
  | endSession => exact absurd hc id
  | addToQueue liveSessionId data random =>
    obtain ⟨_, _, -, hadded⟩ := addToQueue_added h
    exact hadded.same
  | updateStatus => exact updateStatus_same h
  | updateOrder =>
    obtain ⟨_, -, -, -, -, -, hsame, -⟩ := updateOrder_spec h
    exact hsame
  | removeFromQueue =>
    obtain ⟨_, -, -, hsame, -⟩ := removeFromQueue_spec h
    exact hsame
  | playNext =>
    obtain rfl := Except.ok.inj h
    exact playNext_same
  | skipCurrent liveSessionId reason =>
    obtain rfl := Except.ok.inj h
    rw [skipCurrent_eq]
    exact skipped_same.trans playNext_same
  | playNow =>
    simp only [exec, SongRequestService.playNow, bind_ok] at h
    obtain ⟨request, -, h⟩ := h
    exact (completeRequest_same _).trans (updateStatus_same h)
  | clearQueue =>
    obtain rfl := Except.ok.inj h
    unfold SongRequestService.clearQueue
    split
    · exact SameSessions.bump (.of_eq rfl rfl (Nat.le_refl _))
    · exact .of_eq rfl rfl (Nat.le_refl _)

end Rogichat.SongLive
