import Rogichat.SongLive.System

/-!
# The playing request

`playNext`, `skipCurrent` and `playNow` put the playing request aside before they start another.
`updateStatus` does not, so a run keeps to one playing request while no status update starts a
second: it is `Settled`.

* **`OnePlaying`** — at most one request of a session plays.
* **`Becomes`** — what a command makes of every request's status.
* **`reachable_onePlaying`** — settled runs keep to one playing request.
-/

namespace Rogichat.SongLive

open Lib

/-- At most one request of a session plays. -/
def OnePlaying (room : Room) : Prop :=
  ∀ r ∈ room.requests, ∀ q ∈ room.requests, r.status = .playing → q.status = .playing →
    r.liveSessionId = q.liveSessionId → r = q

instance : DecidablePred OnePlaying := fun _ => by unfold OnePlaying; infer_instance

/-- No status update starts a request while another one of its session plays. -/
def Settled (room : Room) : SongCommand → Prop
  | .updateStatus requestId status _ => status = .playing → ∀ r ∈ room.requests,
      r.id = requestId → ∀ q ∈ room.requests, q.status = .playing →
        q.liveSessionId = r.liveSessionId → q.id = requestId
  | _ => True

instance (room : Room) : (c : SongCommand) → Decidable (Settled room c)
  | .updateStatus requestId status _ =>
    inferInstanceAs (Decidable (status = .playing → ∀ r ∈ room.requests, r.id = requestId →
      ∀ q ∈ room.requests, q.status = .playing → q.liveSessionId = r.liveSessionId →
        q.id = requestId))
  | .startSession .. | .cloneSession .. | .endSession .. | .addToQueue .. | .updateOrder ..
  | .removeFromQueue .. | .playNext .. | .skipCurrent .. | .playNow .. | .clearQueue .. =>
    .isTrue trivial

/-- Every request keeps its place and gets a status. -/
structure Becomes (s t : Room) (status : SongRequest → SongRequestStatus) : Prop where
  forward : ∀ r ∈ s.requests, ∃ r' ∈ t.requests, r.Placed r' ∧ r'.status = status r
  back : ∀ r' ∈ t.requests, ∃ r ∈ s.requests, r.Placed r' ∧ r'.status = status r

/-- The waiting request that comes first, by priority and then by order. -/
structure First (s : Room) (liveSessionId : Nat) (next : SongRequest) : Prop where
  mem : next ∈ s.requests
  session : next.liveSessionId = liveSessionId
  waiting : next.status.Waiting
  first : ∀ q ∈ s.requests, q.liveSessionId = liveSessionId → q.status.Waiting →
    q.priority < next.priority ∨
      q.priority = next.priority ∧ next.queueOrder ≤ q.queueOrder

/-- The playing request of the session gets the status, no other changes. -/
def aside (liveSessionId : Nat) (status : SongRequestStatus) (r : SongRequest) :
    SongRequestStatus :=
  if r.liveSessionId = liveSessionId ∧ r.status = .playing then status else r.status

/-- The playing request gets the status and another one plays. -/
def advanced (liveSessionId : Nat) (status : SongRequestStatus) (next : Nat) (r : SongRequest) :
    SongRequestStatus :=
  if r.id = next then .playing else aside liveSessionId status r

variable {channel : Channel} {s t : Room} {now : Time} {any : AnyOrder} {c : SongCommand}
  {requestId liveSessionId : Nat}

/-- What is restated becomes what the restatement says. -/
theorem Becomes.of_restated {change : Change} {status : SongRequest → SongRequestStatus}
    (h : Restated change s t) (heq : ∀ r ∈ s.requests, change r.id r.status = status r) :
    Becomes s t status := by
  constructor
  · intro r hr
    obtain ⟨r', hr', hplaced, hstatus⟩ := h.forward r hr
    exact ⟨r', hr', hplaced, hstatus.trans (heq r hr)⟩
  · intro r' hr'
    obtain ⟨r, hr, hplaced, hstatus⟩ := h.back r' hr'
    exact ⟨r, hr, hplaced, hstatus.trans (heq r hr)⟩

/-! ## What the lookups find -/

theorem nowPlaying_iff (hs : OnePlaying s) {r : SongRequest} (hr : r ∈ s.requests) :
    nowPlaying s liveSessionId any = some r ↔
      r.liveSessionId = liveSessionId ∧ r.status = .playing := by
  constructor
  · intro h
    exact (findFirst_some h).2
  · rintro ⟨hsession, hplaying⟩
    cases hfound : nowPlaying s liveSessionId any with
    | none => exact absurd ⟨hsession, hplaying⟩ (findFirst_none.mp hfound r hr)
    | some q =>
      obtain ⟨hq, hqsession, hqplaying⟩ := findFirst_some hfound
      rw [hs q hq r hr hqplaying hplaying (hqsession.trans hsession.symm)]

/-- Setting the row that `nowPlaying` reads sets exactly the playing request. -/
theorem setAny_nowPlaying (hs : OnePlaying s) {status : SongRequestStatus} {r : SongRequest}
    (hr : r ∈ s.requests) :
    Change.setAny (nowPlaying s liveSessionId any) status r.id r.status =
      aside liveSessionId status r := by
  unfold aside
  by_cases hplaying : r.liveSessionId = liveSessionId ∧ r.status = .playing
  · rw [if_pos hplaying, (nowPlaying_iff hs hr).mpr hplaying, Change.setAny, Change.set,
      if_pos rfl]
  · rw [if_neg hplaying]
    cases hfound : nowPlaying s liveSessionId any with
    | none => rfl
    | some q =>
      have hne : r.id ≠ q.id := by
        intro heq
        obtain ⟨hq, hqplaying⟩ := findFirst_some hfound
        obtain rfl := eq_of_request hr hq heq
        exact hplaying hqplaying
      rw [Change.setAny, Change.set, if_neg hne]

/-- The next request is the first that waits. -/
theorem first_of_nextRequest {next : SongRequest}
    (h : nextRequest s liveSessionId any = some next) : First s liveSessionId next := by
  obtain ⟨hmem, hsession, hwaiting⟩ := findFirst_some h
  refine ⟨hmem, hsession, hwaiting, fun q hq hqsession hqwaiting => ?_⟩
  have hle : next.byPriority ≤ q.byPriority := findFirst_le h hq ⟨hqsession, hqwaiting⟩
  rcases Prod.Lex.toLex_le_toLex.mp hle with hlt | ⟨heq, horder⟩
  · exact .inl (by omega)
  · exact .inr ⟨by omega, horder⟩

/-- Without a next request nothing waits. -/
theorem nextRequest_none (h : nextRequest s liveSessionId any = none) {q : SongRequest}
    (hq : q ∈ s.requests) (hsession : q.liveSessionId = liveSessionId) : ¬q.status.Waiting :=
  fun hwaiting => findFirst_none.mp h q hq ⟨hsession, hwaiting⟩

/-! ## What the commands do -/

/-- What `playNext` does: advance, or nothing. -/
theorem playNext_becomes (hs : OnePlaying s) :
    (∃ next, SessionActive s liveSessionId ∧ First s liveSessionId next ∧
      Becomes s (SongRequestService.playNext s now liveSessionId any)
        (advanced liveSessionId .completed next.id)) ∨
    ((¬SessionActive s liveSessionId ∨
        ∀ q ∈ s.requests, q.liveSessionId = liveSessionId → ¬q.status.Waiting) ∧
      Becomes s (SongRequestService.playNext s now liveSessionId any) SongRequest.status) := by
  have hrestated := @playNext_restated s now any liveSessionId
  by_cases hactive : SessionActive s liveSessionId
  · cases hnext : nextRequest s liveSessionId any with
    | none =>
      refine .inr ⟨.inr fun q hq hsession => nextRequest_none hnext hq hsession, ?_⟩
      refine .of_restated hrestated fun r _ => ?_
      rw [playNextChange, if_pos hactive, hnext]
    | some next =>
      refine .inl ⟨next, hactive, first_of_nextRequest hnext, .of_restated hrestated fun r hr => ?_⟩
      rw [playNextChange, if_pos hactive, hnext]
      show Change.set next.id .playing r.id _ = _
      rw [Change.set, advanced, setAny_nowPlaying hs hr]
  · refine .inr ⟨.inl hactive, .of_restated hrestated fun r _ => ?_⟩
    rw [playNextChange, if_neg hactive]

theorem Becomes.trans {u : Room} {f g k : SongRequest → SongRequestStatus} (h : Becomes s t f)
    (h' : Becomes t u g)
    (hk : ∀ r ∈ s.requests, ∀ r', r.Placed r' → r'.status = f r → g r' = k r) : Becomes s u k := by
  constructor
  · intro r hr
    obtain ⟨r₁, hr₁, hplaced, hstatus⟩ := h.forward r hr
    obtain ⟨r₂, hr₂, hplaced', hstatus'⟩ := h'.forward r₁ hr₁
    exact ⟨r₂, hr₂, hplaced.trans hplaced', hstatus'.trans (hk r hr r₁ hplaced hstatus)⟩
  · intro r₂ hr₂
    obtain ⟨r₁, hr₁, hplaced', hstatus'⟩ := h'.back r₂ hr₂
    obtain ⟨r, hr, hplaced, hstatus⟩ := h.back r₁ hr₁
    exact ⟨r, hr, hplaced.trans hplaced', hstatus'.trans (hk r hr r₁ hplaced hstatus)⟩

/-- Rows that play come from rows that played. -/
theorem OnePlaying.of_back (hs : OnePlaying s)
    (h : ∀ r' ∈ t.requests, r'.status = .playing → ∃ r ∈ s.requests, r.status = .playing ∧
      r'.id = r.id ∧ r'.liveSessionId = r.liveSessionId) : OnePlaying t := by
  intro r' hr' q' hq' hplaying hplaying' hsession
  obtain ⟨r, hr, hrplaying, hrid, hrsession⟩ := h r' hr' hplaying
  obtain ⟨q, hq, hqplaying, hqid, hqsession⟩ := h q' hq' hplaying'
  have heq : r = q :=
    hs r hr q hq hrplaying hqplaying (hrsession.symm.trans (hsession.trans hqsession))
  exact eq_of_request hr' hq' (by rw [hrid, hqid, heq])

/-- After an advance the next request is the one of its session that plays. -/
theorem OnePlaying.advanced {status : SongRequestStatus} {next : SongRequest} (hs : OnePlaying s)
    (hstatus : status ≠ .playing) (hnext : next ∈ s.requests)
    (hsession : next.liveSessionId = liveSessionId)
    (h : Becomes s t (advanced liveSessionId status next.id)) : OnePlaying t := by
  -- what plays is the next request or played already, in another session
  have hcase : ∀ r ∈ s.requests, SongLive.advanced liveSessionId status next.id r = .playing →
      r = next ∨ r.status = .playing ∧ r.liveSessionId ≠ liveSessionId := by
    intro r hr hplays
    unfold SongLive.advanced aside at hplays
    by_cases hid : r.id = next.id
    · exact .inl (eq_of_request hr hnext hid)
    · rw [if_neg hid] at hplays
      by_cases hplaying : r.liveSessionId = liveSessionId ∧ r.status = .playing
      · rw [if_pos hplaying] at hplays
        exact absurd hplays hstatus
      · rw [if_neg hplaying] at hplays
        exact .inr ⟨hplays, fun heq => hplaying ⟨heq, hplays⟩⟩
  intro r' hr' q' hq' hplaying hplaying' hsame
  obtain ⟨r, hr, hrplaced, hrstatus⟩ := h.back r' hr'
  obtain ⟨q, hq, hqplaced, hqstatus⟩ := h.back q' hq'
  rw [hrplaced.liveSessionId, hqplaced.liveSessionId] at hsame
  have heq : r = q := by
    rcases hcase r hr (hrstatus.symm.trans hplaying) with rfl | ⟨hrplaying, hrsession⟩
    · rcases hcase q hq (hqstatus.symm.trans hplaying') with rfl | ⟨-, hqsession⟩
      · rfl
      · exact absurd (hsame.symm.trans hsession) hqsession
    · rcases hcase q hq (hqstatus.symm.trans hplaying') with rfl | ⟨hqplaying, -⟩
      · exact absurd (hsame.trans hsession) hrsession
      · exact hs r hr q hq hrplaying hqplaying hsame
  exact eq_of_request hr' hq' (by rw [hrplaced.id, hqplaced.id, heq])

/-- Only requests that played play after the playing one is put aside. -/
theorem OnePlaying.aside {status : SongRequestStatus} (hs : OnePlaying s)
    (hstatus : status ≠ .playing) (h : Becomes s t (aside liveSessionId status)) :
    OnePlaying t := by
  refine hs.of_back fun r' hr' hplaying => ?_
  obtain ⟨r, hr, hplaced, hbecomes⟩ := h.back r' hr'
  rw [hplaying] at hbecomes
  unfold SongLive.aside at hbecomes
  by_cases hold : r.liveSessionId = liveSessionId ∧ r.status = .playing
  · rw [if_pos hold] at hbecomes
    exact absurd hbecomes.symm hstatus
  · rw [if_neg hold] at hbecomes
    exact ⟨r, hr, hbecomes.symm, hplaced.id, hplaced.liveSessionId⟩

/-- A skip rejects what plays in the session. -/
theorem skipped_becomes {reason : Option String} (hs : OnePlaying s) :
    Becomes s (skipped s liveSessionId reason any) (aside liveSessionId .rejected) :=
  .of_restated skipped_restated fun _ hr => setAny_nowPlaying hs hr

theorem skipped_active {reason : Option String} :
    SessionActive (skipped s liveSessionId reason any) liveSessionId ↔
      SessionActive s liveSessionId := by
  unfold skipped
  cases nowPlaying s liveSessionId any with
  | none => exact Iff.rfl
  | some current => exact Iff.rfl

theorem aside_waiting {r : SongRequest} :
    (aside liveSessionId .rejected r).Waiting ↔ r.status.Waiting := by
  unfold aside
  by_cases hplaying : r.liveSessionId = liveSessionId ∧ r.status = .playing
  · rw [if_pos hplaying, hplaying.2]
    decide
  · rw [if_neg hplaying]

/-- What `skipCurrent` does: the playing request is rejected, and the next one plays if
`playNext` would start one. -/
theorem skipCurrent_becomes {reason : Option String} (hs : OnePlaying s) :
    (∃ next, SessionActive s liveSessionId ∧ First s liveSessionId next ∧
      Becomes s (SongRequestService.skipCurrent s now liveSessionId reason any)
        (advanced liveSessionId .rejected next.id)) ∨
    ((¬SessionActive s liveSessionId ∨
        ∀ q ∈ s.requests, q.liveSessionId = liveSessionId → ¬q.status.Waiting) ∧
      Becomes s (SongRequestService.skipCurrent s now liveSessionId reason any)
        (aside liveSessionId .rejected)) := by
  have hskipped := @skipped_becomes s any liveSessionId reason hs
  have hone : OnePlaying (skipped s liveSessionId reason any) := hs.aside (by decide) hskipped
  rw [skipCurrent_eq]
  rcases @playNext_becomes _ now any liveSessionId hone with
    ⟨next', hactive, hfirst, hbecomes⟩ | ⟨hidle, hbecomes⟩
  · obtain ⟨next, hnext, hplaced, hstatus⟩ := hskipped.back next' hfirst.mem
    refine .inl ⟨next, skipped_active.mp hactive, ?_, hskipped.trans hbecomes ?_⟩
    · refine ⟨hnext, hplaced.liveSessionId.symm.trans hfirst.session, ?_, ?_⟩
      · rw [← @aside_waiting liveSessionId, ← hstatus]
        exact hfirst.waiting
      · intro q hq hsession hwaiting
        obtain ⟨q', hq', hqplaced, hqstatus⟩ := hskipped.forward q hq
        have hfirst' := hfirst.first q' hq' (hqplaced.liveSessionId.trans hsession) (by
          rw [hqstatus, aside_waiting]
          exact hwaiting)
        rwa [hqplaced.priority, hqplaced.queueOrder, hplaced.priority, hplaced.queueOrder]
          at hfirst'
    · intro r _ r' hrplaced hrstatus
      unfold advanced
      rw [hrplaced.id, hplaced.id]
      congr 1
      -- nothing of the session plays after the rejection
      have hnot : ¬(r'.liveSessionId = liveSessionId ∧ r'.status = .playing) := by
        rintro ⟨hsession, hplaying⟩
        rw [hrstatus] at hplaying
        unfold aside at hplaying
        by_cases hold : r.liveSessionId = liveSessionId ∧ r.status = .playing
        · rw [if_pos hold] at hplaying
          cases hplaying
        · rw [if_neg hold] at hplaying
          exact hold ⟨hrplaced.liveSessionId.symm.trans hsession, hplaying⟩
      rw [aside, if_neg hnot, hrstatus]
  · refine .inr ⟨?_, hskipped.trans hbecomes fun r _ r' _ hstatus => hstatus⟩
    rcases hidle with hinactive | hnone
    · exact .inl fun h => hinactive (skipped_active.mpr h)
    · refine .inr fun q hq hsession hwaiting => ?_
      obtain ⟨q', hq', hqplaced, hqstatus⟩ := hskipped.forward q hq
      refine hnone q' hq' (hqplaced.liveSessionId.trans hsession) ?_
      rw [hqstatus, aside_waiting]
      exact hwaiting

/-- Setting the row that `playNow` reads sets the playing request, unless it is the given one. -/
theorem setAny_replaced (hs : OnePlaying s) {request r : SongRequest} (hr : r ∈ s.requests)
    (hne : r.id ≠ request.id) :
    Change.setAny (replaced s request any) .completed r.id r.status =
      aside request.liveSessionId .completed r := by
  unfold aside replaced
  cases hfound : findFirst s.requests
      (fun q => q.liveSessionId = request.liveSessionId ∧ q.status = .playing) (fun _ => ())
      SongRequest.id any with
  | none =>
    rw [if_neg (findFirst_none.mp hfound r hr)]
    rfl
  | some q =>
    obtain ⟨hq, hqsession, hqplaying⟩ := findFirst_some hfound
    by_cases hplaying : r.liveSessionId = request.liveSessionId ∧ r.status = .playing
    · obtain rfl := hs q hq r hr hqplaying hplaying.2 (hqsession.trans hplaying.1.symm)
      rw [if_pos hplaying, Option.filter_some, if_pos (by simpa using hne), Change.setAny,
        Change.set, if_pos rfl]
    · have hother : r.id ≠ q.id := by
        intro heq
        obtain rfl := eq_of_request hr hq heq
        exact hplaying ⟨hqsession, hqplaying⟩
      rw [if_neg hplaying, Option.filter_some]
      split
      · rw [Change.setAny, Change.set, if_neg hother]
      · rfl

/-- What `playNow` does: the playing request is completed and the given one plays. -/
theorem playNow_becomes (hs : OnePlaying s)
    (h : SongRequestService.playNow s now requestId any = .ok t) :
    ∃ r ∈ s.requests, r.id = requestId ∧
      Becomes s t (advanced r.liveSessionId .completed requestId) := by
  obtain ⟨request, hrequest, rfl, hchange⟩ := playNow_restated h
  refine ⟨request, hrequest, rfl, .of_restated hchange fun r hr => ?_⟩
  unfold advanced
  rw [Change.set]
  by_cases hid : r.id = request.id
  · rw [if_pos hid, if_pos hid]
  · rw [if_neg hid, if_neg hid, setAny_replaced hs hr hid]

/-! ## Over runs -/

/-- A status change keeps one playing, unless it starts a second. -/
theorem OnePlaying.updateStatus {status : SongRequestStatus} {reason : Option String}
    (hs : OnePlaying s) (ho : Settled s (.updateStatus requestId status reason))
    (h : SongRequestService.updateStatus s now requestId status reason = .ok t) :
    OnePlaying t := by
  have hrestated := updateStatus_restated h
  intro r' hr' q' hq' hplaying hplaying' hsession
  obtain ⟨r, hr, hrplaced, hrstatus⟩ := hrestated.back r' hr'
  obtain ⟨q, hq, hqplaced, hqstatus⟩ := hrestated.back q' hq'
  rw [hrplaced.liveSessionId, hqplaced.liveSessionId] at hsession
  rw [hplaying, Change.set] at hrstatus
  rw [hplaying', Change.set] at hqstatus
  have heq : r = q := by
    by_cases hrid : r.id = requestId
    · by_cases hqid : q.id = requestId
      · exact eq_of_request hr hq (hrid.trans hqid.symm)
      · rw [if_pos hrid] at hrstatus
        rw [if_neg hqid] at hqstatus
        exact absurd (ho hrstatus.symm r hr hrid q hq hqstatus.symm hsession.symm) hqid
    · rw [if_neg hrid] at hrstatus
      by_cases hqid : q.id = requestId
      · rw [if_pos hqid] at hqstatus
        exact absurd (ho hqstatus.symm q hq hqid r hr hrstatus.symm hsession) hrid
      · rw [if_neg hqid] at hqstatus
        exact hs r hr q hq hrstatus.symm hqstatus.symm hsession
  exact eq_of_request hr' hq' (by rw [hrplaced.id, hqplaced.id, heq])

theorem OnePlaying.reordered {order : SongRequest → Int} (hs : OnePlaying s)
    (h : Reordered order s.requests t.requests) : OnePlaying t := by
  refine hs.of_back fun r' hr' hplaying => ?_
  obtain ⟨r, hr, rfl⟩ := (h r').mp hr'
  exact ⟨r, hr, hplaying, rfl, rfl⟩

theorem OnePlaying.of_subset (hs : OnePlaying s) (h : ∀ q ∈ t.requests, q ∈ s.requests) :
    OnePlaying t :=
  hs.of_back fun r hr hplaying => ⟨r, h r hr, hplaying, rfl, rfl⟩

/-- A clone copies the statuses into a session that had no requests. -/
theorem OnePlaying.cloned {sourceSessionId drawn : Nat} (hok : RoomOk s) (hs : OnePlaying s)
    (h : LiveSessionService.cloneSession s now sourceSessionId drawn any = .ok t) :
    OnePlaying t := by
  obtain ⟨l, first, hopened, hmem⟩ := cloneSession_opened h
  have hfresh : ∀ q ∈ s.requests, q.liveSessionId ≠ l.id := fun q hq => hopened.no_requests hok hq
  have hsource : ∀ i x, (sourceRequests s sourceSessionId any)[i]? = some x →
      x ∈ s.requests ∧ x.liveSessionId = sourceSessionId := fun i x hx =>
    mem_findMany.mp (List.mem_of_getElem? hx)
  intro p hp q hq hpplaying hqplaying hsession
  rcases (hmem p).mp hp with hp | ⟨i, x, hx, rfl⟩
  · rcases (hmem q).mp hq with hq | ⟨j, y, hy, rfl⟩
    · exact hs p hp q hq hpplaying hqplaying hsession
    · exact absurd hsession (hfresh p hp)
  · rcases (hmem q).mp hq with hq | ⟨j, y, hy, rfl⟩
    · exact absurd hsession.symm (hfresh q hq)
    · obtain ⟨hxmem, hxsession⟩ := hsource i x hx
      obtain ⟨hymem, hysession⟩ := hsource j y hy
      obtain rfl : x = y :=
        hs x hxmem y hymem hpplaying hqplaying (hxsession.trans hysession.symm)
      have hnodup : (sourceRequests s sourceSessionId any).Nodup := nodup_findMany
      obtain ⟨hi, hxi⟩ := List.getElem?_eq_some_iff.mp hx
      obtain ⟨hj, hxj⟩ := List.getElem?_eq_some_iff.mp hy
      obtain rfl : i = j := (List.Nodup.getElem_inj_iff hnodup).mp (hxi.trans hxj.symm)
      rfl

/-- A step keeps one request playing. -/
theorem exec_onePlaying (hok : RoomOk s) (hs : OnePlaying s) (ho : Settled s c)
    (h : exec channel c now any s = .ok t) : OnePlaying t := by
  cases c with
  | startSession =>
    obtain ⟨_, -, hrequests⟩ := startSession_opened h
    exact hs.of_subset fun q hq => hrequests ▸ hq
  | cloneSession => exact hs.cloned hok h
  | endSession =>
    obtain ⟨-, -, hrequests⟩ := endSession_spec h
    exact hs.of_subset hrequests
  | addToQueue =>
    obtain ⟨placed, r, hplace, hadded⟩ := addToQueue_added h
    obtain ⟨_, hshift, -⟩ := (place_placing hplace).reordered
    refine (hs.reordered hshift).of_back fun q hq hplaying => ?_
    rcases (hadded.requests q).mp hq with hq | rfl
    · exact ⟨q, hq, hplaying, rfl, rfl⟩
    · rw [hadded.status] at hplaying
      cases hplaying
  | updateStatus => exact hs.updateStatus ho h
  | updateOrder =>
    obtain ⟨_, -, -, -, -, -, -, heq⟩ := updateOrder_spec h
    exact hs.reordered (heq ▸ renumber_reordered nodup_reorderedIds)
  | removeFromQueue =>
    obtain ⟨_, -, -, -, hclosed⟩ := removeFromQueue_spec h
    refine hs.of_back fun q hq hplaying => ?_
    obtain ⟨p, hp, rfl⟩ := (hclosed q).mp hq
    exact ⟨p, (Table.mem_delete.mp hp).1, hplaying, rfl, rfl⟩
  | playNext liveSessionId =>
    -- the request that plays is COMPLETED and the first one waiting takes its place
    obtain rfl := Except.ok.inj h
    rcases @playNext_becomes s now any liveSessionId hs with
      ⟨next, -, hfirst, hbecomes⟩ | ⟨-, hbecomes⟩
    · exact hs.advanced (by decide) hfirst.mem hfirst.session hbecomes
    · refine hs.of_back fun q hq hplaying => ?_
      obtain ⟨r, hr, hplaced, hstatus⟩ := hbecomes.back q hq
      exact ⟨r, hr, hstatus.symm.trans hplaying, hplaced.id, hplaced.liveSessionId⟩
  | skipCurrent liveSessionId reason =>
    obtain rfl := Except.ok.inj h
    rcases @skipCurrent_becomes s now any liveSessionId reason hs with
      ⟨next, -, hfirst, hbecomes⟩ | ⟨-, hbecomes⟩
    · exact hs.advanced (by decide) hfirst.mem hfirst.session hbecomes
    · exact hs.aside (by decide) hbecomes
  | playNow =>
    obtain ⟨r, hr, rfl, hbecomes⟩ := playNow_becomes hs h
    exact hs.advanced (by decide) hr rfl hbecomes
  | clearQueue =>
    obtain rfl := Except.ok.inj h
    exact hs.of_subset fun q hq => (mem_clearQueue.mp hq).1

/-- Settled runs keep to one playing request. -/
theorem reachable_onePlaying (h : (songSystem channel Settled).Reachable s) : OnePlaying s := by
  refine System.Reachable.induct (P := OnePlaying) ⟨?_, ?_⟩ h
  · rintro _ rfl r hr
    exact absurd hr (Table.not_mem_empty r)
  · rintro u v c hr hu ⟨hexec, ho⟩
    exact exec_onePlaying (reachable_roomOk hr) hu ho hexec

/-- The commands that advance a session. -/
def SongCommand.Advances : SongCommand → Prop
  | .playNext _ | .skipCurrent _ _ | .playNow _ => True
  | _ => False

theorem advanced_finished {status : SongRequestStatus} {next : Nat} {r : SongRequest}
    (h : advanced liveSessionId status next r = .completed ∨
      advanced liveSessionId status next r = .rejected) :
    advanced liveSessionId status next r = r.status ∨ r.status = .playing := by
  unfold advanced aside at h ⊢
  by_cases hid : r.id = next
  · rw [if_pos hid] at h
    rcases h with h | h
    · cases h
    · cases h
  · rw [if_neg hid]
    by_cases hplaying : r.liveSessionId = liveSessionId ∧ r.status = .playing
    · exact .inr hplaying.2
    · exact .inl (if_neg hplaying)

theorem aside_finished {status : SongRequestStatus} {r : SongRequest} :
    aside liveSessionId status r = r.status ∨ r.status = .playing := by
  unfold aside
  by_cases hplaying : r.liveSessionId = liveSessionId ∧ r.status = .playing
  · exact .inr hplaying.2
  · exact .inl (if_neg hplaying)

/-- An advance finishes no request but the one that played. -/
theorem exec_finishes (hs : OnePlaying s) (hc : c.Advances)
    (h : exec channel c now any s = .ok t) {r r' : SongRequest} (hr : r ∈ s.requests)
    (hr' : r' ∈ t.requests) (hid : r'.id = r.id)
    (hfinished : r'.status = .completed ∨ r'.status = .rejected) :
    r'.status = r.status ∨ r.status = .playing := by
  have hback : ∀ {f : SongRequest → SongRequestStatus}, Becomes s t f → r'.status = f r := by
    intro f hbecomes
    obtain ⟨q, hq, hplaced, hstatus⟩ := hbecomes.back r' hr'
    obtain rfl := eq_of_request hq hr (hplaced.id.symm.trans hid)
    exact hstatus
  cases c with
  | playNext liveSessionId =>
    obtain rfl := Except.ok.inj h
    rcases @playNext_becomes s now any liveSessionId hs with
      ⟨next, -, -, hbecomes⟩ | ⟨-, hbecomes⟩
    · rw [hback hbecomes] at hfinished ⊢
      exact advanced_finished hfinished
    · exact .inl (hback hbecomes)
  | skipCurrent liveSessionId reason =>
    obtain rfl := Except.ok.inj h
    rcases @skipCurrent_becomes s now any liveSessionId reason hs with
      ⟨next, -, -, hbecomes⟩ | ⟨-, hbecomes⟩
    · rw [hback hbecomes] at hfinished ⊢
      exact advanced_finished hfinished
    · rw [hback hbecomes]
      exact aside_finished
  | playNow =>
    obtain ⟨_, -, -, hbecomes⟩ := playNow_becomes hs h
    rw [hback hbecomes] at hfinished ⊢
    exact advanced_finished hfinished
  | _ => exact absurd hc id

/-- In a settled run one request plays at most, and advancing loses none. -/
theorem one_plays (h : (songSystem channel Settled).Reachable s) :
    OnePlaying s ∧ ∀ c now any t, (songSystem channel Settled).step (c, now, any) s t →
      (∀ liveSessionId, c = .playNext liveSessionId →
        (∃ next, SessionActive s liveSessionId ∧ First s liveSessionId next ∧
          Becomes s t (advanced liveSessionId .completed next.id)) ∨
        ((¬SessionActive s liveSessionId ∨
            ∀ q ∈ s.requests, q.liveSessionId = liveSessionId → ¬q.status.Waiting) ∧
          Becomes s t SongRequest.status)) ∧
      (∀ liveSessionId reason, c = .skipCurrent liveSessionId reason →
        (∃ next, SessionActive s liveSessionId ∧ First s liveSessionId next ∧
          Becomes s t (advanced liveSessionId .rejected next.id)) ∨
        ((¬SessionActive s liveSessionId ∨
            ∀ q ∈ s.requests, q.liveSessionId = liveSessionId → ¬q.status.Waiting) ∧
          Becomes s t (aside liveSessionId .rejected))) ∧
      (∀ id, c = .playNow id → ∃ r ∈ s.requests, r.id = id ∧
        Becomes s t (advanced r.liveSessionId .completed id)) ∧
      (c.Advances → ∀ r ∈ s.requests, ∀ r' ∈ t.requests, r'.id = r.id →
        r'.status = .completed ∨ r'.status = .rejected →
        r'.status = r.status ∨ r.status = .playing) := by
  have hs := reachable_onePlaying h
  refine ⟨hs, ?_⟩
  rintro c now any t ⟨hexec, ho⟩
  refine ⟨?_, ?_, ?_, fun hc r hr r' hr' => exec_finishes hs hc hexec hr hr'⟩
  · rintro liveSessionId rfl
    obtain rfl := Except.ok.inj hexec
    exact playNext_becomes hs
  · rintro liveSessionId reason rfl
    obtain rfl := Except.ok.inj hexec
    exact skipCurrent_becomes hs
  · rintro id rfl
    exact playNow_becomes hs hexec

/-- One request plays, the other one is skipped to. -/
theorem one_plays_skipped : ∃ s t : Room, OnePlaying s ∧
    s.requests.rows.map SongRequest.status = [.playing, .pending] ∧
    t.requests.rows.map SongRequest.status = [.rejected, .playing] ∧
    ∃ next, First s 1 next ∧ Becomes s t (advanced 1 .rejected next.id) := by
  let any : AnyOrder := fun id => id
  let commands : List (SongCommand × Time × AnyOrder) :=
    [(.startSession false 7, 10, any),
      (.addToQueue 1 (operatorRequest none none) 0, 11, any),
      (.addToQueue 1 (operatorRequest none none) 0, 12, any),
      (.updateStatus 3 .playing none, 13, any)]
  obtain ⟨s, t, hs, ht, hbefore, hafter, hactive, q, hq, hsession, hwaiting⟩ : ∃ s t,
      System.play (execWhere {} Settled) commands {} = some s ∧
      execWhere {} Settled (.skipCurrent 1 none, 14, any) s = some t ∧
      s.requests.rows.map SongRequest.status = [.playing, .pending] ∧
      t.requests.rows.map SongRequest.status = [.rejected, .playing] ∧
      SessionActive s 1 ∧ ∃ q ∈ s.requests.rows, q.liveSessionId = 1 ∧ q.status.Waiting :=
    ⟨_, _, rfl, rfl, rfl, rfl, by decide +kernel, by decide +kernel⟩
  obtain ⟨hone, hsteps⟩ := one_plays (reachable_of_play hs)
  rcases (hsteps _ _ _ _ (step_of_execWhere ht)).2.1 1 none rfl with
    ⟨next, -, hfirst, hbecomes⟩ | ⟨hinactive | hnone, -⟩
  · exact ⟨s, t, hone, hbefore, hafter, next, hfirst, hbecomes⟩
  · exact absurd hactive hinactive
  · exact absurd hwaiting (hnone q hq hsession)

/-- A status update starts a second request. -/
theorem two_play :
    ¬∀ channel s, (songSystem channel anyCommand).Reachable s → OnePlaying s := by
  intro hclaim
  let any : AnyOrder := fun id => id
  let commands : List (SongCommand × Time × AnyOrder) :=
    [(.startSession false 7, 10, any),
      (.addToQueue 1 (operatorRequest none none) 0, 11, any),
      (.addToQueue 1 (operatorRequest none none) 0, 12, any),
      (.playNext 1, 13, any), (.updateStatus 4 .playing none, 14, any)]
  obtain ⟨s, hs, hnot⟩ : ∃ s,
      System.play (execWhere {} anyCommand) commands {} = some s ∧ ¬OnePlaying s :=
    ⟨_, rfl, by decide +kernel⟩
  exact hnot (hclaim {} s (reachable_of_play hs))

end Rogichat.SongLive
