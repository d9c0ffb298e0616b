import Rogichat.SongLive.System

/-!
# The two overlay feeds

The socket feed of `meloming-song-live.gateway.ts` takes any session with the token, the feed of
`overlay.service.ts` the active one. Every session of a room has the room's token, so the feeds
agree for certain only while there is nothing to choose.

* **`Sole`** — the active session is the only one; without it no request is left over.
* **`feeds_agree_iff`** — the feeds agree in a reachable state just when it is `Sole`.
-/

namespace Rogichat.SongLive

open Lib

/-! ## The feeds -/

/-- `queue.sync`. -/
structure OverlaySnapshot where
  sessionId : Nat
  isLive : Bool
  queue : List SongRequest
  nowPlaying : Option SongRequest
  settings : Option (Bool × Bool)

/-- What the socket feed says of a session. -/
def OverlaySnapshot.of (room : Room) (session : LiveSession) (any : AnyOrder) : OverlaySnapshot :=
  { sessionId := session.id
    isLive := session.status = .active
    queue := SongRequestQueueService.getQueue room session.id any
    nowPlaying := SongLive.nowPlaying room session.id any
    settings := session.settings }

/-- `MelomingSongLiveGateway.snapshot`. -/
def MelomingSongLiveGateway.snapshot (room : Room) (token : Nat) (any : AnyOrder) :
    Option OverlaySnapshot := do
  let session ← findFirst room.sessions (fun l => l.overlayToken = token) (fun _ => ())
    LiveSession.id any
  return .of room session any

/-- `orderBy: [{ startedAt: 'desc' }, { id: 'desc' }]`. -/
def LiveSession.byStarted (l : LiveSession) : Int ×ₗ Int :=
  toLex (-(l.startedAt : Int), -(l.id : Int))

/-- What of `OverlayDataResponseDto` comes from the session. -/
structure OverlayData where
  sessionId : Option Nat
  isLive : Bool
  queue : List SongRequest
  setlist : List SongRequest
  nowPlaying : Option SongRequest
  settings : Option (Bool × Bool)
  startedAt : Option Time
  sessionEpoch : Option Nat
  revision : Option Nat

/-- Without a session: the epoch and revision of the last one. -/
def OverlayData.ended (room : Room) (any : AnyOrder) : OverlayData :=
  let mostRecentSession := findFirst room.sessions (fun l => l.sessionType = .standard)
    LiveSession.byStarted LiveSession.id any
  { sessionId := none, isLive := false, queue := [], setlist := [], nowPlaying := none
    settings := none, startedAt := none, sessionEpoch := mostRecentSession.map LiveSession.id
    revision := mostRecentSession.map LiveSession.playbackRevision }

/-- With a session: its pending requests, its setlist and what it plays. -/
def OverlayData.live (room : Room) (session : LiveSession) (any : AnyOrder) : OverlayData :=
  { sessionId := some session.id
    isLive := true
    queue := findMany room.requests
      (fun r => r.liveSessionId = session.id ∧ r.status = .pending ∧ r.source ≠ .competitor)
      (fun r => (toLex (r.byPriority, r.createdAt) : (Int ×ₗ Int) ×ₗ Nat)) SongRequest.id any
    setlist := findMany room.requests
      (fun r => r.liveSessionId = session.id ∧ (r.status = .completed ∨ r.status.Active) ∧
        r.source ≠ .competitor)
      (fun r => (toLex (r.queueOrder, r.createdAt) : Int ×ₗ Nat)) SongRequest.id any
    nowPlaying := findFirst room.requests
      (fun r => r.liveSessionId = session.id ∧ r.status = .playing ∧ r.source ≠ .competitor)
      SongRequest.byPlayed SongRequest.id any
    settings := some (session.requestEnabled, session.paused)
    startedAt := some session.startedAt
    sessionEpoch := some session.id
    revision := some session.playbackRevision }

/-- What is read once the token is checked: the requested session when it is active, and otherwise
the active one. -/
def OverlayData.read (room : Room) (liveSessionId : Option Nat) (any : AnyOrder) : OverlayData :=
  let findCurrentActiveSession :=
    findFirst room.sessions ActiveStandard LiveSession.byStarted LiveSession.id any
  let requested := liveSessionId.bind fun id =>
    findFirst room.sessions (fun l => ActiveStandard l ∧ l.id = id) (fun _ => ()) LiveSession.id any
  match requested.or findCurrentActiveSession with
  | none => .ended room any
  | some session => .live room session any

/-- `OverlayService.getOverlayData`. -/
def OverlayService.getOverlayData (room : Room) (token : Nat) (liveSessionId : Option Nat)
    (any : AnyOrder) : Except SongError OverlayData := do
  ensure (room.overlayToken = some token) .notFound
  return .read room liveSessionId any

/-! ## Agreement -/

/-- The orders of the session's pending requests are distinct. -/
def PendingDistinct (room : Room) (liveSessionId : Nat) : Prop :=
  ∀ r ∈ room.requests, ∀ q ∈ room.requests, r.liveSessionId = liveSessionId →
    q.liveSessionId = liveSessionId → r.status = .pending → q.status = .pending →
    r.queueOrder = q.queueOrder → r = q

/-- Both feeds name the live session, with one playing request and one queue. -/
structure AgreeLive (room : Room) (l : LiveSession) (snapshot : Option OverlaySnapshot)
    (data : OverlayData) : Prop where
  named : ∃ p, snapshot = some p ∧ p.sessionId = l.id ∧ p.isLive = true ∧
    p.nowPlaying = data.nowPlaying ∧
    (PendingDistinct room l.id → p.queue.filter (fun r => r.status = .pending) = data.queue)
  sessionId : data.sessionId = some l.id
  isLive : data.isLive = true

/-- Neither feed reports a live session, a playing or a waiting request. -/
structure AgreeEnded (snapshot : Option OverlaySnapshot) (data : OverlayData) : Prop where
  snapshot : ∀ p, snapshot = some p → p.isLive = false ∧ p.nowPlaying = none ∧
    ∀ r ∈ p.queue, ¬r.status.Waiting
  isLive : data.isLive = false
  nowPlaying : data.nowPlaying = none
  queue : data.queue = []

/-- The feeds agree, whatever rows the database returns. -/
def FeedsAgree (room : Room) (token : Nat) : Prop :=
  ∀ any any', ∃ data, OverlayService.getOverlayData room token none any' = .ok data ∧
    (∀ l ∈ room.sessions, l.status = .active →
      AgreeLive room l (MelomingSongLiveGateway.snapshot room token any) data) ∧
    ((∀ l ∈ room.sessions, l.status ≠ .active) →
      AgreeEnded (MelomingSongLiveGateway.snapshot room token any) data)

/-- The active session is the only one of the room; without it no request is left over. -/
def Sole (room : Room) : Prop :=
  (∀ l ∈ room.sessions, l.status = .active → ∀ k ∈ room.sessions, k = l) ∧
  ((∀ l ∈ room.sessions, l.status ≠ .active) → ∀ r ∈ room.requests, ¬r.status.Active)

variable {channel : Channel} {ok : Room → SongCommand → Prop} {room s t : Room} {token : Nat}
  {any any' : AnyOrder} {now : Time} {c : SongCommand}

/-! ## No competitor -/

/-- No command adds a request of a competitor. -/
theorem exec_source (hs : ∀ r ∈ s.requests, r.source ≠ .competitor)
    (h : exec channel c now any s = .ok t) : ∀ r ∈ t.requests, r.source ≠ .competitor := by
  have hrestated : ∀ {change : Change} {u : Room}, Restated change s u →
      ∀ r ∈ u.requests, r.source ≠ .competitor := by
    intro change u hu r' hr'
    obtain ⟨r, hr, hplaced, -⟩ := hu.back r' hr'
    rw [hplaced.source]
    exact hs r hr
  cases c with
  | startSession =>
    obtain ⟨_, -, hrequests⟩ := startSession_opened h
    exact fun r hr => hs r (hrequests ▸ hr)
  | cloneSession =>
    obtain ⟨_, _, -, hmem⟩ := cloneSession_opened h
    intro r hr
    rcases (hmem r).mp hr with hr | ⟨i, x, hx, rfl⟩
    · exact hs r hr
    · -- a clone has the source of the request it copies
      exact hs x (mem_findMany.mp (List.mem_of_getElem? hx)).1
  | endSession =>
    obtain ⟨-, -, hrequests⟩ := endSession_spec h
    exact fun r hr => hs r (hrequests r hr)
  | addToQueue =>
    obtain ⟨placed, x, hplace, hadded⟩ := addToQueue_added h
    obtain ⟨_, hshift, -⟩ := (place_placing hplace).reordered
    intro r hr
    rcases (hadded.requests r).mp hr with hr | rfl
    · obtain ⟨q, hq, rfl⟩ := (hshift r).mp hr
      exact hs q hq
    · -- a new request is a MANUAL one
      rw [hadded.source]
      decide
  | updateStatus => exact hrestated (updateStatus_restated h)
  | updateOrder =>
    obtain ⟨_, -, -, -, -, -, -, heq⟩ := updateOrder_spec h
    intro r hr
    rw [heq] at hr
    obtain ⟨q, hq, rfl⟩ := (renumber_reordered nodup_reorderedIds r).mp hr
    exact hs q hq
  | removeFromQueue =>
    obtain ⟨_, -, -, -, hclosed⟩ := removeFromQueue_spec h
    intro r hr
    obtain ⟨q, hq, rfl⟩ := (hclosed r).mp hr
    exact hs q (Table.mem_delete.mp hq).1
  | playNext =>
    obtain rfl := Except.ok.inj h
    exact hrestated playNext_restated
  | skipCurrent =>
    obtain rfl := Except.ok.inj h
    exact hrestated (skipped_restated.trans playNext_restated)
  | playNow =>
    obtain ⟨_, -, -, hchange⟩ := playNow_restated h
    exact hrestated hchange
  | clearQueue =>
    obtain rfl := Except.ok.inj h
    exact fun r hr => hs r (mem_clearQueue.mp hr).1

/-- No request comes from a competitor, in any run. -/
theorem reachable_source (h : (songSystem channel ok).Reachable s) :
    ∀ r ∈ s.requests, r.source ≠ .competitor := by
  refine System.Reachable.induct (P := fun s => ∀ r ∈ s.requests, r.source ≠ .competitor)
    ⟨?_, ?_⟩ h
  · rintro _ rfl r hr
    exact absurd hr (Table.not_mem_empty r)
  · rintro u v c - hu ⟨hexec, -⟩
    exact exec_source hu hexec

/-! ## What the feeds read -/

/-- The database that returns the row with the id where it may. -/
def prefer (id : Nat) : AnyOrder := fun i => if i = id then 0 else 1

/-- The database may return any row of an unordered lookup. -/
theorem findFirst_any {ρ : Type} [Row ρ] {t : Table ρ} {p : ρ → Prop} [DecidablePred p]
    {id : ρ → Nat} (hid : ∀ r ∈ t, ∀ q ∈ t, id r = id q → r = q) {r : ρ} (hr : r ∈ t) (hp : p r) :
    findFirst t p (fun _ => ()) id (prefer (id r)) = some r := by
  cases hfound : findFirst t p (fun _ => ()) id (prefer (id r)) with
  | none => exact absurd hp (findFirst_none.mp hfound r hr)
  | some q =>
    obtain ⟨hq, -⟩ := findFirst_some hfound
    have hle := findFirst_order hfound hr hp
    have heq : id q = id r := by
      by_contra hne
      rcases Prod.Lex.toLex_le_toLex.mp hle with hlt | ⟨-, hany⟩
      · exact absurd hlt (lt_irrefl _)
      · simp [prefer, hne] at hany
    rw [hid q hq r hr heq]

/-- An ordered lookup whose order tells the rows apart does not depend on the database. -/
theorem findFirst_congr {ρ κ : Type} [Row ρ] [LinearOrder κ] {t : Table ρ} {p q : ρ → Prop}
    [DecidablePred p] [DecidablePred q] {key : ρ → κ} {id : ρ → Nat}
    (hpq : ∀ r ∈ t, p r ↔ q r) (hkey : ∀ r ∈ t, ∀ r' ∈ t, key r = key r' → r = r') :
    findFirst t p key id any = findFirst t q key id any' := by
  cases hp : findFirst t p key id any with
  | none =>
    refine (findFirst_none.mpr fun r hr hq => ?_).symm
    exact findFirst_none.mp hp r hr ((hpq r hr).mpr hq)
  | some r =>
    obtain ⟨hr, hpr⟩ := findFirst_some hp
    cases hq : findFirst t q key id any' with
    | none => exact absurd ((hpq r hr).mp hpr) (findFirst_none.mp hq r hr)
    | some r' =>
      obtain ⟨hr', hqr'⟩ := findFirst_some hq
      have hle := findFirst_le hp hr' ((hpq r' hr').mpr hqr')
      have hge := findFirst_le hq hr ((hpq r hr).mp hpr)
      rw [hkey r hr r' hr' (le_antisymm hle hge)]

/-- Both feeds show the same playing request. -/
theorem nowPlaying_eq {liveSessionId : Nat} (hsource : ∀ r ∈ room.requests, r.source ≠ .competitor) :
    nowPlaying room liveSessionId any =
      findFirst room.requests
        (fun r => r.liveSessionId = liveSessionId ∧ r.status = .playing ∧ r.source ≠ .competitor)
        SongRequest.byPlayed SongRequest.id any' := by
  refine findFirst_congr (fun r hr => ?_) fun r hr q hq heq => ?_
  · constructor
    · rintro ⟨hsession, hplaying⟩
      exact ⟨hsession, hplaying, hsource r hr⟩
    · rintro ⟨hsession, hplaying, -⟩
      exact ⟨hsession, hplaying⟩
  · have hid := congrArg (fun x => (ofLex x).2) heq
    simp only [SongRequest.byPlayed, ofLex_toLex, neg_inj, Nat.cast_inj] at hid
    exact eq_of_request hr hq hid

theorem mem_getQueue {liveSessionId : Nat} {r : SongRequest} :
    r ∈ SongRequestQueueService.getQueue room liveSessionId any ↔ r ∈ room.requests ∧
      r.liveSessionId = liveSessionId ∧ r.source ≠ .competitor ∧ r.status.Active :=
  mem_findMany

/-- Nothing plays in a session without a playing request. -/
theorem nowPlaying_none {liveSessionId : Nat} :
    nowPlaying room liveSessionId any = none ↔
      ∀ r ∈ room.requests, ¬(r.liveSessionId = liveSessionId ∧ r.status = .playing) :=
  findFirst_none

/-- The pending part of the socket queue is the queue of the other feed. -/
theorem queue_eq {liveSessionId : Nat} (hdistinct : PendingDistinct room liveSessionId) :
    (SongRequestQueueService.getQueue room liveSessionId any).filter
        (fun r => r.status = .pending) =
      findMany room.requests
        (fun r => r.liveSessionId = liveSessionId ∧ r.status = .pending ∧ r.source ≠ .competitor)
        (fun r => (toLex (r.byPriority, r.createdAt) : (Int ×ₗ Int) ×ₗ Nat)) SongRequest.id
        any' := by
  have hleft : ∀ r, r ∈ (SongRequestQueueService.getQueue room liveSessionId any).filter
      (fun r => r.status = .pending) ↔ r ∈ room.requests ∧ r.liveSessionId = liveSessionId ∧
        r.status = .pending ∧ r.source ≠ .competitor := by
    intro r
    rw [List.mem_filter, mem_getQueue, decide_eq_true_iff]
    constructor
    · rintro ⟨⟨hr, hsession, hsource, -⟩, hpending⟩
      exact ⟨hr, hsession, hpending, hsource⟩
    · rintro ⟨hr, hsession, hpending, hsource⟩
      exact ⟨⟨hr, hsession, hsource, .inl hpending⟩, hpending⟩
  have hsorted : ((SongRequestQueueService.getQueue room liveSessionId any).filter
      (fun r => r.status = .pending)).Pairwise fun r q => r.byPriority ≤ q.byPriority :=
    findMany_sorted.filter _
  have hsorted' : (findMany room.requests
        (fun r => r.liveSessionId = liveSessionId ∧ r.status = .pending ∧ r.source ≠ .competitor)
        (fun r => (toLex (r.byPriority, r.createdAt) : (Int ×ₗ Int) ×ₗ Nat)) SongRequest.id
        any').Pairwise fun r q => r.byPriority ≤ q.byPriority := by
    refine findMany_sorted.imp fun {r q} hle => ?_
    rcases Prod.Lex.toLex_le_toLex.mp hle with hlt | ⟨heq, -⟩
    · exact hlt.le
    · exact heq.le
  refine List.Perm.eq_of_pairwise ?_ hsorted hsorted' ?_
  · intro r q hr hq hle hge
    obtain ⟨hr, hrsession, hrpending, -⟩ := (hleft r).mp hr
    obtain ⟨hq, hqsession, hqpending, -⟩ := mem_findMany.mp hq
    have heq := congrArg (fun x => (ofLex x).2) (le_antisymm hle hge)
    exact hdistinct r hr q hq hrsession hqsession hrpending hqpending heq
  · refine (List.perm_ext_iff_of_nodup (nodup_findMany.filter _) nodup_findMany).mpr fun r => ?_
    refine (hleft r).trans (Iff.symm ?_)
    exact mem_findMany

theorem RoomOk.activeStandard (hok : RoomOk room) {l : LiveSession} (hl : l ∈ room.sessions) :
    ActiveStandard l ↔ l.status = .active :=
  ⟨And.left, fun h => ⟨h, hok.standard l hl⟩⟩

/-- The overlay of a room whose session is active. -/
theorem overlay_live (hok : RoomOk room) (htoken : room.overlayToken = some token)
    {l : LiveSession} (hl : l ∈ room.sessions) (hactive : l.status = .active) :
    OverlayService.getOverlayData room token none any = .ok (.live room l any) := by
  have hfound : findFirst room.sessions ActiveStandard LiveSession.byStarted LiveSession.id any =
      some l := by
    have hstandard := (hok.activeStandard hl).mpr hactive
    cases hfirst : findFirst room.sessions ActiveStandard LiveSession.byStarted LiveSession.id
        any with
    | none => exact absurd hstandard (findFirst_none.mp hfirst l hl)
    | some k =>
      obtain ⟨hk, hkstandard⟩ := findFirst_some hfirst
      rw [hok.one_active k hk l hl hkstandard hstandard]
  simp only [OverlayService.getOverlayData, ensure_pos htoken, ok_bind, OverlayData.read,
    Option.bind_none, Option.none_or, hfound]
  rfl

/-- The overlay of a room whose sessions have ended. -/
theorem overlay_ended (htoken : room.overlayToken = some token)
    (hended : ∀ l ∈ room.sessions, l.status ≠ .active) :
    OverlayService.getOverlayData room token none any = .ok (.ended room any) := by
  have hfound : findFirst room.sessions ActiveStandard LiveSession.byStarted LiveSession.id any =
      none := findFirst_none.mpr fun l hl h => hended l hl h.1
  simp only [OverlayService.getOverlayData, ensure_pos htoken, ok_bind, OverlayData.read,
    Option.bind_none, Option.none_or, hfound]
  rfl

/-- The gateway sends any session with the token. -/
theorem snapshot_iff {p : OverlaySnapshot} :
    MelomingSongLiveGateway.snapshot room token any = some p ↔
      ∃ l, findFirst room.sessions (fun l => l.overlayToken = token) (fun _ => ())
        LiveSession.id any = some l ∧ OverlaySnapshot.of room l any = p := by
  simp only [MelomingSongLiveGateway.snapshot, Option.bind_eq_bind, Option.bind_eq_some_iff,
    Option.pure_def, Option.some.injEq]

/-! ## When the feeds agree -/

/-- The feeds agree where the token has one session. -/
theorem feedsAgree_of_sole (hok : RoomOk room)
    (hsource : ∀ r ∈ room.requests, r.source ≠ .competitor)
    (htoken : room.overlayToken = some token) (hsole : Sole room) : FeedsAgree room token := by
  intro any any'
  by_cases hactive : ∃ l ∈ room.sessions, l.status = .active
  · obtain ⟨l, hl, hactive⟩ := hactive
    have honly := hsole.1 l hl hactive
    refine ⟨_, overlay_live hok htoken hl hactive, ?_, ?_⟩
    · intro k hk _
      obtain rfl := honly k hk
      refine ⟨?_, rfl, rfl⟩
      -- the lookup finds the only session
      have hltoken : k.overlayToken = token := by
        have := hok.token k hl
        rw [htoken] at this
        exact (Option.some.inj this).symm
      cases hfound : findFirst room.sessions (fun l => l.overlayToken = token) (fun _ => ())
          LiveSession.id any with
      | none => exact absurd hltoken (findFirst_none.mp hfound k hl)
      | some l =>
        obtain rfl := honly l (findFirst_some hfound).1
        exact ⟨_, snapshot_iff.mpr ⟨l, hfound, rfl⟩, rfl, decide_eq_true hactive,
          nowPlaying_eq hsource, queue_eq⟩
    · exact fun hended => absurd hactive (hended l hl)
  · have hended : ∀ l ∈ room.sessions, l.status ≠ .active := fun l hl h => hactive ⟨l, hl, h⟩
    have hidle := hsole.2 hended
    refine ⟨_, overlay_ended htoken hended, fun l hl h => absurd h (hended l hl), fun _ => ?_⟩
    refine ⟨fun p hp => ?_, rfl, rfl, rfl⟩
    obtain ⟨l, hfound, rfl⟩ := snapshot_iff.mp hp
    obtain ⟨hl, -⟩ := findFirst_some hfound
    refine ⟨decide_eq_false (hended l hl), ?_, ?_⟩
    · exact nowPlaying_none.mpr fun r hr h => hidle r hr (.inr (.inr h.2))
    · intro r hr hwaiting
      obtain ⟨hr, -, -, hactive⟩ := mem_getQueue.mp hr
      exact hidle r hr hactive

/-- With another session to return, or a request left over, the feeds may disagree. -/
theorem sole_of_feedsAgree (hok : RoomOk room)
    (hsource : ∀ r ∈ room.requests, r.source ≠ .competitor)
    (htoken : room.overlayToken = some token) (hagree : FeedsAgree room token) : Sole room := by
  have hltoken : ∀ l ∈ room.sessions, l.overlayToken = token := by
    intro l hl
    have := hok.token l hl
    rw [htoken] at this
    exact (Option.some.inj this).symm
  have hsnapshot : ∀ l ∈ room.sessions,
      MelomingSongLiveGateway.snapshot room token (prefer l.id) =
        some (.of room l (prefer l.id)) := by
    intro l hl
    have hfound : findFirst room.sessions (fun l => l.overlayToken = token) (fun _ => ())
        LiveSession.id (prefer l.id) = some l :=
      findFirst_any (fun r hr q hq => eq_of_session hr hq) hl (hltoken l hl)
    exact snapshot_iff.mpr ⟨l, hfound, rfl⟩
  constructor
  · intro l hl hactive k hk
    obtain ⟨data, -, hlive, -⟩ := hagree (prefer k.id) id
    obtain ⟨⟨p, hp, hid, -⟩, -, -⟩ := hlive l hl hactive
    rw [hsnapshot k hk] at hp
    obtain rfl := Option.some.inj hp
    exact eq_of_session hk hl hid
  · intro hended r hr hactive
    obtain ⟨l, hl, hid⟩ := hok.owned r hr
    obtain ⟨data, -, -, hidle⟩ := hagree (prefer l.id) id
    obtain ⟨-, hplaying, hqueue⟩ := (hidle hended).snapshot _ (hsnapshot l hl)
    change nowPlaying room l.id (prefer l.id) = none at hplaying
    change ∀ r ∈ SongRequestQueueService.getQueue room l.id (prefer l.id), ¬r.status.Waiting
      at hqueue
    rcases hactive.cases with hwaiting | hplays
    · exact hqueue r (mem_getQueue.mpr ⟨hr, hid.symm, hsource r hr, hactive⟩) hwaiting
    · exact nowPlaying_none.mp hplaying r hr ⟨hid.symm, hplays⟩

/-- One standard session is active at most, and the feeds agree just where there is nothing to
choose. -/
theorem feeds_agree_iff (h : (songSystem channel anyCommand).Reachable s) :
    (∀ k ∈ s.sessions, ∀ l ∈ s.sessions, ActiveStandard k → ActiveStandard l → k = l) ∧
      ∀ token, s.overlayToken = some token → (FeedsAgree s token ↔ Sole s) := by
  have hok := reachable_roomOk h
  have hsource := reachable_source h
  refine ⟨hok.one_active, fun token htoken => ?_⟩
  exact ⟨sole_of_feedsAgree hok hsource htoken, feedsAgree_of_sole hok hsource htoken⟩

/-- A room with one live session, one request of which plays. -/
theorem feeds_agree_live : ∃ s : Room, s.overlayToken = some 7 ∧
    s.requests.rows.map SongRequest.status = [.playing, .pending] ∧ FeedsAgree s 7 := by
  let any : AnyOrder := fun id => id
  let commands : List (SongCommand × Time × AnyOrder) :=
    [(.startSession false 7, 10, any),
      (.addToQueue 1 (operatorRequest none none) 0, 11, any),
      (.addToQueue 1 (operatorRequest none none) 0, 12, any), (.playNext 1, 13, any)]
  obtain ⟨s, hs, htoken, hrows, hone, hactive⟩ : ∃ s,
      System.play (execWhere {} anyCommand) commands {} = some s ∧ s.overlayToken = some 7 ∧
      s.requests.rows.map SongRequest.status = [.playing, .pending] ∧
      (∀ l ∈ s.sessions, ∀ k ∈ s.sessions, k = l) ∧ ¬∀ l ∈ s.sessions, l.status ≠ .active :=
    ⟨_, rfl, rfl, rfl, by decide +kernel, by decide +kernel⟩
  have hsole : Sole s := ⟨fun l hl _ k hk => hone l hl k hk, fun h => absurd h hactive⟩
  exact ⟨s, htoken, hrows, ((feeds_agree_iff (reachable_of_play hs)).2 7 htoken).mpr hsole⟩

/-- After a second start the socket feed may name the ended session. -/
theorem ended_session_named : ¬∀ channel s token, (songSystem channel anyCommand).Reachable s →
    s.overlayToken = some token → FeedsAgree s token := by
  intro hclaim
  let any : AnyOrder := fun id => id
  let commands : List (SongCommand × Time × AnyOrder) :=
    [(.startSession false 7, 10, any), (.endSession 1, 11, any), (.startSession false 8, 12, any)]
  obtain ⟨s, hs, htoken, hnamed, l, hl, hactive, hid⟩ : ∃ s,
      System.play (execWhere {} anyCommand) commands {} = some s ∧ s.overlayToken = some 7 ∧
      (MelomingSongLiveGateway.snapshot s 7 any).map OverlaySnapshot.sessionId = some 1 ∧
      ∃ l ∈ s.sessions.rows, l.status = .active ∧ l.id = 3 :=
    ⟨_, rfl, rfl, rfl, by decide +kernel⟩
  obtain ⟨data, -, hlive, -⟩ := hclaim {} s 7 (reachable_of_play hs) htoken any any
  obtain ⟨⟨p, hp, hpid, -⟩, -, -⟩ := hlive l hl hactive
  rw [hp, Option.map_some, hpid, hid] at hnamed
  exact absurd (Option.some.inj hnamed) (by decide)

end Rogichat.SongLive
