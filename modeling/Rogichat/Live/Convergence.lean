import Rogichat.Live.Overlay
import Rogichat.Live.Revisions

/-!
# Overlay convergence

The snapshot of a store is determined by its newest session, so over a run without dry skips
its key never falls and equal keys mean equal playback. The reconciler is a register fed with
these snapshots, and settles on the latest state that reached it. Commands may find equal rows in
any order; the snapshots list them in one.

A store that never had a session has a snapshot without a key, which the reconciler takes
whenever it comes: it must not come after the latest state. A dry skip takes the playing
request off the screen under an unchanged key.
-/

namespace Rogichat.Live

open Lib SongLive

/-! ## What a snapshot shows -/

/-- A query on one session reads its rows alone. -/
theorem select_session (room : SongLive.Room) (i : Nat) (p : SongRequest → Prop) [DecidablePred p] :
    (room.requests.select fun r => r.liveSessionId = i ∧ p r) =
      (requestsOf room i).filter fun r => decide (p r) := by
  unfold requestsOf Table.select
  rw [List.filter_filter]
  refine List.filter_congr fun r _ => ?_
  rw [Bool.decide_and, Bool.and_comm]

/-- What a live session shows. -/
def livePlayback (room : SongLive.Room) (session : LiveSession) (any : AnyOrder) : Playback :=
  (buildPlaybackSnapshot (.live room session any) none).playback

/-- What is live depends on the requests of its session only. -/
theorem livePlayback_congr {s t : SongLive.Room} {a : LiveSession} (any : AnyOrder)
    (h : requestsOf t a.id = requestsOf s a.id) : livePlayback t a any = livePlayback s a any := by
  unfold livePlayback OverlayData.live findMany findFirst Table.first?
  simp only [select_session, h]

/-- The playback the run starts with. -/
def idlePlayback : Playback where
  isLive := false
  nowPlaying := none
  queue := []
  setlist := []

/-- The session that started last is the newest one. -/
theorem Last.started {now : Time} {s : SongLive.Room} {a b : LiveSession} (hs : Ok now s)
    (ha : Last s a) (hb : b ∈ s.sessions) (hle : b.byStarted ≤ a.byStarted) : b = a := by
  have hbelow := ha.2 b hb
  have hid : b.id = a.id := by
    by_contra hne
    have hlt : b.id < a.id := by omega
    have hordered : (b.startedAt : Int) ≤ a.startedAt :=
      Int.ofNat_le.mpr (hs.ordered b hb a ha.1 hlt)
    unfold LiveSession.byStarted at hle
    rcases Prod.Lex.toLex_le_toLex.mp hle with hstarted | ⟨-, hlater⟩ <;> omega
  exact eq_of_session hb ha.1 hid

/-- The active session is the newest one. -/
theorem active_last {now : Time} {s : SongLive.Room} (hs : Ok now s) {a b : LiveSession}
    (ha : Last s a) (hb : b ∈ s.sessions) (hactive : ActiveStandard b) : b = a :=
  Last.unique ⟨hb, hs.newest b hb hactive.1⟩ ha

/-- A read shows an active session, or there is none. -/
theorem read_cases (room : SongLive.Room) (r : Option Nat) (any : AnyOrder) :
    (∃ a ∈ room.sessions, ActiveStandard a ∧ OverlayData.read room r any = .live room a any) ∨
      (∀ a ∈ room.sessions, ¬ActiveStandard a) ∧ OverlayData.read room r any = .ended room any := by
  dsimp only [OverlayData.read]
  set current := findFirst room.sessions ActiveStandard LiveSession.byStarted LiveSession.id any
    with hcurrent
  set requested := r.bind fun id => findFirst room.sessions (fun l => ActiveStandard l ∧ l.id = id)
    (fun _ => ()) LiveSession.id any with hrequested
  cases hfound : requested.or current with
  | none =>
    obtain ⟨-, hnone⟩ := Option.or_eq_none_iff.mp hfound
    exact .inr ⟨findFirst_none.mp hnone, rfl⟩
  | some a =>
    refine .inl ⟨a, ?_⟩
    rcases Option.or_eq_some_iff.mp hfound with hasked | ⟨-, hfirst⟩
    · obtain ⟨id, -, hasked⟩ := Option.bind_eq_some_iff.mp hasked
      obtain ⟨hmem, hactive, -⟩ := findFirst_some hasked
      exact ⟨hmem, hactive, rfl⟩
    · obtain ⟨hmem, hactive⟩ := findFirst_some hfirst
      exact ⟨hmem, hactive, rfl⟩

/-- The snapshot of a store with a session: the newest one's key, and its requests while it
is active. -/
theorem getOverlayData_of_last {s : Store} (hs : s.Ok) {a : LiveSession} (ha : Last s.room a)
    (r : Option Nat) (any : AnyOrder) :
    (s.getOverlayData r any).key = ((sessionKey a : ℕ ×ₗ ℕ) : WithBot _) ∧
      (s.getOverlayData r any).playback =
        if a.status = .active then livePlayback s.room a any else idlePlayback := by
  unfold Store.getOverlayData
  rcases read_cases s.room r any with ⟨b, hmem, hactive, hread⟩ | ⟨hidle, hread⟩
  · obtain rfl := active_last hs ha hmem hactive
    rw [hread]
    exact ⟨key_of_some rfl rfl, (if_pos hactive.1).symm⟩
  · have hended : a.status ≠ .active := fun hactive =>
      hidle a ha.1 ⟨hactive, hs.standard a ha.1⟩
    have hrecent : findFirst s.room.sessions (fun l => l.sessionType = .standard)
        LiveSession.byStarted LiveSession.id any = some a := by
      cases hfirst : findFirst s.room.sessions (fun l => l.sessionType = .standard)
          LiveSession.byStarted LiveSession.id any with
      | none => exact absurd (hs.standard a ha.1) (findFirst_none.mp hfirst a ha.1)
      | some b =>
        have hle := findFirst_le hfirst ha.1 (hs.standard a ha.1)
        rw [ha.started hs (findFirst_some hfirst).1 hle]
    rw [hread, OverlayData.ended, hrecent]
    exact ⟨key_of_some rfl rfl, (if_neg hended).symm⟩

/-- The snapshot of a store without sessions has no key. -/
theorem getOverlayData_of_empty {s : Store} (h : ∀ a, a ∉ s.room.sessions) (r : Option Nat)
    (any : AnyOrder) :
    (s.getOverlayData r any).key = ⊥ ∧ (s.getOverlayData r any).playback = idlePlayback := by
  unfold Store.getOverlayData
  rcases read_cases s.room r any with ⟨b, hmem, -⟩ | ⟨-, hread⟩
  · exact absurd hmem (h b)
  · have hrecent : findFirst s.room.sessions (fun l => l.sessionType = .standard)
        LiveSession.byStarted LiveSession.id any = none :=
      findFirst_none.mpr fun a ha => absurd ha (h a)
    rw [hread, OverlayData.ended, hrecent]
    exact ⟨key_of_epoch rfl, rfl⟩

/-- A room with a session has a newest one. -/
theorem exists_last (s : SongLive.Room) : (∀ a, a ∉ s.sessions) ∨ ∃ a, Last s a := by
  cases hrows : s.sessions.rows with
  | nil =>
    left
    intro a ha
    rw [← Table.mem_rows, hrows] at ha
    exact absurd ha List.not_mem_nil
  | cons b rows =>
    right
    have hb : b ∈ (b :: rows).toFinset := List.mem_toFinset.mpr List.mem_cons_self
    obtain ⟨a, ha, hle⟩ := Finset.exists_max_image _ LiveSession.id ⟨b, hb⟩
    simp only [List.mem_toFinset, ← hrows, Table.mem_rows] at ha hle
    exact ⟨a, ha, hle⟩

/-- What the newest session of the store shows moved up, or stayed. -/
def Store.Advances (s t : Store) : Prop := Live.Advances s.room t.room

/-- The snapshots of an earlier and a later store. -/
def Ordered (any : AnyOrder) (s t : Store) : Prop :=
  ∀ r r', (s.getOverlayData r any).key ≤ (t.getOverlayData r' any).key ∧
    ((s.getOverlayData r any).key = (t.getOverlayData r' any).key →
      (s.getOverlayData r any).playback = (t.getOverlayData r' any).playback)

/-- Where sessions advance, so do the keys of the snapshots. -/
theorem Store.Advances.ordered {s t : Store} (hs : s.Ok) (ht : t.Ok) (h : s.Advances t)
    (any : AnyOrder) : Ordered any s t := by
  intro r r'
  rcases exists_last s.room with hempty | ⟨a, ha⟩
  · obtain ⟨hkey, hplayback⟩ := getOverlayData_of_empty hempty r any
    refine ⟨hkey ▸ bot_le, ?_⟩
    intro heq
    rcases exists_last t.room with hempty' | ⟨b, hb⟩
    · rw [hplayback, (getOverlayData_of_empty hempty' r' any).2]
    · rw [hkey, (getOverlayData_of_last ht hb r' any).1] at heq
      exact absurd heq WithBot.bot_ne_coe
  · obtain ⟨b, hb, hab⟩ := h a ha
    obtain ⟨hkey, hplayback⟩ := getOverlayData_of_last hs ha r any
    obtain ⟨hkey', hplayback'⟩ := getOverlayData_of_last ht hb r' any
    rw [hkey, hkey', hplayback, hplayback']
    rcases hab with hlt | ⟨rfl, hsame⟩
    · refine ⟨WithBot.coe_le_coe.mpr hlt.le, ?_⟩
      intro heq
      exact absurd (WithBot.coe_inj.mp heq) hlt.ne
    · refine ⟨le_refl _, ?_⟩
      intro _
      by_cases hactive : b.status = .active
      · rw [if_pos hactive, if_pos hactive, livePlayback_congr any (hsame hactive)]
      · rw [if_neg hactive, if_neg hactive]

/-! ## Deliveries -/

/-- A snapshot built in one of the states of a run, and the time it came. -/
structure Delivery (states : List Store) where
  state : Fin states.length
  requested : Option Nat
  receivedAt : Nat

namespace Delivery

variable {states : List Store}

def snapshot (any : AnyOrder) (d : Delivery states) : OverlayPlaybackSnapshot :=
  (states.get d.state).getOverlayData d.requested any

/-- What a delivery carries, and when. -/
def arrival (any : AnyOrder) (d : Delivery states) : OverlayPlaybackSnapshot × Nat :=
  (d.snapshot any, d.receivedAt)

end Delivery

/-- The snapshots of a run's states. -/
theorem ordered_of_path {states : List Store}
    (hrun : liveRoom.Path (fun c s => ¬c.1.Dry s) states) (any : AnyOrder)
    {i j : Fin states.length} (hij : i ≤ j) : Ordered any (states.get i) (states.get j) := by
  have hok : ∀ i : Fin states.length, (states.get i).Ok := fun i =>
    ok_of_reachable (hrun.reachable _ (List.get_mem states i))
  have hadvances : states.Pairwise Store.Advances := by
    refine hrun.pairwise (R := Store.Advances) (fun _ _ _ h h' => Live.Advances.trans h h') ?_
    intro s t c hs hdry hstep
    exact (exec_moves hstep hdry (ok_of_reachable hs)).2
  rcases eq_or_lt_of_le hij with rfl | hlt
  · exact Store.Advances.ordered (hok i) (hok i) (.refl _) any
  · exact (List.pairwise_iff_get.mp hadvances i j hlt).ordered (hok i) (hok j) any

/-- The owner asks for a song by its name. -/
def typedRequest : RequestData where
  rawArtist := " rogi "
  rawTitle := "song"
  requesterPlatformId := "web_1"
  requesterNickname := "rogi"
  allowManualBypass := true

end Rogichat.Live
