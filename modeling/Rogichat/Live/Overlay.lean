import Rogichat.Lib.Register
import Rogichat.Live.Model
import Rogichat.SongLive.Overlay

/-!
# The overlay

`getOverlayData` reads a full playback snapshot out of the store, and `reconcile` folds the
snapshots that reach a screen. A snapshot is keyed with the session it shows and that
session's playback revision; without an active session it carries the key of the most recent
one, so that the end of a live is a state above everything the live showed.

Of a snapshot's item the columns of the request row are kept; what the song tables, the price
formats and the channel's themes add has no part in the ordering.
-/

namespace Rogichat.Live

open Lib SongLive

/-! ## The snapshot -/

/-- A request as an overlay shows it. -/
structure OverlayPlaybackSnapshotItem where
  requestId : Nat
  rawTitle : String
  rawArtist : String
  requesterPlatformId : String
  requesterNickname : String
  status : SongRequestStatus
  source : SongRequestSource
  requestType : SongRequestType
  priority : Int
  queueOrder : Int
  calculatedPrice : Option Nat
  priceSource : PriceSource
  playedAt : Option Time
  completedAt : Option Time
  createdAt : Time
  deriving DecidableEq

/-- A request as an overlay shows it. -/
def mapPlaybackSnapshotItem (request : SongRequest) : OverlayPlaybackSnapshotItem where
  requestId := request.id
  rawTitle := request.rawTitle
  rawArtist := request.rawArtist
  requesterPlatformId := request.requesterPlatformId
  requesterNickname := request.requesterNickname
  status := request.status
  source := request.source
  requestType := request.requestType
  priority := request.priority
  queueOrder := request.queueOrder
  calculatedPrice := request.calculatedPrice
  priceSource := request.priceSource
  playedAt := request.playedAt
  completedAt := request.completedAt
  createdAt := request.createdAt

/-- What a screen shows of a snapshot. -/
structure Playback where
  isLive : Bool
  nowPlaying : Option OverlayPlaybackSnapshotItem
  queue : List OverlayPlaybackSnapshotItem
  setlist : List OverlayPlaybackSnapshotItem
  deriving DecidableEq

structure OverlayPlaybackSnapshot where
  activeSessionId : Option Nat
  requestedSessionId : Option Nat
  sessionEpoch : Option Nat
  revision : Option Nat
  playback : Playback
  deriving DecidableEq

/-- `buildPlaybackSnapshot`. -/
def buildPlaybackSnapshot (data : OverlayData) (requestedSessionId : Option Nat) :
    OverlayPlaybackSnapshot where
  activeSessionId := data.sessionId
  requestedSessionId
  sessionEpoch := data.sessionEpoch
  revision := data.revision
  playback :=
    { isLive := data.isLive
      nowPlaying := data.nowPlaying.map mapPlaybackSnapshotItem
      queue := data.queue.map mapPlaybackSnapshotItem
      setlist := data.setlist.map mapPlaybackSnapshotItem }

/-- The snapshot of a read with the room's token. -/
def Store.getOverlayData (s : Store) (liveSessionId : Option Nat) (any : AnyOrder) :
    OverlayPlaybackSnapshot :=
  buildPlaybackSnapshot (.read s.room liveSessionId any) liveSessionId

/-! ## The reconciler -/

/-- What an overlay does with a snapshot. -/
inductive ReconcileAction
  | apply | ignore
  deriving DecidableEq

/-- A clear of the playing request that waits to be confirmed. -/
structure PendingNullClear where
  sessionEpoch : Nat
  atRevision : Nat
  deriving DecidableEq

structure PlaybackReconcilerState where
  sessionEpoch : Option Nat
  revision : Option Nat
  snapshot : OverlayPlaybackSnapshot
  pendingNullClear : Option PendingNullClear
  lastAppliedAt : Nat
  deriving DecidableEq

/-- What an overlay does, and what it remembers then. -/
structure ReconcileResult where
  action : ReconcileAction
  next : PlaybackReconcilerState
  deriving DecidableEq

def apply (snapshot : OverlayPlaybackSnapshot) (sessionEpoch revision : Option Nat)
    (pendingNullClear : Option PendingNullClear) (now : Nat) : ReconcileResult where
  action := .apply
  next := { sessionEpoch, revision, snapshot, pendingNullClear, lastAppliedAt := now }

/-- The snapshot is older than what is shown. -/
def ignore (current : PlaybackReconcilerState) : ReconcileResult where
  action := .ignore
  next := current

/-- A snapshot of the session that is shown. -/
def applySameSession (incoming : OverlayPlaybackSnapshot) (sessionEpoch revision : Nat)
    (now : Nat) : ReconcileResult :=
  apply incoming sessionEpoch revision none now

/-- `reconcile`: newer snapshots are shown, older ones ignored. -/
def reconcile (current : Option PlaybackReconcilerState) (incoming : OverlayPlaybackSnapshot)
    (now : Nat) : ReconcileResult :=
  match current with
  | none => apply incoming incoming.sessionEpoch incoming.revision none now
  | some current =>
    match incoming.sessionEpoch, incoming.revision with
    | some sessionEpoch, some revision =>
      match current.sessionEpoch, current.revision with
      | some currentEpoch, some currentRevision =>
        if sessionEpoch < currentEpoch then ignore current
        else if currentEpoch < sessionEpoch then apply incoming sessionEpoch revision none now
        else if revision ≤ currentRevision then ignore current
        else applySameSession incoming sessionEpoch revision now
      | _, _ => apply incoming sessionEpoch revision none now
    -- a missing key is never taken for a zero, which would make the first counted snapshot stale
    | sessionEpoch, revision => apply incoming sessionEpoch revision none now

/-- The overlay after a list of snapshots, each with the time it came. -/
def deliver (current : Option PlaybackReconcilerState)
    (arrivals : List (OverlayPlaybackSnapshot × Nat)) : Option PlaybackReconcilerState :=
  arrivals.foldl (fun current arrival => some (reconcile current arrival.1 arrival.2).next) current

/-! ## The reconciler is a register -/

/-- The ordering key of a snapshot: the session, then its revision. -/
def OverlayPlaybackSnapshot.key (snapshot : OverlayPlaybackSnapshot) : WithBot (ℕ ×ₗ ℕ) :=
  match snapshot.sessionEpoch, snapshot.revision with
  | some sessionEpoch, some revision => ((toLex (sessionEpoch, revision) : ℕ ×ₗ ℕ) : WithBot _)
  | _, _ => ⊥

/-- The state stands for the snapshot it holds. -/
def PlaybackReconcilerState.Sound (current : PlaybackReconcilerState) : Prop :=
  current.sessionEpoch = current.snapshot.sessionEpoch ∧
    current.revision = current.snapshot.revision ∧ current.pendingNullClear = none

/-- What is applied may be remembered. -/
theorem apply_sound (incoming : OverlayPlaybackSnapshot) (now : Nat) :
    (apply incoming incoming.sessionEpoch incoming.revision none now).next.Sound :=
  ⟨rfl, rfl, rfl⟩

/-- A snapshot without an epoch is below all others. -/
theorem key_of_epoch {snapshot : OverlayPlaybackSnapshot} (h : snapshot.sessionEpoch = none) :
    snapshot.key = ⊥ := by
  simp [OverlayPlaybackSnapshot.key, h]

theorem key_of_revision {snapshot : OverlayPlaybackSnapshot} (h : snapshot.revision = none) :
    snapshot.key = ⊥ := by
  simp [OverlayPlaybackSnapshot.key, h]

/-- Snapshots compare by epoch and then by revision. -/
theorem key_of_some {snapshot : OverlayPlaybackSnapshot} {epoch revision : Nat}
    (he : snapshot.sessionEpoch = some epoch) (hr : snapshot.revision = some revision) :
    snapshot.key = ((toLex (epoch, revision) : ℕ ×ₗ ℕ) : WithBot _) := by
  simp [OverlayPlaybackSnapshot.key, he, hr]

/-- What a reconciler does with a snapshot, in the keys alone. -/
theorem reconcile_some {current : PlaybackReconcilerState} (h : current.Sound)
    (incoming : OverlayPlaybackSnapshot) (now : Nat) :
    reconcile (some current) incoming now =
      if incoming.key = ⊥ ∨ current.snapshot.key < incoming.key then
        apply incoming incoming.sessionEpoch incoming.revision none now
      else ignore current := by
  obtain ⟨hepoch, hrevision, -⟩ := h
  rcases Option.eq_none_or_eq_some incoming.sessionEpoch with he | ⟨epoch, he⟩
  · rw [if_pos (.inl (key_of_epoch he))]
    simp only [reconcile, he]
  rcases Option.eq_none_or_eq_some incoming.revision with hr | ⟨revision, hr⟩
  · rw [if_pos (.inl (key_of_revision hr))]
    simp only [reconcile, he, hr]
  have hkeyed : ⊥ < incoming.key := key_of_some he hr ▸ WithBot.bot_lt_coe _
  -- a held snapshot without a key gives way to one that has a key
  rcases Option.eq_none_or_eq_some current.snapshot.sessionEpoch with he' | ⟨currentEpoch, he'⟩
  · rw [if_pos (.inr (key_of_epoch he' ▸ hkeyed))]
    simp only [reconcile, he, hr, hepoch, he']
  rcases Option.eq_none_or_eq_some current.snapshot.revision with hr' | ⟨currentRevision, hr'⟩
  · rw [if_pos (.inr (key_of_revision hr' ▸ hkeyed))]
    simp only [reconcile, he, hr, hepoch, hrevision, he', hr']
  have habove : (incoming.key = ⊥ ∨ current.snapshot.key < incoming.key) ↔
      currentEpoch < epoch ∨ currentEpoch = epoch ∧ currentRevision < revision := by
    rw [key_of_some he hr, key_of_some he' hr', WithBot.coe_lt_coe, Prod.Lex.toLex_lt_toLex]
    simp
  simp only [reconcile, he, hr, hepoch, hrevision, he', hr', applySameSession, habove]
  by_cases hlt : epoch < currentEpoch
  · rw [if_pos hlt, if_neg (by omega)]
  · by_cases hgt : currentEpoch < epoch
    · rw [if_neg hlt, if_pos hgt, if_pos (by omega)]
    · by_cases hle : revision ≤ currentRevision
      · rw [if_neg hlt, if_neg hgt, if_pos hle, if_neg (by omega)]
      · rw [if_neg hlt, if_neg hgt, if_neg hle, if_pos (by omega)]

/-- A delivery is what a register does with the snapshots. -/
theorem deliver_register (arrivals : List (OverlayPlaybackSnapshot × Nat))
    (current : Option PlaybackReconcilerState) (h : ∀ c ∈ current, c.Sound) :
    (∀ c ∈ deliver current arrivals, c.Sound) ∧
      (deliver current arrivals).map (·.snapshot) =
        Register.fold OverlayPlaybackSnapshot.key (current.map (·.snapshot))
          (arrivals.map Prod.fst) := by
  induction arrivals generalizing current with
  | nil => exact ⟨h, rfl⟩
  | cons arrival arrivals ih =>
    have hnext : (reconcile current arrival.1 arrival.2).next.Sound ∧
        some (reconcile current arrival.1 arrival.2).next.snapshot =
          Register.receive OverlayPlaybackSnapshot.key (current.map (·.snapshot)) arrival.1 := by
      cases current with
      | none => exact ⟨apply_sound _ _, rfl⟩
      | some c =>
        have hc := h c rfl
        rw [reconcile_some hc]
        by_cases htaken : arrival.1.key = ⊥ ∨ c.snapshot.key < arrival.1.key
        · rw [if_pos htaken]
          exact ⟨apply_sound _ _, (if_pos htaken).symm⟩
        · rw [if_neg htaken]
          exact ⟨hc, (if_neg htaken).symm⟩
    have hrest := ih (some (reconcile current arrival.1 arrival.2).next)
      fun c hc => Option.some.inj hc ▸ hnext.1
    refine ⟨hrest.1, hrest.2.trans ?_⟩
    show Register.fold _ (some _) _ = Register.fold _ (Register.receive _ _ _) _
    rw [← hnext.2]

end Rogichat.Live
