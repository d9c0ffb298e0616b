import Rogichat.SongLive.Changes

/-!
# Sessions over whole runs

The system starts with an empty room and takes every command on sessions and requests. A command
is one transaction; `ok` restricts the commands of a run where a result needs it.

* **`reachable_owned`** — every request is of a session the room has.
* **`reachable_one_active`** — at most one standard session is active.
-/

namespace Rogichat.SongLive

open Lib

/-- The commands of one room, each with its time and the database's order of equal rows. -/
def songSystem (channel : Channel) (ok : Room → SongCommand → Prop) :
    System Room (SongCommand × Time × AnyOrder) where
  init room := room = {}
  step c s t := exec channel c.1 c.2.1 c.2.2 s = .ok t ∧ ok s c.1

/-- No restriction. -/
def anyCommand : Room → SongCommand → Prop := fun _ _ => True

variable {channel : Channel} {ok : Room → SongCommand → Prop} {room s t : Room} {now : Time}
  {any : AnyOrder} {c : SongCommand}

/-! ## Opening and ending a session -/

/-- A session was opened now, under an id drawn for it: the only active standard one, with the
room's token. -/
structure Opened (now : Time) (s t : Room) (l : LiveSession) : Prop where
  drawn : s.counter < l.id ∧ l.id ≤ t.counter
  startedAt : l.startedAt = now
  none_active : ¬s.sessions.Has ActiveStandard
  sessions : s.sessions.insert l = some t.sessions
  standard : ActiveStandard l
  token : t.overlayToken = some l.overlayToken
  kept : ∀ token, s.overlayToken = some token → l.overlayToken = token

theorem channelOverlayToken_spec {drawn token : Nat}
    (h : LiveSessionService.channelOverlayToken s drawn = (t, token)) :
    t.sessions = s.sessions ∧ t.requests = s.requests ∧ t.counter = s.counter ∧
      t.overlayToken = some token ∧
      ∀ token', s.overlayToken = some token' → token = token' := by
  unfold LiveSessionService.channelOverlayToken at h
  cases hs : s.overlayToken with
  | none =>
    simp only [hs, Prod.mk.injEq] at h
    obtain ⟨rfl, rfl⟩ := h
    exact ⟨rfl, rfl, rfl, rfl, fun _ h => absurd h (Option.some_ne_none _).symm⟩
  | some old =>
    simp only [hs, Prod.mk.injEq] at h
    obtain ⟨rfl, rfl⟩ := h
    exact ⟨rfl, rfl, rfl, hs, fun _ h => Option.some.inj h⟩

/-- A started session opens after the others. -/
theorem startSession_opened {practiceMode : Bool} {drawn : Nat}
    (h : LiveSessionService.startSession s now practiceMode drawn = .ok t) :
    ∃ l, Opened now s t l ∧ t.requests = s.requests := by
  rcases hdrawn : LiveSessionService.channelOverlayToken s drawn with ⟨r₀, token⟩
  obtain ⟨hs, hr, hcounter, htoken, hkept⟩ := channelOverlayToken_spec hdrawn
  simp only [LiveSessionService.startSession, hdrawn, bind_ok, ensure_ok, require_ok, pure_ok] at h
  obtain ⟨-, hnone, ⟨r₁, id₁⟩, hid₁, ⟨r₂, id₂⟩, hid₂, sessions, hsessions, rfl⟩ := h
  obtain ⟨rfl, rfl⟩ := nextId_spec hid₁
  obtain ⟨rfl, rfl⟩ := nextId_spec hid₂
  have hbetween : s.counter < r₀.counter + 1 ∧ r₀.counter + 1 ≤ r₀.counter + 1 + 1 := by omega
  exact ⟨_, ⟨hbetween, rfl, hnone, hs ▸ hsessions, ⟨rfl, rfl⟩, htoken, hkept⟩, hr⟩

/-- The rows of a clone are the copies of the given ones, with consecutive orders. -/
theorem cloneRequests_spec {liveSessionId : Nat} {rows : List SongRequest} {index : Nat}
    (h : cloneRequests now liveSessionId rows index s = .ok t) :
    t.sessions = s.sessions ∧ t.overlayToken = s.overlayToken ∧ s.counter ≤ t.counter ∧
      ∀ q, q ∈ t.requests ↔ q ∈ s.requests ∨ ∃ (i : Nat) (r : SongRequest), rows[i]? = some r ∧
        q = { r with
          id := s.counter + 1 + i, liveSessionId, queueOrder := (index : Int) + i + 1,
          createdAt := now } := by
  induction rows generalizing index s with
  | nil =>
    simp only [cloneRequests, pure_ok] at h
    subst h
    simp
  | cons row rows ih =>
    simp only [cloneRequests, bind_ok, require_ok] at h
    obtain ⟨⟨r₁, id₁⟩, hid₁, requests, hrequests, h⟩ := h
    obtain ⟨rfl, rfl⟩ := nextId_spec hid₁
    obtain ⟨hsessions, htoken, hcounter, hmem⟩ := ih h
    refine ⟨hsessions, htoken, Nat.le_trans (Nat.le_succ _) hcounter, fun q => ?_⟩
    rw [hmem q]
    constructor
    · rintro (hq | ⟨i, r, hi, rfl⟩)
      · rcases (Table.mem_insert hrequests).mp hq with hq | rfl
        · exact .inl hq
        · exact .inr ⟨0, row, rfl, by simp⟩
      · refine .inr ⟨i + 1, r, hi, ?_⟩
        push_cast
        congr 1 <;> omega
    · rintro (hq | ⟨i, r, hi, rfl⟩)
      · exact .inl ((Table.mem_insert hrequests).mpr (.inl hq))
      · cases i with
        | zero =>
          obtain rfl := Option.some.inj hi
          exact .inl ((Table.mem_insert hrequests).mpr (.inr (by simp)))
        | succ i =>
          refine .inr ⟨i, r, hi, ?_⟩
          push_cast
          congr 1 <;> omega

/-- The rows a clone is made from. -/
def sourceRequests (s : Room) (sourceSessionId : Nat) (any : AnyOrder) : List SongRequest :=
  findMany s.requests (fun r => r.liveSessionId = sourceSessionId)
    (fun r => (toLex (r.queueOrder, r.createdAt) : Int ×ₗ Nat)) SongRequest.id any

/-- A cloned session opens with copies of the requests. -/
theorem cloneSession_opened {sourceSessionId drawn : Nat}
    (h : LiveSessionService.cloneSession s now sourceSessionId drawn any = .ok t) :
    ∃ l first, Opened now s t l ∧
      ∀ q, q ∈ t.requests ↔ q ∈ s.requests ∨
        ∃ (i : Nat) (r : SongRequest), (sourceRequests s sourceSessionId any)[i]? = some r ∧
          q = { r with
            id := first + i, liveSessionId := l.id, queueOrder := (i : Int) + 1,
            createdAt := now } := by
  rcases hdrawn : LiveSessionService.channelOverlayToken s drawn with ⟨r₀, token⟩
  obtain ⟨hs, hr, hcounter, htoken, hkept⟩ := channelOverlayToken_spec hdrawn
  simp only [LiveSessionService.cloneSession, hdrawn, bind_ok, ensure_ok, require_ok] at h
  obtain ⟨source, -, -, hnone, ⟨r₁, id₁⟩, hid₁, ⟨r₂, id₂⟩, hid₂, sessions, hsessions, h⟩ := h
  obtain ⟨rfl, rfl⟩ := nextId_spec hid₁
  obtain ⟨rfl, rfl⟩ := nextId_spec hid₂
  obtain ⟨htsessions, httoken, htcounter, hmem⟩ := cloneRequests_spec h
  change t.sessions = sessions at htsessions
  change r₀.counter + 1 + 1 ≤ t.counter at htcounter
  have hbetween : s.counter < r₀.counter + 1 ∧ r₀.counter + 1 ≤ t.counter := by omega
  have hinsert := hsessions
  rw [← htsessions, hs] at hinsert
  refine ⟨_, r₀.counter + 1 + 1 + 1, ⟨hbetween, rfl, hnone, hinsert, ⟨rfl, rfl⟩,
    httoken.trans htoken, hkept⟩, fun q => ?_⟩
  rw [hmem q, sourceRequests, ← hr]
  simp only [Nat.cast_zero, zero_add]

/-- The ended session, and the requests that stay. -/
theorem endSession_spec {sessionId : Nat}
    (h : LiveSessionService.endSession s now sessionId = .ok t) :
    (∀ l, l ∈ t.sessions ↔ ∃ k ∈ s.sessions, l = if k.id = sessionId then
      { k with
        status := .ended, endedAt := some now, playbackRevision := k.playbackRevision + 1 }
      else k) ∧ t.overlayToken = s.overlayToken ∧ ∀ q ∈ t.requests, q ∈ s.requests := by
  simp only [LiveSessionService.endSession, bind_ok, require_ok, pure_ok] at h
  obtain ⟨session, -, rfl⟩ := h
  refine ⟨fun l => Table.mem_update (k := by exact ⟨fun _ => rfl⟩), rfl, ?_⟩
  intro q hq
  by_cases hpriv : session.visibility = .priv
  · simp only [if_pos hpriv] at hq
    exact (Table.mem_delete.mp hq).1
  · simp only [if_neg hpriv] at hq
    exact hq

/-! ## Over runs -/

/-- The sessions of a room and what refers to them. -/
structure RoomOk (room : Room) : Prop where
  /-- Every request is of a session of the room. -/
  owned : ∀ r ∈ room.requests, ∃ l ∈ room.sessions, l.id = r.liveSessionId
  /-- At most one standard session is active. -/
  one_active : ∀ k ∈ room.sessions, ∀ l ∈ room.sessions, ActiveStandard k → ActiveStandard l → k = l
  /-- Every session has the token of the room. -/
  token : ∀ l ∈ room.sessions, room.overlayToken = some l.overlayToken
  /-- Only standard sessions are opened. -/
  standard : ∀ l ∈ room.sessions, l.sessionType = .standard

/-- An opened session has a new id. -/
theorem Opened.fresh {l : LiveSession} (h : Opened now s t l) {k : LiveSession}
    (hk : k ∈ s.sessions) : k.id ≠ l.id := by
  intro heq
  exact Table.fresh_of_insert h.sessions hk ⟨k.id, List.mem_cons_self, heq ▸ List.mem_cons_self⟩

/-- A session just opened has no requests yet. -/
theorem Opened.no_requests {l : LiveSession} (h : Opened now s t l) (hs : RoomOk s) {r : SongRequest}
    (hr : r ∈ s.requests) : r.liveSessionId ≠ l.id := by
  obtain ⟨k, hk, hid⟩ := hs.owned r hr
  exact hid ▸ h.fresh hk

theorem eq_of_session {s : Table LiveSession} {k l : LiveSession} (hk : k ∈ s) (hl : l ∈ s)
    (h : k.id = l.id) : k = l :=
  Table.eq_of_key hk hl (k := k.id) List.mem_cons_self (h ▸ List.mem_cons_self)

/-- Opening a session keeps the room in order. -/
theorem RoomOk.opened {l : LiveSession} (hs : RoomOk s) (h : Opened now s t l)
    (hrequests : ∀ q ∈ t.requests, q.liveSessionId = l.id ∨
      ∃ r ∈ s.requests, q.liveSessionId = r.liveSessionId) : RoomOk t := by
  have hmem : ∀ k, k ∈ t.sessions ↔ k ∈ s.sessions ∨ k = l := fun k => Table.mem_insert h.sessions
  constructor
  · intro q hq
    rcases hrequests q hq with heq | ⟨r, hr, heq⟩
    · exact ⟨l, (hmem l).mpr (.inr rfl), heq.symm⟩
    · obtain ⟨k, hk, hid⟩ := hs.owned r hr
      exact ⟨k, (hmem k).mpr (.inl hk), hid.trans heq.symm⟩
  · have hold : ∀ k ∈ s.sessions, ¬ActiveStandard k := fun k hk ha => h.none_active ⟨k, hk, ha⟩
    intro j hj k hk hactive hactive'
    rcases (hmem j).mp hj with hj | rfl
    · exact absurd hactive (hold j hj)
    · rcases (hmem k).mp hk with hk | rfl
      · exact absurd hactive' (hold k hk)
      · rfl
  · intro k hk
    rcases (hmem k).mp hk with hk | rfl
    · rw [h.token, h.kept _ (hs.token k hk)]
    · exact h.token
  · intro k hk
    rcases (hmem k).mp hk with hk | rfl
    · exact hs.standard k hk
    · exact h.standard.2

/-- Writing requests keeps the room in order. -/
theorem RoomOk.same (hs : RoomOk s) (h : SameSessions s t)
    (hrequests : ∀ q ∈ t.requests, (∃ l ∈ s.sessions, l.id = q.liveSessionId) ∨
      ∃ r ∈ s.requests, q.liveSessionId = r.liveSessionId) : RoomOk t := by
  constructor
  · intro q hq
    have howner : ∃ l ∈ s.sessions, l.id = q.liveSessionId := by
      rcases hrequests q hq with hl | ⟨r, hr, heq⟩
      · exact hl
      · rw [heq]
        exact hs.owned r hr
    obtain ⟨l, hl, hid⟩ := howner
    obtain ⟨l', hl', hid', -⟩ := h.sessions.forward l hl
    exact ⟨l', hl', hid'.trans hid⟩
  · intro k' hk' l' hl' hactive hactive'
    obtain ⟨k, hk, hid, hstatus, htype, -⟩ := h.sessions.back k' hk'
    obtain ⟨l, hl, hid', hstatus', htype', -⟩ := h.sessions.back l' hl'
    have heq : k = l := hs.one_active k hk l hl ⟨hstatus ▸ hactive.1, htype ▸ hactive.2⟩
      ⟨hstatus' ▸ hactive'.1, htype' ▸ hactive'.2⟩
    exact eq_of_session hk' hl' (by rw [hid, hid', heq])
  · intro l' hl'
    obtain ⟨l, hl, -, -, -, htoken⟩ := h.sessions.back l' hl'
    rw [h.overlayToken, htoken]
    exact hs.token l hl
  · intro l' hl'
    obtain ⟨l, hl, -, -, htype, -⟩ := h.sessions.back l' hl'
    rw [htype]
    exact hs.standard l hl

/-- Ending a session keeps the room in order. -/
theorem RoomOk.ended {sessionId : Nat} (hs : RoomOk s)
    (hsessions : ∀ l, l ∈ t.sessions ↔ ∃ k ∈ s.sessions, l = if k.id = sessionId then
      { k with
        status := .ended, endedAt := some now, playbackRevision := k.playbackRevision + 1 }
      else k)
    (htoken : t.overlayToken = s.overlayToken) (hrequests : ∀ q ∈ t.requests, q ∈ s.requests) :
    RoomOk t := by
  constructor
  · intro q hq
    obtain ⟨k, hk, hid⟩ := hs.owned q (hrequests q hq)
    refine ⟨_, (hsessions _).mpr ⟨k, hk, rfl⟩, ?_⟩
    by_cases heq : k.id = sessionId
    · rw [if_pos heq]
      exact hid
    · rw [if_neg heq]
      exact hid
  · have hactive : ∀ l ∈ t.sessions, ActiveStandard l → l ∈ s.sessions := by
      intro l hl hactive
      obtain ⟨k, hk, rfl⟩ := (hsessions l).mp hl
      by_cases heq : k.id = sessionId
      · rw [if_pos heq] at hactive
        exact absurd (show LiveSessionStatus.ended = .active from hactive.1) (by decide)
      · rw [if_neg heq]
        exact hk
    intro k hk l hl hk' hl'
    exact hs.one_active k (hactive k hk hk') l (hactive l hl hl') hk' hl'
  · intro l hl
    obtain ⟨k, hk, rfl⟩ := (hsessions l).mp hl
    rw [htoken, hs.token k hk]
    by_cases heq : k.id = sessionId
    · rw [if_pos heq]
    · rw [if_neg heq]
  · intro l hl
    obtain ⟨k, hk, rfl⟩ := (hsessions l).mp hl
    by_cases heq : k.id = sessionId
    · rw [if_pos heq]
      exact hs.standard k hk
    · rw [if_neg heq]
      exact hs.standard k hk

/-- A command on the requests adds none to a session the room does not have. -/
theorem exec_requests (hc : c.OnRequests) (h : exec channel c now any s = .ok t) :
    ∀ q ∈ t.requests, (∃ l ∈ s.sessions, l.id = q.liveSessionId) ∨
      ∃ r ∈ s.requests, q.liveSessionId = r.liveSessionId := by
  have hrestated : ∀ {change : Change} {u : Room}, Restated change s u → ∀ q ∈ u.requests,
      (∃ l ∈ s.sessions, l.id = q.liveSessionId) ∨
        ∃ r ∈ s.requests, q.liveSessionId = r.liveSessionId := by
    intro change u hu q hq
    obtain ⟨r, hr, hplaced, -⟩ := hu.back q hq
    exact .inr ⟨r, hr, hplaced.liveSessionId⟩
  cases c with
  | startSession => exact absurd hc id
  | cloneSession => exact absurd hc id
  | endSession => exact absurd hc id
  | addToQueue liveSessionId data random =>
    obtain ⟨placed, r, hplace, hadded⟩ := addToQueue_added h
    intro q hq
    rcases (hadded.requests q).mp hq with hq | rfl
    · obtain ⟨_, hshift, -⟩ := (place_placing hplace).reordered
      obtain ⟨p, hp, rfl⟩ := (hshift q).mp hq
      exact .inr ⟨p, hp, rfl⟩
    · -- the new request is of the session that was looked up for it
      obtain ⟨l, hl, hid, -⟩ := hadded.active
      exact .inl ⟨l, hl, hid.trans hadded.liveSessionId.symm⟩
  | updateStatus => exact hrestated (updateStatus_restated h)
  | updateOrder =>
    obtain ⟨r, -, -, -, -, -, -, heq⟩ := updateOrder_spec h
    intro q hq
    rw [heq] at hq
    obtain ⟨p, hp, rfl⟩ := (renumber_reordered nodup_reorderedIds q).mp hq
    exact .inr ⟨p, hp, rfl⟩
  | removeFromQueue =>
    obtain ⟨r, -, -, -, hreordered⟩ := removeFromQueue_spec h
    intro q hq
    obtain ⟨p, hp, rfl⟩ := (hreordered q).mp hq
    exact .inr ⟨p, (Table.mem_delete.mp hp).1, rfl⟩
  | playNext =>
    obtain rfl := Except.ok.inj h
    exact hrestated playNext_restated
  | skipCurrent =>
    obtain rfl := Except.ok.inj h
    exact hrestated (skipped_restated.trans playNext_restated)
  | playNow =>
    obtain ⟨_, -, -, hchange⟩ := playNow_restated h
    exact hrestated hchange
  | clearQueue =>
    obtain rfl := Except.ok.inj h
    intro q hq
    exact .inr ⟨q, (mem_clearQueue.mp hq).1, rfl⟩

/-- A step keeps the room in order. -/
theorem exec_roomOk (hs : RoomOk s) (h : exec channel c now any s = .ok t) : RoomOk t := by
  by_cases hc : c.OnRequests
  · exact hs.same (exec_same hc h) (exec_requests hc h)
  · cases c with
    | startSession =>
      obtain ⟨l, hopened, hrequests⟩ := startSession_opened h
      refine hs.opened hopened fun q hq => .inr ⟨q, hrequests ▸ hq, rfl⟩
    | cloneSession =>
      obtain ⟨l, first, hopened, hmem⟩ := cloneSession_opened h
      refine hs.opened hopened fun q hq => ?_
      rcases (hmem q).mp hq with hq | ⟨_, _, -, rfl⟩
      · exact .inr ⟨q, hq, rfl⟩
      · exact .inl rfl
    | endSession sessionId =>
      obtain ⟨hsessions, htoken, hrequests⟩ := endSession_spec h
      exact hs.ended hsessions htoken hrequests
    | _ => exact absurd trivial hc

/-- The sessions are in order in every reachable state. -/
theorem reachable_roomOk (h : (songSystem channel ok).Reachable s) : RoomOk s := by
  refine System.Reachable.induct (P := RoomOk) ⟨?_, ?_⟩ h
  · rintro _ rfl
    exact ⟨fun r hr => absurd hr (Table.not_mem_empty r),
      fun k hk => absurd hk (Table.not_mem_empty k), fun l hl => absurd hl (Table.not_mem_empty l),
      fun l hl => absurd hl (Table.not_mem_empty l)⟩
  · rintro u v c - hu ⟨hexec, -⟩
    exact exec_roomOk hu hexec

instance {ρ : Type} [Row ρ] (t : Table ρ) (p : ρ → Prop) [DecidablePred p] :
    Decidable (∀ r ∈ t, p r) :=
  inferInstanceAs (Decidable (∀ r ∈ t.rows, p r))

instance (room : Room) (c : SongCommand) : Decidable (anyCommand room c) :=
  inferInstanceAs (Decidable True)

/-- A command where it is allowed. -/
def execWhere (channel : Channel) (ok : Room → SongCommand → Prop)
    [∀ room c, Decidable (ok room c)] (c : SongCommand × Time × AnyOrder) (room : Room) :
    Option Room :=
  if ok room c.1 then (exec channel c.1 c.2.1 c.2.2 room).toOption else none

theorem step_of_execWhere [∀ room c, Decidable (ok room c)] {c : SongCommand × Time × AnyOrder}
    (h : execWhere channel ok c s = some t) : (songSystem channel ok).step c s t := by
  unfold execWhere at h
  by_cases hok : ok s c.1
  · rw [if_pos hok, toOption_eq_some] at h
    exact ⟨h, hok⟩
  · rw [if_neg hok] at h
    exact absurd h (Option.some_ne_none _).symm

theorem reachable_of_play [∀ room c, Decidable (ok room c)]
    {cs : List (SongCommand × Time × AnyOrder)}
    (h : System.play (execWhere channel ok) cs {} = some s) : (songSystem channel ok).Reachable s :=
  (System.Run.of_play (fun _ _ _ h => step_of_execWhere h) h).reachable (.init rfl)

/-- A request of an operator, for the witnesses. -/
def operatorRequest (insertPosition : Option InsertPosition) (after : Option Nat) : RequestData :=
  { rawArtist := "아티스트", rawTitle := "제목", requesterPlatformId := "p",
    requesterNickname := "n", allowManualBypass := true, insertPosition,
    insertAfterRequestId := after }

end Rogichat.SongLive
