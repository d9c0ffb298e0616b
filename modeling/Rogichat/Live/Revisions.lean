import Rogichat.Live.Model
import Rogichat.SongLive.System

/-!
# Playback revisions

A command either raises the revision of the session whose requests it writes, or opens a
session above every earlier one, or leaves what the newest session shows alone. One command
does none of the three: a skip that rejects the playing request, finds nothing to play and
leaves without raising the revision.

* **`Within`** — request writes of some sessions, the frame every part of a command keeps.
* **`Moves`** — the step lemma of all commands: sessions stay in their order, and the newest
  one moves up or shows the same.
* **`exec_moves`** — a command that is no dry skip moves.
-/

namespace Rogichat.Live

open Lib SongLive

/-! ## What a command does to the sessions -/

/-- The requests of a session, as the database holds them. -/
def requestsOf (room : SongLive.Room) (id : Nat) : List SongRequest :=
  room.requests.select fun r => r.liveSessionId = id

/-- Writes that change requests of the sessions in `I` only, and no session. -/
structure Within (I : Nat → Prop) (s t : SongLive.Room) : Prop where
  sessions : t.sessions = s.sessions
  counter : s.counter ≤ t.counter
  others : ∀ j, ¬I j → requestsOf t j = requestsOf s j
  rows : ∀ r ∈ t.requests, I r.liveSessionId ∨
    ∃ r' ∈ s.requests, r'.id = r.id ∧ r'.liveSessionId = r.liveSessionId

namespace Within

variable {I J : Nat → Prop} {s t u : SongLive.Room}

theorem refl (s : SongLive.Room) : Within I s s where
  sessions := rfl
  counter := Nat.le_refl _
  others _ _ := rfl
  rows r hr := .inr ⟨r, hr, rfl, rfl⟩

theorem trans (h : Within I s t) (h' : Within I t u) : Within I s u where
  sessions := h'.sessions.trans h.sessions
  counter := Nat.le_trans h.counter h'.counter
  others j hj := (h'.others j hj).trans (h.others j hj)
  rows r hr := by
    rcases h'.rows r hr with hI | ⟨r', hr', hid, hsession⟩
    · exact .inl hI
    · rcases h.rows r' hr' with hI | ⟨r'', hr'', hid', hsession'⟩
      · exact .inl (hsession ▸ hI)
      · exact .inr ⟨r'', hr'', hid'.trans hid, hsession'.trans hsession⟩

theorem mono (h : Within I s t) (hIJ : ∀ j, I j → J j) : Within J s t where
  sessions := h.sessions
  counter := h.counter
  others j hj := h.others j fun hI => hj (hIJ j hI)
  rows r hr := (h.rows r hr).imp_left (hIJ _)

/-- Writes to neither table. -/
theorem beside (hsessions : t.sessions = s.sessions) (hrequests : t.requests = s.requests)
    (hcounter : s.counter ≤ t.counter) : Within I s t where
  sessions := hsessions
  counter := hcounter
  others j _ := by
    unfold requestsOf
    rw [hrequests]
  rows r hr := .inr ⟨r, hrequests ▸ hr, rfl, rfl⟩

/-- A change of request rows that lie in `I`. -/
theorem update {p : SongRequest → Prop} [DecidablePred p] {f : SongRequest → SongRequest}
    {k : Table.Keeps f} (hp : ∀ r ∈ s.requests, p r → I r.liveSessionId)
    (hid : ∀ r, (f r).id = r.id) (hf : ∀ r, (f r).liveSessionId = r.liveSessionId) :
    Within I s { s with requests := s.requests.update p f k } where
  sessions := rfl
  counter := Nat.le_refl _
  others j hj := by
    show (s.requests.update p f k).select (fun r => r.liveSessionId = j) = requestsOf s j
    refine Table.select_update (fun r => by rw [hf]) ?_
    rintro r hr hpr rfl
    exact hj (hp r hr hpr)
  rows r hr := by
    have hupdated : r ∈ s.requests.update p f k := hr
    obtain ⟨r', hr', rfl⟩ := Table.mem_update.mp hupdated
    refine .inr ⟨r', hr', ?_⟩
    split
    · exact ⟨(hid r').symm, (hf r').symm⟩
    · exact ⟨rfl, rfl⟩

/-- A removal of request rows that lie in `I`. -/
theorem delete {p : SongRequest → Prop} [DecidablePred p]
    (hp : ∀ r ∈ s.requests, p r → I r.liveSessionId) :
    Within I s { s with requests := s.requests.delete p } where
  sessions := rfl
  counter := Nat.le_refl _
  others j hj := by
    show (s.requests.delete p).select (fun r => r.liveSessionId = j) = requestsOf s j
    refine Table.select_delete ?_
    rintro r hr hpr rfl
    exact hj (hp r hr hpr)
  rows r hr := .inr ⟨r, (Table.mem_delete.mp hr).1, rfl, rfl⟩

/-- A new request row. -/
theorem insert {row : SongRequest} {requests : Table SongRequest}
    (h : s.requests.insert row = some requests) (hI : I row.liveSessionId) :
    Within I s { s with requests } where
  sessions := rfl
  counter := Nat.le_refl _
  others j hj := Table.select_insert h fun heq => hj (heq ▸ hI)
  rows r hr := by
    rcases (Table.mem_insert h).mp hr with hr | rfl
    · exact .inr ⟨r, hr, rfl, rfl⟩
    · exact .inl hI

end Within

/-- Every row with the request's id belongs to session `i`. -/
def Aims (s : SongLive.Room) (i x : Nat) : Prop := ∀ r ∈ s.requests, r.id = x → r.liveSessionId = i

/-- A request that is there belongs to its session. -/
theorem aims_of_mem {s : SongLive.Room} {r : SongRequest} (hr : r ∈ s.requests) :
    Aims s r.liveSessionId r.id := by
  intro r' hr' hid
  rw [eq_of_request hr' hr hid]

/-- A request keeps its session while another part of the room is written. -/
theorem Aims.within {s t : SongLive.Room} {i x : Nat} (h : Aims s i x) (hw : Within (· = i) s t) :
    Aims t i x := by
  intro r hr hid
  rcases hw.rows r hr with hI | ⟨r', hr', hid', hsession⟩
  · exact hI
  · rw [← hsession]
    exact h r' hr' (hid'.trans hid)

/-- A write to the row with a request's id. -/
theorem Aims.setRequest {s : SongLive.Room} {i x : Nat} (h : Aims s i x)
    {f : SongRequest → SongRequest} {k : Table.Keeps f} (hid : ∀ r, (f r).id = r.id)
    (hf : ∀ r, (f r).liveSessionId = r.liveSessionId) :
    Within (· = i) s (SongLive.setRequest s x f k) :=
  .update h hid hf

/-- The row `b` is the row `a` after a command raised its revision. -/
structure Raised (a b : LiveSession) : Prop where
  id : b.id = a.id
  sessionType : b.sessionType = a.sessionType
  startedAt : b.startedAt = a.startedAt
  revision : a.playbackRevision < b.playbackRevision
  active : b.status = .active → a.status = .active

/-- What became of a session: its revision rose, or what it shows stayed as it was. -/
def Follows (s t : SongLive.Room) (a b : LiveSession) : Prop :=
  Raised a b ∨ b = a ∧ (a.status = .active → requestsOf t a.id = requestsOf s a.id)

theorem Follows.id {s t : SongLive.Room} {a b : LiveSession} (h : Follows s t a b) :
    b.id = a.id := by
  rcases h with h | ⟨rfl, -⟩
  · exact h.id
  · rfl

/-- A session keeps the time it started at. -/
theorem Follows.startedAt {s t : SongLive.Room} {a b : LiveSession} (h : Follows s t a b) :
    b.startedAt = a.startedAt := by
  rcases h with h | ⟨rfl, -⟩
  · exact h.startedAt
  · rfl

/-- A command that opens no session. -/
structure Rewrites (s t : SongLive.Room) : Prop where
  counter : s.counter ≤ t.counter
  fore : ∀ a ∈ s.sessions, ∃ b ∈ t.sessions, Follows s t a b
  back : ∀ b ∈ t.sessions, ∃ a ∈ s.sessions, Follows s t a b

/-- Sessions are opened one at a time, each above those before it. -/
structure Ok (now : Time) (s : SongLive.Room) : Prop where
  drawn : ∀ r ∈ s.sessions, r.id ≤ s.counter
  started : ∀ r ∈ s.sessions, r.startedAt ≤ now
  standard : ∀ r ∈ s.sessions, r.sessionType = .standard
  ordered : ∀ a ∈ s.sessions, ∀ b ∈ s.sessions, a.id < b.id → a.startedAt ≤ b.startedAt
  newest : ∀ a ∈ s.sessions, a.status = .active → ∀ b ∈ s.sessions, b.id ≤ a.id

/-- A room in order stays so as time passes. -/
theorem Ok.later {now now' : Time} {s : SongLive.Room} (h : Ok now s) (hnow : now ≤ now') :
    Ok now' s where
  drawn := h.drawn
  started r hr := Nat.le_trans (h.started r hr) hnow
  standard := h.standard
  ordered := h.ordered
  newest := h.newest

/-- The session above every other. -/
def Last (s : SongLive.Room) (a : LiveSession) : Prop :=
  a ∈ s.sessions ∧ ∀ r ∈ s.sessions, r.id ≤ a.id

/-- There is one last session. -/
theorem Last.unique {s : SongLive.Room} {a b : LiveSession} (ha : Last s a) (hb : Last s b) :
    a = b :=
  eq_of_session ha.1 hb.1 (Nat.le_antisymm (hb.2 a ha.1) (ha.2 b hb.1))

/-- The key a session's snapshots carry. -/
def sessionKey (a : LiveSession) : ℕ ×ₗ ℕ := toLex (a.id, a.playbackRevision)

/-- Keys compare by session and then by revision. -/
theorem sessionKey_lt {a b : LiveSession} : sessionKey a < sessionKey b ↔
    a.id < b.id ∨ a.id = b.id ∧ a.playbackRevision < b.playbackRevision := by
  unfold sessionKey
  exact Prod.Lex.toLex_lt_toLex

/-- What the newest session shows moved up, or stayed. -/
def Advances (s t : SongLive.Room) : Prop :=
  ∀ a, Last s a → ∃ b, Last t b ∧ (sessionKey a < sessionKey b ∨
    b = a ∧ (a.status = .active → requestsOf t a.id = requestsOf s a.id))

theorem Advances.refl (s : SongLive.Room) : Advances s s :=
  fun a ha => ⟨a, ha, .inr ⟨rfl, fun _ => rfl⟩⟩

theorem Advances.trans {s t u : SongLive.Room} (h : Advances s t) (h' : Advances t u) :
    Advances s u := by
  intro a ha
  obtain ⟨b, hb, hab⟩ := h a ha
  obtain ⟨c, hc, hbc⟩ := h' b hb
  refine ⟨c, hc, ?_⟩
  rcases hab with hlt | ⟨rfl, hsame⟩
  · rcases hbc with hlt' | ⟨rfl, -⟩
    · exact .inl (lt_trans hlt hlt')
    · exact .inl hlt
  · rcases hbc with hlt' | ⟨rfl, hsame'⟩
    · exact .inl hlt'
    · exact .inr ⟨rfl, fun hactive => (hsame' hactive).trans (hsame hactive)⟩

/-- What every part of a command does. -/
def Moves (now : Time) (s t : SongLive.Room) : Prop := Ok now s → Ok now t ∧ Advances s t

theorem Moves.refl {now : Time} (s : SongLive.Room) : Moves now s s := fun h => ⟨h, .refl s⟩

theorem Moves.trans {now : Time} {s t u : SongLive.Room} (h : Moves now s t) (h' : Moves now t u) :
    Moves now s u := by
  intro hs
  obtain ⟨ht, hst⟩ := h hs
  obtain ⟨hu, htu⟩ := h' ht
  exact ⟨hu, hst.trans htu⟩

/-- A rewrite in which every session follows its former row is a move. -/
theorem Rewrites.moves {now : Time} {s t : SongLive.Room} (h : Rewrites s t) : Moves now s t := by
  intro hs
  constructor
  · constructor
    · intro b hb
      obtain ⟨a, ha, hab⟩ := h.back b hb
      rw [hab.id]
      exact Nat.le_trans (hs.drawn a ha) h.counter
    · intro b hb
      obtain ⟨a, ha, hab⟩ := h.back b hb
      rw [hab.startedAt]
      exact hs.started a ha
    · intro b hb
      obtain ⟨a, ha, hab | ⟨rfl, -⟩⟩ := h.back b hb
      · exact hab.sessionType.trans (hs.standard a ha)
      · exact hs.standard b ha
    · intro b hb b' hb' hlt
      obtain ⟨a, ha, hab⟩ := h.back b hb
      obtain ⟨a', ha', hab'⟩ := h.back b' hb'
      rw [hab.id, hab'.id] at hlt
      rw [hab.startedAt, hab'.startedAt]
      exact hs.ordered a ha a' ha' hlt
    · intro b hb hactive b' hb'
      obtain ⟨a, ha, hab⟩ := h.back b hb
      obtain ⟨a', ha', hab'⟩ := h.back b' hb'
      rw [hab.id, hab'.id]
      refine hs.newest a ha ?_ a' ha'
      rcases hab with hab | ⟨rfl, -⟩
      · exact hab.active hactive
      · exact hactive
  · intro a ha
    obtain ⟨b, hb, hab⟩ := h.fore a ha.1
    refine ⟨b, ⟨hb, ?_⟩, ?_⟩
    · intro r hr
      obtain ⟨r', hr', hrr⟩ := h.back r hr
      rw [hrr.id, hab.id]
      exact ha.2 r' hr'
    · rcases hab with hab | hab
      · exact .inl (sessionKey_lt.mpr (.inr ⟨hab.id.symm, hab.revision⟩))
      · exact .inr hab

/-- A session that opens is later than the ones before. -/
theorem opened_moves {now : Time} {n : LiveSession} {s t : SongLive.Room}
    (h : SongLive.Opened now s t n) :
    Moves now s t := by
  intro hs
  have hmem : ∀ b, b ∈ t.sessions ↔ b ∈ s.sessions ∨ b = n := fun b => Table.mem_insert h.sessions
  have hbelow : ∀ a ∈ s.sessions, a.id < n.id :=
    fun a ha => Nat.lt_of_le_of_lt (hs.drawn a ha) h.drawn.1
  have hle : ∀ b ∈ t.sessions, b.id ≤ n.id := by
    intro b hb
    rcases (hmem b).mp hb with hb | rfl
    · exact Nat.le_of_lt (hbelow b hb)
    · exact Nat.le_refl _
  have hlast : Last t n := ⟨(hmem n).mpr (.inr rfl), hle⟩
  constructor
  · constructor
    · intro b hb
      exact Nat.le_trans (hle b hb) h.drawn.2
    · intro b hb
      rcases (hmem b).mp hb with hb | rfl
      · exact hs.started b hb
      · exact h.startedAt.le
    · intro b hb
      rcases (hmem b).mp hb with hb | rfl
      · exact hs.standard b hb
      · exact h.standard.2
    · intro b hb b' hb' hlt
      rcases (hmem b).mp hb with hb | rfl
      · rcases (hmem b').mp hb' with hb' | rfl
        · exact hs.ordered b hb b' hb' hlt
        · rw [h.startedAt]
          exact hs.started b hb
      · exact absurd hlt (Nat.not_lt.mpr (hle b' hb'))
    · intro b hb hactive b' hb'
      rcases (hmem b).mp hb with hb | rfl
      · exact absurd ⟨b, hb, hactive, hs.standard b hb⟩ h.none_active
      · exact hle b' hb'
  · intro a ha
    exact ⟨n, hlast, .inl (sessionKey_lt.mpr (.inl (hbelow a ha.1)))⟩

/-- Sessions changed by `f`, each with a higher revision. -/
theorem rewrites_update {s t : SongLive.Room} {p : LiveSession → Prop} [DecidablePred p]
    {f : LiveSession → LiveSession} {k : Table.Keeps f} (hcounter : s.counter ≤ t.counter)
    (ht : t.sessions = s.sessions.update p f k) (hf : ∀ r, p r → Raised r (f r))
    (hothers : ∀ a ∈ s.sessions, ¬p a → a.status = .active →
      requestsOf t a.id = requestsOf s a.id) : Rewrites s t := by
  have hfollows : ∀ a ∈ s.sessions, Follows s t a (if p a then f a else a) := by
    intro a ha
    by_cases hp : p a
    · rw [if_pos hp]
      exact .inl (hf a hp)
    · rw [if_neg hp]
      exact .inr ⟨rfl, hothers a ha hp⟩
  refine ⟨hcounter, ?_, ?_⟩
  · intro a ha
    exact ⟨_, ht ▸ Table.mem_update_of_mem ha, hfollows a ha⟩
  · intro b hb
    rw [ht] at hb
    obtain ⟨a, ha, rfl⟩ := Table.mem_update.mp hb
    exact ⟨a, ha, hfollows a ha⟩

/-- Writes that touch no request of an active session. -/
theorem Within.rewrites {I : Nat → Prop} {s t : SongLive.Room} (h : Within I s t)
    (hI : ∀ a ∈ s.sessions, a.status = .active → ¬I a.id) : Rewrites s t := by
  have hfollows : ∀ a ∈ s.sessions, Follows s t a a := fun a ha =>
    .inr ⟨rfl, fun hactive => h.others a.id (hI a ha hactive)⟩
  refine ⟨h.counter, ?_, ?_⟩
  · intro a ha
    exact ⟨a, h.sessions ▸ ha, hfollows a ha⟩
  · intro b hb
    rw [h.sessions] at hb
    exact ⟨b, hb, hfollows b hb⟩

/-- Request writes of one session whose revision then rises. -/
def Bumps (i : Nat) (s t : SongLive.Room) : Prop := ∃ u, Within (· = i) s u ∧ t = bumpRevision u i

/-- A change that raises the revision is a move. -/
theorem Bumps.moves {now : Time} {i : Nat} {s t : SongLive.Room} (h : Bumps i s t) :
    Moves now s t := by
  obtain ⟨u, hu, rfl⟩ := h
  have hsessions : (bumpRevision u i).sessions = s.sessions.update (fun l => l.id = i)
      (fun l => { l with playbackRevision := l.playbackRevision + 1 }) ⟨fun _ => rfl⟩ := by
    unfold bumpRevision
    rw [← hu.sessions]
  refine (rewrites_update (t := bumpRevision u i) hu.counter hsessions ?_ ?_).moves
  · intro r _
    exact ⟨rfl, rfl, rfl, Nat.lt_succ_self _, id⟩
  · intro a _ ha _
    exact hu.others a.id ha

/-- A change within the session whose revision is raised is covered by it. -/
theorem Within.bumps {i : Nat} {s t u : SongLive.Room} (h : Within (· = i) s t) (h' : Bumps i t u) :
    Bumps i s u := by
  obtain ⟨v, hv, rfl⟩ := h'
  exact ⟨v, h.trans hv, rfl⟩

/-- Writes beside both tables. -/
abbrev Beside (s t : SongLive.Room) : Prop := Within (fun _ => False) s t

theorem Within.beside_moves {now : Time} {s t : SongLive.Room} (h : Beside s t) : Moves now s t :=
  (h.rewrites fun _ _ _ => id).moves

theorem nextId_beside {s t : SongLive.Room} {id : Nat} (h : nextChannelContentId s = .ok (t, id)) :
    Beside s t := by
  obtain ⟨rfl, -⟩ := nextId_spec h
  exact .beside rfl rfl (Nat.le_succ _)

/-! ## The commands on sessions and requests -/

variable {channel : Channel} {any : AnyOrder} {now : Time} {s t : SongLive.Room}

/-- Ending a session raises its revision. -/
theorem endSession_moves {sessionId : Nat}
    (h : LiveSessionService.endSession s now sessionId = .ok t) : Moves now s t := by
  obtain ⟨session, -, h⟩ := bind_ok.mp h
  obtain rfl := pure_ok.mp h
  set f : LiveSession → LiveSession := fun l =>
    { l with status := .ended, endedAt := some now, playbackRevision := l.playbackRevision + 1 }
  have hraised : ∀ l, Raised l (f l) :=
    fun l => ⟨rfl, rfl, rfl, Nat.lt_succ_self _, fun hactive => by cases hactive⟩
  have hkeeps : Table.Keeps f := ⟨fun _ => rfl⟩
  apply Rewrites.moves
  refine rewrites_update (p := fun l => l.id = sessionId) (f := f) (k := hkeeps) (Nat.le_refl _) rfl
    (fun l _ => hraised l) ?_
  intro a _ ha _
  show (if session.visibility = .priv then s.requests.delete fun r => r.liveSessionId = sessionId
    else s.requests).select _ = _
  split
  · refine Table.select_delete ?_
    rintro r - rfl
    exact fun heq => ha heq.symm
  · rfl

/-- Making place writes requests of the session only. -/
theorem place_within {liveSessionId : Nat} {data : RequestData} {order : Int}
    (h : SongRequestQueueService.place s liveSessionId data any = .ok (t, order)) :
    Within (· = liveSessionId) s t := by
  unfold SongRequestQueueService.place at h
  split at h
  · obtain ⟨afterId, -, h⟩ := bind_ok.mp h
    obtain ⟨after, -, h⟩ := bind_ok.mp h
    cases h
    exact .update (fun r _ hr => hr.1) (fun _ => rfl) fun _ => rfl
  · cases h
    exact .refl _
  · cases h
    exact .refl _

/-- A request that is added raises the revision. -/
theorem addToQueue_bumps {liveSessionId random : Nat} {data : RequestData}
    (h : SongRequestQueueService.addToQueue channel s now liveSessionId data random any = .ok t) :
    Bumps liveSessionId s t := by
  simp only [SongRequestQueueService.addToQueue, bind_ok, require_ok, ensure_ok, pure_ok] at h
  obtain ⟨session, -, -, -, -, -, -, -, -, -, song, -, -, -, ⟨placed, order⟩, hplace,
    ⟨drawn, id⟩, hid, requests, hrequests, rfl⟩ := h
  have hdrawn : Within (· = liveSessionId) placed drawn :=
    (nextId_beside hid).mono fun _ => False.elim
  exact ⟨_, ((place_within hplace).trans hdrawn).trans (.insert hrequests rfl), rfl⟩

/-- Renumbering writes requests of the session only. -/
theorem renumber_within {base : Int} {i : Nat} {ids : List Nat} (h : ∀ id ∈ ids, Aims s i id) :
    Within (· = i) s { s with requests := renumber s.requests base ids } := by
  induction ids generalizing base s with
  | nil => exact .refl s
  | cons id ids ih =>
    have hfirst : Within (· = i) s { s with
        requests := s.requests.update (fun r => r.id = id) fun r =>
          { r with queueOrder := base + 1 } } :=
      .update (h id List.mem_cons_self) (fun _ => rfl) fun _ => rfl
    refine hfirst.trans (ih fun id' hid' => ?_)
    exact (h id' (List.mem_cons_of_mem _ hid')).within hfirst

/-- A request that is moved raises the revision. -/
theorem updateOrder_bumps {requestId newOrder : Nat}
    (h : SongRequestQueueService.updateOrder s requestId newOrder any = .ok t) :
    ∃ i, Bumps i s t := by
  simp only [SongRequestQueueService.updateOrder, bind_ok, require_ok, ensure_ok, pure_ok] at h
  obtain ⟨current, hcurrent, -, -, -, -, rfl⟩ := h
  refine ⟨current.liveSessionId, _, renumber_within ?_, rfl⟩
  have hmoved : Aims s current.liveSessionId requestId := by
    have hid : current.id = requestId :=
      Table.holds_of_find? (p := fun r : SongRequest => r.id = requestId) hcurrent
    exact hid ▸ aims_of_mem (Table.mem_of_find? hcurrent)
  -- every id of the new order is the moved one or a waiting one of its session
  intro id hid
  rcases List.eq_or_mem_of_mem_insertIdx hid with rfl | hid
  · exact hmoved
  · obtain ⟨r, hr, rfl⟩ := List.mem_map.mp (List.mem_filter.mp hid).1
    obtain ⟨hmem, hsession, -⟩ := mem_pendingRequests.mp hr
    exact hsession ▸ aims_of_mem hmem

theorem aims_of_find {requestId : Nat} {r : SongRequest}
    (h : s.requests.find? (fun r => r.id = requestId) = some r) :
    Aims s r.liveSessionId requestId := by
  have hid : r.id = requestId :=
    Table.holds_of_find? (p := fun r : SongRequest => r.id = requestId) h
  exact hid ▸ aims_of_mem (Table.mem_of_find? h)

/-- A request that is removed raises the revision. -/
theorem removeFromQueue_bumps {requestId : Nat}
    (h : SongRequestQueueService.removeFromQueue s requestId = .ok t) : ∃ i, Bumps i s t := by
  simp only [SongRequestQueueService.removeFromQueue, bind_ok, require_ok, pure_ok] at h
  obtain ⟨request, hrequest, rfl⟩ := h
  have hremoved : Within (· = request.liveSessionId) s
      { s with requests := s.requests.delete fun r => r.id = requestId } :=
    .delete (aims_of_find hrequest)
  refine ⟨request.liveSessionId, _, hremoved.trans ?_, rfl⟩
  exact .update (fun r _ hr => hr.1) (fun _ => rfl) fun _ => rfl

theorem updateStatus_bumps {requestId : Nat} {status : SongRequestStatus} {reason : Option String}
    (h : SongRequestService.updateStatus s now requestId status reason = .ok t) :
    ∃ r, s.requests.find? (fun r => r.id = requestId) = some r ∧ Bumps r.liveSessionId s t := by
  simp only [SongRequestService.updateStatus, bind_ok, require_ok, pure_ok] at h
  obtain ⟨existing, hexisting, rfl⟩ := h
  refine ⟨existing, hexisting, _, ?_, rfl⟩
  exact (aims_of_find hexisting).setRequest (fun _ => rfl) fun _ => rfl

/-- Completing a request writes within its session. -/
theorem complete_within {i : Nat} {current : Option SongRequest}
    (h : ∀ r ∈ current, Aims s i r.id) : Within (· = i) s (completeRequest s now current) := by
  cases current with
  | none => exact .refl s
  | some r => exact (h r rfl).setRequest (fun _ => rfl) fun _ => rfl

theorem nowPlaying_mem {i : Nat} {r : SongRequest} (h : nowPlaying s i any = some r) :
    r ∈ s.requests ∧ r.liveSessionId = i ∧ r.status = .playing :=
  findFirst_some h

/-- `playNext` changes nothing, or plays. -/
theorem playNext_cases (now : Time) (any : AnyOrder) (s : SongLive.Room) (i : Nat) :
    SongRequestService.playNext s now i any = s ∧
        (¬SessionActive s i ∨ nextRequest s i any = none) ∨
      Bumps i s (SongRequestService.playNext s now i any) := by
  unfold SongRequestService.playNext
  split
  · split
    · rename_i hnone
      exact .inl ⟨rfl, .inr hnone⟩
    · rename_i next hnext
      obtain ⟨hmem, rfl, -⟩ := findFirst_some hnext
      have hcompleted : Within (· = next.liveSessionId) s
          (completeRequest s now (nowPlaying s next.liveSessionId any)) := by
        refine complete_within fun r hr => ?_
        obtain ⟨hr, hsession, -⟩ := nowPlaying_mem hr
        exact hsession ▸ aims_of_mem hr
      refine .inr ⟨_, hcompleted.trans ?_, rfl⟩
      exact ((aims_of_mem hmem).within hcompleted).setRequest (fun _ => rfl) fun _ => rfl
  · rename_i hidle
    exact .inl ⟨rfl, .inl hidle⟩

/-- Playing the next request raises the revision, or nothing was shown. -/
theorem playNext_moves (s : SongLive.Room) (i : Nat) :
    Moves now s (SongRequestService.playNext s now i any) := by
  rcases playNext_cases now any s i with ⟨heq, -⟩ | hbumps
  · rw [heq]
    exact .refl s
  · exact hbumps.moves

/-- A skip that runs dry: the live's playing request is rejected and nothing waits. -/
def DrySkip (s : SongLive.Room) (i : Nat) : Prop :=
  SessionActive s i ∧ (s.requests.Has fun r => r.liveSessionId = i ∧ r.status = .playing) ∧
    ¬s.requests.Has fun r => r.liveSessionId = i ∧ r.status.Waiting

instance (s : SongLive.Room) (i : Nat) : Decidable (DrySkip s i) :=
  inferInstanceAs (Decidable (_ ∧ _ ∧ _))

/-- Rejecting what plays writes within its session. -/
theorem skipped_within {i : Nat} {reason : Option String} :
    Within (· = i) s (skipped s i reason any) := by
  unfold skipped
  split
  · exact .refl s
  · rename_i current hcurrent
    obtain ⟨hmem, hsession, -⟩ := nowPlaying_mem hcurrent
    exact (hsession ▸ aims_of_mem hmem : Aims s i current.id).setRequest (fun _ => rfl) fun _ => rfl

/-- A request that waits still waits once the playing one is rejected. -/
theorem waiting_of_skipped {i : Nat} {reason : Option String}
    (h : nextRequest (skipped s i reason any) i any = none) :
    ¬s.requests.Has fun r => r.liveSessionId = i ∧ r.status.Waiting := by
  rintro ⟨r, hr, hsession, hwaiting⟩
  have hrestated : Restated (.setAny (nowPlaying s i any) .rejected) s (skipped s i reason any) :=
    skipped_restated
  obtain ⟨r', hr', hplaced, hstatus⟩ := hrestated.forward r hr
  refine findFirst_none.mp h r' hr' ⟨hplaced.liveSessionId.trans hsession, ?_⟩
  rw [hstatus]
  cases hcurrent : nowPlaying s i any with
  | none => exact hwaiting
  | some current =>
    obtain ⟨hmem, -, hplaying⟩ := nowPlaying_mem hcurrent
    have hother : r.id ≠ current.id := by
      intro hid
      rw [eq_of_request hr hmem hid, hplaying] at hwaiting
      rcases hwaiting with hwaiting | hwaiting <;> cases hwaiting
    rw [Change.setAny, Change.set, if_neg hother]
    exact hwaiting

/-- A skip is a move unless it rejects the last request without raising the revision. -/
theorem skipCurrent_moves {i : Nat} {reason : Option String} (hdry : ¬DrySkip s i) :
    Moves now s (SongRequestService.skipCurrent s now i reason any) := by
  rw [skipCurrent_eq]
  have hskipped : Within (· = i) s (skipped s i reason any) := skipped_within
  rcases playNext_cases now any (skipped s i reason any) i with
    ⟨heq, hidle⟩ | hbumps
  · rw [heq]
    -- nothing was playing, or the session is not active
    cases hcurrent : nowPlaying s i any with
    | none =>
      have hsame : skipped s i reason any = s := by
        unfold skipped
        rw [hcurrent]
      rw [hsame]
      exact .refl s
    | some current =>
      obtain ⟨hmem, hplaying⟩ := nowPlaying_mem hcurrent
      refine (hskipped.rewrites ?_).moves
      rintro a ha hactive rfl
      rcases hidle with hidle | hnone
      · refine hidle ⟨a, ?_, rfl, hactive⟩
        rw [hskipped.sessions]
        exact ha
      · exact hdry ⟨⟨a, ha, rfl, hactive⟩, ⟨current, hmem, hplaying⟩, waiting_of_skipped hnone⟩
  · exact (hskipped.bumps hbumps).moves

/-- Playing a request now raises the revision. -/
theorem playNow_bumps {requestId : Nat}
    (h : SongRequestService.playNow s now requestId any = .ok t) : ∃ i, Bumps i s t := by
  simp only [SongRequestService.playNow, bind_ok, require_ok] at h
  obtain ⟨request, hrequest, h⟩ := h
  have haims := aims_of_find hrequest
  refine ⟨request.liveSessionId, ?_⟩
  set current := (findFirst s.requests
    (fun r => r.liveSessionId = request.liveSessionId ∧ r.status = .playing) (fun _ => ())
    SongRequest.id any).filter fun r => r.id ≠ requestId with hcurrent
  have hcompleted : Within (· = request.liveSessionId) s (completeRequest s now current) := by
    refine complete_within fun r hr => ?_
    rw [hcurrent] at hr
    obtain ⟨hmem, hsession, -⟩ := findFirst_some (Option.filter_eq_some_iff.mp hr).1
    exact hsession ▸ aims_of_mem hmem
  obtain ⟨r, hr, hbumps⟩ := updateStatus_bumps h
  -- the request still lies in the session it was found in
  have hsession : r.liveSessionId = request.liveSessionId :=
    haims.within hcompleted r (Table.mem_of_find? hr)
      (Table.holds_of_find? (p := fun r : SongRequest => r.id = requestId) hr)
  exact hcompleted.bumps (hsession ▸ hbumps)

/-- Clearing the queue is a move. -/
theorem clearQueue_moves (s : SongLive.Room) (i : Nat) :
    Moves now s (SongRequestService.clearQueue s i) := by
  unfold SongRequestService.clearQueue
  split
  · exact Bumps.moves ⟨_, .delete fun r _ hr => hr.1, rfl⟩
  · rename_i hnone
    exact Within.beside_moves (.delete fun r hr hpending => hnone ⟨r, hr, hpending⟩)

/-- Writes to the requests alone keep the sessions in order. -/
theorem Within.ok {I : Nat → Prop} (h : Within I s t) (hs : Ok now s) : Ok now t := by
  constructor
  · intro r hr
    exact Nat.le_trans (hs.drawn r (h.sessions ▸ hr)) h.counter
  · rw [h.sessions]
    exact hs.started
  · rw [h.sessions]
    exact hs.standard
  · rw [h.sessions]
    exact hs.ordered
  · rw [h.sessions]
    exact hs.newest

/-- A skip keeps the sessions in order even when it runs dry. -/
theorem skipCurrent_ok {i : Nat} {reason : Option String} (hs : Ok now s) :
    Ok now (SongRequestService.skipCurrent s now i reason any) := by
  rw [skipCurrent_eq]
  exact (playNext_moves _ i (skipped_within.ok hs)).1

/-! ## The commands of the store -/

namespace Store

/-- A part of a command that takes no time. -/
def Moves (s t : Store) : Prop := t.now = s.now ∧ Live.Moves s.now s.room t.room

variable {s t u : Store}

theorem Moves.refl (s : Store) : Moves s s := ⟨rfl, .refl s.room⟩

theorem Moves.trans (h : Moves s t) (h' : Moves t u) : Moves s u :=
  ⟨h'.1.trans h.1, h.2.trans (h.1 ▸ h'.2)⟩

/-- Ids are drawn, and rows beside sessions and requests are written. -/
structure Draws (s t : Store) : Prop where
  now : t.now = s.now
  room : Beside s.room t.room

theorem Draws.moves (h : Draws s t) : Moves s t := ⟨h.now, h.room.beside_moves⟩

/-- Writes beside sessions and requests, and then those of one session, whose revision rises. -/
theorem Draws.bumps {i : Nat} {room : SongLive.Room} (h : Draws s t)
    (hbumps : Bumps i t.room room) :
    Live.Moves s.now s.room room :=
  ((h.room.mono fun _ => False.elim).bumps hbumps).moves

/-- A command on the room leaves the rest of the store. -/
theorem inRoom_ok {step : Except SongError SongLive.Room} :
    s.inRoom step = .ok t ↔ ∃ room, step = .ok room ∧ t = { s with room } := by
  simp only [inRoom, bind_ok, mapError_ok, pure_ok]
  constructor
  · rintro ⟨room, hroom, rfl⟩
    exact ⟨room, hroom, rfl⟩
  · rintro ⟨room, hroom, rfl⟩
    exact ⟨room, hroom, rfl⟩

/-- Drawing an id writes the counter only. -/
theorem drawContentId_ok (h : s.drawContentId = .ok t) : Draws s t := by
  obtain ⟨room, hroom, rfl⟩ := inRoom_ok.mp h
  cases hdrawn : nextChannelContentId s.room with
  | error e =>
    rw [hdrawn] at hroom
    cases hroom
  | ok drawn =>
    rw [hdrawn] at hroom
    cases hroom
    exact ⟨rfl, nextId_beside hdrawn⟩

/-- Reading the settings may create them. -/
theorem getByChannelId_ok {settings : ChannelSettings}
    (h : s.getByChannelId = .ok (settings, t)) : Draws s t := by
  unfold getByChannelId at h
  split at h
  · cases h
    exact ⟨rfl, .refl _⟩
  · obtain ⟨u, hu, hok⟩ := bind_ok.mp h
    cases hok
    exact ⟨(drawContentId_ok hu).now, (drawContentId_ok hu).room⟩

/-- Reading the omakase settings may create them. -/
theorem getOrCreateSettings_ok {settings : ChannelOmakaseSettings}
    (h : s.getOrCreateSettings = .ok (settings, t)) : Draws s t := by
  unfold getOrCreateSettings at h
  split at h
  · cases h
    exact ⟨rfl, .refl _⟩
  · obtain ⟨u, hu, hok⟩ := bind_ok.mp h
    cases hok
    exact ⟨(drawContentId_ok hu).now, (drawContentId_ok hu).room⟩

/-- Updating the settings is a move. -/
theorem updateSettings_moves {sessionId : Nat} {requestEnabled paused : Option Bool}
    {dto : UpdateChannelSongRequestSettingsDto}
    (h : s.updateSettings sessionId requestEnabled paused dto = .ok t) : Moves s t := by
  obtain ⟨session, -, h⟩ := bind_ok.mp h
  obtain ⟨settings, -, h⟩ := bind_ok.mp h
  obtain ⟨u, hu, h⟩ := bind_ok.mp h
  obtain ⟨v, hv, hu⟩ := bind_ok.mp hu
  cases hu
  cases h
  obtain ⟨hnow, hdrawn⟩ := drawContentId_ok hv
  refine ⟨hnow, Rewrites.moves ?_⟩
  have hsessions : (bumpRevision v.room session.id).sessions =
      s.room.sessions.update (fun l => l.id = session.id) (fun l =>
        { l with
          settings := some (liveScope requestEnabled paused settings)
          playbackRevision := l.playbackRevision + 1 }) ⟨fun _ => rfl⟩ := by
    unfold bumpRevision
    simp only [hdrawn.sessions]
    exact Table.update_update fun _ hl => hl
  refine rewrites_update (s := s.room) (t := bumpRevision v.room session.id) hdrawn.counter
    hsessions ?_ ?_
  · intro l _
    exact ⟨rfl, rfl, rfl, Nat.lt_succ_self _, id⟩
  · intro a _ _ _
    exact hdrawn.others a.id id

/-- A command on sessions and requests, unless it is a skip that runs dry. -/
theorem song_moves {songs : Channel} {any : AnyOrder} {c : SongCommand}
    (h : s.song songs any c = .ok t)
    (hdry : ∀ i reason, c = .skipCurrent i reason → ¬DrySkip s.room i) : Moves s t := by
  cases c with
  | startSession practiceMode drawn =>
    obtain ⟨_, -, h⟩ := bind_ok.mp h
    obtain ⟨⟨_, u⟩, hu, h⟩ := bind_ok.mp h
    obtain ⟨room, hroom, rfl⟩ := inRoom_ok.mp h
    obtain ⟨l, hopened, -⟩ := startSession_opened hroom
    -- the overlay row may be made on the way, before the session is opened
    exact (getByChannelId_ok hu).moves.trans ⟨rfl, opened_moves hopened⟩
  | cloneSession sourceSessionId drawn =>
    obtain ⟨_, -, h⟩ := bind_ok.mp h
    obtain ⟨_, -, h⟩ := bind_ok.mp h
    obtain ⟨⟨_, u⟩, hu, h⟩ := bind_ok.mp h
    obtain ⟨room, hroom, rfl⟩ := inRoom_ok.mp h
    obtain ⟨l, _, hopened, -⟩ := cloneSession_opened hroom
    exact (getByChannelId_ok hu).moves.trans ⟨rfl, opened_moves hopened⟩
  | endSession sessionId =>
    obtain ⟨room, hroom, rfl⟩ := inRoom_ok.mp h
    exact ⟨rfl, endSession_moves hroom⟩
  | addToQueue liveSessionId data random =>
    obtain ⟨data, -, h⟩ := bind_ok.mp h
    obtain ⟨_, -, h⟩ := bind_ok.mp h
    obtain ⟨_, -, h⟩ := bind_ok.mp h
    obtain ⟨⟨_, u⟩, hu, h⟩ := bind_ok.mp h
    obtain ⟨room, hroom, rfl⟩ := inRoom_ok.mp h
    exact (getByChannelId_ok hu).moves.trans ⟨rfl, (addToQueue_bumps hroom).moves⟩
  | updateStatus requestId status reason =>
    obtain ⟨room, hroom, rfl⟩ := inRoom_ok.mp h
    obtain ⟨_, -, hbumps⟩ := updateStatus_bumps hroom
    exact ⟨rfl, hbumps.moves⟩
  | updateOrder requestId newOrder =>
    obtain ⟨_, -, h⟩ := bind_ok.mp h
    obtain ⟨room, hroom, rfl⟩ := inRoom_ok.mp h
    obtain ⟨_, hbumps⟩ := updateOrder_bumps hroom
    exact ⟨rfl, hbumps.moves⟩
  | removeFromQueue requestId =>
    obtain ⟨room, hroom, rfl⟩ := inRoom_ok.mp h
    obtain ⟨_, hbumps⟩ := removeFromQueue_bumps hroom
    exact ⟨rfl, hbumps.moves⟩
  | playNext liveSessionId =>
    obtain ⟨room, hroom, rfl⟩ := inRoom_ok.mp h
    cases hroom
    exact ⟨rfl, playNext_moves _ _⟩
  | skipCurrent liveSessionId reason =>
    obtain ⟨room, hroom, rfl⟩ := inRoom_ok.mp h
    cases hroom
    -- a skip with an empty queue is the one that bumps nothing
    exact ⟨rfl, skipCurrent_moves (hdry _ _ rfl)⟩
  | playNow requestId =>
    obtain ⟨room, hroom, rfl⟩ := inRoom_ok.mp h
    obtain ⟨_, hbumps⟩ := playNow_bumps hroom
    exact ⟨rfl, hbumps.moves⟩
  | clearQueue liveSessionId =>
    obtain ⟨room, hroom, rfl⟩ := inRoom_ok.mp h
    cases hroom
    exact ⟨rfl, clearQueue_moves _ _⟩

/-! ## The omakase commands -/

theorem bump_moves {i : Nat} {room : SongLive.Room} (h : room = bumpRevision t.room i)
    (hs : Draws s t) :
    Live.Moves s.now s.room room :=
  hs.bumps ⟨_, .refl _, h⟩

theorem updateOmakaseSettings_moves {enabled : Option Bool}
    (h : s.updateOmakaseSettings enabled = .ok t) : Moves s t := by
  obtain ⟨⟨settings, u⟩, hu, h⟩ := bind_ok.mp h
  cases h
  refine (getOrCreateSettings_ok hu).moves.trans ⟨rfl, Rewrites.moves ?_⟩
  refine rewrites_update (p := ActiveStandard)
    (f := fun l => { l with playbackRevision := l.playbackRevision + 1 }) (k := ⟨fun _ => rfl⟩)
    (Nat.le_refl _) rfl ?_ fun _ _ _ _ => rfl
  intro l _
  exact ⟨rfl, rfl, rfl, Nat.lt_succ_self _, id⟩

/-- Changing the omakase count is a move. -/
theorem changeCount_moves {i : Nat} {delta : Int} (h : s.changeCount i delta = .ok t) :
    Moves s t := by
  unfold changeCount at h
  split at h
  · obtain ⟨⟨settings, u⟩, hu, h⟩ := bind_ok.mp h
    cases h
    exact (getOrCreateSettings_ok hu).moves
  · obtain ⟨settings, -, h⟩ := bind_ok.mp h
    obtain ⟨_, -, h⟩ := bind_ok.mp h
    obtain ⟨u, hu, h⟩ := bind_ok.mp h
    cases h
    exact ⟨(drawContentId_ok hu).now, bump_moves rfl (drawContentId_ok hu)⟩

/-- Adjusting the omakase count is a move. -/
theorem manualAdjust_moves {i : Nat} {delta : Int} (h : s.manualAdjust i delta = .ok t) :
    Moves s t := by
  unfold manualAdjust at h
  split at h
  · obtain ⟨⟨settings, u⟩, hu, h⟩ := bind_ok.mp h
    cases h
    exact (getOrCreateSettings_ok hu).moves
  · obtain ⟨_, -, h⟩ := bind_ok.mp h
    exact changeCount_moves h

theorem setCount_moves {i : Nat} {count : Int} (h : s.setCount i count = .ok t) : Moves s t := by
  obtain ⟨_, -, h⟩ := bind_ok.mp h
  obtain ⟨⟨settings, u⟩, hu, h⟩ := bind_ok.mp h
  refine (getOrCreateSettings_ok hu).moves.trans ?_
  by_cases hsame : count = settings.count
  · simp only [if_pos hsame] at h
    cases h
    exact ⟨rfl, .refl _⟩
  · simp only [if_neg hsame] at h
    obtain ⟨v, hv, h⟩ := bind_ok.mp h
    cases h
    have hdrawn := drawContentId_ok hv
    exact ⟨hdrawn.now, bump_moves rfl ⟨hdrawn.now, hdrawn.room⟩⟩

/-- Consuming an omakase for a request is a move. -/
theorem consumeWithSongRequest_moves {songs : Channel} {any : AnyOrder} {i random : Nat}
    {data : RequestData} {playNow : Bool}
    (h : s.consumeWithSongRequest songs any i random data playNow = .ok t) : Moves s t := by
  obtain ⟨_, -, h⟩ := bind_ok.mp h
  obtain ⟨⟨current, u⟩, hu, h⟩ := bind_ok.mp h
  obtain ⟨_, -, h⟩ := bind_ok.mp h
  obtain ⟨_, -, h⟩ := bind_ok.mp h
  obtain ⟨v, hv, h⟩ := bind_ok.mp h
  obtain ⟨w, hw, h⟩ := bind_ok.mp h
  have hadded : Moves u v := song_moves hv fun _ _ heq => by cases heq
  have hplayed : Moves v w := by
    split at hw
    · exact song_moves hw fun _ _ heq => by cases heq
    · cases hw
      exact .refl v
  exact (((getOrCreateSettings_ok hu).moves.trans hadded).trans hplayed).trans (changeCount_moves h)

end Store

/-! ## Every command -/

/-- The command is a skip that runs dry. -/
def LiveCommand.Dry (c : LiveCommand) (s : Store) : Prop :=
  ∃ songs i reason, c = .song songs (.skipCurrent i reason) ∧ DrySkip s.room i

/-- The sessions of the store are in their order. -/
def Store.Ok (s : Store) : Prop := Live.Ok s.now s.room

open Store in
/-- The step lemma. -/
theorem exec_moves {c : LiveCommand} {any : AnyOrder} {s t : Store} (h : c.exec any s = .ok t)
    (hdry : ¬c.Dry s) (hs : s.Ok) : t.Ok ∧ Advances s.room t.room := by
  have hmoves : Store.Moves s t → t.Ok ∧ Advances s.room t.room := by
    rintro ⟨hnow, hmoves⟩
    obtain ⟨hok, hadvances⟩ := hmoves hs
    exact ⟨by rw [Store.Ok, hnow]; exact hok, hadvances⟩
  cases c with
  | tick seconds =>
    cases h
    exact ⟨hs.later (Nat.le_add_right _ _), .refl _⟩
  | drawContentId => exact hmoves (drawContentId_ok h).moves
  | song songs c =>
    exact hmoves (song_moves h fun i reason heq hskip => hdry ⟨songs, i, reason, heq ▸ rfl, hskip⟩)
  | updateSettings sessionId requestEnabled paused dto => exact hmoves (updateSettings_moves h)
  | updateOmakaseSettings enabled => exact hmoves (updateOmakaseSettings_moves h)
  | manualAdjust liveSessionId delta => exact hmoves (manualAdjust_moves h)
  | setCount liveSessionId count => exact hmoves (setCount_moves h)
  | consumeWithSongRequest songs liveSessionId random data atOnce =>
    exact hmoves (consumeWithSongRequest_moves h)

/-- Sessions stay in their order over every run. -/
theorem ok_of_reachable {s : Store} (h : liveRoom.Reachable s) : s.Ok := by
  refine h.induct (P := Store.Ok) ⟨?_, ?_⟩
  · rintro s ⟨hsessions, -⟩
    have hempty : ∀ l, l ∉ s.room.sessions := by
      intro l
      rw [hsessions]
      exact Table.not_mem_empty l
    constructor
    · exact fun l hl => absurd hl (hempty l)
    · exact fun l hl => absurd hl (hempty l)
    · exact fun l hl => absurd hl (hempty l)
    · exact fun l hl => absurd hl (hempty l)
    · exact fun l hl => absurd hl (hempty l)
  · rintro s t ⟨c, any⟩ - hs hstep
    by_cases hdry : c.Dry s
    · obtain ⟨songs, i, reason, rfl, -⟩ := hdry
      obtain ⟨room, hroom, rfl⟩ := Store.inRoom_ok.mp hstep
      cases hroom
      exact skipCurrent_ok hs
    · exact (exec_moves hstep hdry hs).1

end Rogichat.Live
