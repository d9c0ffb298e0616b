import Mathlib.Logic.Relation
import Rogichat.Ios.Conversation
import Rogichat.Lib.Trace

/-!
# The iOS timeline

What the store shows of a room is its visible timeline rows. Every operation writes the
timeline by five moves only (`Move`): it shows a projection, withholds one, buries a message
with a tombstone and hides what quotes it, blocks a stored message the same way, or hides a
row. The moves keep the rule that nothing visible quotes a tombstone (`QuoteRule`), and rows
only climb (`Grown`): versions do not fall and a tombstone stays.

One operation is not made of these moves. A receipt that says deleted writes a tombstone and
hides nothing (`tombstoneReceipt`); it buries when nothing visible quotes the message
(`Swept`). And a block of a message that is not stored writes no tombstone at all.
-/

namespace Rogichat.Ios

open Lib Ios.Db

/-! ## Rows that climb -/

/-- A tombstone of the room. -/
def Dead (T : Table TimelineRow) (room id : Uuid) : Prop :=
  ∃ r ∈ T, r.room = room ∧ r.id = id ∧ r.deleted = true

/-- Nothing the room shows quotes a message it knows to be deleted. -/
def QuoteRule (room : Uuid) (T : Table TimelineRow) : Prop :=
  ∀ r ∈ T, r.room = room → r.Visible → ∀ m ∈ r.value, ∀ id, m.Quotes id → ¬Dead T room id

/-- `r'` holds what is later known of the message of `r`. -/
structure TimelineRow.Climbs (r r' : TimelineRow) : Prop where
  room : r'.room = r.room
  id : r'.id = r.id
  version : r.version ≤ r'.version
  deleted : r.deleted = true → r'.deleted = true

theorem TimelineRow.Climbs.refl (r : TimelineRow) : r.Climbs r :=
  ⟨rfl, rfl, Nat.le_refl _, fun hd => hd⟩

theorem TimelineRow.Climbs.trans {r s t : TimelineRow} (h : r.Climbs s) (h' : s.Climbs t) :
    r.Climbs t where
  room := h'.room.trans h.room
  id := h'.id.trans h.id
  version := Nat.le_trans h.version h'.version
  deleted hd := h'.deleted (h.deleted hd)

/-- Hiding a row keeps its version. -/
theorem TimelineRow.climbs_hide (r : TimelineRow) : r.Climbs r.hide :=
  ⟨rfl, rfl, Nat.le_refl _, fun hd => hd⟩

/-- Blocking a row keeps its version and buries it. -/
theorem TimelineRow.climbs_block (r : TimelineRow) : r.Climbs r.block :=
  ⟨rfl, rfl, Nat.le_refl _, fun _ => rfl⟩

/-- Every row is still there, or climbed. -/
def Grown (T T' : Table TimelineRow) : Prop := ∀ r ∈ T, ∃ r' ∈ T', r.Climbs r'

theorem Grown.refl (T : Table TimelineRow) : Grown T T := fun r hr => ⟨r, hr, .refl r⟩

theorem Grown.trans {T T' T'' : Table TimelineRow} (h : Grown T T') (h' : Grown T' T'') :
    Grown T T'' := by
  intro r hr
  obtain ⟨r', hr', hc⟩ := h r hr
  obtain ⟨r'', hr'', hc'⟩ := h' r' hr'
  exact ⟨r'', hr'', hc.trans hc'⟩

/-- A tombstone stays. -/
theorem Grown.dead {T T' : Table TimelineRow} (h : Grown T T') {room id : Uuid}
    (hd : Dead T room id) : Dead T' room id := by
  obtain ⟨r, hr, hroom, hid, hdel⟩ := hd
  obtain ⟨r', hr', hc⟩ := h r hr
  exact ⟨r', hr', hc.room.trans hroom, hc.id.trans hid, hc.deleted hdel⟩

/-- A room has one row of a message. -/
theorem eq_of_row {T : Table TimelineRow} {r s : TimelineRow} (hr : r ∈ T) (hs : s ∈ T)
    (hroom : r.room = s.room) (hid : r.id = s.id) : r = s := by
  refine Table.eq_of_key hr hs (k := (r.room, r.id)) (by simp [Row.keys]) ?_
  simp [Row.keys, hroom, hid]

/-- The version of a message does not fall. -/
theorem Grown.version {T T' : Table TimelineRow} (h : Grown T T') {r r' : TimelineRow}
    (hr : r ∈ T) (hr' : r' ∈ T') (hroom : r'.room = r.room) (hid : r'.id = r.id) :
    r.version ≤ r'.version := by
  obtain ⟨s, hs, hc⟩ := h r hr
  have hsame : s = r' := eq_of_row hs hr' (hc.room.trans hroom.symm) (hc.id.trans hid.symm)
  exact hsame ▸ hc.version

/-- An update that lets rows climb lets the table grow. -/
theorem grown_update {T : Table TimelineRow} {p : TimelineRow → Prop} [DecidablePred p]
    {f : TimelineRow → TimelineRow} {k : Table.Keeps f} (hf : ∀ r : TimelineRow, r.Climbs (f r)) :
    Grown T (T.update p f k) := by
  intro r hr
  refine ⟨_, Table.mem_update_of_mem hr, ?_⟩
  split
  · exact hf r
  · exact .refl r

/-- A put above the rows of its message lets the table grow. -/
theorem grown_put {T : Table TimelineRow} {n : TimelineRow}
    (hn : ∀ r ∈ T, r.room = n.room → r.id = n.id → r.Climbs n) : Grown T (T.put n) := by
  intro r hr
  by_cases hclash : Row.Clash r n
  · obtain ⟨hroom, hid⟩ := TimelineRow.clash_iff.mp hclash
    exact ⟨n, Table.mem_put.mpr (.inr rfl), hn r hr hroom hid⟩
  · exact ⟨r, Table.mem_put.mpr (.inl ⟨hr, hclash⟩), .refl r⟩

/-! ## The moves -/

/-- No stored row of the message stands against the projection. -/
def Replaces (room : Uuid) (m : ConversationMessage) (T : Table TimelineRow) : Prop :=
  ∀ r ∈ T, r.room = room → r.id = m.id → ¬Stands m r

/-- The five ways an operation writes the timeline. -/
inductive Move (room : Uuid) : Table TimelineRow → Table TimelineRow → Prop
  | show_ {T} (m : ConversationMessage) : Replaces room m T →
      (∀ id, m.Quotes id → ¬Dead T room id) → Move room T (T.put (.shown room m))
  | withhold {T} (m : ConversationMessage) : Replaces room m T →
      Move room T (T.put (.withheld room m))
  | bury {T} (id : Uuid) (version : MessageVersion) (createdAt : Option Token) :
      (∀ r ∈ T, r.room = room → r.id = id → r.version ≤ version) →
      Move room T ((T.put (.tombstone room id version createdAt)).update (QuotedBy room id)
        TimelineRow.hide)
  | block {T} (id : Uuid) :
      Move room T ((T.update (fun r => r.room = room ∧ r.id = id) TimelineRow.block).update
        (QuotedBy room id) TimelineRow.hide)
  | hide {T} (id : Uuid) :
      Move room T (T.update (fun r => r.room = room ∧ r.id = id ∧ r.deleted = false)
        TimelineRow.hide)

/-- A row of the message's own version is above every row it replaces. -/
theorem Replaces.climbs {room : Uuid} {m : ConversationMessage} {T : Table TimelineRow}
    (h : Replaces room m T) {n : TimelineRow} (hroom : n.room = room) (hid : n.id = m.id)
    (hversion : n.version = m.version) :
    ∀ r ∈ T, r.room = n.room → r.id = n.id → r.Climbs n := by
  intro r hr hrroom hrid
  have hfree := h r hr (hrroom.trans hroom) (hrid.trans hid)
  rw [Stands, not_or] at hfree
  obtain ⟨halive, hold⟩ := hfree
  refine ⟨hrroom.symm, hrid.symm, ?_, fun hd => absurd hd halive⟩
  rw [hversion, MessageVersion.le_def]
  rw [MessageVersion.lt_def] at hold
  omega

/-- A move lets rows climb. -/
theorem Move.grown {room : Uuid} {T T' : Table TimelineRow} (h : Move room T T') :
    Grown T T' := by
  cases h with
  | show_ m hrep _ => exact grown_put (hrep.climbs rfl rfl rfl)
  | withhold m hrep => exact grown_put (hrep.climbs rfl rfl rfl)
  | bury id version createdAt hold =>
    have hput : Grown T (T.put (.tombstone room id version createdAt)) := by
      apply grown_put
      intro r hr hroom hid
      exact ⟨hroom.symm, hid.symm, hold r hr hroom hid, fun _ => rfl⟩
    exact hput.trans (grown_update TimelineRow.climbs_hide)
  | block id =>
    exact (grown_update TimelineRow.climbs_block).trans (grown_update TimelineRow.climbs_hide)
  | hide id => exact grown_update TimelineRow.climbs_hide

/-- Hiding kills nothing. -/
theorem dead_of_hide {T : Table TimelineRow} {p : TimelineRow → Prop} [DecidablePred p]
    {room id : Uuid} (h : Dead (T.update p TimelineRow.hide) room id) : Dead T room id := by
  obtain ⟨r', hr', hroom, hid, hdel⟩ := h
  obtain ⟨r, hr, rfl⟩ := Table.mem_update.mp hr'
  refine ⟨r, hr, ?_⟩
  split at hroom
  all_goals simp_all [TimelineRow.hide]

/-- What is visible after a hiding was visible before, and was not hidden. -/
theorem visible_of_hide {T : Table TimelineRow} {p : TimelineRow → Prop} [DecidablePred p]
    {r : TimelineRow} (hr : r ∈ T.update p TimelineRow.hide) (hv : r.Visible) : r ∈ T ∧ ¬p r := by
  obtain ⟨s, hs, rfl⟩ := Table.mem_update.mp hr
  by_cases hp : p s
  · rw [if_pos hp] at hv
    exact absurd hv.2 (by simp [TimelineRow.hide])
  · rw [if_neg hp]
    exact ⟨hs, hp⟩

/-- A message dies and what quotes it is hidden. -/
theorem QuoteRule.swept {room room' id : Uuid} {T U : Table TimelineRow} (h : QuoteRule room T)
    (hvisible : ∀ r ∈ U, r.Visible → r ∈ T)
    (hdead : ∀ q, Dead U room q → Dead T room q ∨ (room = room' ∧ q = id)) :
    QuoteRule room (U.update (QuotedBy room' id) TimelineRow.hide) := by
  intro r hr hroom hv m hm q hq hd
  obtain ⟨hrU, hfree⟩ := visible_of_hide hr hv
  rcases hdead q (dead_of_hide hd) with hd | ⟨rfl, rfl⟩
  · exact h r (hvisible r hrU hv) hroom hv m hm q hq hd
  · exact hfree ⟨hroom, hv, m, hm, hq⟩

/-- A move keeps the rule. -/
theorem Move.quoteRule {room room' : Uuid} {T T' : Table TimelineRow} (h : Move room' T T')
    (hT : QuoteRule room T) : QuoteRule room T' := by
  -- A row that is not a tombstone brings no new dead message.
  have hput : ∀ n : TimelineRow, n.deleted = false → ∀ q, Dead (T.put n) room q →
      Dead T room q := by
    rintro n hn q ⟨r, hr, hroom, hid, hdel⟩
    rcases Table.mem_put.mp hr with ⟨hrT, -⟩ | rfl
    · exact ⟨r, hrT, hroom, hid, hdel⟩
    · exact absurd (hn.symm.trans hdel) (by decide)
  cases h with
  | show_ m hrep hquotes =>
    intro r hr hroom hv m' hm' q hq hd
    have hdT := hput _ rfl q hd
    rcases Table.mem_put.mp hr with ⟨hrT, -⟩ | rfl
    · exact hT r hrT hroom hv m' hm' q hq hdT
    · obtain rfl : m = m' := Option.some.inj hm'
      obtain rfl : room' = room := hroom
      exact hquotes q hq hdT
  | withhold m hrep =>
    intro r hr hroom hv m' hm' q hq hd
    rcases Table.mem_put.mp hr with ⟨hrT, -⟩ | rfl
    · exact hT r hrT hroom hv m' hm' q hq (hput _ rfl q hd)
    · exact absurd hv.2 (by simp [TimelineRow.withheld])
  | bury id version createdAt _ =>
    refine hT.swept ?_ ?_
    · intro r hr hv
      rcases Table.mem_put.mp hr with ⟨hrT, -⟩ | rfl
      · exact hrT
      · exact absurd hv.1 (by simp [TimelineRow.tombstone])
    · rintro q ⟨r, hr, hroom, hid, hdel⟩
      rcases Table.mem_put.mp hr with ⟨hrT, -⟩ | rfl
      · exact .inl ⟨r, hrT, hroom, hid, hdel⟩
      · exact .inr ⟨hroom.symm, hid.symm⟩
  | block id =>
    refine hT.swept ?_ ?_
    · intro r hr hv
      obtain ⟨s, hs, rfl⟩ := Table.mem_update.mp hr
      by_cases hp : s.room = room' ∧ s.id = id
      · rw [if_pos hp] at hv
        exact absurd hv.1 (by simp [TimelineRow.block])
      · rw [if_neg hp]
        exact hs
    · rintro q ⟨r, hr, hroom, hid, hdel⟩
      obtain ⟨s, hs, rfl⟩ := Table.mem_update.mp hr
      by_cases hp : s.room = room' ∧ s.id = id
      · rw [if_pos hp] at hroom hid
        exact .inr ⟨hroom.symm.trans hp.1, hid.symm.trans hp.2⟩
      · rw [if_neg hp] at hroom hid hdel
        exact .inl ⟨s, hs, hroom, hid, hdel⟩
  | hide id =>
    intro r hr hroom hv m hm q hq hd
    exact hT r (visible_of_hide hr hv).1 hroom hv m hm q hq (dead_of_hide hd)

/-- A move adds rows to its room only. -/
theorem Move.confined {room : Uuid} {T T' : Table TimelineRow} (h : Move room T T') :
    Table.Confined TimelineRow.room room T T' := by
  cases h with
  | show_ m _ _ => exact .put rfl
  | withhold m _ => exact .put rfl
  | bury id version createdAt _ =>
    have hput : Table.Confined TimelineRow.room room T
        (T.put (.tombstone room id version createdAt)) := .put rfl
    exact hput.trans (.update fun _ => rfl)
  | block id =>
    have hblocked : Table.Confined TimelineRow.room room T
        (T.update (fun r => r.room = room ∧ r.id = id) TimelineRow.block) := .update fun _ => rfl
    exact hblocked.trans (.update fun _ => rfl)
  | hide id => exact .update fun _ => rfl

/-- Any number of moves in one room. -/
abbrev Moves (room : Uuid) := Relation.ReflTransGen (Move room)

/-- Moves let rows climb. -/
theorem Moves.grown {room : Uuid} {T T' : Table TimelineRow} (h : Moves room T T') :
    Grown T T' := by
  induction h with
  | refl => exact .refl T
  | tail _ hlast ih => exact ih.trans hlast.grown

/-- Moves keep the rule. -/
theorem Moves.quoteRule {room room' : Uuid} {T T' : Table TimelineRow} (h : Moves room' T T')
    (hT : QuoteRule room T) : QuoteRule room T' := by
  induction h with
  | refl => exact hT
  | tail _ hlast ih => exact hlast.quoteRule ih

/-- The row of the message is replaced by a tombstone of its own version, and nothing is
hidden. -/
def Entombed (room id : Uuid) (T T' : Table TimelineRow) : Prop :=
  ∃ version createdAt, T' = T.put (.tombstone room id version createdAt) ∧
    ∀ r ∈ T, r.room = room → r.id = id → r.version ≤ version

/-! ## What each operation moves -/

namespace Db

/-- Committing a command writes the outbox only. -/
@[simp] theorem commitTextCommand_timeline (s : Db) (row : TextCommandRow) (message : Uuid)
    (version : MessageVersion) :
    (s.commitTextCommand row message version).timeline = s.timeline := by
  unfold commitTextCommand
  dsimp only
  split <;> rfl

theorem tombstoned_iff_dead {s : Db} {room id : Uuid} :
    s.Tombstoned room id ↔ Dead s.timeline room id := tombstoned_iff

/-- Storing a projection is a move, or nothing. -/
theorem putMessage_moves {s t : Db} {m : ConversationMessage} {room : Uuid}
    (h : s.putMessage m room = .ok t) : Moves room s.timeline t.timeline := by
  unfold putMessage at h
  simp only [bind_ok, ensure_ok] at h
  obtain ⟨-, -, h⟩ := h
  by_cases hstands : ∃ r ∈ s.timelineRow room m.id, Stands m r
  · rw [if_pos hstands, pure_ok] at h
    subst h
    exact .refl
  · rw [if_neg hstands] at h
    have hrep : Replaces room m s.timeline := by
      intro r hr hroom hid hst
      exact hstands ⟨r, timelineRow_eq_some.mpr ⟨hr, hroom, hid⟩, hst⟩
    by_cases hquote : ∃ q ∈ m.quote, s.Tombstoned room q.id
    · rw [if_pos hquote, pure_ok] at h
      subst h
      exact .single (.withhold m hrep)
    · rw [if_neg hquote, pure_ok] at h
      subst h
      refine .single (.show_ m hrep ?_)
      rintro id ⟨q, hq, rfl⟩ hdead
      exact hquote ⟨q, hq, tombstoned_iff_dead.mpr hdead⟩

theorem putMessages_moves {s t : Db} {ms : List ConversationMessage} {room : Uuid}
    (h : s.putMessages ms room = .ok t) : Moves room s.timeline t.timeline :=
  foldlM_rel (R := fun s t : Db => Moves room s.timeline t.timeline) (fun _ => .refl)
    (fun _ _ _ hfirst hrest => hfirst.trans hrest) (fun _ _ _ _ hm => putMessage_moves hm) h

/-- A deletion buries the message and hides what quotes it. -/
theorem tombstone_moves (s : Db) (id : Uuid) (version : MessageVersion) (room : Uuid) :
    Moves room s.timeline (s.tombstone id version room).timeline := by
  unfold tombstone
  by_cases hnewer : ∃ r ∈ s.timelineRow room id, version < r.version
  · dsimp only
    rw [if_pos hnewer]
  · dsimp only
    rw [if_neg hnewer]
    refine .single (.bury id version _ ?_)
    intro r hr hroom hid
    have hold : ¬version < r.version := fun hlt =>
      hnewer ⟨r, timelineRow_eq_some.mpr ⟨hr, hroom, hid⟩, hlt⟩
    rw [MessageVersion.lt_def] at hold
    rw [MessageVersion.le_def]
    omega

/-- An event is made of moves. -/
theorem applyEvent_moves {s t : Db} {e : ConversationEvent} {room : Uuid}
    (h : s.applyEvent e room = .ok t) : Moves room s.timeline t.timeline := by
  cases e with
  | upsert m => exact putMessage_moves h
  | deleted id version =>
    rw [applyEvent, pure_ok] at h
    subst h
    exact tombstone_moves s id version room

/-- Visiting a cursor leaves the timeline alone. -/
theorem visit_timeline {s t : Db} {next requested : Option Token} {kind : CursorKind}
    {room : Uuid} (h : s.visit next requested kind room = .ok t) : t.timeline = s.timeline := by
  cases next with
  | none =>
    rw [visit, pure_ok] at h
    rw [h]
  | some value =>
    simp only [visit, bind_ok, ensure_ok, require_ok, pure_ok] at h
    obtain ⟨-, -, -, -, rfl⟩ := h
    rfl

theorem applySnapshot_moves {s t : Db} {page : ConversationSnapshot} {c : ConversationScope}
    (h : s.applySnapshot page c = .ok t) : Moves c.room.id s.timeline t.timeline := by
  simp only [applySnapshot, bind_ok, pure_ok] at h
  obtain ⟨-, -, -, -, -, -, u, hu, rfl⟩ := h
  have hmoves := putMessages_moves hu
  exact hmoves

theorem applyEvents_moves {s t : Db} {page : ConversationEvents} {cursor : Token}
    {c : ConversationScope} (h : s.applyEvents page cursor c = .ok t) :
    Moves c.room.id s.timeline t.timeline := by
  simp only [applyEvents, bind_ok, pure_ok] at h
  obtain ⟨-, -, -, -, -, -, -, -, -, -, u, hu, rfl⟩ := h
  have hmoves := foldlM_rel (R := fun s t : Db => Moves c.room.id s.timeline t.timeline)
    (fun _ => .refl) (fun _ _ _ hfirst hrest => hfirst.trans hrest)
    (fun _ _ _ _ he => applyEvent_moves he) hu
  exact hmoves

theorem applyHistory_moves {s t : Db} {page : ConversationHistory} {cursor : Token}
    {c : ConversationScope} (h : s.applyHistory page cursor c = .ok t) :
    Moves c.room.id s.timeline t.timeline := by
  simp only [applyHistory, bind_ok, pure_ok] at h
  obtain ⟨-, -, -, -, -, -, -, -, u, hu, v, hv, rfl⟩ := h
  have hmoves := putMessages_moves hv
  rw [visit_timeline hu] at hmoves
  exact hmoves

theorem hideProjection_moves (s : Db) (id : Uuid) (c : ConversationScope) :
    Moves c.room.id s.timeline (s.hideProjection id c).timeline :=
  .single (.hide id)

/-- A block is a move where the message is stored, and nothing elsewhere. -/
theorem blockProjection_moves (s : Db) (id : Uuid) (c : ConversationScope) :
    Moves c.room.id s.timeline (s.blockProjection id c).timeline :=
  .single (.block id)

theorem publishProfiles_timeline {s t : Db} {complete : Bool} {room : Uuid}
    (h : s.publishProfiles complete room = .ok t) : t.timeline = s.timeline := by
  cases complete with
  | true =>
    simp only [publishProfiles, if_true, bind_ok, require_ok, pure_ok] at h
    obtain ⟨profiles, -, rfl⟩ := h
    rfl
  | false =>
    simp only [publishProfiles, Bool.false_eq_true, if_false, pure_ok] at h
    rw [h]

theorem applyProfiles_timeline {s t : Db} {page : ConversationProfiles} {cursor : Option Token}
    {c : ConversationScope} (h : s.applyProfiles page cursor c = .ok t) :
    t.timeline = s.timeline := by
  simp only [applyProfiles, bind_ok, ensure_ok, require_ok, pure_ok] at h
  obtain ⟨-, -, -, -, -, -, -, -, -, -, u, hu, staged, -, -, -, v, hv, rfl⟩ := h
  have hpublished := publishProfiles_timeline hv
  have hvisited := visit_timeline hu
  exact hpublished.trans hvisited

theorem admitText_timeline {s t : Db} {command : TextCommand} {c : ConversationScope}
    (h : s.admitText command c = .ok t) : t.timeline = s.timeline := by
  simp only [admitText, bind_ok, ensure_ok, require_ok, pure_ok] at h
  obtain ⟨-, -, -, -, -, -, -, -, -, -, commands, -, rfl⟩ := h
  rfl

theorem claimText_timeline {s t : Db} {command : TextCommand} {c : ConversationScope}
    (h : s.claimText command c = .ok t) : t.timeline = s.timeline := by
  simp only [claimText, bind_ok, ensure_ok, require_ok, pure_ok] at h
  obtain ⟨-, -, row, -, -, -, rfl⟩ := h
  rfl

/-- A block reaches the message it is for, if the store holds it. -/
theorem blockProjection_dead (s : Db) (id : Uuid) (c : ConversationScope) :
    Dead (s.blockProjection id c).timeline c.room.id id ↔
      (s.timelineRow c.room.id id).isSome = true := by
  constructor
  · intro h
    obtain ⟨r, hr, hroom, hid, -⟩ := dead_of_hide (p := QuotedBy c.room.id id) h
    obtain ⟨r', hr', rfl⟩ := (Table.mem_update (k := by exact ⟨fun _ => rfl⟩)).mp hr
    refine Option.isSome_iff_exists.mpr ⟨r', timelineRow_eq_some.mpr ⟨hr', ?_⟩⟩
    by_cases hp : r'.room = c.room.id ∧ r'.id = id
    · exact hp
    · rw [if_neg hp] at hroom hid
      exact ⟨hroom, hid⟩
  · intro h
    obtain ⟨r, hrow⟩ := Option.isSome_iff_exists.mp h
    obtain ⟨hr, hroom, hid⟩ := timelineRow_eq_some.mp hrow
    have hblocked : Dead (s.timeline.update (fun r => r.room = c.room.id ∧ r.id = id)
        TimelineRow.block) c.room.id id := by
      refine ⟨r.block, ?_, hroom, hid, rfl⟩
      have hmem := Table.mem_update_of_mem (p := fun r => r.room = c.room.id ∧ r.id = id)
        (f := TimelineRow.block) (k := by exact ⟨fun _ => rfl⟩) hr
      rwa [if_pos ⟨hroom, hid⟩] at hmem
    have hgrown := grown_update (T := s.timeline.update (fun r => r.room = c.room.id ∧ r.id = id)
      TimelineRow.block) (p := QuotedBy c.room.id id) (k := by exact ⟨fun _ => rfl⟩)
      TimelineRow.climbs_hide
    exact hgrown.dead hblocked

/-! ## Receipts -/

/-- The message a command entombs without hiding what quotes it: a receipt that says deleted,
for a command that still takes receipts, names it or the command was mapped to it. -/
def entombs (s : Db) (c : ConversationScope) : ConversationCommand → Option Uuid
  | .recordSendReceipt (.deleted id message) _ =>
    ((s.textCommand c.room.id id).filter fun r => ¬Terminal r).map fun _ => message
  | .recordCommandReceipt (.deleted id) _ =>
    ((s.textCommand c.room.id id).filter fun r => ¬Terminal r) >>= (·.message)
  | _ => none

/-- Nothing visible but the message itself quotes the message that is entombed. -/
def Swept (s : Db) (c : ConversationScope) (command : ConversationCommand) : Prop :=
  ∀ id ∈ s.entombs c command, ∀ r ∈ s.timeline, r.id ≠ id → ¬QuotedBy c.room.id id r

/-- A block names a message the store holds. -/
def Stored (s : Db) (c : ConversationScope) (command : ConversationCommand) : Prop :=
  ∀ id, command = .blockProjection id → (s.timelineRow c.room.id id).isSome = true

/-- A receipt that says deleted buries its message and hides nothing. -/
theorem tombstoneReceipt_entombed (s : Db) (room id : Uuid) :
    Entombed room id s.timeline (s.tombstoneReceipt room (some id)).timeline := by
  refine ⟨_, _, rfl, ?_⟩
  intro r hr hroom hid
  have hrow : s.timelineRow room id = some r := timelineRow_eq_some.mpr ⟨hr, hroom, hid⟩
  rw [hrow]
  exact Nat.le_refl _

/-- A receipt writes the timeline only to entomb the message of a deleted command. -/
theorem recordReceipt_timeline {s t : Db} {id : Uuid} {message : Option Uuid}
    {version : Option MessageVersion} {deleted : Bool} {c : ConversationScope}
    (h : s.recordReceipt id message version deleted c = .ok t) :
    ∃ row, s.textCommand c.room.id id = some row ∧
      ((t.timeline = s.timeline ∧
          (Terminal row ∨ deleted = false ∨ message.or row.message = none)) ∨
        (¬Terminal row ∧ deleted = true ∧ ∃ m, message.or row.message = some m ∧
          Entombed c.room.id m s.timeline t.timeline)) := by
  simp only [recordReceipt, bind_ok, require_ok, ensure_ok] at h
  obtain ⟨row, hrow, -, -, h⟩ := h
  refine ⟨row, hrow, ?_⟩
  by_cases hterminal : Terminal row
  · rw [if_pos hterminal, pure_ok] at h
    subst h
    exact .inl ⟨rfl, .inl hterminal⟩
  · rw [if_neg hterminal] at h
    simp only [bind_ok, ensure_ok] at h
    obtain ⟨-, -, h⟩ := h
    cases deleted with
    | true =>
      simp only [if_true, pure_ok] at h
      subst h
      cases hm : message.or row.message with
      | none => exact .inl ⟨rfl, .inr (.inr rfl)⟩
      | some m =>
        exact .inr ⟨hterminal, rfl, m, rfl, tombstoneReceipt_entombed
          (s.deleteTextCommand c.room.id id (some m)) c.room.id m⟩
    | false =>
      simp only [Bool.false_eq_true, if_false, bind_ok, require_ok] at h
      obtain ⟨m, -, v, -, h⟩ := h
      refine .inl ⟨?_, .inr (.inl rfl)⟩
      by_cases hdead : s.Tombstoned c.room.id m
      · rw [if_pos hdead, pure_ok] at h
        subst h
        rfl
      · rw [if_neg hdead, pure_ok] at h
        subst h
        exact commitTextCommand_timeline s row m v

/-- What a command does to the timeline: moves in its room, or a burial without a sweep. -/
theorem run_timeline {s t : Db} {c : ConversationScope} {command : ConversationCommand}
    (h : command.run c s = .ok t) :
    (s.entombs c command = none ∧ Moves c.room.id s.timeline t.timeline) ∨
      ∃ id, s.entombs c command = some id ∧ Entombed c.room.id id s.timeline t.timeline := by
  cases command with
  | applySnapshot page => exact .inl ⟨rfl, applySnapshot_moves h⟩
  | applyEvents page cursor => exact .inl ⟨rfl, applyEvents_moves h⟩
  | applyHistory page cursor => exact .inl ⟨rfl, applyHistory_moves h⟩
  | applySingleMessage m => exact .inl ⟨rfl, putMessage_moves h⟩
  | hideProjection id =>
    obtain rfl := Except.ok.inj h
    exact .inl ⟨rfl, hideProjection_moves s id c⟩
  | blockProjection id =>
    obtain rfl := Except.ok.inj h
    exact .inl ⟨rfl, blockProjection_moves s id c⟩
  | beginProfiles =>
    obtain rfl := Except.ok.inj h
    exact .inl ⟨rfl, .refl⟩
  | applyProfiles page cursor => exact .inl ⟨rfl, applyProfiles_timeline h ▸ .refl⟩
  | admitText command => exact .inl ⟨rfl, admitText_timeline h ▸ .refl⟩
  | claimText command => exact .inl ⟨rfl, claimText_timeline h ▸ .refl⟩
  | markTextUnknown id =>
    obtain rfl := Except.ok.inj h
    exact .inl ⟨rfl, .refl⟩
  | markTextRejected id blocked =>
    obtain rfl := Except.ok.inj h
    cases blocked <;> exact .inl ⟨rfl, .refl⟩
  | recordSendReceipt receipt expected =>
    simp only [ConversationCommand.run, recordSendReceipt, bind_ok, ensure_ok] at h
    obtain ⟨-, -, h⟩ := h
    cases receipt with
    | committed id m v =>
      obtain ⟨row, -, ⟨hsame, -⟩ | ⟨-, hdeleted, -⟩⟩ := recordReceipt_timeline h
      · exact .inl ⟨rfl, hsame ▸ .refl⟩
      · -- a committed receipt entombs nothing
        exact absurd hdeleted (by decide)
    | deleted id m =>
      obtain ⟨row, hrow, ⟨hsame, hwhy⟩ | ⟨hlive, -, m', hm, hent⟩⟩ := recordReceipt_timeline h
      · refine .inl ⟨?_, hsame ▸ .refl⟩
        have hterminal : Terminal row := by simpa using hwhy
        simp [entombs, hrow, hterminal]
      · obtain rfl : m = m' := by simpa using hm
        exact .inr ⟨m, by simp [entombs, hrow, hlive], hent⟩
  | recordCommandReceipt receipt id =>
    simp only [ConversationCommand.run, recordCommandReceipt, bind_ok, ensure_ok] at h
    obtain ⟨-, -, h⟩ := h
    cases receipt with
    | committed id m v =>
      obtain ⟨row, -, ⟨hsame, -⟩ | ⟨-, hdeleted, -⟩⟩ := recordReceipt_timeline h
      · exact .inl ⟨rfl, hsame ▸ .refl⟩
      · exact absurd hdeleted (by decide)
    | deleted id =>
      obtain ⟨row, hrow, ⟨hsame, hwhy⟩ | ⟨hlive, -, m', hm, hent⟩⟩ := recordReceipt_timeline h
      · refine .inl ⟨?_, hsame ▸ .refl⟩
        have hnone : Terminal row ∨ row.message = none := by simpa using hwhy
        -- a command of a message without an id has nothing to entomb
        rcases hnone with hterminal | hnone
        · simp [entombs, hrow, hterminal]
        · by_cases hterminal : Terminal row <;> simp [entombs, hrow, hterminal, hnone]
      · have hmessage : row.message = some m' := by simpa using hm
        refine .inr ⟨m', ?_, hent⟩
        rw [entombs, hrow, Option.filter_some, if_pos (by simpa using hlive)]
        exact hmessage

end Db

/-! ## Burial without a sweep -/

/-- Burying a message lets rows climb. -/
theorem Entombed.grown {room id : Uuid} {T T' : Table TimelineRow} (h : Entombed room id T T') :
    Grown T T' := by
  obtain ⟨version, createdAt, rfl, hold⟩ := h
  apply grown_put
  intro r hr hroom hid
  exact ⟨hroom.symm, hid.symm, hold r hr hroom hid, fun _ => rfl⟩

/-- The message is buried. -/
theorem Entombed.dead {room id : Uuid} {T T' : Table TimelineRow} (h : Entombed room id T T') :
    Dead T' room id := by
  obtain ⟨version, createdAt, rfl, -⟩ := h
  exact ⟨_, Table.mem_put.mpr (.inr rfl), rfl, rfl, rfl⟩

/-- Everything else stays as visible as it was. -/
theorem Entombed.visible {room id : Uuid} {T T' : Table TimelineRow} (h : Entombed room id T T')
    {r : TimelineRow} (hv : r.Visible) :
    r ∈ T' ↔ r ∈ T ∧ ¬(r.room = room ∧ r.id = id) := by
  obtain ⟨version, createdAt, rfl, -⟩ := h
  rw [Table.mem_put, TimelineRow.clash_iff]
  constructor
  · rintro (hkept | rfl)
    · exact hkept
    · exact absurd hv.1 (by simp [TimelineRow.tombstone])
  · exact .inl

/-- A burial without a sweep keeps the rule exactly when there was nothing to sweep. -/
theorem Entombed.quoteRule_iff {room id : Uuid} {T T' : Table TimelineRow}
    (h : Entombed room id T T') (hT : QuoteRule room T) :
    QuoteRule room T' ↔ ∀ r ∈ T, r.id ≠ id → ¬QuotedBy room id r := by
  constructor
  · rintro hT' r hr hne ⟨hroom, hv, m, hm, hq⟩
    have hr' := (h.visible hv).mpr ⟨hr, fun hkey => hne hkey.2⟩
    exact hT' r hr' hroom hv m hm id hq h.dead
  · intro hfree r hr' hroom hv m hm q hq hd
    obtain ⟨hr, hkey⟩ := (h.visible hv).mp hr'
    by_cases hqid : q = id
    · subst hqid
      exact hfree r hr (fun hid => hkey ⟨hroom, hid⟩) ⟨hroom, hv, m, hm, hq⟩
    · obtain ⟨version, createdAt, rfl, -⟩ := h
      obtain ⟨d, hdmem, hdroom, hdid, hdel⟩ := hd
      rcases Table.mem_put.mp hdmem with ⟨hdT, -⟩ | rfl
      · exact hT r hr hroom hv m hm q hq ⟨d, hdT, hdroom, hdid, hdel⟩
      · exact hqid hdid.symm

/-- A burial in one room is nothing to another. -/
theorem Entombed.elsewhere {room room' id : Uuid} {T T' : Table TimelineRow}
    (h : Entombed room' id T T') (hne : room' ≠ room) (hT : QuoteRule room T) :
    QuoteRule room T' := by
  intro r hr' hroom hv m hm q hq hd
  have hr := ((h.visible hv).mp hr').1
  obtain ⟨version, createdAt, rfl, -⟩ := h
  obtain ⟨d, hdmem, hdroom, hdid, hdel⟩ := hd
  rcases Table.mem_put.mp hdmem with ⟨hdT, -⟩ | rfl
  · exact hT r hr hroom hv m hm q hq ⟨d, hdT, hdroom, hdid, hdel⟩
  · exact hne hdroom

/-! ## Runs -/

/-- An operation of an open store under the scope of an opened room. -/
structure Operation where
  database : RoomsDatabase
  scope : ConversationScope
  command : ConversationCommand

/-- An operation on the database it names. -/
def Operation.exec (o : Operation) (s : Db) : Transaction Db :=
  o.command.exec o.database o.scope s

/-- An operation that went through ran its command. -/
theorem Operation.exec_run {o : Operation} {s t : Db} (h : o.exec s = .ok t) :
    o.command.run o.scope s = .ok t := by
  simp only [Operation.exec, ConversationCommand.exec, Db.write, bind_ok] at h
  obtain ⟨-, -, -, -, h⟩ := h
  exact h

/-- A cache generation of the room: it starts without a row, whatever else is stored, and
every operation of the store on any room may follow. -/
def timeline (room : Uuid) : System Db Operation where
  init s := ∀ r ∈ s.timeline, r.room ≠ room
  step o s t := o.exec s = .ok t

/-- The operation is on another room, or a deleted receipt finds nothing to sweep and a block
finds its message. -/
def Meets (room : Uuid) (s : Db) (o : Operation) : Prop :=
  o.scope.room.id = room → s.Swept o.scope o.command ∧ s.Stored o.scope o.command

/-- The runs whose operations all meet that condition. -/
def sweptTimeline (room : Uuid) : System Db Operation where
  init := (timeline room).init
  step o s t := (timeline room).step o s t ∧ Meets room s o

/-- A block of the room is acknowledged: its message is tombstoned. -/
def Acknowledged (room : Uuid) (o : Operation) (t : Db) : Prop :=
  ∀ id, o.scope.room.id = room → o.command = .blockProjection id → t.Tombstoned room id

/-- An operation lets rows climb. -/
theorem step_grown {room : Uuid} {o : Operation} {s t : Db} (h : (timeline room).step o s t) :
    Grown s.timeline t.timeline := by
  rcases run_timeline (Operation.exec_run h) with ⟨-, hmoves⟩ | ⟨id, -, hent⟩
  · exact hmoves.grown
  · exact hent.grown

/-- Over a whole run rows only climb. -/
theorem run_grown {room : Uuid} {os : List Operation} {s t : Db}
    (h : (timeline room).Run s os t) : Grown s.timeline t.timeline := by
  induction h with
  | nil s => exact .refl s.timeline
  | cons hstep _ ih => exact (step_grown hstep).trans ih

/-- Where the rule holds, an operation keeps it exactly when it leaves nothing to sweep. -/
theorem step_quoteRule_iff {room : Uuid} {o : Operation} {s t : Db}
    (h : (timeline room).step o s t) (hs : QuoteRule room s.timeline) :
    QuoteRule room t.timeline ↔ (o.scope.room.id = room → s.Swept o.scope o.command) := by
  rcases run_timeline (Operation.exec_run h) with ⟨hnone, hmoves⟩ | ⟨id, hid, hent⟩
  · refine iff_of_true (hmoves.quoteRule hs) ?_
    intro _ id hid
    rw [hnone] at hid
    cases hid
  · by_cases hroom : o.scope.room.id = room
    · subst hroom
      rw [hent.quoteRule_iff hs, Swept, hid]
      simp
    · exact iff_of_true (hent.elsewhere hroom hs) fun hsame => absurd hsame hroom

/-- A block is acknowledged exactly when the message is stored. -/
theorem step_acknowledged_iff {room : Uuid} {o : Operation} {s t : Db}
    (h : (timeline room).step o s t) :
    Acknowledged room o t ↔ (o.scope.room.id = room → s.Stored o.scope o.command) := by
  have hrun := Operation.exec_run h
  constructor
  · intro hack hroom id hcommand
    have hdead := tombstoned_iff_dead.mp (hack id hroom hcommand)
    rw [hcommand] at hrun
    obtain rfl := Except.ok.inj hrun
    rw [← hroom] at hdead
    exact (blockProjection_dead s id o.scope).mp hdead
  · intro hstored id hroom hcommand
    have hrow := hstored hroom id hcommand
    rw [hcommand] at hrun
    obtain rfl := Except.ok.inj hrun
    have hdead := (blockProjection_dead s id o.scope).mpr hrow
    rw [hroom] at hdead
    exact tombstoned_iff_dead.mpr hdead

/-- The rule holds in every run whose receipts are swept. -/
theorem reachable_quoteRule {room : Uuid} {s : Db} (h : (sweptTimeline room).Reachable s) :
    QuoteRule room s.timeline := by
  refine h.induct (P := fun s => QuoteRule room s.timeline) ⟨?_, ?_⟩
  · intro s hempty r hr hroom
    exact absurd hroom (hempty r hr)
  · rintro s t o - ih ⟨hstep, hmeets⟩
    exact (step_quoteRule_iff hstep ih).mpr fun hroom => (hmeets hroom).1

/-- **The timeline shows no quote of a deleted message.** In every run of a cache generation
whose operations leave nothing to sweep and block only stored messages, nothing visible
quotes a tombstone, and a blocked message is tombstoned from then on. Tombstones are
permanent and versions never fall in every run; and an operation outside the condition
breaks the rule, or leaves its block without a tombstone. -/
theorem timeline_sound (room : Uuid) :
    (∀ s, (sweptTimeline room).Reachable s → QuoteRule room s.timeline) ∧
    (∀ s o t os u id, (sweptTimeline room).step o s t → o.scope.room.id = room →
      o.command = .blockProjection id → (timeline room).Run t os u → u.Tombstoned room id) ∧
    (∀ s os t id, (timeline room).Run s os t → s.Tombstoned room id → t.Tombstoned room id) ∧
    (∀ s os t r r', (timeline room).Run s os t → r ∈ s.timeline → r' ∈ t.timeline →
      r'.room = r.room → r'.id = r.id → r.version ≤ r'.version) ∧
    (∀ s o t, (sweptTimeline room).Reachable s → (timeline room).step o s t →
      (QuoteRule room t.timeline ∧ Acknowledged room o t ↔ Meets room s o)) := by
  have hpermanent : ∀ s os t id, (timeline room).Run s os t → s.Tombstoned room id →
      t.Tombstoned room id := by
    intro s os t id hrun hd
    exact tombstoned_iff_dead.mpr ((run_grown hrun).dead (tombstoned_iff_dead.mp hd))
  refine ⟨fun s => reachable_quoteRule, ?_, hpermanent, ?_, ?_⟩
  · rintro s o t os u id ⟨hstep, hmeets⟩ hroom hcommand hrun
    have hack := (step_acknowledged_iff hstep).mpr fun hroom => (hmeets hroom).2
    exact hpermanent t os u id hrun (hack id hroom hcommand)
  · intro s os t r r' hrun hr hr' hroom hid
    exact (run_grown hrun).version hr hr' hroom hid
  · intro s o t hs hstep
    rw [step_quoteRule_iff hstep (reachable_quoteRule hs), step_acknowledged_iff hstep, Meets]
    constructor
    · rintro ⟨hswept, hstored⟩ hroom
      exact ⟨hswept hroom, hstored hroom⟩
    · intro hmeets
      exact ⟨fun hroom => (hmeets hroom).1, fun hroom => (hmeets hroom).2⟩

/-! ## A receipt that sweeps nothing, a block that marks nothing -/

/-- A room of a group, as a member sees it. -/
def lobby : MembershipRoom where
  id := 1
  name := 0
  mode := .group
  actorId := 2
  role := .member
  membershipScope := 3
  authorizationRevision := 4

def phone : RoomsDatabase := ⟨⟨5, 6⟩, 7⟩

/-- The lobby as it is opened. -/
def lobbyScope : ConversationScope := ⟨phone.scope, lobby, 8, 9, 7, 10⟩

/-- The store right after the room was opened for the first time. -/
def opened : Db where
  metadata := some { owner := 6, partition := 5, confirmed := true }
  memberships := Table.empty.put lobby
  manifest := some { run := 10, cache := 11, generation := some 12, complete := true }
  conversation := Table.empty.put
    { room := 1, cache := 8, profileCache := 9, membership := 3, authority := 4, cycle := 10 }

def on (command : ConversationCommand) : Operation := ⟨phone, lobbyScope, command⟩

/-- The first download of a room without messages. -/
def emptySnapshot : ConversationSnapshot := ⟨3, 4, [], 20, none⟩

/-- The text the member sends. -/
def greeting : TextCommand where
  id := 30
  roomID := 1
  membershipScope := 3
  intent := .shared
  text := 31

def greetingMessage : ConversationMessage where
  id := 40
  version := .one
  createdAt := 41
  audience := .shared
  author := .member 2 42 none
  content := .text (some 31)

/-- Another member's answer, quoting it. -/
def answer : ConversationMessage where
  id := 43
  version := .one
  createdAt := 44
  audience := .shared
  author := .member 45 46 none
  content := .text (some 47)
  quote := some ⟨40, 42, 31⟩

/-- A page with a message and a reply that quotes it. -/
def bothMessages : ConversationEvents :=
  ⟨false, some 3, some 4, [.upsert greetingMessage, .upsert answer], false, some 21⟩

/-- The member sends, both messages arrive by an event page, and the late receipt of the send
says that the message was deleted. -/
def lateReceipt : List Operation :=
  [on (.applySnapshot emptySnapshot), on (.admitText greeting), on (.claimText greeting),
    on (.applyEvents bothMessages 20), on (.recordSendReceipt (.deleted 30 40) greeting)]

/-- Operations that go through one after another make a run. -/
theorem run_of_exec {room : Uuid} {os : List Operation} {s t : Db}
    (h : os.foldlM (fun s o => o.exec s) s = .ok t) : (timeline room).Run s os t := by
  induction os generalizing s with
  | nil =>
    rw [List.foldlM_nil, pure_ok] at h
    subst h
    exact .nil s
  | cons o os ih =>
    rw [List.foldlM_cons, bind_ok] at h
    obtain ⟨u, ho, hrest⟩ := h
    exact .cons ho (ih hrest)

/-- A room just opened is a start. -/
theorem opened_init : (timeline 1).init opened := by
  intro r hr
  exact absurd hr (Table.not_mem_empty r)

theorem timeline_unswept :
    ¬(∀ room s os t, (timeline room).init s → (timeline room).Run s os t →
      QuoteRule room t.timeline) ∧
    ¬(∀ room s o t, (timeline room).init s → (timeline room).step o s t →
      Acknowledged room o t) := by
  constructor
  · intro hall
    obtain ⟨t, ht⟩ : ∃ t, lateReceipt.foldlM (fun s o => o.exec s) opened = .ok t := ⟨_, rfl⟩
    have hrule := hall 1 opened lateReceipt t opened_init (run_of_exec ht)
    -- The answer is still shown, and the message it quotes is a tombstone.
    have hshown : t.timelineRow 1 43 = some (.shown 1 answer) := by
      cases ht
      rfl
    have hdead : t.Tombstoned 1 40 := by
      cases ht
      decide
    obtain ⟨hmem, hroom, -⟩ := timelineRow_eq_some.mp hshown
    exact hrule _ hmem hroom ⟨rfl, rfl⟩ answer rfl 40 ⟨_, rfl, rfl⟩
      (tombstoned_iff_dead.mp hdead)
  · intro hall
    have hack := hall 1 opened (on (.blockProjection 40)) _ opened_init rfl 40 rfl rfl
    exact absurd hack (by decide)

/-- The same messages, and a block of the first: both conditions are met. -/
theorem timeline_sound_block : ∃ s o t, (sweptTimeline 1).Reachable s ∧
    (sweptTimeline 1).step o s t ∧ QuoteRule 1 s.timeline ∧ t.Tombstoned 1 40 ∧
    (QuoteRule 1 t.timeline ∧ Acknowledged 1 o t ↔ Meets 1 s o) := by
  obtain ⟨s, hs⟩ : ∃ s, (on (.applySnapshot emptySnapshot)).exec opened = .ok s := ⟨_, rfl⟩
  obtain ⟨t, ht⟩ : ∃ t, (on (.applyEvents bothMessages 20)).exec s = .ok t := by
    cases hs
    exact ⟨_, rfl⟩
  obtain ⟨u, hu⟩ : ∃ u, (on (.blockProjection 40)).exec t = .ok u := by
    cases hs
    cases ht
    exact ⟨_, rfl⟩
  have hstored : (t.timelineRow 1 40).isSome = true := by
    cases hs
    cases ht
    rfl
  have hmeets : ∀ (s : Db) (command : ConversationCommand), s.entombs lobbyScope command = none →
      s.Stored lobbyScope command → Meets 1 s (on command) := by
    intro s command hnone hstored _
    refine ⟨?_, hstored⟩
    intro id hid
    exact absurd (hnone.symm.trans hid) (by simp)
  have hreach : (sweptTimeline 1).Reachable t :=
    .step (.step (.init opened_init) ⟨hs, hmeets _ _ rfl fun _ h => (by cases h)⟩)
      ⟨ht, hmeets _ _ rfl fun _ h => (by cases h)⟩
  have hstep : (sweptTimeline 1).step (on (.blockProjection 40)) t u := by
    refine ⟨hu, hmeets _ _ rfl ?_⟩
    intro id hid
    cases hid
    exact hstored
  obtain ⟨hrule, hblock, -, -, hexact⟩ := timeline_sound 1
  exact ⟨t, _, u, hreach, hstep, hrule t hreach,
    hblock t _ u [] u 40 hstep rfl rfl (.nil u), hexact t _ u hreach hstep.1⟩

end Rogichat.Ios
