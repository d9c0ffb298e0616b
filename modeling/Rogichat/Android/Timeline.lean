import Rogichat.Android.Directory
import Mathlib.Data.Finset.Card

/-!
# What the Android timeline takes

The rows of a room's timeline, live ones and tombstones, only accumulate while its
authorization revision lasts, and `data` refuses more than ten thousand of them at the end of
every operation. So a page is taken exactly when the messages it names fit among those stored
(`Fits`); nothing else refuses a page that answers the room's stored state.
-/

namespace Rogichat.Android

open Lib Android.Db

def MessageEvent.id : MessageEvent → Uuid
  | .upsert message => message.id
  | .deleted id _ => id

namespace Db

/-- The messages the room's timeline has rows of. -/
def known (s : Db) (room : Uuid) : Finset Uuid :=
  ((s.messages' room).map (·.messageId)).toFinset

/-- The messages of a page fit among the stored ones. -/
def Fits (s : Db) (room : Uuid) (ids : Finset Uuid) : Prop := (s.known room ∪ ids).card ≤ 10000

instance (s : Db) (room : Uuid) (ids : Finset Uuid) : Decidable (s.Fits room ids) :=
  inferInstanceAs (Decidable (_ ≤ _))

/-- The stored rows of the room know when their messages were created. -/
def Dated (s : Db) (room : Uuid) (born : Uuid → Time) : Prop :=
  ∀ r ∈ s.messages, r.roomId = room → ∀ t ∈ r.createdAtMs, t = born r.messageId

/-- The creation times the events report are those of the stored rows, and of each other. -/
def Unchanged (s : Db) (room : Uuid) (events : List MessageEvent) : Prop :=
  ∃ born, s.Dated room born ∧ ∀ m, .upsert m ∈ events → m.createdAt = born m.id

/-- An id is known when a row has it, a tombstone's too. -/
theorem mem_known {s : Db} {room id : Uuid} :
    id ∈ s.known room ↔ ∃ r ∈ s.messages, r.roomId = room ∧ r.messageId = id := by
  simp only [known, messages', List.mem_toFinset, List.mem_map, Table.mem_select, and_assoc]

/-- A room has as many rows as known ids. -/
theorem card_known (s : Db) (room : Uuid) : (s.known room).card = (s.messages' room).length := by
  have hnodup : ((s.messages' room).map (·.messageId)).Nodup := by
    refine List.Nodup.map_on ?_ (s.messages.nodup.filter _)
    intro x hx y hy hid
    obtain ⟨hx, hxroom⟩ := Table.mem_select.mp hx
    obtain ⟨hy, hyroom⟩ := Table.mem_select.mp hy
    exact Table.eq_of_key hx hy (k := (x.roomId, x.messageId)) (by simp [Row.keys])
      (by simp [Row.keys, hid, hxroom, hyroom])
  rw [known, List.toFinset_card_of_nodup hnodup, List.length_map]

/-! ## Taking messages -/

/-- A row of the message `id` takes its place in the room. -/
theorem known_put {s : Db} {room : Uuid} {r : ConversationMessageRow} (hroom : r.roomId = room) :
    known { s with messages := s.messages.put r } room = insert r.messageId (s.known room) := by
  ext id
  rw [Finset.mem_insert, mem_known, mem_known]
  constructor
  · rintro ⟨x, hx, hxroom, hxid⟩
    rcases Table.mem_put.mp hx with ⟨hx, -⟩ | rfl
    · exact .inr ⟨x, hx, hxroom, hxid⟩
    · exact .inl hxid.symm
  · rintro (rfl | ⟨x, hx, hxroom, hxid⟩)
    · exact ⟨r, Table.mem_put.mpr (.inr rfl), hroom, rfl⟩
    · by_cases hsame : id = r.messageId
      · exact ⟨r, Table.mem_put.mpr (.inr rfl), hroom, hsame.symm⟩
      · refine ⟨x, Table.mem_put.mpr (.inl ⟨hx, ?_⟩), hxroom, hxid⟩
        rw [ConversationMessageRow.clash_iff]
        rintro ⟨-, hclash⟩
        exact hsame (hxid.symm.trans hclash)

/-- A stored time keeps to the message's creation time. -/
theorem Dated.put {s : Db} {room : Uuid} {born : Uuid → Time} (h : s.Dated room born)
    {r : ConversationMessageRow} (hr : ∀ t ∈ r.createdAtMs, t = born r.messageId) :
    Dated { s with messages := s.messages.put r } room born := by
  intro x hx hroom
  rcases Table.mem_put.mp hx with ⟨hx, -⟩ | rfl
  · exact h x hx hroom
  · exact hr

/-- An event is taken: its message is known from then on, and nothing else changes. -/
theorem applyEvent_total {s : Db} {room : Uuid} {born : Uuid → Time} (h : s.Dated room born)
    {e : MessageEvent} (he : ∀ m, e = .upsert m → m.createdAt = born m.id) :
    ∃ T, s.applyEvent room e = .ok { s with messages := T } ∧
      Dated { s with messages := T } room born ∧
      known { s with messages := T } room = insert e.id (s.known room) := by
  cases e with
  | upsert m =>
    have hm := he m rfl
    -- the one check an event may fail: a stored time is the message's own
    have htimes : ∀ r ∈ s.message room m.id, ∀ t ∈ r.createdAtMs, t = m.createdAt := by
      intro r hr t ht
      obtain ⟨hmem, hroom, hid⟩ := message_eq_some.mp hr
      rw [h r hmem hroom t ht, hid, hm]
    show ∃ T, s.putMessage room m = _ ∧ _
    unfold putMessage
    dsimp only
    rw [show valid _ = _ from ensure_pos htimes _, ok_bind]
    split
    · -- a later row stands, so the id was known
      rename_i hstands
      obtain ⟨r, hr, -⟩ := hstands
      obtain ⟨hmem, hroom, hid⟩ := message_eq_some.mp hr
      refine ⟨s.messages, rfl, h, ?_⟩
      exact (Finset.insert_eq_of_mem (mem_known.mpr ⟨r, hmem, hroom, hid⟩)).symm
    · refine ⟨_, rfl, h.put ?_, known_put rfl⟩
      intro t ht
      obtain rfl := Option.some.inj ht
      exact hm
  | deleted id version =>
    show ∃ T, pure (s.deleteMessage room id version) = _ ∧ _
    unfold deleteMessage
    dsimp only
    split
    · -- a later row stands here too
      rename_i hnewer
      obtain ⟨r, hr, -⟩ := hnewer
      obtain ⟨hmem, hroom, hid⟩ := message_eq_some.mp hr
      refine ⟨s.messages, rfl, h, ?_⟩
      exact (Finset.insert_eq_of_mem (mem_known.mpr ⟨r, hmem, hroom, hid⟩)).symm
    · refine ⟨_, rfl, h.put ?_, known_put rfl⟩
      intro t ht
      obtain ⟨r, hr, hrt⟩ := Option.bind_eq_some_iff.mp ht
      obtain ⟨hmem, hroom, hid⟩ := message_eq_some.mp hr
      rw [h r hmem hroom t hrt, hid]
      rfl

/-- The messages of the events. -/
def eventIds (events : List MessageEvent) : Finset Uuid := (events.map (·.id)).toFinset

/-- A list of events is taken. -/
theorem applyEvents_total {s : Db} {room : Uuid} {born : Uuid → Time} {events : List MessageEvent}
    (hdated : s.Dated room born) (hborn : ∀ m, .upsert m ∈ events → m.createdAt = born m.id) :
    ∃ T, events.foldlM (fun s e => s.applyEvent room e) s = .ok { s with messages := T } ∧
      Dated { s with messages := T } room born ∧
      known { s with messages := T } room = s.known room ∪ eventIds events := by
  -- Whatever is left of the list, what is known then and what it names is known in the end.
  let P : List MessageEvent → Db → Prop := fun rest t =>
    ∃ T, t = { s with messages := T } ∧ Dated t room born ∧
      (∀ m, .upsert m ∈ rest → m.createdAt = born m.id) ∧
      t.known room ∪ eventIds rest = s.known room ∪ eventIds events
  have hstep : ∀ e rest t, P (e :: rest) t → ∃ u, t.applyEvent room e = .ok u ∧ P rest u := by
    rintro e rest t ⟨T, rfl, ht, hrest, hknown⟩
    obtain ⟨T', happly, hdated', hknown'⟩ := applyEvent_total ht (e := e)
      fun m hm => hrest m (hm ▸ List.mem_cons_self)
    refine ⟨_, happly, T', rfl, hdated', fun m hm => hrest m (List.mem_cons_of_mem _ hm), ?_⟩
    rw [← hknown, show known _ room = _ from hknown']
    ext id
    simp only [eventIds, List.map_cons, List.toFinset_cons, Finset.mem_union, Finset.mem_insert]
    tauto
  obtain ⟨t, ht, T, rfl, hend, -, hknown⟩ := foldlM_total hstep
    (show P events s from ⟨s.messages, rfl, hdated, hborn, rfl⟩)
  refine ⟨T, ht, hend, ?_⟩
  simpa [eventIds] using hknown

/-! ## Reading the conversation back -/

theorem setCheckpoint_checkpoint (s : Db) (r : ConversationCheckpoint) :
    (s.setCheckpoint r).conversationCheckpoint r.roomId = some r :=
  conversationCheckpoint_eq_some.mpr ⟨Table.mem_put.mpr (.inr rfl), rfl⟩

/-- A conversation is read back when it has a snapshot and its rows are not too many. -/
theorem data_total {s : Db} {c : ConversationScope} {r : ConversationCheckpoint}
    (hr : s.conversationCheckpoint c.room = some r) :
    (∃ d, s.data c = .ok d) ↔ r.snapshotComplete = true ∧ (s.known c.room).card ≤ 10000 := by
  rw [card_known]
  simp only [data, hr, require_some, ok_bind]
  constructor
  · rintro ⟨d, h⟩
    simp only [bind_ok, valid_ok] at h
    obtain ⟨-, hcomplete, -, hrows, -⟩ := h
    exact ⟨hcomplete, hrows⟩
  · rintro ⟨hcomplete, hrows⟩
    rw [show valid _ = _ from ensure_pos hcomplete _, ok_bind,
      show valid _ = _ from ensure_pos hrows _]
    exact ⟨_, rfl⟩

/-- A room is read once its snapshot is complete, up to ten thousand messages. -/
theorem withData_total {s : Db} {c : ConversationScope} {r : ConversationCheckpoint}
    (hr : s.conversationCheckpoint c.room = some r) :
    (∃ d, s.withData c = .ok (s, d)) ↔
      r.snapshotComplete = true ∧ (s.known c.room).card ≤ 10000 := by
  rw [← data_total hr]
  constructor
  · rintro ⟨d, h⟩
    simp only [withData, bind_ok] at h
    obtain ⟨d', hd, -⟩ := h
    exact ⟨d', hd⟩
  · rintro ⟨d, hd⟩
    exact ⟨d, by rw [withData, hd, ok_bind]; rfl⟩

/-- The scope is the one the room was opened with. -/
structure Opened (s : Db) (c : ConversationScope) (r : ConversationCheckpoint) : Prop where
  stored : s.conversationCheckpoint c.room = some r
  same : r.cacheId = c.cacheId ∧ r.membership = c.selection.membership.membershipScope ∧
    r.authorization = c.selection.membership.authorizationRevision

/-- The room is still open, and its cursors are the ones given. -/
def Advanced (c : ConversationScope) (events history : Option Token) (t : Db) : Prop :=
  ∃ r, t.Opened c r ∧ r.snapshotComplete = true ∧ r.eventsCursor = events ∧
    r.historyCursor = history

/-- The end of an operation that moves the room's checkpoint goes through exactly when the rows
are not too many. -/
theorem conclude_total {s : Db} {c : ConversationScope} {r : ConversationCheckpoint}
    (hroom : r.roomId = c.room) (hsame : r.cacheId = c.cacheId ∧
      r.membership = c.selection.membership.membershipScope ∧
      r.authorization = c.selection.membership.authorizationRevision)
    (hcomplete : r.snapshotComplete = true) :
    (∃ t data, ((s.setCheckpoint r).retireProjectedCommands r.roomId).withData c = .ok (t, data) ∧
      t.Advanced c r.eventsCursor r.historyCursor) ↔ (s.known c.room).card ≤ 10000 := by
  have hr : ((s.setCheckpoint r).retireProjectedCommands r.roomId).conversationCheckpoint c.room =
      some r := hroom ▸ setCheckpoint_checkpoint s r
  have hread := withData_total hr
  constructor
  · rintro ⟨t, data, h, -⟩
    have ht := withData_ok h
    exact (hread.mp ⟨data, ht ▸ h⟩).2
  · intro hrows
    obtain ⟨data, h⟩ := hread.mpr ⟨hcomplete, hrows⟩
    exact ⟨_, data, h, r, ⟨hr, hsame⟩, hcomplete, rfl, rfl⟩

theorem Opened.room {s : Db} {c : ConversationScope} {r : ConversationCheckpoint}
    (h : s.Opened c r) : r.roomId = c.room := (conversationCheckpoint_eq_some.mp h.stored).2

/-- In an opened conversation a transaction runs its action. -/
theorem Opened.transaction {α : Type} {s : Db} {c : ConversationScope}
    {r : ConversationCheckpoint} (h : s.Opened c r)
    (action : ConversationCheckpoint → Transaction α) :
    s.conversationTransaction c action = action r := by
  unfold conversationTransaction
  rw [h.stored, require_some, ok_bind, show valid _ = _ from ensure_pos h.same _, ok_bind]

/-- A page of the checkpoint's own authority is accepted. -/
theorem answers_ok {r : ConversationCheckpoint} {membership authorization : Token}
    (h : membership = r.membership ∧ authorization = r.authorization) :
    answers r membership authorization = .ok () :=
  ensure_pos ⟨h.1.symm, h.2.symm⟩ _

/-- Taking a snapshot is taking an upsert of each of its messages. -/
theorem putMessages_eq (s : Db) (room : Uuid) (ms : List ConversationMessage) :
    s.putMessages room ms =
      (ms.map MessageEvent.upsert).foldlM (fun s e => s.applyEvent room e) s := by
  rw [List.foldlM_map]
  rfl

/-- When a snapshot page goes through, and what the room then holds. -/
theorem snapshot_takes {s : Db} {c : ConversationScope} {r : ConversationCheckpoint}
    (h : s.Opened c r) (hpart : r.snapshotComplete = false) {page : SnapshotPage}
    (hscope : page.membership = r.membership ∧ page.authorization = r.authorization)
    (htimes : s.Unchanged c.room (page.messages.map .upsert)) :
    (∃ t data, s.snapshot c page = .ok (t, data) ∧
      t.Advanced c (some page.next) page.history) ↔
      s.Fits c.room (eventIds (page.messages.map .upsert)) := by
  unfold snapshot
  rw [h.transaction]
  obtain ⟨born, hdated, hborn⟩ := htimes
  obtain ⟨T, hput, -, hknown⟩ := applyEvents_total hdated hborn
  rw [← h.room, ← putMessages_eq] at hput
  rw [show valid _ = _ from ensure_pos hpart _, ok_bind, answers_ok hscope, ok_bind, hput,
    ok_bind]
  have hend := conclude_total (s := { s with messages := T }) (c := c)
    (r := { r with snapshotComplete := true, eventsCursor := some page.next,
                   historyCursor := page.history }) h.room h.same rfl
  rw [hknown] at hend
  exact hend

/-- When a page of events goes through, and what the room then holds. -/
theorem events_takes {s : Db} {c : ConversationScope} {r : ConversationCheckpoint}
    (h : s.Opened c r) (hcomplete : r.snapshotComplete = true) {requested : Token}
    (hcursor : r.eventsCursor = some requested) {page : EventPage}
    (hscope : page.membership = r.membership ∧ page.authorization = r.authorization)
    (hmore : page.hasMore = false ∨ page.next ≠ requested)
    (htimes : s.Unchanged c.room page.events) :
    (∃ t data, s.events c requested page = .ok (t, data) ∧
      t.Advanced c (some page.next) r.historyCursor) ↔
      s.Fits c.room (eventIds page.events) := by
  unfold events
  rw [h.transaction]
  obtain ⟨born, hdated, hborn⟩ := htimes
  obtain ⟨T, hput, -, hknown⟩ := applyEvents_total hdated hborn
  rw [← h.room] at hput
  rw [show valid _ = _ from ensure_pos ⟨hcomplete, hcursor⟩ _, ok_bind, answers_ok hscope, ok_bind,
    show valid _ = _ from ensure_pos hmore _, ok_bind, hput, ok_bind]
  have hend := conclude_total (s := { s with messages := T }) (c := c)
    (r := { r with eventsCursor := some page.next }) h.room h.same hcomplete
  rw [hknown] at hend
  exact hend

theorem mem_pagesOf {s : Db} {room : Uuid} {purpose : PagePurpose} {cursor : Option Token} :
    cursor ∈ s.pagesOf room purpose ↔
      (⟨room, purpose, cursor⟩ : ConversationPage) ∈ s.conversationPages := by
  simp only [pagesOf, List.mem_map, Table.mem_select]
  constructor
  · rintro ⟨p, ⟨hp, rfl, rfl⟩, rfl⟩
    exact hp
  · intro hp
    exact ⟨_, ⟨hp, rfl, rfl⟩, rfl⟩

/-- When a page of history goes through. -/
theorem history_takes {s : Db} {c : ConversationScope} {r : ConversationCheckpoint}
    (h : s.Opened c r) (hcomplete : r.snapshotComplete = true) {requested : Token}
    (hcursor : r.historyCursor = some requested)
    (hunspent : some requested ∉ s.pagesOf c.room .history) {page : HistoryPage}
    (hscope : page.membership = r.membership ∧ page.authorization = r.authorization)
    (hnext : ∀ n ∈ page.next, n ≠ requested ∧ some n ∉ s.pagesOf c.room .history)
    (htimes : s.Unchanged c.room (page.messages.map .upsert)) :
    (∃ t data, s.history c requested page = .ok (t, data) ∧
      t.Advanced c r.eventsCursor page.next) ↔
      s.Fits c.room (eventIds (page.messages.map .upsert)) := by
  unfold history
  rw [h.transaction]
  obtain ⟨born, hdated, hborn⟩ := htimes
  obtain ⟨T, hput, -, hknown⟩ := applyEvents_total hdated hborn
  rw [← h.room] at hunspent hnext
  rw [← h.room, ← putMessages_eq] at hput
  -- the page is new, so its row can be inserted
  have hpage : ∃ pages, s.conversationPages.insert ⟨r.roomId, .history, some requested⟩ =
      some pages := by
    apply Option.ne_none_iff_exists'.mp
    intro hnone
    obtain ⟨p, hp, k, hk, hk'⟩ := Table.clash_of_insert hnone
    have hkey : (p.roomId, p.purpose, p.cursor) = (r.roomId, PagePurpose.history, some requested) :=
      (List.mem_singleton.mp hk).symm.trans (List.mem_singleton.mp hk')
    have hsame : p = ⟨r.roomId, .history, some requested⟩ := by
      cases p
      simpa using hkey
    exact hunspent (mem_pagesOf.mpr (hsame ▸ hp))
  obtain ⟨pages, hpages⟩ := hpage
  have hadd : Db.addPage { s with messages := T } ⟨r.roomId, .history, some requested⟩ =
      .ok { s with messages := T, conversationPages := pages } := by
    show require (s.conversationPages.insert _) _ >>= _ = _
    rw [hpages, require_some, ok_bind]
    rfl
  dsimp only
  rw [show valid _ = _ from ensure_pos ⟨hcomplete, hcursor⟩ _, ok_bind, answers_ok hscope, ok_bind,
    show valid _ = _ from ensure_pos ⟨hunspent, hnext⟩ _, ok_bind, hput, ok_bind, hadd, ok_bind]
  have hend := conclude_total (s := { s with messages := T, conversationPages := pages }) (c := c)
    (r := { r with historyCursor := page.next }) h.room h.same hcomplete
  have hknown' : known { s with messages := T, conversationPages := pages } c.room = _ := hknown
  rw [hknown'] at hend
  exact hend

/-- A downloaded room can be shown unless it is too large. -/
theorem current_takes {s : Db} {c : ConversationScope} {r : ConversationCheckpoint}
    (h : s.Opened c r) (hcomplete : r.snapshotComplete = true) :
    (∃ d, s.current c = .ok d) ↔ s.Fits c.room ∅ := by
  unfold current Fits
  rw [h.transaction, Finset.union_empty, data_total h.stored]
  exact and_iff_right hcomplete

/-- A room without a snapshot has nothing to restore. -/
theorem restore_takes {s : Db} {c : ConversationScope} {r : ConversationCheckpoint}
    (h : s.Opened c r) :
    (∃ d, s.restore c = .ok d) ↔ (r.snapshotComplete = true → s.Fits c.room ∅) := by
  unfold restore Fits
  rw [h.transaction, Finset.union_empty]
  by_cases hcomplete : r.snapshotComplete = true
  · rw [if_pos hcomplete, imp_iff_right hcomplete]
    have hread := data_total h.stored
    rw [and_iff_right hcomplete] at hread
    rw [← hread]
    constructor
    · rintro ⟨d, hd⟩
      obtain ⟨d', hd', -⟩ := bind_ok.mp hd
      exact ⟨d', hd'⟩
    · rintro ⟨d, hd⟩
      exact ⟨some d, by rw [hd, ok_bind]; rfl⟩
  · rw [if_neg hcomplete]
    exact ⟨fun _ hc => absurd hc hcomplete, fun _ => ⟨none, rfl⟩⟩

/-! ## The cursor of the next history page -/

/-- The next history page of a room was not taken yet. -/
def Unspent (s : Db) : Prop :=
  ∀ r ∈ s.checkpoints, ∀ h ∈ r.historyCursor, some h ∉ s.pagesOf r.roomId .history

/-- No history page was taken and no history cursor came from elsewhere. -/
structure SameHistory (s t : Db) : Prop where
  cursors : ∀ r ∈ t.checkpoints, ∀ h ∈ r.historyCursor,
    ∃ q ∈ s.checkpoints, q.roomId = r.roomId ∧ q.historyCursor = some h
  pages : ∀ room c, c ∈ t.pagesOf room .history → c ∈ s.pagesOf room .history

namespace SameHistory

variable {s t u : Db}

theorem refl (s : Db) : SameHistory s s :=
  ⟨fun r hr _ hh => ⟨r, hr, rfl, hh⟩, fun _ _ h => h⟩

theorem trans (h : SameHistory s t) (h' : SameHistory t u) : SameHistory s u where
  cursors := by
    intro r hr c hc
    obtain ⟨q, hq, hroom, hqc⟩ := h'.cursors r hr c hc
    obtain ⟨p, hp, hproom, hpc⟩ := h.cursors q hq c hqc
    exact ⟨p, hp, hproom.trans hroom, hpc⟩
  pages room c hc := h.pages room c (h'.pages room c hc)

/-- The history cursor stays unspent where the history does not move. -/
theorem unspent (h : SameHistory s t) (hs : s.Unspent) : t.Unspent := by
  intro r hr c hc hpage
  obtain ⟨q, hq, hroom, hqc⟩ := h.cursors r hr c hc
  refine hs q hq c hqc ?_
  rw [hroom]
  exact h.pages r.roomId (some c) hpage

/-- Writes of the other tables. -/
theorem of_eq (hcheckpoints : t.checkpoints = s.checkpoints)
    (hpages : t.conversationPages = s.conversationPages) : SameHistory s t where
  cursors := by
    rw [hcheckpoints]
    exact (refl s).cursors
  pages room c hc := by
    rw [mem_pagesOf] at hc ⊢
    exact hpages ▸ hc

/-- Rows that were removed. -/
theorem of_fewer (hcheckpoints : ∀ r ∈ t.checkpoints, r ∈ s.checkpoints)
    (hpages : ∀ p ∈ t.conversationPages, p ∈ s.conversationPages) : SameHistory s t where
  cursors r hr c hc := ⟨r, hcheckpoints r hr, rfl, hc⟩
  pages room c hc := by
    rw [mem_pagesOf] at hc ⊢
    exact hpages _ hc

/-- A checkpoint that takes its room's place with the same cursor, or without one. -/
theorem setCheckpoint {r : ConversationCheckpoint} (hr : ∀ c ∈ r.historyCursor,
    ∃ q ∈ s.checkpoints, q.roomId = r.roomId ∧ q.historyCursor = some c) :
    SameHistory s (s.setCheckpoint r) where
  cursors := by
    intro x hx c hc
    rcases Table.mem_put.mp hx with ⟨hx, -⟩ | rfl
    · exact ⟨x, hx, rfl, hc⟩
    · exact hr c hc
  pages _ _ h := h

end SameHistory

/-- A message that was put or a deletion that was applied wrote the timeline only. -/
theorem applyEvent_ok {s t : Db} {room : Uuid} {e : MessageEvent}
    (h : s.applyEvent room e = .ok t) : ∃ T, t = { s with messages := T } := by
  cases e with
  | upsert m =>
    simp only [applyEvent, putMessage, bind_ok, valid_ok] at h
    obtain ⟨-, -, h⟩ := h
    split at h <;> rw [pure_ok] at h <;> exact ⟨_, h.symm⟩
  | deleted id version =>
    rw [applyEvent, pure_ok] at h
    subst h
    unfold deleteMessage
    dsimp only
    split
    · exact ⟨s.messages, rfl⟩
    · exact ⟨_, rfl⟩

/-- Events write message rows only. -/
theorem applyEvents_ok {s t : Db} {room : Uuid} {events : List MessageEvent}
    (h : events.foldlM (fun s e => s.applyEvent room e) s = .ok t) :
    ∃ T, t = { s with messages := T } := by
  refine foldlM_rel (R := fun s t => ∃ T, t = { s with messages := T }) (fun s => ⟨s.messages, rfl⟩)
    ?_ (fun _ _ _ _ he => applyEvent_ok he) h
  rintro s t u ⟨T, rfl⟩ ⟨T', rfl⟩
  exact ⟨T', rfl⟩

/-- Publishing profiles leaves the history where it is. -/
theorem publishProfiles_history {s t : Db} {complete : Bool} {room : Uuid}
    (h : s.publishProfiles complete room = .ok t) :
    SameHistory s t ∧ t.checkpoints = s.checkpoints := by
  cases complete with
  | true =>
    simp only [publishProfiles, if_true, bind_ok, require_ok, pure_ok] at h
    obtain ⟨profiles, -, rfl⟩ := h
    exact ⟨.of_eq rfl rfl, rfl⟩
  | false =>
    simp only [publishProfiles, Bool.false_eq_true, if_false, pure_ok] at h
    exact h ▸ ⟨.refl s, rfl⟩

theorem actionOperation_history {s t : Db} {c : ConversationScope} {o : ActionOperation}
    (h : s.actionOperation c o = .ok t) : SameHistory s t := by
  cases o with
  | put record =>
    simp only [actionOperation, putAction, bind_ok, valid_ok] at h
    obtain ⟨-, -, -, -, h⟩ := h
    split at h <;> rw [pure_ok] at h <;> subst h <;> exact .of_eq rfl rfl
  | saveAnchor messageId offset =>
    rw [actionOperation, pure_ok] at h
    exact h ▸ .of_eq rfl rfl
  | clearAnchor =>
    rw [actionOperation, pure_ok] at h
    exact h ▸ .of_eq rfl rfl

/-- A new listing of profiles leaves the history as it is. -/
theorem beginProfiles_history {s t : Db} {c : ConversationScope}
    (h : s.beginProfiles c = .ok t) : SameHistory s t := by
  obtain ⟨r, hrow, hroom, -, h⟩ := conversationTransaction_ok h
  rw [pure_ok] at h
  subst h
  have hr := (conversationCheckpoint_eq_some.mp hrow).1
  have hcleared : SameHistory s { s with
      profileStaging := s.profileStaging.delete fun x => x.roomId = r.roomId
      conversationPages := s.conversationPages.delete fun x =>
        x.roomId = r.roomId ∧ x.purpose = PagePurpose.profiles } :=
    .of_fewer (fun _ hx => hx) fun _ hp => (Table.mem_delete.mp hp).1
  refine hcleared.trans (.setCheckpoint ?_)
  exact fun x hx => ⟨r, hr, rfl, hx⟩

theorem events_history {s t : Db} {c : ConversationScope} {requested : Token} {page : EventPage}
    {data : ConversationData} (h : s.events c requested page = .ok (t, data)) : SameHistory s t := by
  obtain ⟨r, hrow, -, -, h⟩ := conversationTransaction_ok h
  simp only [bind_ok] at h
  obtain ⟨-, -, -, -, -, -, u, hu, h⟩ := h
  have hr := (conversationCheckpoint_eq_some.mp hrow).1
  obtain ⟨T, rfl⟩ := applyEvents_ok hu
  rw [withData_ok h]
  -- only the cursor of the events moves
  have hset : SameHistory s (s.setCheckpoint { r with eventsCursor := some page.next }) :=
    .setCheckpoint fun x hx => ⟨r, hr, rfl, hx⟩
  exact ⟨hset.cursors, hset.pages⟩

theorem profilePage_history {s t : Db} {c : ConversationScope} {requested : Option Token}
    {page : ProfilePage} {data : ConversationData}
    (h : s.profilePage c requested page = .ok (t, data)) : SameHistory s t := by
  obtain ⟨r, hrow, hroom, -, h⟩ := conversationTransaction_ok h
  simp only [bind_ok, require_ok] at h
  obtain ⟨-, -, -, -, -, -, -, -, -, -, -, -, staged, -, u, hu, v, hv, h⟩ := h
  have hr := (conversationCheckpoint_eq_some.mp hrow).1
  obtain ⟨pages, hpages, rfl⟩ : ∃ pages, s.conversationPages.insert
      ⟨r.roomId, .profiles, requested⟩ = some pages ∧
        u = { s with profileStaging := staged, conversationPages := pages } := by
    simp only [addPage, bind_ok, require_ok, pure_ok] at hu
    obtain ⟨pages, hpages, rfl⟩ := hu
    exact ⟨pages, hpages, rfl⟩
  -- the page is one of profiles, not of the history
  have hadded : SameHistory s { s with profileStaging := staged, conversationPages := pages } := by
    refine ⟨(SameHistory.refl s).cursors, ?_⟩
    intro room x hx
    rw [mem_pagesOf] at hx ⊢
    rcases (Table.mem_insert hpages).mp hx with hx | hx
    · exact hx
    · cases hx
  have hpublished := publishProfiles_history hv
  have hkept := hadded.trans hpublished.1
  rw [withData_ok h]
  refine hkept.trans (.setCheckpoint ?_)
  intro x hx
  rw [hpublished.2]
  exact ⟨r, hr, rfl, hx⟩

theorem receipt_history {s t : Db} {c : ConversationScope} {id : Uuid} {answer : CommandReceipt}
    {data : ConversationData} (h : s.receipt c id answer = .ok (t, data)) : SameHistory s t := by
  obtain ⟨r, -, -, -, h⟩ := conversationTransaction_ok h
  simp only [bind_ok] at h
  obtain ⟨-, -, h⟩ := h
  split at h
  · exact withData_ok h ▸ .of_eq rfl rfl
  · simp only [bind_ok] at h
    obtain ⟨-, -, -, -, h⟩ := h
    rw [withData_ok h]
    unfold acceptReceipt
    split
    · exact .of_eq rfl rfl
    · split
      · exact .of_eq rfl rfl
      · unfold deleteCommand
        dsimp only
        split <;> exact .of_eq rfl rfl

/-- The commands that neither give the room a history cursor nor take a history page. -/
theorem exec_history {s t : Db} {c : ConversationScope} {command : ConversationCommand}
    (hsnapshot : ∀ page, command ≠ .snapshot page)
    (hhistory : ∀ requested page, command ≠ .history requested page)
    (h : command.exec c s = .ok t) : SameHistory s t := by
  cases command with
  | snapshot page => exact absurd rfl (hsnapshot page)
  | history requested page => exact absurd rfl (hhistory requested page)
  | restore =>
    cases hx : s.restore c <;> simp only [ConversationCommand.exec, hx, Except.map] at h
    · cases h
    · exact Except.ok.inj h ▸ .refl s
  | current =>
    cases hx : s.current c <;> simp only [ConversationCommand.exec, hx, Except.map] at h
    · cases h
    · exact Except.ok.inj h ▸ .refl s
  | beginProfiles => exact beginProfiles_history h
  | events requested page =>
    obtain ⟨data, h⟩ := map_fst_ok h
    exact events_history h
  | profiles requested page =>
    obtain ⟨data, h⟩ := map_fst_ok h
    exact profilePage_history h
  | projection message =>
    obtain ⟨data, h⟩ := map_fst_ok h
    obtain ⟨r, hrow, -, -, h⟩ := conversationTransaction_ok h
    simp only [bind_ok] at h
    obtain ⟨-, -, u, hu, h⟩ := h
    obtain ⟨T, rfl⟩ := applyEvent_ok (e := .upsert message) hu
    exact withData_ok h ▸ .of_eq rfl rfl
  | actions operations =>
    obtain ⟨r, -, -, -, h⟩ := conversationTransaction_ok h
    exact foldlM_rel (R := SameHistory) .refl (fun _ _ _ => .trans)
      (fun _ _ _ _ ho => actionOperation_history ho) h
  | saveMedia value =>
    obtain ⟨r, -, -, -, h⟩ := conversationTransaction_ok h
    simp only [bind_ok, require_ok, pure_ok] at h
    obtain ⟨-, -, -, -, media, -, rfl⟩ := h
    exact .of_eq rfl rfl
  | removeMedia asset =>
    obtain ⟨r, -, -, -, h⟩ := conversationTransaction_ok h
    rw [pure_ok] at h
    exact h ▸ .of_eq rfl rfl
  | enqueue command createdAtMs =>
    obtain ⟨r, -, -, -, h⟩ := conversationTransaction_ok h
    simp only [bind_ok, require_ok, pure_ok] at h
    obtain ⟨-, -, -, -, outbox, -, rfl⟩ := h
    exact .of_eq rfl rfl
  | markSending id =>
    obtain ⟨r, -, -, -, h⟩ := conversationTransaction_ok h
    simp only [bind_ok, require_ok, pure_ok] at h
    obtain ⟨row, -, -, -, rfl⟩ := h
    exact .of_eq rfl rfl
  | markUnknown id errorCode =>
    obtain ⟨r, -, -, -, h⟩ := conversationTransaction_ok h
    simp only [bind_ok, require_ok] at h
    obtain ⟨row, -, h⟩ := h
    split at h <;> rw [pure_ok] at h <;> subst h <;> exact .of_eq rfl rfl
  | receipt id answer =>
    obtain ⟨data, h⟩ := map_fst_ok h
    exact receipt_history h
  | unavailableProjection id messageId code =>
    obtain ⟨data, h⟩ := map_fst_ok h
    obtain ⟨r, -, -, -, h⟩ := conversationTransaction_ok h
    dsimp only at h
    split at h
    · split at h <;> exact withData_ok h ▸ .of_eq rfl rfl
    · exact withData_ok h ▸ .of_eq rfl rfl

/-- A snapshot brings a cursor whose page was not taken. -/
theorem snapshot_unspent {s t : Db} {c : ConversationScope} {page : SnapshotPage}
    {data : ConversationData} (hs : s.Unspent)
    (hfresh : ∀ n ∈ page.history, some n ∉ s.pagesOf c.room .history)
    (h : s.snapshot c page = .ok (t, data)) : t.Unspent := by
  obtain ⟨r, hrow, hroom, -, h⟩ := conversationTransaction_ok h
  simp only [bind_ok] at h
  obtain ⟨-, -, -, -, u, hu, h⟩ := h
  rw [putMessages_eq] at hu
  obtain ⟨T, rfl⟩ := applyEvents_ok hu
  rw [withData_ok h]
  intro x hx n hn
  rcases Table.mem_put.mp hx with ⟨hx, -⟩ | rfl
  · exact hs x hx n hn
  · rw [← hroom] at hfresh
    exact hfresh n hn

/-- A history page that is taken brings a cursor whose page was not. -/
theorem history_unspent {s t : Db} {c : ConversationScope} {requested : Token}
    {page : HistoryPage} {data : ConversationData} (hs : s.Unspent)
    (h : s.history c requested page = .ok (t, data)) : t.Unspent := by
  obtain ⟨r, hrow, -, -, h⟩ := conversationTransaction_ok h
  simp only [bind_ok, valid_ok] at h
  obtain ⟨-, -, -, -, -, ⟨-, hnext⟩, u, hu, v, hv, h⟩ := h
  rw [putMessages_eq] at hu
  obtain ⟨T, rfl⟩ := applyEvents_ok hu
  simp only [addPage, bind_ok, require_ok, pure_ok] at hv
  obtain ⟨pages, hpages, rfl⟩ := hv
  rw [withData_ok h]
  -- The only page that was added is the one asked for.
  have hadded : ∀ room n, some n ∈ Db.pagesOf { s with conversationPages := pages } room .history →
      some n ∈ s.pagesOf room .history ∨ room = r.roomId ∧ n = requested := by
    intro room n hn
    rw [mem_pagesOf] at hn ⊢
    rcases (Table.mem_insert hpages).mp hn with hn | hn
    · exact .inl hn
    · cases hn
      exact .inr ⟨rfl, rfl⟩
  intro x hx n hn hpage
  rcases hadded x.roomId n hpage with hold | ⟨hroom, rfl⟩
  · rcases Table.mem_put.mp hx with ⟨hx, -⟩ | rfl
    · exact hs x hx n hn hold
    · exact (hnext n hn).2 hold
  · rcases Table.mem_put.mp hx with ⟨-, hclash⟩ | rfl
    · refine hclash ⟨x.roomId, by simp [Row.keys], ?_⟩
      simp [Row.keys, hroom]
    · exact (hnext n hn).1 rfl

/-- A new conversation has asked for no page of its history. -/
theorem newConversation_history (s : Db) (membership : Membership) (cacheId : Uuid) :
    SameHistory s (s.newConversation membership cacheId) := by
  have hcleared : SameHistory s (s.clearRoom membership.roomId) :=
    .of_fewer (fun _ hx => hx) fun _ hp => (Table.mem_delete.mp hp).1
  exact hcleared.trans (.setCheckpoint (by simp))

theorem openConversation_history (s : Db) (membership : Membership) (cacheId : Uuid) :
    SameHistory s (s.openConversation membership cacheId).1 := by
  unfold openConversation
  split
  · exact .refl s
  · exact newConversation_history s membership cacheId

theorem withdraw_history (s : Db) : SameHistory s s.withdraw where
  cursors := by
    intro r hr n hn
    obtain ⟨q, hq, rfl⟩ := (Table.mem_update (k := by exact ⟨fun _ => rfl⟩)).mp hr
    rw [if_pos trivial] at hn
    exact ⟨q, hq, rfl, hn⟩
  pages _ _ h := h

/-- A manifest page leaves the history of the rooms it keeps. -/
theorem manifest_history {s t : Db} {identity : RoomSyncIdentity} {requested : Option Token}
    {page : MembershipPage} {cacheId : Uuid}
    (h : s.manifest identity requested page cacheId = .ok t) : SameHistory s t := by
  obtain ⟨m, -, -, ⟨-, rfl⟩ | ⟨p, u, -, hstage, rfl⟩⟩ := manifest_ok h
  · exact .of_eq rfl rfl
  · obtain ⟨-, -, staged, pages, -, -, rfl⟩ := stagePage_ok hstage
    cases p.complete with
    | false => exact .of_eq rfl rfl
    | true =>
      have htrims := installManifest_trims { s with staged := staged, pages := pages }
      exact .of_fewer htrims.checkpoints htrims.conversationPages

end Db

/-! ## Every state of the store -/

/-- A server never gives out a history cursor twice. -/
def StoreCommand.Issued (s : Store) : StoreCommand → Prop
  | .conversation c (.snapshot page) =>
    ∀ n ∈ page.history, some n ∉ s.content.pagesOf c.room .history
  | _ => True

/-- The store from no file at all, with pages of such a server. -/
def cache : System Store StoreCommand where
  init s := s = {}
  step c s t := c.Issued s ∧ c.exec s = .ok t

theorem unspent_empty : Unspent {} := fun r hr => absurd hr (Table.not_mem_empty r)

theorem Kept.unspent {s t : Store} (h : Kept s t) (hs : s.content.Unspent) :
    t.content.Unspent := by
  rcases h with h | h <;> rw [h]
  · exact hs
  · exact unspent_empty

/-- No command leaves a history cursor that was asked for already. -/
theorem exec_unspent {s t : Store} {c : StoreCommand} (hs : s.content.Unspent)
    (hissued : c.Issued s) (h : c.exec s = .ok t) : t.content.Unspent := by
  cases c with
  | crash =>
    obtain rfl := Except.ok.inj h
    exact hs
  | clear =>
    obtain rfl := Except.ok.inj h
    exact unspent_empty
  | eraseStopped deleted =>
    obtain rfl := Except.ok.inj h
    exact (Kept.eraseStopped s deleted).unspent hs
  | withdrawAuthority =>
    obtain rfl := Except.ok.inj h
    unfold Store.withdrawAuthority
    dsimp only
    split
    · cases hfile : s.file with
      | none => simpa [Store.crash, Store.content, Store.setContent, hfile] using unspent_empty
      | some f =>
        have hw := (withdraw_history s.content).unspent hs
        simpa [Store.crash, Store.content, Store.setContent, hfile] using hw
    · exact hs
  | begin_ scope cacheId =>
    simp only [StoreCommand.exec, bind_ok] at h
    obtain ⟨u, hu, h⟩ := h
    have hdb := withTransaction_ok h
    have ht := (pure_ok.mp hdb).symm
    rw [ht]
    exact (Kept.openDirectory hu).unspent hs
  | beginRefused scope => exact (Kept.openDirectory h).unspent hs
  | authorize scope owner =>
    simp only [StoreCommand.exec, bind_ok] at h
    obtain ⟨u, hu, h⟩ := h
    have hdb := withTransaction_ok h
    have ht := (pure_ok.mp hdb).symm
    have hkept := ((Kept.openOwner s scope).trans (Kept.rebind hu)).unspent hs
    rw [ht]
    exact (withdraw_history { u.content with owner := some owner }).unspent hkept
  | authorizeStopped scope =>
    obtain rfl := Except.ok.inj h
    exact (Kept.openOwner s scope).unspent hs
  | authorizeRefused scope owner =>
    exact ((Kept.openOwner s scope).trans (Kept.rebind h)).unspent hs
  | manifest scope identity requested page cacheId =>
    exact (manifest_history (withTransaction_ok h)).unspent hs
  | discovery scope identity after page =>
    have hdb := withTransaction_ok h
    simp only [discoveryPage, bind_ok, require_ok, valid_ok, pure_ok] at hdb
    obtain ⟨m, -, -, -, -, -, -, -, -, -, -, -, pages, -, ht⟩ := hdb
    exact ht ▸ hs
  | beginConversation selection cacheId =>
    obtain ⟨d, hdb⟩ := map_fst_ok (withTransaction_ok h)
    have ht := beginConversation_ok hdb
    rw [show t.content = _ from ht]
    exact (openConversation_history s.content selection.membership cacheId).unspent hs
  | restartConversation selection cacheId =>
    have hdb : pure (s.content.restartConversation selection cacheId).1 = Except.ok t.content :=
      withTransaction_ok h
    rw [pure_ok] at hdb
    exact hdb ▸ (newConversation_history _ _ _).unspent hs
  | conversation scope command =>
    have hdb := withTransaction_ok h
    -- the two commands that move the history cursor, and all others
    by_cases hsnapshot : ∃ page, command = .snapshot page
    · obtain ⟨page, rfl⟩ := hsnapshot
      obtain ⟨data, hdb⟩ := map_fst_ok hdb
      exact snapshot_unspent hs hissued hdb
    · by_cases hhistory : ∃ requested page, command = .history requested page
      · obtain ⟨requested, page, rfl⟩ := hhistory
        obtain ⟨data, hdb⟩ := map_fst_ok hdb
        exact history_unspent hs hdb
      · have hsame := exec_history (fun page hp => hsnapshot ⟨page, hp⟩)
          (fun requested page hp => hhistory ⟨requested, page, hp⟩) hdb
        exact hsame.unspent hs

/-- In every run the history cursor is one that was not asked for yet. -/
theorem reachable_unspent {s : Store} (h : cache.Reachable s) : s.content.Unspent := by
  refine h.induct (P := fun s => s.content.Unspent) ⟨?_, ?_⟩
  · rintro s rfl
    exact unspent_empty
  · rintro s t c - ih ⟨hissued, hexec⟩
    exact exec_unspent ih hissued hexec

/-! ## What the pages of a room do -/

/-- The room is open in the store, under the scope. -/
structure Store.Opened (s : Store) (c : ConversationScope) (r : ConversationCheckpoint) :
    Prop where
  active : s.active = some c.selection.account
  running : s.cleanup = false ∧ s.database = true
  room : s.content.Opened c r

/-- The command commits a state that satisfies `P`. -/
def Store.Commits (s : Store) (c : ConversationScope) (command : ConversationCommand)
    (P : Db → Prop) : Prop :=
  ∃ t, (StoreCommand.conversation c command).exec s = .ok t ∧ P t.content

/-- Every page that answers the room's stored state, with its scope and revision and with
unchanged creation times, is taken exactly when `requirement` holds of the messages it names,
and so is the conversation read back when it holds of none. -/
structure Store.Takes (s : Store) (c : ConversationScope) (r : ConversationCheckpoint)
    (requirement : Finset Uuid → Prop) : Prop where
  snapshot : r.snapshotComplete = false → ∀ page : SnapshotPage,
    page.membership = r.membership ∧ page.authorization = r.authorization →
    s.content.Unchanged c.room (page.messages.map .upsert) →
    (s.Commits c (.snapshot page) (Advanced c (some page.next) page.history) ↔
      requirement (eventIds (page.messages.map .upsert)))
  events : r.snapshotComplete = true → ∀ requested, r.eventsCursor = some requested →
    ∀ page : EventPage,
    page.membership = r.membership ∧ page.authorization = r.authorization →
    (page.hasMore = false ∨ page.next ≠ requested) → s.content.Unchanged c.room page.events →
    (s.Commits c (.events requested page) (Advanced c (some page.next) r.historyCursor) ↔
      requirement (eventIds page.events))
  history : r.snapshotComplete = true → ∀ requested, r.historyCursor = some requested →
    ∀ page : HistoryPage,
    page.membership = r.membership ∧ page.authorization = r.authorization →
    (∀ n ∈ page.next, n ≠ requested ∧ some n ∉ s.content.pagesOf c.room .history) →
    s.content.Unchanged c.room (page.messages.map .upsert) →
    (s.Commits c (.history requested page) (Advanced c r.eventsCursor page.next) ↔
      requirement (eventIds (page.messages.map .upsert)))
  restore : s.Commits c .restore (fun _ => True) ↔
    (r.snapshotComplete = true → requirement ∅)
  current : r.snapshotComplete = true →
    (s.Commits c .current (fun _ => True) ↔ requirement ∅)

/-- A commit is a transaction on the opened store's database. -/
theorem Store.Opened.commits {s : Store} {c : ConversationScope} {r : ConversationCheckpoint}
    (h : s.Opened c r) {command : ConversationCommand} {P : Db → Prop} :
    s.Commits c command P ↔ ∃ db, command.exec c s.content = .ok db ∧ P db := by
  -- A file is there, for the room has a checkpoint in it.
  obtain ⟨file, hfile⟩ : ∃ f, s.file = some f := by
    apply Option.ne_none_iff_exists'.mp
    intro hnone
    have hstored := h.room.stored
    simp [Store.content, hnone, conversationCheckpoint, Table.find?, Table.empty] at hstored
  have hcontent : s.content = file.2 := by simp [Store.content, hfile]
  have hset : ∀ db, (s.setContent db).content = db := by
    intro db
    simp [Store.content, Store.setContent, hfile]
  have hdb : s.db c.selection.account = .ok s.content := by
    rw [Store.db, ensure_pos ⟨h.active, h.running⟩, ok_bind, hfile, require_some, ok_bind, hcontent]
    rfl
  unfold Store.Commits StoreCommand.exec Store.withTransaction
  simp only [hdb, ok_bind, bind_ok, pure_ok]
  constructor
  · rintro ⟨t, ⟨db, hexec, rfl⟩, hP⟩
    exact ⟨db, hexec, hset db ▸ hP⟩
  · rintro ⟨db, hexec, hP⟩
    exact ⟨_, ⟨db, hexec, rfl⟩, (hset db).symm ▸ hP⟩

theorem map_fst_exists {α β : Type} {x : Transaction (α × β)} {P : α → Prop} :
    (∃ a, x.map (·.1) = .ok a ∧ P a) ↔ ∃ a b, x = .ok (a, b) ∧ P a := by
  constructor
  · rintro ⟨a, ha, hP⟩
    obtain ⟨b, hb⟩ := map_fst_ok ha
    exact ⟨a, b, hb, hP⟩
  · rintro ⟨a, b, rfl, hP⟩
    exact ⟨a, rfl, hP⟩

theorem map_const_exists {α β : Type} {x : Transaction β} {a : α} :
    (∃ a', x.map (fun _ => a) = .ok a' ∧ True) ↔ ∃ b, x = .ok b := by
  cases x with
  | error e => simp [Except.map]
  | ok b => simp [Except.map]

/-- A conversation command leaves the store open as it was. -/
theorem conversation_running {s t : Store} {c : ConversationScope} {command : ConversationCommand}
    (h : (StoreCommand.conversation c command).exec s = .ok t) :
    t.active = s.active ∧ t.cleanup = s.cleanup ∧ t.database = s.database := by
  simp only [StoreCommand.exec, Store.withTransaction, bind_ok, pure_ok] at h
  obtain ⟨-, -, -, -, rfl⟩ := h
  exact ⟨rfl, rfl, rfl⟩

/-- What the room knows after an events page. -/
theorem events_after {s t : Db} {c : ConversationScope} {requested : Token} {page : EventPage}
    {d : ConversationData} {born : Uuid → Time} (hdated : s.Dated c.room born)
    (hborn : ∀ m, .upsert m ∈ page.events → m.createdAt = born m.id)
    (h : s.events c requested page = .ok (t, d)) :
    t.Dated c.room born ∧ t.known c.room = s.known c.room ∪ eventIds page.events := by
  obtain ⟨r, -, hroom, -, h⟩ := conversationTransaction_ok h
  simp only [bind_ok] at h
  obtain ⟨-, -, -, -, -, -, u, hu, h⟩ := h
  obtain ⟨T, hput, hafter⟩ := applyEvents_total hdated hborn
  rw [hroom] at hu
  obtain rfl := Except.ok.inj (hput.symm.trans hu)
  exact withData_ok h ▸ hafter

/-- **What the Android timeline takes.** In every reachable state a page that answers the
room's stored state is taken, and the conversation read back, exactly when the messages named
fit among those the room has rows of. -/
theorem timeline_takes {s : Store} (hs : cache.Reachable s) {c : ConversationScope}
    {r : ConversationCheckpoint} (h : s.Opened c r) : s.Takes c r (s.content.Fits c.room) where
  snapshot := by
    intro hpart page hscope htimes
    rw [h.commits, ← snapshot_takes h.room hpart hscope htimes]
    exact map_fst_exists
  events := by
    intro hcomplete requested hcursor page hscope hmore htimes
    rw [h.commits, ← events_takes h.room hcomplete hcursor hscope hmore htimes]
    exact map_fst_exists
  history := by
    intro hcomplete requested hcursor page hscope hnext htimes
    have hunspent : some requested ∉ s.content.pagesOf c.room .history := by
      obtain ⟨hr, hroom⟩ := conversationCheckpoint_eq_some.mp h.room.stored
      rw [← hroom]
      exact reachable_unspent hs r hr requested hcursor
    rw [h.commits, ← history_takes h.room hcomplete hcursor hunspent hscope hnext htimes]
    exact map_fst_exists
  restore := by
    rw [h.commits, ← restore_takes h.room]
    exact map_const_exists
  current := by
    intro hcomplete
    rw [h.commits, ← current_takes h.room hcomplete]
    exact map_const_exists

/-! ## A room that is full -/

def account : RoomsAccountScope := ⟨1, 1, 5⟩

/-- A group room. -/
def lobby : Membership := ⟨1, 0, .group, 2, .member, 3, 4⟩

/-- The lobby as it is opened. -/
def lobbyScope : ConversationScope := ⟨⟨account, lobby, 20⟩, 30⟩

/-- The whole directory in one page. -/
def lobbyPage : ManifestPage where
  rooms := [lobby]
  generation := 9
  complete := true
  next := none
  ends := by decide
  advances := by decide

/-- The room is opened for the first time and its empty snapshot is taken. -/
def opening : List StoreCommand :=
  [.begin_ account 20, .manifest account ⟨0, 20⟩ none (.success lobbyPage) 21,
    .beginConversation lobbyScope.selection 30,
    .conversation lobbyScope (.snapshot ⟨3, 4, [], 0, none⟩)]

def text (id : Uuid) : ConversationMessage where
  id := id
  version := ⟨1, one_fits⟩
  createdAt := 0
  audience := .shared
  author := .anonymous
  content := .text none

/-- A page with one message the room has not seen. -/
def newMessage (id : Uuid) : EventPage := ⟨3, 4, [.upsert (text id)], false, 0⟩

/-- The room is open with rows of the first `n` messages. -/
structure Filled (s : Store) (r : ConversationCheckpoint) (n : Nat) : Prop where
  reachable : cache.Reachable s
  opened : s.Opened lobbyScope r
  complete : r.snapshotComplete = true
  cursor : r.eventsCursor = some 0
  dated : s.content.Dated 1 fun _ => 0
  known : s.content.known 1 = Finset.range n

theorem newMessage_born (id : Uuid) :
    ∀ m, .upsert m ∈ (newMessage id).events → m.createdAt = 0 := by
  intro m hm
  cases List.mem_singleton.mp hm
  rfl

theorem eventIds_newMessage (id : Uuid) : eventIds (newMessage id).events = {id} := rfl

namespace Filled

variable {s : Store} {r : ConversationCheckpoint} {n : Nat}

theorem scope (h : Filled s r n) (id : Uuid) : (newMessage id).membership = r.membership ∧
    (newMessage id).authorization = r.authorization := by
  rw [h.opened.room.same.2.1, h.opened.room.same.2.2]
  exact ⟨rfl, rfl⟩

/-- A message that is new to the room meets no stored time. -/
theorem times (h : Filled s r n) (id : Uuid) :
    s.content.Unchanged lobbyScope.room (newMessage id).events :=
  ⟨fun _ => 0, h.dated, newMessage_born id⟩

/-- The next message would be one row more. -/
theorem fits_iff (h : Filled s r n) :
    s.content.Fits lobbyScope.room (eventIds (newMessage n).events) ↔ n < 10000 := by
  have hunion : (Finset.range n ∪ {n}).card = n + 1 := by
    rw [Finset.union_comm, ← Finset.insert_eq, ← Finset.range_add_one, Finset.card_range]
  rw [Fits, eventIds_newMessage, show s.content.known lobbyScope.room = _ from h.known, hunion]
  exact Nat.succ_le_iff

end Filled

/-- A room that was just downloaded has no message. -/
theorem filled_zero : ∃ s r, Filled s r 0 := by
  obtain ⟨s, hs⟩ : ∃ s, (opening[0]).exec {} = .ok s := ⟨_, rfl⟩
  obtain ⟨t, ht⟩ : ∃ t, (opening[1]).exec s = .ok t := by
    cases hs
    exact ⟨_, rfl⟩
  obtain ⟨u, hu⟩ : ∃ u, (opening[2]).exec t = .ok u := by
    cases hs
    cases ht
    exact ⟨_, rfl⟩
  obtain ⟨v, hv⟩ : ∃ v, (opening[3]).exec u = .ok v := by
    cases hs
    cases ht
    cases hu
    exact ⟨_, rfl⟩
  have hreach : cache.Reachable v := by
    refine .step (.step (.step (.step (.init rfl) ⟨?_, hs⟩) ⟨?_, ht⟩) ⟨?_, hu⟩) ⟨?_, hv⟩
    · exact trivial
    · exact trivial
    · exact trivial
    · exact fun _ h => (by cases h)
  cases hs
  cases ht
  cases hu
  cases hv
  refine ⟨_, _, hreach, ⟨rfl, ⟨rfl, rfl⟩, ⟨rfl, rfl, rfl, rfl⟩⟩, rfl, rfl, ?_, rfl⟩
  intro x hx
  exact absurd hx (Table.not_mem_empty x)

/-- One more event adds one more message, up to ten thousand. -/
theorem filled_succ {s : Store} {r : ConversationCheckpoint} {n : Nat} (h : Filled s r n)
    (hn : n < 10000) : ∃ t q, Filled t q (n + 1) := by
  have hcommits : s.Commits lobbyScope (.events 0 (newMessage n))
      (Advanced lobbyScope (some 0) r.historyCursor) := by
    have htakes := events_takes h.opened.room h.complete h.cursor (h.scope n) (.inl rfl) (h.times n)
    rw [h.opened.commits]
    exact map_fst_exists.mpr (htakes.mpr (h.fits_iff.mpr hn))
  obtain ⟨t, hexec, q, hopened, hcomplete, hcursor, -⟩ := hcommits
  obtain ⟨hactive, hcleanup, hdatabase⟩ := conversation_running hexec
  obtain ⟨d, hevents⟩ := map_fst_ok (withTransaction_ok hexec)
  obtain ⟨hdated, hknown⟩ := events_after h.dated (newMessage_born n) hevents
  have hissued : (StoreCommand.conversation lobbyScope (.events 0 (newMessage n))).Issued s := trivial
  refine ⟨t, q, h.reachable.step ⟨hissued, hexec⟩, ⟨?_, ?_, hopened⟩, hcomplete, hcursor, hdated, ?_⟩
  · rw [hactive, h.opened.active]
  · rw [hcleanup, hdatabase]
    exact h.opened.running
  · rw [show t.content.known 1 = _ from hknown, eventIds_newMessage,
      show s.content.known lobbyScope.room = _ from h.known, Finset.range_add_one,
      Finset.insert_eq, Finset.union_comm]

/-- A room may hold any number of messages up to ten thousand. -/
theorem filled (n : Nat) (hn : n ≤ 10000) : ∃ s r, Filled s r n := by
  induction n with
  | zero => exact filled_zero
  | succ n ih =>
    obtain ⟨s, r, h⟩ := ih (Nat.le_of_succ_le hn)
    exact filled_succ h hn

/-- A room with ten thousand rows takes no new message any more: the page fails, the state is
the old one, and the page that follows fails as well. -/
theorem timeline_wedged : ∃ s r, cache.Reachable s ∧ s.Opened lobbyScope r ∧
    ¬s.Takes lobbyScope r fun _ => True := by
  obtain ⟨s, r, h⟩ := filled 10000 le_rfl
  refine ⟨s, r, h.reachable, h.opened, ?_⟩
  intro htakes
  have hcommits := (htakes.events h.complete 0 h.cursor (newMessage 10000) (h.scope _) (.inl rfl)
    (h.times _)).mpr trivial
  rw [h.opened.commits] at hcommits
  have hfits := (events_takes h.opened.room h.complete h.cursor (h.scope _) (.inl rfl)
    (h.times _)).mp (map_fst_exists.mp hcommits)
  exact absurd (h.fits_iff.mp hfits) (Nat.lt_irrefl _)

/-- A room with a row to spare takes the next message. -/
theorem timeline_takes_filled : ∃ s r, cache.Reachable s ∧ s.Opened lobbyScope r ∧
    s.Commits lobbyScope (.events 0 (newMessage 9999))
      (Advanced lobbyScope (some 0) r.historyCursor) := by
  obtain ⟨s, r, h⟩ := filled 9999 (by decide)
  have htakes := timeline_takes h.reachable h.opened
  have hfits := h.fits_iff.mpr (by decide : 9999 < 10000)
  refine ⟨s, r, h.reachable, h.opened, ?_⟩
  exact (htakes.events h.complete 0 h.cursor _ (h.scope _) (.inl rfl) (h.times _)).mpr hfits

end Rogichat.Android
