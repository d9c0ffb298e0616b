import Rogichat.Ios.Rooms
import Rogichat.Ios.Timeline

/-!
# What the iOS directory and the rows of its rooms are

The memberships are what one complete manifest run listed, and a room's private rows are kept
only under the scope and revision its conversation was opened with.

Two things are watched along a run beside the store: the pages accepted since the manifest
began and those of the manifest that was installed, and, for each room that has private rows,
the scopes of the operations that ran on it since it had none (`Watched`).
-/

namespace Rogichat.Ios

open Lib Ios.Db

/-! ## What a conversation command leaves alone -/

namespace Db

/-- The scope and revision the room's cache was opened under. -/
def authority (s : Db) (room : Uuid) : Option (Token × Token) :=
  (s.conversationRow room).map fun r => (r.membership, r.authority)

/-- The room has timeline, profile or cursor rows. -/
def HasPrivate (s : Db) (room : Uuid) : Prop :=
  (s.timeline.Has fun r => r.room = room) ∨ (s.conversationProfiles.Has fun r => r.room = room) ∨
    (s.profileStaging.Has fun r => r.room = room) ∨
    s.conversationCursors.Has fun r => r.room = room

instance (s : Db) : DecidablePred s.HasPrivate := fun room =>
  inferInstanceAs (Decidable ((s.timeline.Has fun r => r.room = room) ∨
    (s.conversationProfiles.Has fun r => r.room = room) ∨
    (s.profileStaging.Has fun r => r.room = room) ∨
    s.conversationCursors.Has fun r => r.room = room))

/-- Beside the timeline, from `s` to `t` only the room's part and the commands changed, and no
conversation was opened. -/
structure Beside (room : Uuid) (s t : Db) : Prop where
  metadata : t.metadata = s.metadata
  memberships : t.memberships = s.memberships
  manifest : t.manifest = s.manifest
  staging : t.staging = s.staging
  visitedCursors : t.visitedCursors = s.visitedCursors
  authority : ∀ r, t.authority r = s.authority r
  profiles : Table.Confined ProfileRow.room room s.conversationProfiles t.conversationProfiles
  profileStaging : Table.Confined ProfileRow.room room s.profileStaging t.profileStaging
  cursors : Table.Confined ConversationCursorRow.room room s.conversationCursors
    t.conversationCursors

namespace Beside

variable {room : Uuid} {s t u : Db}

theorem refl (s : Db) : Beside room s s :=
  ⟨rfl, rfl, rfl, rfl, rfl, fun _ => rfl, .refl _, .refl _, .refl _⟩

theorem trans (h : Beside room s t) (h' : Beside room t u) : Beside room s u where
  metadata := h'.metadata.trans h.metadata
  memberships := h'.memberships.trans h.memberships
  manifest := h'.manifest.trans h.manifest
  staging := h'.staging.trans h.staging
  visitedCursors := h'.visitedCursors.trans h.visitedCursors
  authority r := (h'.authority r).trans (h.authority r)
  profiles := h.profiles.trans h'.profiles
  profileStaging := h.profileStaging.trans h'.profileStaging
  cursors := h.cursors.trans h'.cursors

/-- Writes of the timeline and the commands. -/
theorem tables (T : Table TimelineRow) (C : Table TextCommandRow) :
    Beside room s { s with timeline := T, textCommands := C } :=
  ⟨rfl, rfl, rfl, rfl, rfl, fun _ => rfl, .refl _, .refl _, .refl _⟩

theorem setConversation {f : ConversationRow → ConversationRow} {k : Table.Keeps f}
    (hf : ∀ r, (f r).membership = r.membership ∧ (f r).authority = r.authority) (at_ : Uuid) :
    Beside room s (s.setConversation at_ f k) where
  metadata := rfl
  memberships := rfl
  manifest := rfl
  staging := rfl
  visitedCursors := rfl
  authority r := by
    have hroom : ∀ x : ConversationRow, (f x).room = x.room := fun x =>
      List.singleton_inj.mp (k.keys x)
    unfold Db.authority conversationRow Db.setConversation
    rw [Table.find?_update fun x => by rw [hroom x], Option.map_map]
    congr 1
    funext x
    simp only [Function.comp_apply]
    split
    · rw [(hf x).1, (hf x).2]
    · rfl
  profiles := .refl _
  profileStaging := .refl _
  cursors := .refl _

end Beside

/-- Storing a message touches no other room. -/
theorem putMessage_beside {s t : Db} {m : ConversationMessage} {room : Uuid}
    (h : s.putMessage m room = .ok t) : Beside room s t := by
  unfold putMessage at h
  simp only [bind_ok, ensure_ok] at h
  obtain ⟨-, -, h⟩ := h
  split at h
  · rw [pure_ok] at h
    exact h ▸ .refl s
  · split at h <;> rw [pure_ok] at h <;> subst h <;> exact .tables _ _

theorem putMessages_beside {s t : Db} {ms : List ConversationMessage} {room : Uuid}
    (h : s.putMessages ms room = .ok t) : Beside room s t :=
  foldlM_rel (R := Beside room) .refl (fun _ _ _ => .trans)
    (fun _ _ _ _ hm => putMessage_beside hm) h

theorem applyEvent_beside {s t : Db} {e : ConversationEvent} {room : Uuid}
    (h : s.applyEvent e room = .ok t) : Beside room s t := by
  cases e with
  | upsert m => exact putMessage_beside h
  | deleted id version =>
    rw [applyEvent, pure_ok] at h
    subst h
    unfold tombstone
    dsimp only
    split
    · exact .refl s
    · exact .tables _ _

theorem visit_beside {s t : Db} {next requested : Option Token} {kind : CursorKind}
    {room : Uuid} (h : s.visit next requested kind room = .ok t) : Beside room s t := by
  cases next with
  | none =>
    rw [visit, pure_ok] at h
    exact h ▸ .refl s
  | some value =>
    simp only [visit, bind_ok, ensure_ok, require_ok, pure_ok] at h
    obtain ⟨-, -, cursors, hcursors, rfl⟩ := h
    exact { Beside.refl s with cursors := .insert hcursors rfl }

/-- A snapshot page stays within its room. -/
theorem applySnapshot_beside {s t : Db} {page : ConversationSnapshot} {c : ConversationScope}
    (h : s.applySnapshot page c = .ok t) : Beside c.room.id s t := by
  simp only [applySnapshot, bind_ok, pure_ok] at h
  obtain ⟨-, -, -, -, -, -, u, hu, rfl⟩ := h
  have hput := putMessages_beside hu
  refine hput.trans (.setConversation ?_ _)
  exact fun _ => ⟨rfl, rfl⟩

theorem applyEvents_beside {s t : Db} {page : ConversationEvents} {cursor : Token}
    {c : ConversationScope} (h : s.applyEvents page cursor c = .ok t) :
    Beside c.room.id s t := by
  simp only [applyEvents, bind_ok, pure_ok] at h
  obtain ⟨-, -, -, -, -, -, -, -, -, -, u, hu, rfl⟩ := h
  have hput := foldlM_rel (R := Beside c.room.id) .refl (fun _ _ _ => .trans)
    (fun _ _ _ _ he => applyEvent_beside he) hu
  refine hput.trans (.setConversation ?_ _)
  exact fun _ => ⟨rfl, rfl⟩

theorem applyHistory_beside {s t : Db} {page : ConversationHistory} {cursor : Token}
    {c : ConversationScope} (h : s.applyHistory page cursor c = .ok t) :
    Beside c.room.id s t := by
  simp only [applyHistory, bind_ok, pure_ok] at h
  obtain ⟨-, -, -, -, -, -, -, -, u, hu, v, hv, rfl⟩ := h
  have hvisited := visit_beside hu
  have hput := putMessages_beside hv
  refine (hvisited.trans hput).trans (.setConversation ?_ _)
  exact fun _ => ⟨rfl, rfl⟩

theorem publishProfiles_beside {s t : Db} {complete : Bool} {room : Uuid}
    (h : s.publishProfiles complete room = .ok t) : Beside room s t := by
  cases complete with
  | true =>
    simp only [publishProfiles, if_true, bind_ok, require_ok, pure_ok] at h
    obtain ⟨profiles, hprofiles, rfl⟩ := h
    have hinserted : Table.Confined ProfileRow.room room _ profiles :=
      .insertAll hprofiles fun r hr => (Table.mem_select.mp hr).2
    exact { Beside.refl s with
      profiles := Table.Confined.delete.trans hinserted
      profileStaging := .delete }
  | false =>
    simp only [publishProfiles, Bool.false_eq_true, if_false, pure_ok] at h
    exact h ▸ .refl s

theorem applyProfiles_beside {s t : Db} {page : ConversationProfiles} {cursor : Option Token}
    {c : ConversationScope} (h : s.applyProfiles page cursor c = .ok t) :
    Beside c.room.id s t := by
  simp only [applyProfiles, bind_ok, ensure_ok, require_ok, pure_ok] at h
  obtain ⟨-, -, -, -, -, -, -, -, -, -, u, hu, staged, hstaged, -, -, v, hv, rfl⟩ := h
  have hvisited := visit_beside hu
  have hstage : Beside c.room.id u { u with profileStaging := staged } := by
    refine { Beside.refl u with profileStaging := .insertAll hstaged ?_ }
    intro r hr
    obtain ⟨p, -, rfl⟩ := List.mem_map.mp hr
    rfl
  have hpublished := publishProfiles_beside hv
  refine ((hvisited.trans hstage).trans hpublished).trans (.setConversation ?_ _)
  exact fun _ => ⟨rfl, rfl⟩

theorem recordReceipt_beside {s t : Db} {id : Uuid} {message : Option Uuid}
    {version : Option MessageVersion} {deleted : Bool} {c : ConversationScope}
    (h : s.recordReceipt id message version deleted c = .ok t) : Beside c.room.id s t := by
  simp only [recordReceipt, bind_ok, require_ok, ensure_ok] at h
  obtain ⟨row, -, -, -, h⟩ := h
  split at h
  · rw [pure_ok] at h
    exact h ▸ .refl s
  · simp only [bind_ok, ensure_ok] at h
    obtain ⟨-, -, h⟩ := h
    split at h
    · rw [pure_ok] at h
      subst h
      unfold tombstoneReceipt
      split <;> exact .tables _ _
    · simp only [bind_ok, require_ok] at h
      obtain ⟨m, -, v, -, h⟩ := h
      split at h <;> rw [pure_ok] at h <;> subst h
      · exact .tables _ _
      · unfold commitTextCommand
        dsimp only
        split <;> exact .tables _ _

/-- No operation on a conversation touches the directory or another room. -/
theorem run_beside {s t : Db} {c : ConversationScope} {command : ConversationCommand}
    (h : command.run c s = .ok t) : Beside c.room.id s t := by
  cases command with
  | applySnapshot page => exact applySnapshot_beside h
  | applyEvents page cursor => exact applyEvents_beside h
  | applyHistory page cursor => exact applyHistory_beside h
  | applySingleMessage m => exact putMessage_beside h
  | hideProjection id =>
    obtain rfl := Except.ok.inj h
    exact .tables _ _
  | blockProjection id =>
    obtain rfl := Except.ok.inj h
    exact .tables _ _
  | beginProfiles =>
    obtain rfl := Except.ok.inj h
    have hset : Beside c.room.id s (s.setConversation c.room.id fun r =>
        { r with profileGeneration := none, profileNext := none, profileComplete := false }) := by
      refine .setConversation ?_ _
      exact fun _ => ⟨rfl, rfl⟩
    exact { hset with profileStaging := .delete, cursors := .delete }
  | applyProfiles page cursor => exact applyProfiles_beside h
  | admitText command =>
    simp only [ConversationCommand.run, admitText, bind_ok, ensure_ok, require_ok, pure_ok] at h
    obtain ⟨-, -, -, -, -, -, -, -, -, -, commands, -, rfl⟩ := h
    exact .tables _ _
  | claimText command =>
    simp only [ConversationCommand.run, claimText, bind_ok, ensure_ok, require_ok, pure_ok] at h
    obtain ⟨-, -, row, -, -, -, rfl⟩ := h
    exact .tables _ _
  | markTextUnknown id =>
    obtain rfl := Except.ok.inj h
    exact .tables _ _
  | markTextRejected id blocked =>
    obtain rfl := Except.ok.inj h
    cases blocked <;> exact .tables _ _
  | recordSendReceipt receipt expected =>
    simp only [ConversationCommand.run, recordSendReceipt, bind_ok, ensure_ok] at h
    obtain ⟨-, -, h⟩ := h
    cases receipt <;> exact recordReceipt_beside h
  | recordCommandReceipt receipt id =>
    simp only [ConversationCommand.run, recordCommandReceipt, bind_ok, ensure_ok] at h
    obtain ⟨-, -, h⟩ := h
    cases receipt <;> exact recordReceipt_beside h

/-- The timeline rows of another room stay where they were. -/
theorem run_confined {s t : Db} {c : ConversationScope} {command : ConversationCommand}
    (h : command.run c s = .ok t) :
    Table.Confined TimelineRow.room c.room.id s.timeline t.timeline := by
  rcases run_timeline h with ⟨-, hmoves⟩ | ⟨id, -, hent⟩
  · generalize t.timeline = T at hmoves ⊢
    induction hmoves with
    | refl => exact .refl _
    | tail _ hlast ih => exact ih.trans hlast.confined
  · obtain ⟨version, createdAt, hput, -⟩ := hent
    exact hput ▸ .put rfl

/-- Private rows of another room are not made. -/
theorem run_elsewhere {s t : Db} {c : ConversationScope} {command : ConversationCommand}
    (h : command.run c s = .ok t) {room : Uuid} (hne : room ≠ c.room.id)
    (hpriv : t.HasPrivate room) : s.HasPrivate room := by
  have hb := run_beside h
  rcases hpriv with hrow | hrow | hrow | hrow
  · exact .inl ((run_confined h).has hne hrow)
  · exact .inr (.inl (hb.profiles.has hne hrow))
  · exact .inr (.inr (.inl (hb.profileStaging.has hne hrow)))
  · exact .inr (.inr (.inr (hb.cursors.has hne hrow)))

/-- A conversation command ran on the room its scope was opened for, still under the scope and
revision it was opened with. -/
theorem write_ok {s t : Db} {d : RoomsDatabase} {c : ConversationScope}
    {operation : Db → Transaction Db} (h : s.write d c operation = .ok t) :
    s.authority c.room.id = some (c.room.membershipScope, c.room.authorizationRevision) ∧
      operation s = .ok t := by
  simp only [write, verifyConversation, bind_ok, ensure_ok, require_ok] at h
  obtain ⟨-, -, -, ⟨-, -, row, hrow, -, ⟨-, -, hmembership, hauthority, -, -⟩, -⟩, h⟩ := h
  refine ⟨?_, h⟩
  rw [Db.authority, hrow, Option.map_some, hmembership, hauthority]

/-! ## Purging -/

theorem membership_eq_some {s : Db} {room : Uuid} {m : MembershipRoom} :
    s.membership room = some m ↔ m ∈ s.memberships ∧ m.id = room := by
  constructor
  · intro h
    have hid := Table.holds_of_find? h
    exact ⟨Table.mem_of_find? h, hid⟩
  · rintro ⟨hm, rfl⟩
    refine Table.find?_eq_some hm rfl (k := m.id) (by simp [Row.keys]) ?_
    intro n hn
    simp [Row.keys, hn]

theorem conversationRow_eq_some {s : Db} {room : Uuid} {r : ConversationRow} :
    s.conversationRow room = some r ↔ r ∈ s.conversation ∧ r.room = room := by
  constructor
  · intro h
    have hroom := Table.holds_of_find? h
    exact ⟨Table.mem_of_find? h, hroom⟩
  · rintro ⟨hr, rfl⟩
    refine Table.find?_eq_some hr rfl (k := r.room) (by simp [Row.keys]) ?_
    intro n hn
    simp [Row.keys, hn]

/-- The authority of a room is that of its conversation row. -/
theorem authority_eq_some {s : Db} {room : Uuid} {p : Token × Token} :
    s.authority room = some p ↔
      ∃ r ∈ s.conversation, r.room = room ∧ (r.membership, r.authority) = p := by
  rw [authority, Option.map_eq_some_iff]
  constructor
  · rintro ⟨r, hrow, hp⟩
    obtain ⟨hr, hroom⟩ := conversationRow_eq_some.mp hrow
    exact ⟨r, hr, hroom, hp⟩
  · rintro ⟨r, hr, hroom, hp⟩
    exact ⟨r, conversationRow_eq_some.mpr ⟨hr, hroom⟩, hp⟩

/-- A room whose conversation is not stale is listed under its scope and revision. -/
theorem listed_of_not_stale {s : Db} {room : Uuid} {p : Token × Token}
    (hp : s.authority room = some p) (hlive : ¬s.StaleRoom room) :
    ∃ m ∈ s.memberships, m.id = room ∧ (m.membershipScope, m.authorizationRevision) = p := by
  obtain ⟨r, hr, hroom, rfl⟩ := authority_eq_some.mp hp
  have hcurrent : ¬(s.membership room = none ∨ s.Stale r) := fun hstale =>
    hlive ⟨r, hr, hroom, hstale⟩
  rw [not_or] at hcurrent
  obtain ⟨hsome, hstale⟩ := hcurrent
  obtain ⟨m, hm⟩ := Option.ne_none_iff_exists'.mp hsome
  obtain ⟨hmem, hid⟩ := membership_eq_some.mp hm
  refine ⟨m, hmem, hid, ?_⟩
  by_contra hne
  refine hstale ?_
  intro n hn
  rw [hroom, hm] at hn
  obtain rfl : m = n := Option.some.inj hn
  by_contra hboth
  rw [not_or, not_not, not_not] at hboth
  exact hne (Prod.ext hboth.1 hboth.2)

/-- Reconciling withdraws the authority of stale rooms only. -/
theorem reconcile_authority (s : Db) (room : Uuid) :
    s.reconcileConversationAuthority.authority room =
      if s.StaleRoom room then none else s.authority room := by
  apply Option.ext
  intro p
  rw [authority_eq_some]
  simp only [reconcileConversationAuthority, Table.mem_delete]
  by_cases hstale : s.StaleRoom room
  · rw [if_pos hstale]
    constructor
    · rintro ⟨r, ⟨-, hlive⟩, rfl, -⟩
      exact absurd hstale hlive
    · intro h
      cases h
  · rw [if_neg hstale, authority_eq_some]
    constructor
    · rintro ⟨r, ⟨hr, -⟩, hroom, hp⟩
      exact ⟨r, hr, hroom, hp⟩
    · rintro ⟨r, hr, rfl, hp⟩
      exact ⟨r, ⟨hr, hstale⟩, rfl, hp⟩

/-- After reconciling, a stale room holds nothing private. -/
theorem reconcile_private {s : Db} {room : Uuid}
    (h : s.reconcileConversationAuthority.HasPrivate room) :
    s.HasPrivate room ∧ ¬s.StaleRoom room := by
  have hkept : ∀ {ρ : Type} [Row ρ] {T : Table ρ} {f : ρ → Uuid},
      ((T.delete fun r => s.StaleRoom (f r)).Has fun r => f r = room) →
      (T.Has fun r => f r = room) ∧ ¬s.StaleRoom room := by
    rintro ρ _ T f ⟨r, hr, hroom⟩
    obtain ⟨hr, hlive⟩ := Table.mem_delete.mp hr
    exact ⟨⟨r, hr, hroom⟩, hroom ▸ hlive⟩
  rcases h with h | h | h | h
  · exact ⟨.inl (hkept h).1, (hkept h).2⟩
  · exact ⟨.inr (.inl (hkept h).1), (hkept h).2⟩
  · exact ⟨.inr (.inr (.inl (hkept h).1)), (hkept h).2⟩
  · exact ⟨.inr (.inr (.inr (hkept h).1)), (hkept h).2⟩

/-- No command remains for a room that is not listed, or under another scope. -/
theorem reconcile_commands {s : Db} {r : TextCommandRow}
    (h : r ∈ s.reconcileConversationAuthority.textCommands) :
    ∃ m ∈ s.memberships, m.id = r.room ∧ m.membershipScope = r.membership := by
  obtain ⟨r', hr', rfl⟩ := (Table.mem_update (k := by exact ⟨fun _ => rfl⟩)).mp h
  obtain ⟨hr', hscope⟩ := Table.mem_delete.mp hr'
  obtain ⟨-, hlisted⟩ := Table.mem_delete.mp hr'
  obtain ⟨m, hm, hid⟩ := not_not.mp hlisted
  have hsame : m.membershipScope = r'.membership := by
    by_contra hne
    exact hscope ⟨m, hm, hid, hne⟩
  split <;> exact ⟨m, hm, hid, hsame⟩

/-- An unresolved command of a listed room under its scope is kept as it was. -/
theorem reconcile_unresolved {s : Db} {r : TextCommandRow} (hr : r ∈ s.textCommands)
    (hopen : Unresolved r) {m : MembershipRoom} (hm : m ∈ s.memberships) (hid : m.id = r.room)
    (hscope : m.membershipScope = r.membership) :
    r ∈ s.reconcileConversationAuthority.textCommands := by
  have hlisted : r ∈ s.textCommands.delete fun r => ¬s.Listed r.room :=
    Table.mem_delete.mpr ⟨hr, not_not.mpr ⟨m, hm, hid⟩⟩
  have hkept : r ∈ (s.textCommands.delete fun r => ¬s.Listed r.room).delete fun r =>
      s.memberships.Has fun m => m.id = r.room ∧ m.membershipScope ≠ r.membership := by
    refine Table.mem_delete.mpr ⟨hlisted, ?_⟩
    rintro ⟨n, hn, hnid, hne⟩
    have hsame : n = m := Table.eq_of_key hn hm (k := n.id) (by simp [Row.keys])
      (by simp [Row.keys, hid, hnid])
    exact hne (hsame ▸ hscope)
  refine (Table.mem_update (k := by exact ⟨fun _ => rfl⟩)).mpr ⟨r, hkept, (if_neg ?_).symm⟩
  rintro ⟨-, hphase⟩
  rcases hopen with hopen | hopen | hopen <;> rw [hopen] at hphase <;> simp at hphase

/-! ## The manifest -/

/-- A listing never asks for a cursor twice. -/
theorem visitCursor_ok {s t : Db} {next requested : Option Token}
    (h : s.visitCursor next requested = .ok t) :
    ∃ visited, t = { s with visitedCursors := visited } ∧
      (∀ r ∈ s.visitedCursors, r ∈ visited) ∧
      ∀ n ∈ next, next ≠ requested ∧ (⟨n⟩ : CursorRow) ∈ visited ∧
        (⟨n⟩ : CursorRow) ∉ s.visitedCursors := by
  cases next with
  | none =>
    rw [visitCursor, pure_ok] at h
    exact ⟨s.visitedCursors, h.symm, fun _ hr => hr, (by simp)⟩
  | some value =>
    simp only [visitCursor, bind_ok, ensure_ok, require_ok, pure_ok] at h
    obtain ⟨-, hne, visited, hinsert, rfl⟩ := h
    refine ⟨visited, rfl, fun r hr => (Table.mem_insert hinsert).mpr (.inl hr), ?_⟩
    intro n hn
    obtain rfl : value = n := Option.some.inj hn
    refine ⟨hne, (Table.mem_insert hinsert).mpr (.inr rfl), ?_⟩
    intro hold
    exact Table.fresh_of_insert hinsert hold ⟨value, by simp [Row.keys]⟩

/-- What an accepted page does: a reset begins a new run, any other page is staged and, if it
ends the listing, installed. -/
theorem manifestPage_ok {s t : Db} {page : MembershipPage} {request : ManifestRequest}
    {run cache : Uuid} (h : s.manifestPage page request run cache = .ok t) :
    ∃ row, s.manifest = some row ∧ row.complete = false ∧ row.next = request.cursor ∧
      ((page.resetRequired = true ∧ t = s.startManifest run cache) ∨
        (page.resetRequired = false ∧
          (row.generation = none ∨ row.generation = page.generation) ∧
          ∃ u staging, s.visitCursor page.nextCursor request.cursor = .ok u ∧
            s.staging.insertAll page.rooms = some staging ∧
            t = { u with
              staging := staging
              manifest := some { row with
                generation := page.generation
                next := page.nextCursor } }.completeManifest page.complete)) := by
  simp only [manifestPage, bind_ok, require_ok, ensure_ok] at h
  obtain ⟨row, hrow, -, ⟨-, -, hopen, hnext⟩, h⟩ := h
  refine ⟨row, hrow, hopen, hnext, ?_⟩
  by_cases hreset : page.resetRequired = true
  · rw [if_pos hreset, pure_ok] at h
    exact .inl ⟨hreset, h.symm⟩
  · rw [if_neg hreset] at h
    simp only [bind_ok, require_ok, ensure_ok, pure_ok] at h
    obtain ⟨-, hgeneration, u, hu, staging, hstaging, -, -, rfl⟩ := h
    refine .inr ⟨by simpa using hreset, hgeneration, u, staging, hu, ?_, rfl⟩
    obtain ⟨visited, rfl, -, -⟩ := visitCursor_ok hu
    exact hstaging

end Db

/-! ## The watched store -/

/-- A manifest page with the cursor it was asked for. -/
abbrev Page := Paged Token (Option Token) MembershipRoom

/-- A database with the pages it has taken since it last asked for the first one. -/
structure Watched where
  db : Db
  /-- The pages accepted since the manifest began. -/
  pages : List Page
  /-- The pages of the manifest that was installed last. -/
  installed : List Page
  /-- The scopes of the operations that ran on a room since it had no private row. -/
  writers : Uuid → List (Token × Token)

/-- The pages taken so far, after a command. -/
def StoreCommand.pages : StoreCommand → List Page → List Page
  | .open_, _ => []
  | .beginManifest _ _, _ => []
  | .prepareCommand _ _ _, _ => []
  | .manifestPage page request _ _, ps =>
    if page.resetRequired then []
    else ps ++ [⟨request.cursor, page.generation, page.rooms, page.nextCursor⟩]
  | _, ps => ps

/-- The command is a page that ends a manifest. -/
def StoreCommand.Completes : StoreCommand → Prop
  | .manifestPage page _ _ _ => page.complete = true
  | _ => False

instance (c : StoreCommand) : Decidable c.Completes := by
  unfold StoreCommand.Completes
  split <;> infer_instance

/-- The scope under which a command runs on the room. -/
def StoreCommand.writer (room : Uuid) : StoreCommand → List (Token × Token)
  | .conversation c _ =>
    if c.room.id = room then [(c.room.membershipScope, c.room.authorizationRevision)] else []
  | _ => []

/-- What a watcher has seen after a command that went through. -/
def Watched.after (w : Watched) (c : StoreCommand) (t : Db) : Watched where
  db := t
  pages := c.pages w.pages
  installed := if c.Completes then c.pages w.pages else w.installed
  writers room := if t.HasPrivate room then c.writer room ++ w.writers room else []

/-- The store from its first opening, under any commands of any logins. -/
def directory : System Watched (RoomsDatabase × StoreCommand) where
  init w := w = ⟨{}, [], [], fun _ => []⟩
  step o w w' := ∃ t, o.2.exec o.1 w.db = .ok t ∧ w' = w.after o.2 t

/-- The unfinished manifest is what was staged since it began. -/
structure Running (m : Manifest) (s : Db) (ps : List Page) : Prop where
  staged : s.staging.rows = Paging.items ps
  follows : Paging.Follows ps
  next : m.next = Paging.cursor ps
  generation : ∀ p ∈ ps, p.generation = m.generation ∧ m.generation ≠ none
  continues : ps ≠ [] → Paging.cursor ps ≠ none
  requested : ∀ c, some c ∈ ps.map (·.requested) → (⟨c⟩ : CursorRow) ∈ s.visitedCursors
  offered : ∀ c, Paging.cursor ps = some c → (⟨c⟩ : CursorRow) ∈ s.visitedCursors
  fresh : ∀ c, Paging.cursor ps = some c → some c ∉ ps.map (·.requested)

/-- The memberships are those of one complete run. -/
structure Watched.Listing (w : Watched) : Prop where
  listed : w.db.memberships.rows = Paging.items w.installed
  complete : w.installed = [] ∨ Paging.Complete w.installed
  running : ∀ m ∈ w.db.manifest, m.complete = false → Running m w.db w.pages

/-- Private rows stand under the scope and revision of their room's conversation. -/
structure Watched.Cached (w : Watched) : Prop where
  opened : ∀ room, w.db.HasPrivate room → (w.db.authority room).isSome = true
  writers : ∀ room, ∀ p ∈ w.writers room, w.db.authority room = some p

/-! ## The manifest run -/

/-- A new listing has staged nothing. -/
theorem running_start (s : Db) (run cache : Uuid) :
    Running { run := run, cache := cache } (s.startManifest run cache) [] where
  staged := rfl
  follows := Paging.follows_nil
  next := rfl
  generation := by simp
  continues h := absurd rfl h
  requested _ h := by cases h
  offered _ h := by cases h
  fresh _ h := by cases h

/-- An accepted page continues the run it answers. -/
theorem Running.snoc {m : Manifest} {s u : Db} {ps : List Page} (h : Running m s ps)
    {page : MembershipPage} (hpage : page.resetRequired = false) {cursor : Option Token}
    (hcursor : m.next = cursor)
    (hgeneration : m.generation = none ∨ m.generation = page.generation)
    (hu : s.visitCursor page.nextCursor cursor = .ok u) {staging : Table MembershipRoom}
    (hstaging : s.staging.insertAll page.rooms = some staging) :
    staging.rows = Paging.items (ps ++ [⟨cursor, page.generation, page.rooms, page.nextCursor⟩]) ∧
    Paging.Follows (ps ++ [⟨cursor, page.generation, page.rooms, page.nextCursor⟩]) ∧
    (page.complete = false →
      Running { m with generation := page.generation, next := page.nextCursor }
        { u with
          staging := staging
          manifest := some { m with generation := page.generation, next := page.nextCursor } }
        (ps ++ [⟨cursor, page.generation, page.rooms, page.nextCursor⟩])) := by
  obtain ⟨visited, rfl, hkept, hnew⟩ := visitCursor_ok hu
  have hstaged : staging.rows = Paging.items
      (ps ++ [⟨cursor, page.generation, page.rooms, page.nextCursor⟩]) := by
    rw [Paging.items_snoc, Table.rows_insertAll hstaging, h.staged]
  have hanswers : cursor = Paging.cursor ps := hcursor.symm.trans h.next
  have hunused : cursor ∉ ps.map (·.requested) := by
    cases hc : cursor with
    | some c => exact h.fresh c (hanswers.symm.trans hc)
    | none =>
      have hempty : ps = [] := by
        by_contra hne
        exact h.continues hne (hanswers.symm.trans hc)
      simp [hempty]
  have hsame : ∀ q ∈ ps, q.generation = page.generation := by
    intro q hq
    obtain ⟨hqm, hsome⟩ := h.generation q hq
    rcases hgeneration with hnone | hsame
    · exact absurd hnone hsome
    · exact hqm.trans hsame
  have hfollows : Paging.Follows
      (ps ++ [⟨cursor, page.generation, page.rooms, page.nextCursor⟩]) :=
    h.follows.snoc h.continues hanswers hunused hsame
  refine ⟨hstaged, hfollows, fun hpart => ?_⟩
  obtain ⟨hgen, hcomplete, -⟩ := page.page hpage
  exact {
    staged := hstaged
    follows := hfollows
    next := by rw [Paging.cursor_snoc]
    generation := by
      intro p hp
      rcases List.mem_append.mp hp with hp | hp
      · exact ⟨hsame p hp, hgen⟩
      · rw [List.mem_singleton.mp hp]
        exact ⟨rfl, hgen⟩
    continues := by
      intro _
      rw [Paging.cursor_snoc]
      intro hnone
      exact absurd (hpart.symm.trans (hcomplete.mpr hnone)) (by decide)
    requested := by
      intro c hc
      rw [List.map_append, List.mem_append, List.map_singleton, List.mem_singleton] at hc
      rcases hc with hc | hc
      · exact hkept _ (h.requested c hc)
      · exact hkept _ (h.offered c (hanswers.symm.trans hc.symm))
    offered := by
      intro c hc
      rw [Paging.cursor_snoc] at hc
      exact (hnew c hc).2.1
    fresh := by
      -- A cursor the run has used is in the visited ones, and the new one is not.
      intro c hc hused
      rw [Paging.cursor_snoc] at hc
      obtain ⟨hne, -, hunseen⟩ := hnew c hc
      rw [List.map_append, List.mem_append, List.map_singleton, List.mem_singleton] at hused
      rcases hused with hused | hused
      · exact hunseen (h.requested c hused)
      · exact hne (hc.trans hused) }

/-- The parts of the store the manifest is kept in. -/
structure SameManifest (s t : Db) : Prop where
  memberships : t.memberships = s.memberships
  manifest : t.manifest = s.manifest
  staging : t.staging = s.staging
  visitedCursors : t.visitedCursors = s.visitedCursors

/-- Where the listing is left alone, it is as far as before. -/
theorem Running.of_same {m : Manifest} {s t : Db} {ps : List Page} (h : Running m s ps)
    (hsame : SameManifest s t) : Running m t ps :=
  { h with
    staged := by rw [hsame.staging, h.staged]
    requested := by
      rw [hsame.visitedCursors]
      exact h.requested
    offered := by
      rw [hsame.visitedCursors]
      exact h.offered }

/-- Opening a room leaves a listing as it is. -/
theorem beginConversation_manifest {s t : Db} {d : RoomsDatabase} {c : ConversationScope}
    {roomID cycle cache profileCache : Uuid}
    (h : s.beginConversation d roomID cycle cache profileCache = .ok (t, c)) :
    SameManifest s t := by
  simp only [beginConversation, bind_ok, ensure_ok, require_ok] at h
  obtain ⟨-, -, room, -, h⟩ := h
  split at h <;> rw [pure_ok] at h <;> cases h <;> exact ⟨rfl, rfl, rfl, rfl⟩

/-- Only the last page of a listing installs it. -/
theorem Watched.after_installed {w : Watched} {c : StoreCommand} {t : Db} (hc : ¬c.Completes) :
    (w.after c t).installed = w.installed := if_neg hc

/-- The pages of a completed listing are the installed ones. -/
theorem Watched.after_completes {w : Watched} {c : StoreCommand} {t : Db} (hc : c.Completes) :
    (w.after c t).installed = c.pages w.pages := if_pos hc

/-- A command that leaves the listing alone keeps what is known of it. -/
theorem Watched.Listing.of_same {w : Watched} {c : StoreCommand} {t : Db} (h : w.Listing)
    (hsame : SameManifest w.db t) (hpages : c.pages w.pages = w.pages) (hc : ¬c.Completes) :
    (w.after c t).Listing where
  listed := by
    rw [Watched.after_installed hc]
    exact hsame.memberships ▸ h.listed
  complete := by
    rw [Watched.after_installed hc]
    exact h.complete
  running := by
    intro m hm hpart
    have hm' : m ∈ w.db.manifest := hsame.manifest ▸ hm
    show Running m t (c.pages w.pages)
    rw [hpages]
    exact (h.running m hm' hpart).of_same hsame

/-- A manifest that is dropped or begun leaves the memberships as they are. -/
theorem Watched.Listing.of_restart {w : Watched} {c : StoreCommand} {t : Db} (h : w.Listing)
    (hsame : t.memberships = w.db.memberships) (hpages : c.pages w.pages = [])
    (hc : ¬c.Completes)
    (hrunning : ∀ m ∈ t.manifest, m.complete = false → Running m t []) :
    (w.after c t).Listing where
  listed := by
    rw [Watched.after_installed hc]
    exact hsame ▸ h.listed
  complete := by
    rw [Watched.after_installed hc]
    exact h.complete
  running := by
    intro m hm hpart
    show Running m t (c.pages w.pages)
    rw [hpages]
    exact hrunning m hm hpart

/-- A listing that has just begun has staged nothing. -/
theorem running_of_start {s : Db} {run cache : Uuid} :
    ∀ m ∈ (s.startManifest run cache).manifest, m.complete = false →
      Running m (s.startManifest run cache) [] := by
  rintro m hm -
  obtain rfl := Option.some.inj hm
  exact running_start s run cache

/-- A manifest page keeps the listing, and its last page installs it. -/
theorem Watched.Listing.manifestPage {w : Watched} {t : Db} {page : MembershipPage}
    {request : ManifestRequest} {run cache : Uuid} (h : w.Listing)
    (hok : w.db.manifestPage page request run cache = .ok t) :
    (w.after (.manifestPage page request run cache) t).Listing := by
  -- a reset starts the listing over; any other page goes on with the run that is open
  obtain ⟨row, hrow, hopen, hnext, ⟨hreset, rfl⟩ | ⟨hpage, hgeneration, u, staging, hu,
    hstaging, ht⟩⟩ := manifestPage_ok hok
  · have hcomplete := (page.reset hreset).2.2.1
    refine h.of_restart rfl (if_pos hreset) ?_ running_of_start
    show ¬page.complete = true
    rw [hcomplete]
    decide
  · obtain ⟨hstaged, hfollows, hpart⟩ :=
      (h.running row hrow hopen).snoc hpage hnext hgeneration hu hstaging
    have hpages : (StoreCommand.manifestPage page request run cache).pages w.pages =
        w.pages ++ [⟨request.cursor, page.generation, page.rooms, page.nextCursor⟩] :=
      if_neg (by rw [hpage]; decide)
    -- the last page installs what was staged
    by_cases hcomplete : page.complete = true
    · have hc : (StoreCommand.manifestPage page request run cache).Completes := hcomplete
      have hend : page.nextCursor = none := (page.page hpage).2.1.mp hcomplete
      rw [hcomplete] at ht
      constructor
      · rw [Watched.after_completes hc, hpages, ← hstaged, ht]
        rfl
      · right
        rw [Watched.after_completes hc, hpages]
        refine hfollows.complete (by simp) ?_
        rw [Paging.cursor_snoc, hend]
      · intro m hm hfalse
        have hm' : m ∈ t.manifest := hm
        rw [ht] at hm'
        obtain rfl := Option.some.inj hm'
        exact absurd hfalse (by simp)
    · have hc : ¬(StoreCommand.manifestPage page request run cache).Completes := hcomplete
      have hfalse : page.complete = false := by simpa using hcomplete
      obtain ⟨visited, hvisited, -, -⟩ := visitCursor_ok hu
      rw [hfalse] at ht
      constructor
      · rw [Watched.after_installed hc, ← h.listed, ht, hvisited]
        rfl
      · rw [Watched.after_installed hc]
        exact h.complete
      · intro m hm _
        have hm' : m ∈ t.manifest := hm
        rw [ht] at hm'
        obtain rfl := Option.some.inj hm'
        show Running _ t ((StoreCommand.manifestPage page request run cache).pages w.pages)
        rw [hpages, ht]
        exact hpart hfalse

/-! ## The private rows -/

/-- The rows a room is left with it had, under the same scope and revision. -/
def KeepsPrivate (s t : Db) : Prop :=
  ∀ room, t.HasPrivate room → s.HasPrivate room ∧ t.authority room = s.authority room

/-- Private data is kept only where it was. -/
theorem Watched.Cached.of_keeps {w : Watched} {c : StoreCommand} {t : Db} (h : w.Cached)
    (hkeeps : KeepsPrivate w.db t) (hwriter : ∀ room, c.writer room = []) :
    (w.after c t).Cached where
  opened := by
    intro room hpriv
    obtain ⟨hold, hsame⟩ := hkeeps room hpriv
    show (t.authority room).isSome = true
    rw [hsame]
    exact h.opened room hold
  writers := by
    intro room p hp
    have hp' : p ∈ if t.HasPrivate room then c.writer room ++ w.writers room else [] := hp
    show t.authority room = some p
    by_cases hpriv : t.HasPrivate room
    · rw [if_pos hpriv, hwriter room, List.nil_append] at hp'
      rw [(hkeeps room hpriv).2]
      exact h.writers room p hp'
    · rw [if_neg hpriv] at hp'
      cases hp'

/-- An operation on a conversation writes within a room that was opened. -/
theorem Watched.Cached.conversation {w : Watched} {t : Db} {d : RoomsDatabase}
    {c : ConversationScope} {command : ConversationCommand} (h : w.Cached)
    (hok : command.exec d c w.db = .ok t) : (w.after (.conversation c command) t).Cached := by
  obtain ⟨hauthority, hrun⟩ := write_ok hok
  have hsame := (run_beside hrun).authority
  constructor
  · intro room hpriv
    show (t.authority room).isSome = true
    rw [hsame room]
    by_cases hroom : room = c.room.id
    · rw [hroom, hauthority]
      rfl
    · exact h.opened room (run_elsewhere hrun hroom hpriv)
  · intro room p hp
    have hp' : p ∈ if t.HasPrivate room then
        StoreCommand.writer room (.conversation c command) ++ w.writers room else [] := hp
    show t.authority room = some p
    rw [hsame room]
    split at hp'
    · rcases List.mem_append.mp hp' with hnew | hold
      · -- The command itself: its scope is the one the conversation was opened with.
        by_cases hroom : c.room.id = room
        · rw [StoreCommand.writer, if_pos hroom, List.mem_singleton] at hnew
          rw [hnew, ← hroom]
          exact hauthority
        · rw [StoreCommand.writer, if_neg hroom] at hnew
          cases hnew
      · exact h.writers room p hold
    · cases hp'

/-- Reconciling adds no private data. -/
theorem reconcile_keeps (s : Db) : KeepsPrivate s s.reconcileConversationAuthority := by
  intro room hpriv
  obtain ⟨hold, hlive⟩ := reconcile_private hpriv
  refine ⟨hold, ?_⟩
  rw [reconcile_authority, if_neg hlive]

theorem manifestPage_keeps {s t : Db} {page : MembershipPage} {request : ManifestRequest}
    {run cache : Uuid} (h : s.manifestPage page request run cache = .ok t) :
    KeepsPrivate s t := by
  obtain ⟨row, -, -, -, ⟨-, rfl⟩ | ⟨-, -, u, staging, hu, -, ht⟩⟩ := manifestPage_ok h
  · exact fun room hpriv => ⟨hpriv, rfl⟩
  · obtain ⟨visited, rfl, -, -⟩ := visitCursor_ok hu
    cases hcomplete : page.complete with
    | false =>
      rw [hcomplete] at ht
      subst ht
      exact fun room hpriv => ⟨hpriv, rfl⟩
    | true =>
      rw [hcomplete] at ht
      subst ht
      intro room hpriv
      exact reconcile_keeps _ room hpriv

theorem newConversation_keeps (s : Db) (room : MembershipRoom) (cycle cache profileCache : Uuid) :
    KeepsPrivate s (s.newConversation room cycle cache profileCache) := by
  have hgone : ∀ {ρ : Type} [Row ρ] {T : Table ρ} {f : ρ → Uuid} {other : Uuid},
      ((T.delete fun r => f r = room.id).Has fun r => f r = other) →
      (T.Has fun r => f r = other) ∧ other ≠ room.id := by
    rintro ρ _ T f other ⟨r, hr, hroom⟩
    obtain ⟨hr, hne⟩ := Table.mem_delete.mp hr
    exact ⟨⟨r, hr, hroom⟩, fun heq => hne (hroom.trans heq)⟩
  intro other hpriv
  have hkept : s.HasPrivate other ∧ other ≠ room.id := by
    rcases hpriv with h | h | h | h
    · exact ⟨.inl (hgone h).1, (hgone h).2⟩
    · exact ⟨.inr (.inl (hgone h).1), (hgone h).2⟩
    · exact ⟨.inr (.inr (.inl (hgone h).1)), (hgone h).2⟩
    · exact ⟨.inr (.inr (.inr (hgone h).1)), (hgone h).2⟩
  obtain ⟨hold, hne⟩ := hkept
  refine ⟨hold, ?_⟩
  apply Option.ext
  intro p
  rw [authority_eq_some, authority_eq_some]
  constructor
  · rintro ⟨r, hr, hroom, hp⟩
    rcases Table.mem_put.mp hr with ⟨hr, -⟩ | rfl
    · exact ⟨r, hr, hroom, hp⟩
    · exact absurd hroom.symm hne
  · rintro ⟨r, hr, hroom, hp⟩
    refine ⟨r, Table.mem_put.mpr (.inl ⟨hr, ?_⟩), hroom, hp⟩
    rintro ⟨k, hk, hk'⟩
    rw [List.mem_singleton.mp hk] at hk'
    exact hne (hroom.symm.trans (List.mem_singleton.mp hk'))

theorem beginConversation_keeps {s t : Db} {d : RoomsDatabase} {c : ConversationScope}
    {roomID cycle cache profileCache : Uuid}
    (h : s.beginConversation d roomID cycle cache profileCache = .ok (t, c)) :
    KeepsPrivate s t := by
  simp only [beginConversation, bind_ok, ensure_ok, require_ok] at h
  obtain ⟨-, -, room, -, h⟩ := h
  split at h <;> rw [pure_ok] at h <;> cases h
  · have hset : Beside roomID s (s.setConversation roomID fun r => { r with cycle := cycle }) := by
      refine .setConversation ?_ _
      exact fun _ => ⟨rfl, rfl⟩
    exact fun room hpriv => ⟨hpriv, hset.authority room⟩
  · exact newConversation_keeps s room cycle cache profileCache

/-! ## Every state of the store -/

/-- What the watched store is in every reachable state. -/
structure Watched.Ok (w : Watched) : Prop extends w.Listing, w.Cached

/-- A command keeps the invariant. -/
theorem exec_ok {w : Watched} {t : Db} {d : RoomsDatabase} {c : StoreCommand} (h : w.Ok)
    (hok : c.exec d w.db = .ok t) : (w.after c t).Ok := by
  cases c with
  | open_ =>
    simp only [StoreCommand.exec, open_, bind_ok, ensure_ok, pure_ok] at hok
    obtain ⟨-, -, rfl⟩ := hok
    exact ⟨h.of_restart rfl rfl id (by simp), h.of_keeps (fun room hpriv => ⟨hpriv, rfl⟩) fun _ => rfl⟩
  | beginDiscovery revision =>
    simp only [StoreCommand.exec, bind_ok, pure_ok] at hok
    obtain ⟨-, -, rfl⟩ := hok
    exact ⟨h.of_same ⟨rfl, rfl, rfl, rfl⟩ rfl id,
      h.of_keeps (fun room hpriv => ⟨hpriv, rfl⟩) fun _ => rfl⟩
  | discoveryPage page revision after =>
    simp only [StoreCommand.exec, discoveryPage, bind_ok, ensure_ok, require_ok, pure_ok] at hok
    obtain ⟨-, -, -, -, -, -, -, -, -, -, -, -, rfl⟩ := hok
    exact ⟨h.of_same ⟨rfl, rfl, rfl, rfl⟩ rfl id,
      h.of_keeps (fun room hpriv => ⟨hpriv, rfl⟩) fun _ => rfl⟩
  | beginManifest run cache =>
    simp only [StoreCommand.exec, bind_ok, pure_ok] at hok
    obtain ⟨-, -, rfl⟩ := hok
    exact ⟨h.of_restart rfl rfl id running_of_start,
      h.of_keeps (fun room hpriv => ⟨hpriv, rfl⟩) fun _ => rfl⟩
  | manifestPage page request run cache =>
    simp only [StoreCommand.exec, bind_ok] at hok
    obtain ⟨-, -, hok⟩ := hok
    exact ⟨h.toListing.manifestPage hok, h.of_keeps (manifestPage_keeps hok) fun _ => rfl⟩
  | prepareCommand intent run cache =>
    simp only [StoreCommand.exec, prepareCommand, bind_ok, ensure_ok, pure_ok] at hok
    obtain ⟨-, -, -, -, -, -, rfl⟩ := hok
    exact ⟨h.of_restart rfl rfl id running_of_start,
      h.of_keeps (fun room hpriv => ⟨hpriv, rfl⟩) fun _ => rfl⟩
  | beginConversation roomID cycle cache profileCache =>
    simp only [StoreCommand.exec, bind_ok, pure_ok] at hok
    obtain ⟨-, -, ⟨t, scope⟩, hbegin, rfl⟩ := hok
    exact ⟨h.of_same (beginConversation_manifest hbegin) rfl id,
      h.of_keeps (beginConversation_keeps hbegin) fun _ => rfl⟩
  | conversation scope command =>
    have hb := run_beside (write_ok hok).2
    exact ⟨h.of_same ⟨hb.memberships, hb.manifest, hb.staging, hb.visitedCursors⟩ rfl id,
      h.toCached.conversation hok⟩

/-- The invariant holds in every run. -/
theorem reachable_ok {w : Watched} (h : directory.Reachable w) : w.Ok := by
  refine h.induct (P := Watched.Ok) ⟨?_, ?_⟩
  · rintro w rfl
    refine ⟨⟨rfl, .inl rfl, (by simp)⟩, ?_, (by simp)⟩
    intro room hpriv
    rcases hpriv with ⟨r, hr, -⟩ | ⟨r, hr, -⟩ | ⟨r, hr, -⟩ | ⟨r, hr, -⟩ <;>
      exact absurd hr (Table.not_mem_empty r)
  · rintro w w' ⟨d, c⟩ - ih ⟨t, hok, rfl⟩
    exact exec_ok ih hok

/-! ## What a complete manifest leaves -/

/-- From `s` to `w`, whose store a complete manifest has just been installed in. -/
structure Purged (s : Db) (w : Watched) : Prop where
  conversations : ∀ r ∈ w.db.conversation, ∃ m ∈ w.db.memberships, m.id = r.room ∧
    (m.membershipScope, m.authorizationRevision) = (r.membership, r.authority)
  rows : ∀ room, w.db.HasPrivate room → ∃ m ∈ w.db.memberships, m.id = room ∧
    ∀ p ∈ w.writers room, p = (m.membershipScope, m.authorizationRevision)
  commands : ∀ r ∈ w.db.textCommands, ∃ m ∈ w.db.memberships, m.id = r.room ∧
    m.membershipScope = r.membership
  unresolved : ∀ r ∈ s.textCommands, Unresolved r → (∃ m ∈ w.db.memberships, m.id = r.room ∧
    m.membershipScope = r.membership) → r ∈ w.db.textCommands

/-- A page that completes the manifest installed the staged rows and purged the rest. -/
theorem completes_ok {s t : Db} {d : RoomsDatabase} {c : StoreCommand} (hc : c.Completes)
    (h : c.exec d s = .ok t) :
    ∃ u : Db, u.textCommands = s.textCommands ∧
      t.memberships = u.memberships ∧
      t.conversation = u.reconcileConversationAuthority.conversation ∧
      t.textCommands = u.reconcileConversationAuthority.textCommands := by
  cases c with
  | manifestPage page request run cache =>
    have hcomplete : page.complete = true := hc
    simp only [StoreCommand.exec, bind_ok] at h
    obtain ⟨-, -, h⟩ := h
    obtain ⟨row, -, -, -, ⟨hreset, -⟩ | ⟨-, -, u, staging, hu, -, ht⟩⟩ := manifestPage_ok h
    · exact absurd ((page.reset hreset).2.2.1.symm.trans hcomplete) (by decide)
    · obtain ⟨visited, rfl, -, -⟩ := visitCursor_ok hu
      rw [hcomplete] at ht
      subst ht
      exact ⟨{ s with memberships := staging, staging := .empty }, rfl, rfl, rfl, rfl⟩
  | _ => exact absurd hc id

/-- A completed listing leaves private data only of the memberships it lists. -/
theorem purged_of_completes {w : Watched} {t : Db} {d : RoomsDatabase} {c : StoreCommand}
    (hw : w.Ok) (hc : c.Completes) (h : c.exec d w.db = .ok t) : Purged w.db (w.after c t) := by
  have hafter := exec_ok hw h
  obtain ⟨u, hcommands, hmembers, hconversation, htext⟩ := completes_ok hc h
  have hlisted : ∀ room p, t.authority room = some p → ∃ m ∈ t.memberships, m.id = room ∧
      (m.membershipScope, m.authorizationRevision) = p := by
    intro room p hp
    have hrec : u.reconcileConversationAuthority.authority room = some p := by
      rw [authority_eq_some] at hp ⊢
      rwa [hconversation] at hp
    rw [reconcile_authority] at hrec
    by_cases hstale : u.StaleRoom room
    · rw [if_pos hstale] at hrec
      cases hrec
    · rw [if_neg hstale] at hrec
      rw [hmembers]
      exact listed_of_not_stale hrec hstale
  refine ⟨?_, ?_, ?_, ?_⟩
  · intro r hr
    exact hlisted r.room _ (authority_eq_some.mpr ⟨r, hr, rfl, rfl⟩)
  · intro room hroom
    obtain ⟨p, hp⟩ := Option.isSome_iff_exists.mp (hafter.opened room hroom)
    obtain ⟨m, hm, hid, hscope⟩ := hlisted room p hp
    refine ⟨m, hm, hid, ?_⟩
    intro q hq
    rw [hscope]
    exact Option.some.inj ((hafter.writers room q hq).symm.trans hp)
  · intro r hr
    have hr' : r ∈ u.reconcileConversationAuthority.textCommands := htext ▸ hr
    obtain ⟨m, hm, hid, hscope⟩ := reconcile_commands hr'
    exact ⟨m, hmembers ▸ hm, hid, hscope⟩
  · rintro r hr hopen ⟨m, hm, hid, hscope⟩
    show r ∈ t.textCommands
    rw [htext]
    exact reconcile_unresolved (hcommands ▸ hr) hopen (hmembers ▸ hm) hid hscope

/-- Only a page that completes a manifest changes the memberships. -/
theorem exec_memberships {s t : Db} {d : RoomsDatabase} {c : StoreCommand} (hc : ¬c.Completes)
    (h : c.exec d s = .ok t) : t.memberships = s.memberships := by
  cases c with
  | open_ =>
    simp only [StoreCommand.exec, open_, bind_ok, ensure_ok, pure_ok] at h
    obtain ⟨-, -, rfl⟩ := h
    rfl
  | beginDiscovery revision =>
    simp only [StoreCommand.exec, bind_ok, pure_ok] at h
    obtain ⟨-, -, rfl⟩ := h
    rfl
  | discoveryPage page revision after =>
    simp only [StoreCommand.exec, discoveryPage, bind_ok, ensure_ok, require_ok, pure_ok] at h
    obtain ⟨-, -, -, -, -, -, -, -, -, -, -, -, rfl⟩ := h
    rfl
  | beginManifest run cache =>
    simp only [StoreCommand.exec, bind_ok, pure_ok] at h
    obtain ⟨-, -, rfl⟩ := h
    rfl
  | manifestPage page request run cache =>
    have hpart : page.complete = false := by simpa [StoreCommand.Completes] using hc
    simp only [StoreCommand.exec, bind_ok] at h
    obtain ⟨-, -, h⟩ := h
    obtain ⟨row, -, -, -, ⟨-, rfl⟩ | ⟨-, -, u, staging, hu, -, ht⟩⟩ := manifestPage_ok h
    · rfl
    · obtain ⟨visited, rfl, -, -⟩ := visitCursor_ok hu
      rw [hpart] at ht
      subst ht
      rfl
  | prepareCommand intent run cache =>
    simp only [StoreCommand.exec, prepareCommand, bind_ok, ensure_ok, pure_ok] at h
    obtain ⟨-, -, -, -, -, -, rfl⟩ := h
    rfl
  | beginConversation roomID cycle cache profileCache =>
    simp only [StoreCommand.exec, bind_ok, pure_ok] at h
    obtain ⟨-, -, ⟨t, scope⟩, hbegin, rfl⟩ := h
    exact (beginConversation_manifest hbegin).memberships
  | conversation scope command => exact (run_beside (write_ok h).2).memberships

/-- **The directory of the iOS store.** In every reachable state the memberships are what the
pages installed last listed, which are none or those of one complete run of one generation, no
cursor used twice; only a page that completes a manifest changes them; and it leaves no row of
another scope or revision and every unresolved command of an unchanged scope. -/
structure DirectorySound : Prop where
  complete : ∀ w, directory.Reachable w → w.db.memberships.rows = Paging.items w.installed ∧
    (w.installed = [] ∨ Paging.Complete w.installed)
  unchanged : ∀ w o w', directory.Reachable w → directory.step o w w' → ¬o.2.Completes →
    w'.db.memberships = w.db.memberships
  purged : ∀ w o w', directory.Reachable w → directory.step o w w' → o.2.Completes →
    Purged w.db w'

theorem directory_sound : DirectorySound where
  complete := by
    intro w hw
    have hok := reachable_ok hw
    exact ⟨hok.listed, hok.complete⟩
  unchanged := by
    rintro w o w' - ⟨t, hexec, rfl⟩ hc
    exact exec_memberships hc hexec
  purged := by
    rintro w o w' hw ⟨t, hexec, rfl⟩ hc
    exact purged_of_completes (reachable_ok hw) hc hexec

end Rogichat.Ios
