import Rogichat.Android.Rooms
import Rogichat.Lib.Trace

/-!
# What the Android directory and the rows of its rooms are

As for the other store, two things are watched along a run beside the store (`Watched`): the
pages accepted since the manifest began and those of the manifest that was installed, and, for
each room that has private rows, the scopes of the operations that ran on it since it had none.

An erased file is an empty one, so the store is watched through `Store.content`, and erasing or
opening a file is seen as keeping the content or emptying it (`Kept`).
-/

namespace Rogichat.Android

open Lib Android.Db

attribute [local instance] decidableMemTokens

namespace Db

/-- The scope and revision the room's cache was opened under. -/
def authority (s : Db) (room : Uuid) : Option (Token × Token) :=
  (s.conversationCheckpoint room).map fun r => (r.membership, r.authorization)

/-- The room has timeline, profile or cursor rows. -/
def HasPrivate (s : Db) (room : Uuid) : Prop :=
  (s.messages.Has fun r => r.roomId = room) ∨ (s.profiles.Has fun r => r.roomId = room) ∨
    (s.profileStaging.Has fun r => r.roomId = room) ∨
    s.conversationPages.Has fun r => r.roomId = room

instance (s : Db) : DecidablePred s.HasPrivate := fun room =>
  inferInstanceAs (Decidable ((s.messages.Has fun r => r.roomId = room) ∨
    (s.profiles.Has fun r => r.roomId = room) ∨
    (s.profileStaging.Has fun r => r.roomId = room) ∨
    s.conversationPages.Has fun r => r.roomId = room))

/-- The authority of a room is that of its checkpoint. -/
theorem authority_eq_some {s : Db} {room : Uuid} {p : Token × Token} :
    s.authority room = some p ↔
      ∃ r ∈ s.checkpoints, r.roomId = room ∧ (r.membership, r.authorization) = p := by
  rw [authority, Option.map_eq_some_iff]
  constructor
  · rintro ⟨r, hrow, hp⟩
    obtain ⟨hr, hroom⟩ := conversationCheckpoint_eq_some.mp hrow
    exact ⟨r, hr, hroom, hp⟩
  · rintro ⟨r, hr, hroom, hp⟩
    exact ⟨r, conversationCheckpoint_eq_some.mpr ⟨hr, hroom⟩, hp⟩

/-! ## What a conversation command leaves alone -/

/-- From `s` to `t` only the room's private rows, the commands and what belongs to them
changed, and no conversation was opened. -/
structure Beside (room : Uuid) (s t : Db) : Prop where
  checkpoint : t.checkpoint = s.checkpoint
  memberships : t.memberships = s.memberships
  staged : t.staged = s.staged
  pages : t.pages = s.pages
  authority : ∀ r, t.authority r = s.authority r
  messages : Table.Confined ConversationMessageRow.roomId room s.messages t.messages
  profiles : Table.Confined ConversationProfileRow.roomId room s.profiles t.profiles
  profileStaging : Table.Confined ConversationProfileRow.roomId room s.profileStaging
    t.profileStaging
  conversationPages : Table.Confined ConversationPage.roomId room s.conversationPages
    t.conversationPages

namespace Beside

variable {room : Uuid} {s t u : Db}

theorem refl (s : Db) : Beside room s s :=
  ⟨rfl, rfl, rfl, rfl, fun _ => rfl, .refl _, .refl _, .refl _, .refl _⟩

theorem trans (h : Beside room s t) (h' : Beside room t u) : Beside room s u where
  checkpoint := h'.checkpoint.trans h.checkpoint
  memberships := h'.memberships.trans h.memberships
  staged := h'.staged.trans h.staged
  pages := h'.pages.trans h.pages
  authority r := (h'.authority r).trans (h.authority r)
  messages := h.messages.trans h'.messages
  profiles := h.profiles.trans h'.profiles
  profileStaging := h.profileStaging.trans h'.profileStaging
  conversationPages := h.conversationPages.trans h'.conversationPages

/-- Writes of the timeline, the commands, the actions and the media. -/
theorem tables {M : Table ConversationMessageRow} (O : Table ConversationOutboxRow)
    (D : Table ConversationMediaRow) (A : Table ConversationActionRow)
    (N : Table ConversationAnchorRow)
    (hM : Table.Confined ConversationMessageRow.roomId room s.messages M) :
    Beside room s { s with messages := M, outbox := O, media := D, actions := A, anchors := N } :=
  { Beside.refl s with messages := hM }

/-- A checkpoint with the authority of before stays beside the directory. -/
theorem setCheckpoint {r : ConversationCheckpoint}
    (hr : s.authority r.roomId = some (r.membership, r.authorization)) :
    Beside room s (s.setCheckpoint r) := by
  refine { Beside.refl s with authority := ?_ }
  intro other
  apply Option.ext
  intro p
  obtain ⟨old, hold, hroom, hp⟩ := authority_eq_some.mp hr
  rw [authority_eq_some, authority_eq_some]
  constructor
  · rintro ⟨x, hx, hother, hxp⟩
    rcases Table.mem_put.mp hx with ⟨hx, -⟩ | rfl
    · exact ⟨x, hx, hother, hxp⟩
    · exact ⟨old, hold, hroom.trans hother, hp.trans hxp⟩
  · rintro ⟨x, hx, hother, hxp⟩
    by_cases hxr : x.roomId = r.roomId
    · -- The replaced row is the room's own.
      have hxo : x = old := Table.eq_of_key hx hold (k := x.roomId) (by simp [Row.keys])
        (by simp [Row.keys, hxr, hroom])
      refine ⟨r, Table.mem_put.mpr (.inr rfl), hxr.symm.trans hother, ?_⟩
      rw [← hp, ← hxo, hxp]
    · refine ⟨x, Table.mem_put.mpr (.inl ⟨hx, ?_⟩), hother, hxp⟩
      rintro ⟨k, hk, hk'⟩
      rw [List.mem_singleton.mp hk] at hk'
      exact hxr (List.mem_singleton.mp hk')

end Beside

/-- A conversation command runs on the room its scope was opened for, still under the scope
and revision it was opened with. -/
theorem conversationTransaction_ok {α : Type} {s : Db} {c : ConversationScope}
    {action : ConversationCheckpoint → Transaction α} {a : α}
    (h : s.conversationTransaction c action = .ok a) :
    ∃ r, s.conversationCheckpoint c.room = some r ∧ r.roomId = c.room ∧
      (r.membership, r.authorization) = (c.selection.membership.membershipScope,
        c.selection.membership.authorizationRevision) ∧ action r = .ok a := by
  simp only [conversationTransaction, bind_ok, require_ok, valid_ok] at h
  obtain ⟨r, hrow, -, ⟨-, hmembership, hauthorization⟩, h⟩ := h
  exact ⟨r, hrow, (conversationCheckpoint_eq_some.mp hrow).2,
    by rw [hmembership, hauthorization], h⟩

/-- The checkpoint read in a transaction is the room's authority. -/
theorem authority_of_checkpoint {s : Db} {room : Uuid} {r : ConversationCheckpoint}
    (h : s.conversationCheckpoint room = some r) :
    s.authority r.roomId = some (r.membership, r.authorization) := by
  obtain ⟨hr, -⟩ := conversationCheckpoint_eq_some.mp h
  exact authority_eq_some.mpr ⟨r, hr, rfl, rfl⟩

/-- Reading what a room shows writes nothing. -/
theorem withData_ok {s t : Db} {c : ConversationScope} {data : ConversationData}
    (h : s.withData c = .ok (t, data)) : t = s := by
  simp only [withData, bind_ok, pure_ok] at h
  obtain ⟨_, -, h⟩ := h
  exact (Prod.mk.inj h).1.symm

/-- Storing a message touches no other room. -/
theorem putMessage_beside {s t : Db} {room : Uuid} {m : ConversationMessage}
    (h : s.putMessage room m = .ok t) : Beside room s t := by
  simp only [putMessage, bind_ok, valid_ok] at h
  obtain ⟨-, -, h⟩ := h
  split at h <;> rw [pure_ok] at h <;> subst h
  · exact .refl s
  · exact .tables _ _ _ _ (.put rfl)

theorem putMessages_beside {s t : Db} {room : Uuid} {ms : List ConversationMessage}
    (h : s.putMessages room ms = .ok t) : Beside room s t :=
  foldlM_rel (R := Beside room) .refl (fun _ _ _ => .trans)
    (fun _ _ _ _ hm => putMessage_beside hm) h

theorem applyEvent_beside {s t : Db} {room : Uuid} {e : MessageEvent}
    (h : s.applyEvent room e = .ok t) : Beside room s t := by
  cases e with
  | upsert m => exact putMessage_beside h
  | deleted id version =>
    rw [applyEvent, pure_ok] at h
    subst h
    unfold deleteMessage
    dsimp only
    split
    · exact .refl s
    · exact .tables _ _ _ _ (.put rfl)

theorem retire_beside (s : Db) (room at_ : Uuid) :
    Beside room s (s.retireProjectedCommands at_) := .tables _ _ _ _ (.refl _)

theorem addPage_beside {s t : Db} {page : ConversationPage}
    (h : s.addPage page = .ok t) : Beside page.roomId s t := by
  simp only [addPage, bind_ok, require_ok, pure_ok] at h
  obtain ⟨pages, hpages, rfl⟩ := h
  exact { Beside.refl s with conversationPages := .insert hpages rfl }

/-- The end of an operation that moves the room's checkpoint. -/
theorem conclude_beside {s t : Db} {c : ConversationScope} {r : ConversationCheckpoint}
    {room : Uuid} {data : ConversationData}
    (h : ((s.setCheckpoint r).retireProjectedCommands room).withData c = .ok (t, data))
    (hr : s.authority r.roomId = some (r.membership, r.authorization)) :
    Beside c.room s t := by
  rw [withData_ok h]
  exact (Beside.setCheckpoint hr).trans (retire_beside _ _ _)

/-- A snapshot page stays within its room. -/
theorem snapshot_beside {s t : Db} {c : ConversationScope} {page : SnapshotPage}
    {data : ConversationData} (h : s.snapshot c page = .ok (t, data)) : Beside c.room s t := by
  obtain ⟨r, hrow, hroom, -, h⟩ := conversationTransaction_ok h
  simp only [bind_ok] at h
  obtain ⟨-, -, -, -, u, hu, h⟩ := h
  have hput : Beside c.room s u := hroom ▸ putMessages_beside hu
  have hr := (hput.authority r.roomId).trans (authority_of_checkpoint hrow)
  have hend := conclude_beside h hr
  exact hput.trans hend

theorem events_beside {s t : Db} {c : ConversationScope} {requested : Token} {page : EventPage}
    {data : ConversationData} (h : s.events c requested page = .ok (t, data)) :
    Beside c.room s t := by
  obtain ⟨r, hrow, hroom, -, h⟩ := conversationTransaction_ok h
  simp only [bind_ok] at h
  obtain ⟨-, -, -, -, -, -, u, hu, h⟩ := h
  have hput : Beside c.room s u := by
    rw [← hroom]
    exact foldlM_rel (R := Beside r.roomId) .refl (fun _ _ _ => .trans)
      (fun _ _ _ _ he => applyEvent_beside he) hu
  have hr := (hput.authority r.roomId).trans (authority_of_checkpoint hrow)
  have hend := conclude_beside h hr
  exact hput.trans hend

theorem history_beside {s t : Db} {c : ConversationScope} {requested : Token}
    {page : HistoryPage} {data : ConversationData}
    (h : s.history c requested page = .ok (t, data)) : Beside c.room s t := by
  obtain ⟨r, hrow, hroom, -, h⟩ := conversationTransaction_ok h
  simp only [bind_ok] at h
  obtain ⟨-, -, -, -, -, -, u, hu, v, hv, h⟩ := h
  have hput : Beside c.room s u := hroom ▸ putMessages_beside hu
  have hpage : Beside c.room u v := hroom ▸ addPage_beside hv
  have hr := ((hput.trans hpage).authority r.roomId).trans (authority_of_checkpoint hrow)
  have hend := conclude_beside h hr
  exact (hput.trans hpage).trans hend

theorem projection_beside {s t : Db} {c : ConversationScope} {m : ConversationMessage}
    {data : ConversationData} (h : s.projection c m = .ok (t, data)) : Beside c.room s t := by
  obtain ⟨r, -, hroom, -, h⟩ := conversationTransaction_ok h
  simp only [bind_ok] at h
  obtain ⟨-, -, u, hu, h⟩ := h
  have hput : Beside c.room s u := hroom ▸ putMessage_beside hu
  rw [withData_ok h]
  exact hput.trans (retire_beside _ _ _)

theorem publishProfiles_beside {s t : Db} {complete : Bool} {room : Uuid}
    (h : s.publishProfiles complete room = .ok t) : Beside room s t := by
  cases complete with
  | true =>
    simp only [publishProfiles, if_true, bind_ok, require_ok, pure_ok] at h
    obtain ⟨profiles, hprofiles, rfl⟩ := h
    have hinserted : Table.Confined ConversationProfileRow.roomId room _ profiles :=
      .insertAll hprofiles fun r hr => (Table.mem_select.mp hr).2
    exact { Beside.refl s with
      profiles := Table.Confined.delete.trans hinserted
      profileStaging := .delete }
  | false =>
    simp only [publishProfiles, Bool.false_eq_true, if_false, pure_ok] at h
    exact h ▸ .refl s

theorem profilePage_beside {s t : Db} {c : ConversationScope} {requested : Option Token}
    {page : ProfilePage} {data : ConversationData}
    (h : s.profilePage c requested page = .ok (t, data)) : Beside c.room s t := by
  obtain ⟨r, hrow, hroom, -, h⟩ := conversationTransaction_ok h
  simp only [bind_ok, require_ok] at h
  obtain ⟨-, -, -, -, -, -, -, -, -, -, -, -, staged, hstaged, u, hu, v, hv, h⟩ := h
  have hstage : Beside c.room s { s with profileStaging := staged } := by
    refine { Beside.refl s with profileStaging := .insertAll hstaged ?_ }
    intro x hx
    obtain ⟨p, -, rfl⟩ := List.mem_map.mp hx
    exact hroom
  have hpage : Beside c.room _ u := hroom ▸ addPage_beside hu
  have hpublished : Beside c.room u v := hroom ▸ publishProfiles_beside hv
  have hall := (hstage.trans hpage).trans hpublished
  have hr := (hall.authority r.roomId).trans (authority_of_checkpoint hrow)
  rw [withData_ok h]
  refine hall.trans (.setCheckpoint ?_)
  exact hr

theorem actionOperation_beside {s t : Db} {c : ConversationScope} {o : ActionOperation}
    (h : s.actionOperation c o = .ok t) : Beside c.room s t := by
  cases o with
  | put record =>
    simp only [actionOperation, putAction, bind_ok, valid_ok] at h
    obtain ⟨-, -, -, -, h⟩ := h
    split at h <;> rw [pure_ok] at h <;> subst h
    · exact .tables _ _ _ _ (Table.Confined.delete.trans (.put rfl))
    · exact .tables _ _ _ _ (.refl _)
  | saveAnchor messageId offset =>
    rw [actionOperation, pure_ok] at h
    exact h ▸ .tables _ _ _ _ (.refl _)
  | clearAnchor =>
    rw [actionOperation, pure_ok] at h
    exact h ▸ .tables _ _ _ _ (.refl _)

theorem receipt_beside {s t : Db} {c : ConversationScope} {id : Uuid} {answer : CommandReceipt}
    {data : ConversationData} (h : s.receipt c id answer = .ok (t, data)) :
    Beside c.room s t := by
  obtain ⟨r, -, -, -, h⟩ := conversationTransaction_ok h
  simp only [bind_ok] at h
  obtain ⟨-, -, h⟩ := h
  split at h
  · rw [withData_ok h]
    exact .refl s
  · rename_i row hrow
    have hroom : row.roomId = c.room := (command_eq_some.mp hrow).2.1
    simp only [bind_ok] at h
    obtain ⟨-, -, -, -, h⟩ := h
    rw [withData_ok h]
    unfold acceptReceipt
    split
    · exact .tables _ _ _ _ (.refl _)
    · split
      · exact .tables _ _ _ _ (.refl _)
      · unfold deleteCommand
        dsimp only
        split
        · exact .tables _ _ _ _ (.refl _)
        · exact .tables _ _ _ _ (.put hroom)

theorem unavailableProjection_beside {s t : Db} {c : ConversationScope}
    {id messageId : Uuid} {code : Token} {data : ConversationData}
    (h : s.unavailableProjection c id messageId code = .ok (t, data)) : Beside c.room s t := by
  obtain ⟨r, -, -, -, h⟩ := conversationTransaction_ok h
  dsimp only at h
  split at h
  · split at h
    · exact withData_ok h ▸ .tables _ _ _ _ .delete
    · exact withData_ok h ▸ .tables _ _ _ _ .delete
  · exact withData_ok h ▸ .tables _ _ _ _ .delete

theorem map_fst_ok {α β : Type} {x : Transaction (α × β)} {a : α}
    (h : x.map (·.1) = .ok a) : ∃ b, x = .ok (a, b) := by
  cases x with
  | error e => cases h
  | ok p =>
    obtain rfl := Except.ok.inj h
    exact ⟨p.2, rfl⟩

/-- No operation on a conversation touches the directory or another room. -/
theorem exec_beside {s t : Db} {c : ConversationScope} {command : ConversationCommand}
    (h : command.exec c s = .ok t) : Beside c.room s t := by
  cases command with
  | restore =>
    cases hx : s.restore c <;> simp only [ConversationCommand.exec, hx, Except.map] at h
    · cases h
    · exact Except.ok.inj h ▸ .refl s
  | current =>
    cases hx : s.current c <;> simp only [ConversationCommand.exec, hx, Except.map] at h
    · cases h
    · exact Except.ok.inj h ▸ .refl s
  | beginProfiles =>
    -- the checkpoint is rewritten under the authority it was read with
    obtain ⟨r, hrow, hroom, -, h⟩ := conversationTransaction_ok h
    rw [pure_ok] at h
    subst h
    have hcleared : Beside c.room s { s with
        profileStaging := s.profileStaging.delete fun x => x.roomId = r.roomId
        conversationPages := s.conversationPages.delete fun x =>
          x.roomId = r.roomId ∧ x.purpose = PagePurpose.profiles } :=
      { Beside.refl s with profileStaging := .delete, conversationPages := .delete }
    have hr := authority_of_checkpoint hrow
    refine hcleared.trans (.setCheckpoint ?_)
    exact hr
  | snapshot page =>
    obtain ⟨data, h⟩ := map_fst_ok h
    exact snapshot_beside h
  | events requested page =>
    obtain ⟨data, h⟩ := map_fst_ok h
    exact events_beside h
  | history requested page =>
    obtain ⟨data, h⟩ := map_fst_ok h
    exact history_beside h
  | profiles requested page =>
    obtain ⟨data, h⟩ := map_fst_ok h
    exact profilePage_beside h
  | projection message =>
    obtain ⟨data, h⟩ := map_fst_ok h
    exact projection_beside h
  | actions operations =>
    obtain ⟨r, -, -, -, h⟩ := conversationTransaction_ok h
    -- the operations of a transaction, each beside the room
    exact foldlM_rel (R := Beside c.room) .refl (fun _ _ _ => .trans)
      (fun _ _ _ _ ho => actionOperation_beside ho) h
  | saveMedia value =>
    obtain ⟨r, -, -, -, h⟩ := conversationTransaction_ok h
    simp only [bind_ok, require_ok, pure_ok] at h
    obtain ⟨-, -, -, -, media, -, rfl⟩ := h
    exact .tables _ _ _ _ (.refl _)
  | removeMedia asset =>
    obtain ⟨r, -, -, -, h⟩ := conversationTransaction_ok h
    rw [pure_ok] at h
    exact h ▸ .tables _ _ _ _ (.refl _)
  | enqueue command createdAtMs =>
    obtain ⟨r, -, -, -, h⟩ := conversationTransaction_ok h
    simp only [bind_ok, require_ok, pure_ok] at h
    obtain ⟨-, -, -, -, outbox, -, rfl⟩ := h
    exact .tables _ _ _ _ (.refl _)
  | markSending id =>
    obtain ⟨r, -, -, -, h⟩ := conversationTransaction_ok h
    simp only [bind_ok, require_ok, pure_ok] at h
    obtain ⟨row, -, -, -, rfl⟩ := h
    exact .tables _ _ _ _ (.refl _)
  | markUnknown id errorCode =>
    obtain ⟨r, -, -, -, h⟩ := conversationTransaction_ok h
    simp only [bind_ok, require_ok] at h
    obtain ⟨row, -, h⟩ := h
    split at h <;> rw [pure_ok] at h <;> subst h
    · exact .tables _ _ _ _ (.refl _)
    · exact .refl s
  | receipt id answer =>
    obtain ⟨data, h⟩ := map_fst_ok h
    exact receipt_beside h
  | unavailableProjection id messageId code =>
    obtain ⟨data, h⟩ := map_fst_ok h
    exact unavailableProjection_beside h

/-- Private rows of another room are not made. -/
theorem Beside.elsewhere {s t : Db} {room other : Uuid} (h : Beside room s t)
    (hne : other ≠ room) (hpriv : t.HasPrivate other) : s.HasPrivate other := by
  rcases hpriv with hrow | hrow | hrow | hrow
  · exact .inl (h.messages.has hne hrow)
  · exact .inr (.inl (h.profiles.has hne hrow))
  · exact .inr (.inr (.inl (h.profileStaging.has hne hrow)))
  · exact .inr (.inr (.inr (h.conversationPages.has hne hrow)))

/-- A command that ran did so under the scope and revision its room was opened with. -/
theorem exec_authority {s t : Db} {c : ConversationScope} {command : ConversationCommand}
    (h : command.exec c s = .ok t) :
    s.authority c.room = some (c.selection.membership.membershipScope,
      c.selection.membership.authorizationRevision) := by
  have hscope : ∀ {α : Type} {action : ConversationCheckpoint → Transaction α} {a : α},
      s.conversationTransaction c action = .ok a →
      s.authority c.room = some (c.selection.membership.membershipScope,
        c.selection.membership.authorizationRevision) := by
    intro α action a ha
    obtain ⟨r, hrow, hroom, hsame, -⟩ := conversationTransaction_ok ha
    rw [← hroom, ← hsame]
    exact authority_of_checkpoint hrow
  have hmapped : ∀ {β γ : Type} {f : β → γ} {x : Transaction β} {a : γ},
      x.map f = .ok a → ∃ b, x = .ok b := by
    intro β γ f x a hx
    cases x with
    | error e => cases hx
    | ok b => exact ⟨b, rfl⟩
  cases command with
  | beginProfiles | actions | saveMedia | removeMedia | enqueue | markSending | markUnknown =>
    exact hscope h
  | restore | current | snapshot | events | history | profiles | projection | receipt |
      unavailableProjection =>
    obtain ⟨b, hb⟩ := hmapped h
    exact hscope hb

/-! ## Purging -/

/-- The rows a room is left with it had, under the same scope and revision. -/
def KeepsPrivate (s t : Db) : Prop :=
  ∀ room, t.HasPrivate room → s.HasPrivate room ∧ t.authority room = s.authority room

theorem KeepsPrivate.refl (s : Db) : KeepsPrivate s s := fun _ h => ⟨h, rfl⟩

/-- What two operations keep, both together keep. -/
theorem KeepsPrivate.trans {s t u : Db} (h : KeepsPrivate s t) (h' : KeepsPrivate t u) :
    KeepsPrivate s u := by
  intro room hpriv
  obtain ⟨ht, hauthority⟩ := h' room hpriv
  obtain ⟨hs, hbefore⟩ := h room ht
  exact ⟨hs, hauthority.trans hbefore⟩

/-- Rows were only removed, a room's private rows with its conversation. -/
structure Trims (s t : Db) : Prop where
  memberships : t.memberships = s.memberships
  staged : t.staged = s.staged
  pages : t.pages = s.pages
  checkpoints : ∀ r ∈ t.checkpoints, r ∈ s.checkpoints
  conversationPages : ∀ r ∈ t.conversationPages, r ∈ s.conversationPages
  outbox : ∀ r ∈ t.outbox, r ∈ s.outbox
  keeps : KeepsPrivate s t

namespace Trims

variable {s t u : Db}

theorem refl (s : Db) : Trims s s :=
  ⟨rfl, rfl, rfl, fun _ h => h, fun _ h => h, fun _ h => h, .refl s⟩

theorem trans (h : Trims s t) (h' : Trims t u) : Trims s u where
  memberships := h'.memberships.trans h.memberships
  staged := h'.staged.trans h.staged
  pages := h'.pages.trans h.pages
  checkpoints r hr := h.checkpoints r (h'.checkpoints r hr)
  conversationPages r hr := h.conversationPages r (h'.conversationPages r hr)
  outbox r hr := h.outbox r (h'.outbox r hr)
  keeps := h.keeps.trans h'.keeps

end Trims

/-- The private rows and the conversation of every room that meets `p` go together. -/
theorem keepsPrivate_of_delete {s t : Db} {p : Uuid → Prop} [DecidablePred p]
    (hmessages : t.messages = s.messages.delete fun r => p r.roomId)
    (hprofiles : t.profiles = s.profiles.delete fun r => p r.roomId)
    (hstaging : t.profileStaging = s.profileStaging.delete fun r => p r.roomId)
    (hpages : t.conversationPages = s.conversationPages.delete fun r => p r.roomId)
    (hcheckpoints : ∀ r, ¬p r.roomId → (r ∈ t.checkpoints ↔ r ∈ s.checkpoints)) :
    KeepsPrivate s t := by
  have hkept : ∀ {ρ : Type} [Row ρ] {T : Table ρ} {f : ρ → Uuid} {room : Uuid},
      ((T.delete fun r => p (f r)).Has fun r => f r = room) →
      (T.Has fun r => f r = room) ∧ ¬p room := by
    rintro ρ _ T f room ⟨r, hr, hroom⟩
    obtain ⟨hr, hlive⟩ := Table.mem_delete.mp hr
    exact ⟨⟨r, hr, hroom⟩, hroom ▸ hlive⟩
  intro room hpriv
  have hold : s.HasPrivate room ∧ ¬p room := by
    unfold HasPrivate at hpriv
    rw [hmessages, hprofiles, hstaging, hpages] at hpriv
    rcases hpriv with h | h | h | h
    · exact ⟨.inl (hkept h).1, (hkept h).2⟩
    · exact ⟨.inr (.inl (hkept h).1), (hkept h).2⟩
    · exact ⟨.inr (.inr (.inl (hkept h).1)), (hkept h).2⟩
    · exact ⟨.inr (.inr (.inr (hkept h).1)), (hkept h).2⟩
  refine ⟨hold.1, Option.ext fun q => ?_⟩
  rw [authority_eq_some, authority_eq_some]
  constructor
  · rintro ⟨r, hr, rfl, hq⟩
    exact ⟨r, (hcheckpoints r hold.2).mp hr, rfl, hq⟩
  · rintro ⟨r, hr, rfl, hq⟩
    exact ⟨r, (hcheckpoints r hold.2).mpr hr, rfl, hq⟩

/-- Purging what is absent only takes rows away. -/
theorem purgeAbsent_trims (s : Db) : Trims s s.purgeAbsent where
  memberships := rfl
  staged := rfl
  pages := rfl
  checkpoints _ hr := (Table.mem_delete.mp hr).1
  conversationPages _ hr := (Table.mem_delete.mp hr).1
  outbox _ hr := (Table.mem_delete.mp hr).1
  keeps := by
    refine keepsPrivate_of_delete (p := s.Absent) rfl rfl rfl rfl ?_
    intro r hr
    exact ⟨fun h => (Table.mem_delete.mp h).1, fun h => Table.mem_delete.mpr ⟨h, hr⟩⟩

/-- What purging after a member leaves of its room is of its scope. -/
theorem purgeMember_ok (s : Db) (member : Membership) :
    Trims s (s.purgeMember member) ∧
      (∀ r ∈ (s.purgeMember member).checkpoints, r.roomId = member.roomId →
        (r.membership, r.authorization) =
          (member.membershipScope, member.authorizationRevision)) ∧
      (s.purgeMember member).outbox = s.outbox.delete fun r =>
        r.roomId = member.roomId ∧ r.membership ≠ member.membershipScope := by
  unfold purgeMember
  dsimp only
  split
  · refine ⟨?_, ?_, rfl⟩
    · refine ⟨rfl, rfl, rfl, fun r hr => (Table.mem_delete.mp hr).1,
        fun r hr => (Table.mem_delete.mp hr).1, fun r hr => (Table.mem_delete.mp hr).1, ?_⟩
      refine keepsPrivate_of_delete (p := fun room => room = member.roomId) rfl rfl rfl rfl ?_
      intro r hr
      exact ⟨fun h => (Table.mem_delete.mp h).1, fun h => Table.mem_delete.mpr ⟨h, hr⟩⟩
    · intro r hr hroom
      exact absurd hroom (Table.mem_delete.mp hr).2
  · rename_i hrotated
    refine ⟨⟨rfl, rfl, rfl, fun r hr => hr, fun r hr => hr,
      fun r hr => (Table.mem_delete.mp hr).1, fun room hpriv => ⟨hpriv, rfl⟩⟩, ?_, rfl⟩
    intro r hr hroom
    have hrow : s.conversationCheckpoint member.roomId = some r :=
      conversationCheckpoint_eq_some.mpr ⟨hr, hroom⟩
    by_contra hne
    refine hrotated ⟨r, hrow, ?_⟩
    by_contra hboth
    rw [not_or, not_not, not_not] at hboth
    exact hne (Prod.ext hboth.1 hboth.2)

/-- Purging after every member of the list. -/
theorem purgeMembers_ok (ms : List Membership) (s : Db) :
    Trims s (ms.foldl purgeMember s) ∧
      (∀ m ∈ ms, ∀ r ∈ (ms.foldl purgeMember s).checkpoints, r.roomId = m.roomId →
        (r.membership, r.authorization) = (m.membershipScope, m.authorizationRevision)) ∧
      ∀ r, r ∈ (ms.foldl purgeMember s).outbox ↔
        r ∈ s.outbox ∧ ∀ m ∈ ms, r.roomId = m.roomId → r.membership = m.membershipScope := by
  induction ms generalizing s with
  | nil => exact ⟨.refl s, (by simp), fun r => by simp⟩
  | cons m ms ih =>
    obtain ⟨hhead, hcheckpoints, houtbox⟩ := purgeMember_ok s m
    obtain ⟨htail, hrest, hkept⟩ := ih (s.purgeMember m)
    rw [List.foldl_cons]
    refine ⟨hhead.trans htail, ?_, ?_⟩
    · intro n hn r hr
      rcases List.mem_cons.mp hn with rfl | hn
      · exact hcheckpoints r (htail.checkpoints r hr)
      · exact hrest n hn r hr
    · intro r
      rw [hkept, houtbox, Table.mem_delete, List.forall_mem_cons]
      constructor
      · rintro ⟨⟨hr, hscope⟩, hms⟩
        refine ⟨hr, fun hroom => ?_, hms⟩
        by_contra hne
        exact hscope ⟨hroom, hne⟩
      · rintro ⟨hr, hscope, hms⟩
        refine ⟨⟨hr, ?_⟩, hms⟩
        rintro ⟨hroom, hne⟩
        exact hne (hscope hroom)

/-- Installing a manifest takes rows away and puts the staged memberships in place. -/
theorem installManifest_trims (s : Db) :
    Trims { s with memberships := s.staged, staged := .empty } s.installManifest :=
  (purgeAbsent_trims _).trans (purgeMembers_ok _ _).1

/-- The installed manifest and what is left under it. -/
theorem installManifest_ok (s : Db) :
    s.installManifest.memberships = s.staged ∧
      s.installManifest.staged = .empty ∧ s.installManifest.pages = s.pages ∧
      KeepsPrivate s s.installManifest ∧
      (∀ r ∈ s.installManifest.checkpoints, ∃ m ∈ s.staged, m.roomId = r.roomId ∧
        (m.membershipScope, m.authorizationRevision) = (r.membership, r.authorization)) ∧
      (∀ r ∈ s.installManifest.outbox, ∃ m ∈ s.staged, m.roomId = r.roomId ∧
        m.membershipScope = r.membership) ∧
      ∀ r ∈ s.outbox, (∃ m ∈ s.staged, m.roomId = r.roomId ∧ m.membershipScope = r.membership) →
        r ∈ s.installManifest.outbox := by
  have hall := installManifest_trims s
  obtain ⟨htrims, hcheckpoints, houtbox⟩ := purgeMembers_ok s.staged.rows
    { s with memberships := s.staged, staged := .empty }.purgeAbsent
  refine ⟨hall.memberships, hall.staged, hall.pages, hall.keeps, ?_, ?_, ?_⟩
  · intro r hr
    obtain ⟨-, hlisted⟩ := Table.mem_delete.mp (htrims.checkpoints r hr)
    obtain ⟨m, hm, hroom⟩ := not_not.mp hlisted
    exact ⟨m, hm, hroom, (hcheckpoints m hm r hr hroom.symm).symm⟩
  · intro r hr
    obtain ⟨hr', hscope⟩ := (houtbox r).mp hr
    obtain ⟨-, hlisted⟩ := Table.mem_delete.mp hr'
    obtain ⟨m, hm, hroom⟩ := not_not.mp hlisted
    exact ⟨m, hm, hroom, (hscope m hm hroom.symm).symm⟩
  · rintro r hr ⟨m, hm, hroom, hscope⟩
    refine (houtbox r).mpr ⟨Table.mem_delete.mpr ⟨hr, not_not.mpr ⟨m, hm, hroom⟩⟩, ?_⟩
    intro n hn hnroom
    have hsame : n = m := Table.eq_of_key hn hm (k := n.roomId) (by simp [Row.keys])
      (by simp [Row.keys, ← hnroom, hroom])
    rw [hsame, hscope]

/-! ## The manifest -/

theorem mem_requestedPages {s : Db} {purpose : Purpose} {cursor : Option Token} :
    cursor ∈ s.requestedPages purpose ↔ (⟨purpose, cursor⟩ : PageCheckpoint) ∈ s.pages := by
  simp only [requestedPages, List.mem_map, Table.mem_select]
  constructor
  · rintro ⟨r, ⟨hr, rfl⟩, rfl⟩
    exact hr
  · intro hr
    exact ⟨_, ⟨hr, rfl⟩, rfl⟩

/-- The page is noted as requested, and no other. -/
theorem requestedPages_insert {s t : Db} {purpose other : Purpose} {cursor : Option Token}
    (h : s.pages.insert ⟨purpose, cursor⟩ = some t.pages) (c : Option Token) :
    c ∈ t.requestedPages other ↔ c ∈ s.requestedPages other ∨ other = purpose ∧ c = cursor := by
  rw [mem_requestedPages, mem_requestedPages, Table.mem_insert h]
  exact or_congr_right (PageCheckpoint.mk.injEq .. ▸ Iff.rfl)

/-- A page is staged once, under the generation of the pages before. -/
theorem stagePage_ok {s t : Db} {checkpoint : DirectoryCheckpoint} {requested : Option Token}
    {page : ManifestPage} (h : s.stagePage checkpoint requested page = .ok t) :
    (checkpoint.generation = none ∨ checkpoint.generation = some page.generation) ∧
      requested ∉ s.requestedPages .manifest ∧
      ∃ staged pages, s.staged.insertAll page.rooms = some staged ∧
        s.pages.insert ⟨.manifest, requested⟩ = some pages ∧
        t = { s with staged := staged, pages := pages } := by
  simp only [stagePage, bind_ok, valid_ok, require_ok, pure_ok] at h
  obtain ⟨-, hgeneration, -, ⟨hunseen, -⟩, -, -, -, -, staged, hstaged, pages, hpages, rfl⟩ := h
  exact ⟨hgeneration, hunseen, staged, pages, hstaged, hpages, rfl⟩

/-- What an accepted page does: a reset begins anew, any other page is staged and, if it ends
the listing, installed. -/
theorem manifest_ok {s t : Db} {identity : RoomSyncIdentity} {requested : Option Token}
    {page : MembershipPage} {cacheId : Uuid}
    (h : s.manifest identity requested page cacheId = .ok t) :
    ∃ checkpoint ∈ s.checkpoint, checkpoint.manifestCursor = requested ∧
      ((page = .reset ∧ t = s.beginDirectory cacheId) ∨
        ∃ p u, page = .success p ∧ s.stagePage checkpoint requested p = .ok u ∧
          t = { u.completeManifest p.complete with
            checkpoint := some { checkpoint with
              generation := some p.generation
              manifestCursor := p.next
              complete := p.complete } }) := by
  simp only [manifest, bind_ok, require_ok, valid_ok] at h
  obtain ⟨checkpoint, hcheckpoint, -, ⟨-, -, hcursor⟩, h⟩ := h
  refine ⟨checkpoint, hcheckpoint, hcursor, ?_⟩
  cases page with
  | reset =>
    rw [pure_ok] at h
    exact .inl ⟨rfl, h.symm⟩
  | success p =>
    simp only [bind_ok, pure_ok] at h
    obtain ⟨u, hu, rfl⟩ := h
    exact .inr ⟨p, u, rfl, hu, rfl⟩

/-- A new conversation adds nothing private. -/
theorem newConversation_keeps (s : Db) (membership : Membership) (cacheId : Uuid) :
    KeepsPrivate s (s.newConversation membership cacheId) := by
  refine keepsPrivate_of_delete (p := fun room => room = membership.roomId) rfl rfl rfl rfl ?_
  intro r hr
  constructor
  · intro h
    rcases Table.mem_put.mp h with ⟨h, -⟩ | rfl
    · exact h
    · exact absurd rfl hr
  · intro h
    refine Table.mem_put.mpr (.inl ⟨h, ?_⟩)
    rintro ⟨k, hk, hk'⟩
    rw [List.mem_singleton.mp hk] at hk'
    exact hr (List.mem_singleton.mp hk')

/-- Opening a conversation, and purging what an older scope of the room left. -/
theorem beginConversation_ok {s : Db} {selection : ConversationSelection} {cacheId : Uuid}
    {t : Db × ConversationScope} (h : s.beginConversation selection cacheId = .ok t) :
    t.1 = (s.openConversation selection.membership cacheId).1.purgeOldScope
      selection.membership.roomId selection.membership.membershipScope := by
  simp only [beginConversation, bind_ok, require_ok, valid_ok, pure_ok] at h
  obtain ⟨-, -, -, -, -, -, rfl⟩ := h
  rfl

/-- Opening a room adds nothing private. -/
theorem openConversation_keeps (s : Db) (membership : Membership) (cacheId : Uuid) :
    KeepsPrivate s (s.openConversation membership cacheId).1 := by
  unfold openConversation
  split
  · exact .refl s
  · exact newConversation_keeps s membership cacheId

/-- Withdrawing an owner leaves the rooms' authorities. -/
theorem withdraw_authority (s : Db) (room : Uuid) : s.withdraw.authority room = s.authority room := by
  apply Option.ext
  intro p
  rw [authority_eq_some, authority_eq_some]
  constructor
  · rintro ⟨r, hr, hroom, hp⟩
    obtain ⟨r', hr', rfl⟩ := (Table.mem_update (k := by exact ⟨fun _ => rfl⟩)).mp hr
    rw [if_pos trivial] at hroom hp
    exact ⟨r', hr', hroom, hp⟩
  · rintro ⟨r, hr, hroom, hp⟩
    have hr' : { r with snapshotComplete := false, profileComplete := false } ∈
        s.withdraw.checkpoints :=
      (Table.mem_update (k := by exact ⟨fun _ => rfl⟩)).mpr ⟨r, hr, (if_pos trivial).symm⟩
    exact ⟨_, hr', hroom, hp⟩

end Db

/-! ## The file -/

/-- The file's content is the old one, or the file is a new one. -/
def Kept (s t : Store) : Prop := t.content = s.content ∨ t.content = {}

namespace Kept

variable {s t u : Store}

theorem refl (s : Store) : Kept s s := .inl rfl

theorem trans (h : Kept s t) (h' : Kept t u) : Kept s u := by
  rcases h' with h' | h'
  · rcases h with h | h
    · exact .inl (h'.trans h)
    · exact .inr (h'.trans h)
  · exact .inr h'

/-- An erased store keeps nothing. -/
theorem erase (s : Store) : Kept s s.erase := .inr rfl

/-- Opening the file creates an empty one or keeps what is there. -/
theorem openDatabase (s : Store) (partition : Token) : Kept s (s.openDatabase partition) := by
  left
  cases h : s.file <;> simp [Store.openDatabase, Store.content, h]

theorem eraseOthers (s : Store) (partition : Token) : Kept s (s.eraseOthers partition) := by
  unfold Store.eraseOthers
  split
  · exact .refl s
  · exact .erase s

theorem eraseStopped (s : Store) (deleted : Bool) : Kept s (s.eraseStopped deleted) := by
  cases deleted
  · exact .inl rfl
  · exact .inr rfl

theorem openDirectory {scope : RoomsAccountScope} (h : s.openDirectory scope = .ok t) :
    Kept s t := by
  simp only [Store.openDirectory, bind_ok, ensure_ok, pure_ok] at h
  obtain ⟨-, -, rfl⟩ := h
  have hopened : ∀ x : Store, Kept x (if x.database then x else
      { (x.eraseOthers scope.partition).openDatabase scope.partition with
        active := some scope }) := by
    intro x
    split
    · exact .refl x
    · exact (eraseOthers x _).trans (openDatabase _ _)
  refine Kept.trans ?_ (hopened _)
  split
  · exact .erase s
  · exact .refl s

theorem openOwner (s : Store) (scope : RoomsAccountScope) : Kept s (s.openOwner scope) := by
  have hcleared : Kept s (if s.cleanup then s.erase else s) := by
    split
    · exact .erase s
    · exact .refl s
  have hopened : ∀ x : Store,
      Kept x (if x.database then x else x.openDatabase scope.partition) := by
    intro x
    split
    · exact .refl x
    · exact openDatabase x _
  exact (hcleared.trans (eraseOthers _ scope.partition)).trans (hopened _)

theorem rebind {scope : RoomsAccountScope} {owner : ConversationOwner}
    (h : s.rebind scope owner = .ok t) : Kept s t := by
  simp only [Store.rebind, bind_ok, ensure_ok, pure_ok] at h
  obtain ⟨-, -, rfl⟩ := h
  show Kept s _
  split
  · exact .refl s
  · exact (erase s).trans (openDatabase _ _)

end Kept

/-- A transaction of the open database ran on the content of the file. -/
theorem withTransaction_ok {s t : Store} {scope : RoomsAccountScope}
    {action : Db → Transaction Db} (h : s.withTransaction scope action = .ok t) :
    action s.content = .ok t.content := by
  simp only [Store.withTransaction, Store.db, bind_ok, ensure_ok, require_ok, pure_ok] at h
  obtain ⟨db, ⟨-, -, file, hfile, rfl⟩, db', haction, rfl⟩ := h
  have hcontent : s.content = file.2 := by simp [Store.content, hfile]
  have hset : (s.setContent db').content = db' := by
    simp [Store.content, Store.setContent, hfile]
  rw [hcontent, hset]
  exact haction

/-! ## The watched store -/

/-- A manifest page with the cursor it was asked for. -/
abbrev Page := Paged Token Token Membership

/-- A store with the pages it has taken since it last asked for the first one. -/
structure Watched where
  store : Store
  /-- The pages accepted since the manifest began. -/
  pages : List Page
  /-- The pages of the manifest that was installed last. -/
  installed : List Page
  /-- The scopes of the operations that ran on a room since it had no private row. -/
  writers : Uuid → List (Token × Token)

/-- The database of a watched store. -/
def Watched.db (w : Watched) : Db := w.store.content

/-- A page of the protocol as the library's page. -/
def ManifestPage.paged (page : ManifestPage) (requested : Option Token) : Page :=
  ⟨requested, page.generation, page.rooms, page.next⟩

/-- The pages taken so far, after a command. -/
def StoreCommand.pages : StoreCommand → List Page → List Page
  | .begin_ _ _, _ => []
  | .manifest _ _ _ .reset _, _ => []
  | .manifest _ _ requested (.success page) _, ps =>
    ps ++ [page.paged requested]
  | _, ps => ps

/-- The command is a page that ends a manifest. -/
def StoreCommand.Completes : StoreCommand → Prop
  | .manifest _ _ _ (.success page) _ => page.complete = true
  | _ => False

instance (c : StoreCommand) : Decidable c.Completes := by
  unfold StoreCommand.Completes
  split <;> infer_instance

/-- The command opens a file or erases it. -/
def StoreCommand.Opens : StoreCommand → Prop
  | .clear | .eraseStopped _ | .begin_ _ _ | .beginRefused _ | .authorize _ _ |
    .authorizeStopped _ | .authorizeRefused _ _ => True
  | _ => False

/-- The scope under which a command runs on the room. -/
def StoreCommand.writer (room : Uuid) : StoreCommand → List (Token × Token)
  | .conversation c _ =>
    if c.room = room then [(c.selection.membership.membershipScope,
      c.selection.membership.authorizationRevision)] else []
  | _ => []

/-- What a watcher has seen after a command that went through. -/
def Watched.after (w : Watched) (c : StoreCommand) (t : Store) : Watched where
  store := t
  pages := c.pages w.pages
  installed :=
    if c.Completes then c.pages w.pages
    else if t.content.memberships.rows = [] then [] else w.installed
  writers room := if t.content.HasPrivate room then c.writer room ++ w.writers room else []

/-- The store from no file at all, under any commands of any logins. -/
def directory : System Watched StoreCommand where
  init w := w = ⟨{}, [], [], fun _ => []⟩
  step c w w' := ∃ t, c.exec w.store = .ok t ∧ w' = w.after c t

/-- The unfinished manifest is what was staged since it began. -/
structure Running (m : DirectoryCheckpoint) (s : Db) (ps : List Page) : Prop where
  staged : s.staged.rows = Paging.items ps
  follows : Paging.Follows ps
  next : m.manifestCursor = Paging.cursor ps
  generation : ∀ p ∈ ps, m.generation = some p.generation
  requested : ∀ c ∈ ps.map (·.requested), c ∈ s.requestedPages .manifest

/-- The memberships are those of one complete run. A manifest whose cursor was answered before
takes no page, so only the others need be running. -/
structure Watched.Listing (w : Watched) : Prop where
  listed : w.db.memberships.rows = Paging.items w.installed
  complete : w.installed = [] ∨ Paging.Complete w.installed
  running : ∀ m ∈ w.db.checkpoint, m.manifestCursor ∉ w.db.requestedPages .manifest →
    Running m w.db w.pages

/-- Private rows stand under the scope and revision of their room's conversation. -/
structure Watched.Cached (w : Watched) : Prop where
  opened : ∀ room, w.db.HasPrivate room → (w.db.authority room).isSome = true
  writers : ∀ room, ∀ p ∈ w.writers room, w.db.authority room = some p

/-! ## The manifest run -/

/-- A new listing has staged nothing. -/
theorem running_start (s : Db) (cacheId : Uuid) :
    Running { cacheId := cacheId } (s.beginDirectory cacheId) [] where
  staged := rfl
  follows := Paging.follows_nil
  next := rfl
  generation := by simp
  requested _ h := by cases h

/-- A page with the current cursor, not answered before, continues the run. -/
theorem Running.snoc {m : DirectoryCheckpoint} {s t : Db} {ps : List Page} (h : Running m s ps)
    {page : ManifestPage} {requested : Option Token} (hcursor : m.manifestCursor = requested)
    (hstage : s.stagePage m requested page = .ok t) :
    t.staged.rows = Paging.items (ps ++ [page.paged requested]) ∧
    Paging.Follows (ps ++ [page.paged requested]) ∧
    none ∈ t.requestedPages .manifest ∧
    ∀ c ∈ (ps ++ [page.paged requested]).map (·.requested),
      c ∈ t.requestedPages .manifest := by
  obtain ⟨hgeneration, hunseen, staged, pages, hstaged, hpages, rfl⟩ := stagePage_ok hstage
  have hanswers : requested = Paging.cursor ps := hcursor.symm.trans h.next
  have hunused : requested ∉ ps.map (·.requested) := fun hused =>
    hunseen (h.requested requested hused)
  -- A run that has begun has answered the empty cursor.
  have hbegun : ps ≠ [] → none ∈ s.requestedPages .manifest := by
    intro hne
    apply h.requested none
    obtain ⟨p, rest, rfl⟩ := List.exists_cons_of_ne_nil hne
    exact List.mem_map.mpr ⟨p, List.mem_cons_self, h.follows.first p rfl⟩
  have hopen : ps ≠ [] → Paging.cursor ps ≠ none := by
    intro hne hnone
    rw [hanswers, hnone] at hunseen
    exact hunseen (hbegun hne)
  have hsame : ∀ q ∈ ps, q.generation = page.generation := by
    intro q hq
    have hq' := h.generation q hq
    rcases hgeneration with hnone | hsame
    · rw [hnone] at hq'
      cases hq'
    · exact Option.some.inj (hq'.symm.trans hsame)
  have hnoted : ∀ c, c ∈ Db.requestedPages { s with staged := staged, pages := pages } .manifest ↔
      c ∈ s.requestedPages .manifest ∨ Purpose.manifest = .manifest ∧ c = requested :=
    requestedPages_insert hpages
  refine ⟨?_, h.follows.snoc hopen hanswers hunused hsame, ?_, ?_⟩
  · rw [Paging.items_snoc, ← h.staged]
    exact Table.rows_insertAll hstaged
  · rw [hnoted]
    by_cases hne : ps = []
    · right
      rw [hanswers, hne]
      exact ⟨rfl, rfl⟩
    · exact .inl (hbegun hne)
  · intro c hc
    rw [hnoted]
    rw [List.map_append, List.mem_append, List.map_singleton, List.mem_singleton] at hc
    rcases hc with hc | hc
    · exact .inl (h.requested c hc)
    · exact .inr ⟨rfl, hc⟩

/-- The parts of the store the manifest is kept in. -/
structure SameManifest (s t : Db) : Prop where
  memberships : t.memberships = s.memberships
  staged : t.staged = s.staged
  requested : ∀ c, c ∈ t.requestedPages .manifest ↔ c ∈ s.requestedPages .manifest
  checkpoint : ∀ m ∈ t.checkpoint, ∃ n ∈ s.checkpoint,
    m.manifestCursor = n.manifestCursor ∧ m.generation = n.generation

theorem SameManifest.refl (s : Db) : SameManifest s s :=
  ⟨rfl, rfl, fun _ => Iff.rfl, fun m hm => ⟨m, hm, rfl, rfl⟩⟩

/-- Withdrawing an owner leaves a listing as it is. -/
theorem withdraw_manifest (s : Db) : SameManifest s s.withdraw := by
  refine { SameManifest.refl s with checkpoint := ?_ }
  intro m hm
  obtain ⟨n, hn, rfl⟩ := Option.map_eq_some_iff.mp hm
  exact ⟨n, hn, rfl, rfl⟩

theorem authorize_manifest (s : Db) (owner : ConversationOwner) :
    SameManifest s (s.authorize owner) := by
  have h := withdraw_manifest { s with owner := some owner }
  exact ⟨h.memberships, h.staged, h.requested, h.checkpoint⟩

theorem newConversation_manifest (s : Db) (membership : Membership) (cacheId : Uuid) :
    SameManifest s (s.newConversation membership cacheId) :=
  ⟨rfl, rfl, fun _ => Iff.rfl, fun m hm => ⟨m, hm, rfl, rfl⟩⟩

theorem openConversation_manifest (s : Db) (membership : Membership) (cacheId : Uuid) :
    SameManifest s (s.openConversation membership cacheId).1 := by
  unfold openConversation
  split
  · exact .refl s
  · exact newConversation_manifest s membership cacheId

theorem discoveryPage_manifest {s t : Db} {identity : RoomSyncIdentity} {after : Option Uuid}
    {page : DiscoveryPage} (h : s.discoveryPage identity after page = .ok t) :
    SameManifest s t := by
  simp only [discoveryPage, bind_ok, require_ok, valid_ok, pure_ok] at h
  obtain ⟨m, hm, -, -, -, -, -, -, -, -, -, -, pages, hpages, rfl⟩ := h
  refine ⟨rfl, rfl, ?_, ?_⟩
  · intro c
    rw [mem_requestedPages, mem_requestedPages]
    show _ ∈ pages ↔ _
    rw [Table.mem_insert hpages]
    simp
  · intro n hn
    obtain rfl := Option.some.inj hn
    exact ⟨m, hm, rfl, rfl⟩

/-- The pages of a completed listing are the installed ones. -/
theorem Watched.after_completes {w : Watched} {c : StoreCommand} {t : Store} (hc : c.Completes) :
    (w.after c t).installed = c.pages w.pages := if_pos hc

/-- Without a completing page the installed run stays, or nothing is listed. -/
theorem Watched.Listing.installed {w : Watched} {c : StoreCommand} {t : Store} (h : w.Listing)
    (hc : ¬c.Completes)
    (hkept : t.content.memberships = w.db.memberships ∨ t.content.memberships.rows = []) :
    t.content.memberships.rows = Paging.items (w.after c t).installed ∧
      ((w.after c t).installed = [] ∨ Paging.Complete (w.after c t).installed) := by
  have hinstalled : (w.after c t).installed =
      if t.content.memberships.rows = [] then [] else w.installed := if_neg hc
  rw [hinstalled]
  by_cases hempty : t.content.memberships.rows = []
  · rw [if_pos hempty, hempty]
    exact ⟨rfl, .inl rfl⟩
  · rw [if_neg hempty]
    have hsame := hkept.resolve_right hempty
    rw [hsame]
    exact ⟨h.listed, h.complete⟩

/-- A command that leaves the listing alone keeps what is known of it. -/
theorem Watched.Listing.of_same {w : Watched} {c : StoreCommand} {t : Store} (h : w.Listing)
    (hsame : SameManifest w.db t.content) (hpages : c.pages w.pages = w.pages)
    (hc : ¬c.Completes) : (w.after c t).Listing := by
  obtain ⟨hlisted, hcomplete⟩ := h.installed (t := t) hc (.inl hsame.memberships)
  refine ⟨hlisted, hcomplete, ?_⟩
  intro m hm hopen
  obtain ⟨n, hn, hcursor, hgeneration⟩ := hsame.checkpoint m hm
  have hopen' : n.manifestCursor ∉ w.db.requestedPages .manifest := by
    rw [← hcursor, ← hsame.requested]
    exact hopen
  have hrun := h.running n hn hopen'
  show Running m t.content (c.pages w.pages)
  rw [hpages]
  exact {
    staged := hsame.staged ▸ hrun.staged
    follows := hrun.follows
    next := hcursor.trans hrun.next
    generation := fun p hp => hgeneration.trans (hrun.generation p hp)
    requested := fun c hc => (hsame.requested c).mpr (hrun.requested c hc) }

/-- Nothing is listed and no manifest has begun. -/
theorem Watched.Listing.of_blank {w : Watched} {c : StoreCommand} {t : Store} (h : w.Listing)
    (hmemberships : t.content.memberships.rows = []) (hcheckpoint : t.content.checkpoint = none)
    (hc : ¬c.Completes) : (w.after c t).Listing := by
  obtain ⟨hlisted, hcomplete⟩ := h.installed (t := t) hc (.inr hmemberships)
  refine ⟨hlisted, hcomplete, ?_⟩
  intro m hm _
  have hm' : m ∈ t.content.checkpoint := hm
  rw [hcheckpoint] at hm'
  cases hm'

/-- A file that is kept or a new one. -/
theorem Watched.Listing.of_kept {w : Watched} {c : StoreCommand} {t : Store} (h : w.Listing)
    (hkept : Kept w.store t) (hpages : c.pages w.pages = w.pages) (hc : ¬c.Completes) :
    (w.after c t).Listing := by
  rcases hkept with hsame | hnew
  · refine h.of_same ?_ hpages hc
    rw [hsame]
    exact .refl _
  · exact h.of_blank (by rw [hnew]; rfl) (by rw [hnew]) hc

/-- The directory begins anew over a file whose memberships are kept or gone. -/
theorem Watched.Listing.of_begin {w : Watched} {c : StoreCommand} {t : Store} (h : w.Listing)
    {s : Db} {cacheId : Uuid} (ht : t.content = s.beginDirectory cacheId)
    (hkept : s.memberships = w.db.memberships ∨ s.memberships.rows = [])
    (hpages : c.pages w.pages = []) (hc : ¬c.Completes) : (w.after c t).Listing := by
  have hmemberships : t.content.memberships = s.memberships := by
    rw [ht]
    rfl
  obtain ⟨hlisted, hcomplete⟩ := h.installed (t := t) hc (hmemberships ▸ hkept)
  refine ⟨hlisted, hcomplete, ?_⟩
  intro m hm _
  have hm' : m ∈ t.content.checkpoint := hm
  rw [ht] at hm'
  obtain rfl := Option.some.inj hm'
  show Running _ t.content (c.pages w.pages)
  rw [hpages, ht]
  exact running_start s cacheId

/-- A manifest page keeps the listing, and its last page installs it. -/
theorem Watched.Listing.manifest {w : Watched} {t : Store} {scope : RoomsAccountScope}
    {identity : RoomSyncIdentity} {requested : Option Token} {page : MembershipPage}
    {cacheId : Uuid} (h : w.Listing)
    (hok : w.db.manifest identity requested page cacheId = .ok t.content) :
    (w.after (.manifest scope identity requested page cacheId) t).Listing := by
  obtain ⟨m, hm, hcursor, ⟨rfl, ht⟩ | ⟨p, u, rfl, hstage, ht⟩⟩ := manifest_ok hok
  · -- a reset begins the listing anew
    exact h.of_begin ht (.inl rfl) rfl id
  · have hopen : m.manifestCursor ∉ w.db.requestedPages .manifest := by
      rw [hcursor]
      exact (stagePage_ok hstage).2.1
    have hrun := h.running m hm hopen
    obtain ⟨hstaged, hfollows, hnone, hnoted⟩ := hrun.snoc hcursor hstage
    -- a page that is staged: the last one installs, the others go on
    cases hcomplete : p.complete with
    | true =>
      rw [hcomplete] at ht
      have hc : (StoreCommand.manifest scope identity requested (.success p) cacheId).Completes :=
        hcomplete
      obtain ⟨hmemberships, -, hpages, -⟩ := installManifest_ok u
      have hlast : p.next = none := p.ends.mp hcomplete
      refine ⟨?_, ?_, ?_⟩
      · rw [Watched.after_completes hc]
        show t.content.memberships.rows = _
        rw [ht]
        exact (congrArg Table.rows hmemberships).trans hstaged
      · rw [Watched.after_completes hc]
        exact .inr (hfollows.complete (by simp) (by rw [Paging.cursor_snoc]; exact hlast))
      · -- The run is over: its cursor is the empty one, which the first page answered.
        intro n hn hfresh
        have hn' : n ∈ t.content.checkpoint := hn
        have hfresh' : n.manifestCursor ∉ t.content.requestedPages .manifest := hfresh
        rw [ht] at hn' hfresh'
        obtain rfl := Option.some.inj hn'
        refine absurd ?_ hfresh'
        rw [mem_requestedPages]
        show (⟨.manifest, p.next⟩ : PageCheckpoint) ∈ u.installManifest.pages
        rw [hpages, hlast]
        exact mem_requestedPages.mp hnone
    | false =>
      rw [hcomplete] at ht
      have hc : ¬(StoreCommand.manifest scope identity requested (.success p) cacheId).Completes :=
        fun hc => absurd (hc.symm.trans hcomplete) (by decide)
      have hmemberships : t.content.memberships = w.db.memberships := by
        obtain ⟨-, -, staged, pages, -, -, rfl⟩ := stagePage_ok hstage
        rw [ht]
        rfl
      obtain ⟨hlisted, hcompleted⟩ := h.installed (t := t) hc (.inl hmemberships)
      refine ⟨hlisted, hcompleted, ?_⟩
      intro n hn _
      have hn' : n ∈ t.content.checkpoint := hn
      rw [ht] at hn'
      obtain rfl := Option.some.inj hn'
      show Running _ t.content (w.pages ++ [p.paged requested])
      rw [ht]
      exact {
        staged := hstaged
        follows := hfollows
        next := by rw [Paging.cursor_snoc]; rfl
        generation := by
          intro q hq
          exact congrArg some (hfollows.same (p.paged requested) (by simp) q hq)
        requested := hnoted }

/-! ## The private rows -/

/-- Private data is kept only where it was. -/
theorem Watched.Cached.of_keeps {w : Watched} {c : StoreCommand} {t : Store} (h : w.Cached)
    (hkeeps : KeepsPrivate w.db t.content) (hwriter : ∀ room, c.writer room = []) :
    (w.after c t).Cached where
  opened := by
    intro room hpriv
    obtain ⟨hold, hsame⟩ := hkeeps room hpriv
    show (t.content.authority room).isSome = true
    rw [hsame]
    exact h.opened room hold
  writers := by
    intro room p hp
    have hp' : p ∈ if t.content.HasPrivate room then c.writer room ++ w.writers room else [] := hp
    show t.content.authority room = some p
    by_cases hpriv : t.content.HasPrivate room
    · rw [if_pos hpriv, hwriter room, List.nil_append] at hp'
      rw [(hkeeps room hpriv).2]
      exact h.writers room p hp'
    · rw [if_neg hpriv] at hp'
      cases hp'

/-- An empty file holds nothing private. -/
theorem not_hasPrivate_empty (room : Uuid) : ¬HasPrivate {} room := by
  rintro (⟨r, hr, -⟩ | ⟨r, hr, -⟩ | ⟨r, hr, -⟩ | ⟨r, hr, -⟩) <;>
    exact absurd hr (Table.not_mem_empty r)

/-- A store that was erased or kept gains no private data. -/
theorem Kept.keeps {s t : Store} (h : Kept s t) : KeepsPrivate s.content t.content := by
  rcases h with h | h
  · rw [h]
    exact .refl _
  · rw [h]
    exact fun room hpriv => absurd hpriv (not_hasPrivate_empty room)

/-- An operation on a conversation writes within a room that was opened. -/
theorem Watched.Cached.conversation {w : Watched} {t : Store} {c : ConversationScope}
    {command : ConversationCommand} (h : w.Cached)
    (hok : command.exec c w.db = .ok t.content) :
    (w.after (.conversation c command) t).Cached := by
  have hauthority := exec_authority hok
  have hb := exec_beside hok
  constructor
  · intro room hpriv
    show (t.content.authority room).isSome = true
    rw [hb.authority room]
    by_cases hroom : room = c.room
    · rw [hroom, hauthority]
      rfl
    · exact h.opened room (hb.elsewhere hroom hpriv)
  · intro room p hp
    have hp' : p ∈ if t.content.HasPrivate room then
        StoreCommand.writer room (.conversation c command) ++ w.writers room else [] := hp
    show t.content.authority room = some p
    rw [hb.authority room]
    split at hp'
    · rcases List.mem_append.mp hp' with hnew | hold
      · -- The command itself: its scope is the one the conversation was opened with.
        by_cases hroom : c.room = room
        · rw [StoreCommand.writer, if_pos hroom, List.mem_singleton] at hnew
          rw [hnew, ← hroom]
          exact hauthority
        · rw [StoreCommand.writer, if_neg hroom] at hnew
          cases hnew
      · exact h.writers room p hold
    · cases hp'

/-- A manifest page adds no private data. -/
theorem manifest_keeps {s t : Db} {identity : RoomSyncIdentity} {requested : Option Token}
    {page : MembershipPage} {cacheId : Uuid}
    (h : s.manifest identity requested page cacheId = .ok t) : KeepsPrivate s t := by
  obtain ⟨m, -, -, ⟨-, rfl⟩ | ⟨p, u, -, hstage, rfl⟩⟩ := manifest_ok h
  · exact fun room hpriv => ⟨hpriv, rfl⟩
  · obtain ⟨-, -, staged, pages, -, -, rfl⟩ := stagePage_ok hstage
    cases p.complete with
    | false => exact fun room hpriv => ⟨hpriv, rfl⟩
    | true =>
      obtain ⟨-, -, -, hkeeps, -⟩ :=
        installManifest_ok { s with staged := staged, pages := pages }
      exact fun room hpriv => hkeeps room hpriv

theorem withdraw_keeps (s : Db) : KeepsPrivate s s.withdraw :=
  fun room hpriv => ⟨hpriv, withdraw_authority s room⟩

theorem authorize_keeps (s : Db) (owner : ConversationOwner) :
    KeepsPrivate s (s.authorize owner) :=
  fun room hpriv => ⟨hpriv, withdraw_authority { s with owner := some owner } room⟩

theorem discoveryPage_keeps {s t : Db} {identity : RoomSyncIdentity} {after : Option Uuid}
    {page : DiscoveryPage} (h : s.discoveryPage identity after page = .ok t) :
    KeepsPrivate s t := by
  simp only [discoveryPage, bind_ok, require_ok, valid_ok, pure_ok] at h
  obtain ⟨m, hm, -, -, -, -, -, -, -, -, -, -, pages, hpages, rfl⟩ := h
  exact fun room hpriv => ⟨hpriv, rfl⟩

/-! ## Every state of the store -/

/-- What the watched store is in every reachable state. -/
structure Watched.Ok (w : Watched) : Prop extends w.Listing, w.Cached

/-- Opening and erasing keep the invariant. -/
theorem Watched.Ok.of_kept {w : Watched} {c : StoreCommand} {t : Store} (h : w.Ok)
    (hkept : Kept w.store t) (hpages : c.pages w.pages = w.pages) (hc : ¬c.Completes)
    (hwriter : ∀ room, c.writer room = []) : (w.after c t).Ok :=
  ⟨h.toListing.of_kept hkept hpages hc, h.of_keeps hkept.keeps hwriter⟩

/-- A command keeps the invariant. -/
theorem exec_ok {w : Watched} {c : StoreCommand} {t : Store} (h : w.Ok)
    (hok : c.exec w.store = .ok t) : (w.after c t).Ok := by
  cases c with
  | crash =>
    obtain rfl := Except.ok.inj hok
    exact h.of_kept (.inl rfl) rfl id fun _ => rfl
  | clear =>
    obtain rfl := Except.ok.inj hok
    exact h.of_kept (.erase _) rfl id fun _ => rfl
  | eraseStopped deleted =>
    obtain rfl := Except.ok.inj hok
    exact h.of_kept (.eraseStopped _ _) rfl id fun _ => rfl
  | withdrawAuthority =>
    obtain rfl := Except.ok.inj hok
    -- the file is written only while it is open
    by_cases hopen : w.store.database = true
    · have ht : w.store.withdrawAuthority.content = w.store.content.withdraw ∨
          w.store.withdrawAuthority.content = w.store.content := by
        cases hfile : w.store.file <;>
          simp [Store.withdrawAuthority, hopen, Store.crash, Store.setContent, Store.content, hfile]
      rcases ht with ht | ht
      · refine ⟨h.toListing.of_same (ht ▸ withdraw_manifest _) rfl id, ?_⟩
        exact h.of_keeps (ht ▸ withdraw_keeps _) fun _ => rfl
      · exact h.of_kept (.inl ht) rfl id fun _ => rfl
    · have ht : w.store.withdrawAuthority.content = w.store.content := by
        simp [Store.withdrawAuthority, hopen, Store.crash, Store.content]
      exact h.of_kept (.inl ht) rfl id fun _ => rfl
  | begin_ scope cacheId =>
    simp only [StoreCommand.exec, bind_ok] at hok
    obtain ⟨u, hu, hok⟩ := hok
    have hkept := Kept.openDirectory hu
    have hdb := withTransaction_ok hok
    have ht := (pure_ok.mp hdb).symm
    refine ⟨h.toListing.of_begin ht ?_ rfl id, h.of_keeps ?_ fun _ => rfl⟩
    · -- the listing starts over the old content or in a new file
      rcases hkept with hsame | hnew
      · exact .inl (by rw [hsame]; rfl)
      · exact .inr (by rw [hnew]; rfl)
    · rw [ht]
      exact hkept.keeps.trans fun room hpriv => ⟨hpriv, rfl⟩
  | beginRefused scope => exact h.of_kept (.openDirectory hok) rfl id fun _ => rfl
  | authorize scope owner =>
    simp only [StoreCommand.exec, bind_ok] at hok
    obtain ⟨u, hu, hok⟩ := hok
    have hkept := (Kept.openOwner w.store scope).trans (Kept.rebind hu)
    have hdb := withTransaction_ok hok
    have ht := (pure_ok.mp hdb).symm
    refine ⟨?_, h.of_keeps (ht ▸ hkept.keeps.trans (authorize_keeps _ _)) fun _ => rfl⟩
    rcases hkept with hsame | hnew
    · rw [hsame] at ht
      exact h.toListing.of_same (ht ▸ authorize_manifest _ _) rfl id
    · rw [hnew] at ht
      exact h.of_blank (by rw [ht]; rfl) (by rw [ht]; rfl) id
  | authorizeStopped scope =>
    obtain rfl := Except.ok.inj hok
    exact h.of_kept (.openOwner _ _) rfl id fun _ => rfl
  | authorizeRefused scope owner =>
    have hkept := (Kept.openOwner w.store scope).trans (Kept.rebind hok)
    exact h.of_kept hkept rfl id fun _ => rfl
  | manifest scope identity requested page cacheId =>
    have hdb := withTransaction_ok hok
    exact ⟨h.toListing.manifest hdb, h.of_keeps (manifest_keeps hdb) fun _ => rfl⟩
  | discovery scope identity after page =>
    have hdb := withTransaction_ok hok
    exact ⟨h.of_same (discoveryPage_manifest hdb) rfl id,
      h.of_keeps (discoveryPage_keeps hdb) fun _ => rfl⟩
  | beginConversation selection cacheId =>
    obtain ⟨d, hdb⟩ := map_fst_ok (withTransaction_ok hok)
    have ht := beginConversation_ok hdb
    have hopened := openConversation_manifest w.db selection.membership cacheId
    have hkeeps := openConversation_keeps w.db selection.membership cacheId
    refine ⟨h.of_same ?_ rfl id, h.of_keeps ?_ fun _ => rfl⟩
    · rw [show t.content = _ from ht]
      exact ⟨hopened.memberships, hopened.staged, hopened.requested, hopened.checkpoint⟩
    · rw [show t.content = _ from ht]
      exact fun room hpriv => hkeeps room hpriv
  | restartConversation selection cacheId =>
    have hdb : pure (w.db.restartConversation selection cacheId).1 = Except.ok t.content :=
      withTransaction_ok hok
    rw [pure_ok] at hdb
    refine ⟨h.of_same (hdb ▸ newConversation_manifest _ _ _) rfl id, h.of_keeps ?_ fun _ => rfl⟩
    exact hdb ▸ newConversation_keeps _ _ _
  | conversation scope command =>
    have hdb := withTransaction_ok hok
    have hb := exec_beside hdb
    -- what stays beside a room leaves the listing alone
    have hsame : SameManifest w.db t.content := by
      refine ⟨hb.memberships, hb.staged, ?_, ?_⟩
      · intro c
        rw [mem_requestedPages, mem_requestedPages, hb.pages]
        exact Iff.rfl
      · intro m hm
        exact ⟨m, hb.checkpoint ▸ hm, rfl, rfl⟩
    exact ⟨h.of_same hsame rfl id, h.toCached.conversation hdb⟩

/-- The invariant holds in every run, crashes and erasures included. -/
theorem reachable_ok {w : Watched} (h : directory.Reachable w) : w.Ok := by
  refine h.induct (P := Watched.Ok) ⟨?_, ?_⟩
  · rintro w rfl
    refine ⟨⟨rfl, .inl rfl, ?_⟩, fun room hpriv => absurd hpriv (not_hasPrivate_empty room), ?_⟩
    · rintro _ ⟨⟩
    · intro _ _ h
      cases h
  · rintro w w' c - ih ⟨t, hok, rfl⟩
    exact exec_ok ih hok

/-! ## What a complete manifest leaves -/

/-- From `s` to `w`, whose store a complete manifest has just been installed in. -/
structure Purged (s : Db) (w : Watched) : Prop where
  conversations : ∀ r ∈ w.db.checkpoints, ∃ m ∈ w.db.memberships, m.roomId = r.roomId ∧
    (m.membershipScope, m.authorizationRevision) = (r.membership, r.authorization)
  rows : ∀ room, w.db.HasPrivate room → ∃ m ∈ w.db.memberships, m.roomId = room ∧
    ∀ p ∈ w.writers room, p = (m.membershipScope, m.authorizationRevision)
  commands : ∀ r ∈ w.db.outbox, ∃ m ∈ w.db.memberships, m.roomId = r.roomId ∧
    m.membershipScope = r.membership
  kept : ∀ r ∈ s.outbox, (∃ m ∈ w.db.memberships, m.roomId = r.roomId ∧
    m.membershipScope = r.membership) → r ∈ w.db.outbox

/-- A completed listing leaves private data only of the memberships it lists. -/
theorem purged_of_completes {w : Watched} {c : StoreCommand} {t : Store} (hw : w.Ok)
    (hc : c.Completes) (h : c.exec w.store = .ok t) : Purged w.db (w.after c t) := by
  have hafter := exec_ok hw h
  cases c with
  | manifest scope identity requested page cacheId =>
    have hdb : w.db.manifest identity requested page cacheId = .ok t.content :=
      withTransaction_ok h
    obtain ⟨m, -, -, ⟨rfl, -⟩ | ⟨p, u, rfl, hstage, ht⟩⟩ := manifest_ok hdb
    · exact absurd hc id
    · have hcomplete : p.complete = true := hc
      rw [hcomplete] at ht
      -- staging writes neither the outbox nor the conversations; the installation then trims them
      have houtbox : u.outbox = w.db.outbox := by
        obtain ⟨-, -, staged, pages, -, -, rfl⟩ := stagePage_ok hstage
        rfl
      obtain ⟨hmemberships, -, -, -, hcheckpoints, hcommands, hkept⟩ := installManifest_ok u
      have hlisted : t.content.memberships = u.staged := by
        rw [ht]
        exact hmemberships
      have hopened : ∀ r ∈ t.content.checkpoints, ∃ m ∈ t.content.memberships,
          m.roomId = r.roomId ∧
            (m.membershipScope, m.authorizationRevision) = (r.membership, r.authorization) := by
        intro r hr
        rw [hlisted]
        rw [ht] at hr
        exact hcheckpoints r hr
      refine ⟨hopened, ?_, ?_, ?_⟩
      · intro room hpriv
        -- who has private data was opened, and whoever wrote it did so under the authority of then
        obtain ⟨q, hq⟩ := Option.isSome_iff_exists.mp (hafter.opened room hpriv)
        obtain ⟨r, hr, hroom, hrq⟩ := authority_eq_some.mp hq
        obtain ⟨n, hn, hid, hscope⟩ := hopened r hr
        refine ⟨n, hn, hid.trans hroom, ?_⟩
        intro o ho
        have hoq := Option.some.inj ((hafter.writers room o ho).symm.trans hq)
        rw [hoq, ← hrq, hscope]
      · intro r hr
        have hr' : r ∈ t.content.outbox := hr
        rw [ht] at hr'
        show ∃ m ∈ t.content.memberships, _
        rw [hlisted]
        exact hcommands r hr'
      · intro r hr hscope
        have hscope' : ∃ m ∈ t.content.memberships, m.roomId = r.roomId ∧
          m.membershipScope = r.membership := hscope
        rw [hlisted] at hscope'
        show r ∈ t.content.outbox
        rw [ht]
        exact hkept r (houtbox ▸ hr) hscope'
  | _ => exact absurd hc id

/-- Only a page that completes a manifest changes the memberships, and a new file has none. -/
theorem exec_memberships {s t : Store} {c : StoreCommand} (hc : ¬c.Completes)
    (h : c.exec s = .ok t) : t.content.memberships = s.content.memberships ∨
      c.Opens ∧ t.content.memberships.rows = [] := by
  -- a command that opens the file keeps the memberships or starts without any
  have hopens : c.Opens → Kept s t → t.content.memberships = s.content.memberships ∨
      c.Opens ∧ t.content.memberships.rows = [] := by
    rintro hopen (hsame | hnew)
    · exact .inl (by rw [hsame])
    · exact .inr ⟨hopen, by rw [hnew]; rfl⟩
  cases c with
  | crash =>
    obtain rfl := Except.ok.inj h
    exact .inl rfl
  | clear =>
    obtain rfl := Except.ok.inj h
    exact hopens trivial (.erase _)
  | eraseStopped deleted =>
    obtain rfl := Except.ok.inj h
    exact hopens trivial (.eraseStopped _ _)
  | withdrawAuthority =>
    obtain rfl := Except.ok.inj h
    left
    unfold Store.withdrawAuthority
    dsimp only
    split
    · cases hfile : s.file <;> simp [Store.crash, Store.content, Store.setContent, hfile, withdraw]
    · rfl
  | begin_ scope cacheId =>
    simp only [StoreCommand.exec, bind_ok] at h
    obtain ⟨u, hu, h⟩ := h
    have hdb := withTransaction_ok h
    have ht := (pure_ok.mp hdb).symm
    rw [ht]
    rcases Kept.openDirectory hu with hsame | hnew
    · exact .inl (by rw [hsame]; rfl)
    · exact .inr ⟨trivial, by rw [hnew]; rfl⟩
  | beginRefused scope => exact hopens trivial (.openDirectory h)
  | authorize scope owner =>
    simp only [StoreCommand.exec, bind_ok] at h
    obtain ⟨u, hu, h⟩ := h
    have hdb := withTransaction_ok h
    have ht := (pure_ok.mp hdb).symm
    rw [ht]
    rcases (Kept.openOwner s scope).trans (Kept.rebind hu) with hsame | hnew
    · exact .inl (by rw [hsame]; rfl)
    · exact .inr ⟨trivial, by rw [hnew]; rfl⟩
  | authorizeStopped scope =>
    obtain rfl := Except.ok.inj h
    exact hopens trivial (.openOwner _ _)
  | authorizeRefused scope owner =>
    exact hopens trivial ((Kept.openOwner s scope).trans (Kept.rebind h))
  | manifest scope identity requested page cacheId =>
    left
    obtain ⟨m, -, -, ⟨-, ht⟩ | ⟨p, u, rfl, hstage, ht⟩⟩ := manifest_ok (withTransaction_ok h)
    · rw [ht]
      rfl
    · -- a page that is not the last one is only staged
      have hpart : p.complete = false := by simpa [StoreCommand.Completes] using hc
      obtain ⟨-, -, staged, pages, -, -, rfl⟩ := stagePage_ok hstage
      rw [ht, hpart]
      rfl
  | discovery scope identity after page =>
    exact .inl (discoveryPage_manifest (withTransaction_ok h)).memberships
  | beginConversation selection cacheId =>
    obtain ⟨d, hdb⟩ := map_fst_ok (withTransaction_ok h)
    have ht := beginConversation_ok hdb
    rw [show t.content = _ from ht]
    exact .inl (openConversation_manifest _ _ _).memberships
  | restartConversation selection cacheId =>
    have hdb : pure (s.content.restartConversation selection cacheId).1 = Except.ok t.content :=
      withTransaction_ok h
    rw [pure_ok] at hdb
    exact .inl (hdb ▸ rfl)
  | conversation scope command => exact .inl (exec_beside (withTransaction_ok h)).memberships

/-- **The directory of the Android store.** In every reachable state the memberships are what
the pages installed last listed, which are none or those of one complete run of one generation,
no cursor used twice; only a page that completes a manifest changes them, and a new file has
none; and it leaves no row of another scope or revision and every command of an unchanged
scope. -/
structure DirectorySound : Prop where
  complete : ∀ w, directory.Reachable w → w.db.memberships.rows = Paging.items w.installed ∧
    (w.installed = [] ∨ Paging.Complete w.installed)
  unchanged : ∀ w c w', directory.Reachable w → directory.step c w w' → ¬c.Completes →
    w'.db.memberships = w.db.memberships ∨ c.Opens ∧ w'.db.memberships.rows = []
  purged : ∀ w c w', directory.Reachable w → directory.step c w w' → c.Completes →
    Purged w.db w'

theorem directory_sound : DirectorySound where
  complete := by
    intro w hw
    have hok := reachable_ok hw
    exact ⟨hok.listed, hok.complete⟩
  unchanged := by
    rintro w c w' - ⟨t, hexec, rfl⟩ hc
    exact exec_memberships hc hexec
  purged := by
    rintro w c w' hw ⟨t, hexec, rfl⟩ hc
    exact purged_of_completes (reachable_ok hw) hc hexec

end Rogichat.Android
