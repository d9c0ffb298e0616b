import Rogichat.Chat.Revocation

/-!
# Deletion reaches every anonymous copy

A copy is read only while its root may be, so withdrawing a source hides all its
copies at once. Publication is a job of several transactions that may run after
the source was removed; each of them looks the source up again under the room's
lock, so that a removed source is never copied.

* **`copies_hidden`** — a withdrawn source hides its copies, in every database.
* **`Traced`** — what one step does to messages, copies and publications;
  **`Command.exec_traced`** — every step but the purge of rows.
* **`deletion_reaches_copies`** — over whole runs.
-/

namespace Rogichat

open Lib

/-- A source nobody may read copies of: deleted, moderated, or of a leaving account. -/
def Withdrawn (db : Db) (source : Message) : Prop :=
  source.deletedAt ≠ none ∨ source.moderated = true ∨
    db.users.Has fun u => u.id = source.contentOwnerUserId ∧ u.status.leaving = true

/-- A message with this id may be copied. -/
def Live (db : Db) (sourceId : Uuid) : Prop :=
  ∃ m ∈ db.messages, m.id = sourceId ∧ ¬Withdrawn db m

/-- No viewer reads the message, by itself or on a page. -/
structure Hidden (db : Db) (m : Message) : Prop where
  unreadable : ∀ now w row viewer, MessagesRepository.load db w m.roomId m.id = some row →
    MessagesCoreService.readable db now viewer row = false
  blocked : MessagesQueryRepository.blocked db m

/-! ## Reading copies -/

/-- The root check of a copy fails once its root is withdrawn. -/
theorem MessagesRepository.rootBlocked_of_withdrawn {db : Db} {m source : Message}
    (hsource : source ∈ db.messages) (hroot : m.deletionRootId = some source.id)
    (hwithdrawn : Withdrawn db source) : rootBlocked db m = true := by
  unfold rootBlocked
  rw [hroot]
  simp only
  split
  · rfl
  · rename_i root hfind
    have hid : root.id = source.id := (Table.holds_of_find? hfind).2
    have hsame : root = source := Table.eq_of_key (Table.mem_of_find? hfind) hsource
      (k := (0, [root.id])) List.mem_cons_self (by rw [hid]; exact List.mem_cons_self)
    rw [hsame]
    rcases hwithdrawn with hdeleted | hmoderated | ⟨u, hu, huid, hleaving⟩
    · simp [Option.isSome_iff_ne_none.mpr hdeleted]
    · simp [hmoderated]
    · have hfound : (db.users.find? fun ru => ru.id = source.contentOwnerUserId) = some u := by
        refine Table.find?_eq_some hu huid (k := (0, [u.id])) List.mem_cons_self ?_
        intro ru hru
        rw [huid, ← hru]
        exact List.mem_cons_self
      simp [hfound, hleaving]

/-- **A withdrawn source hides its copies.** -/
theorem copies_hidden {db : Db} {m source : Message} (hm : m ∈ db.messages)
    (hsource : source ∈ db.messages) (hroot : m.deletionRootId = some source.id)
    (hwithdrawn : Withdrawn db source) : Hidden db m := by
  have hblocked := MessagesRepository.rootBlocked_of_withdrawn hsource hroot hwithdrawn
  refine ⟨?_, .inr (.inr (.inr (.inl hblocked)))⟩
  intro now w row viewer hload
  rw [Bool.eq_false_iff]
  intro hread
  have hloaded := MessagesRepository.load_some hload
  have hsame : row.toMessage = m := Table.eq_of_key hloaded.message hm (k := (0, [m.id]))
    (by rw [← hloaded.id_eq]; exact List.mem_cons_self) List.mem_cons_self
  have hopen := (MessagesCoreService.allowed_available
    (MessagesCoreService.readable_allowed hread)).root
  rw [hloaded.root, hsame, hblocked] at hopen
  cases hopen

/-! ## What a step leaves of copies and publications -/

/-- From `s` to `t` no message or publication was lost, no copy was made and no
publication published. -/
structure Undisturbed (s t : Db) : Prop where
  kept : ∀ m ∈ s.messages, ∃ n ∈ t.messages, m.Later n
  copy : ∀ n ∈ t.messages, ∀ source, n.deletionRootId = some source →
    ∃ m ∈ s.messages, m.id = n.id ∧ m.deletionRootId = some source
  revoked : ∀ p ∈ s.messagePublications, ∃ q ∈ t.messagePublications, q.id = p.id ∧
    (p.state = .revoked → q.state = .revoked)
  published : ∀ q ∈ t.messagePublications, q.state = .published →
    ∃ p ∈ s.messagePublications, p.id = q.id ∧ p.state = .published

/-- From `s` to `t` copies were made of live sources only, and publications of live
sources published. -/
structure Traced (s t : Db) : Prop where
  kept : ∀ m ∈ s.messages, ∃ n ∈ t.messages, m.Later n
  copy : ∀ n ∈ t.messages, ∀ source, n.deletionRootId = some source →
    (∃ m ∈ s.messages, m.id = n.id ∧ m.deletionRootId = some source) ∨ Live s source
  revoked : ∀ p ∈ s.messagePublications, ∃ q ∈ t.messagePublications, q.id = p.id ∧
    (p.state = .revoked → q.state = .revoked)
  published : ∀ q ∈ t.messagePublications, q.state = .published →
    (∃ p ∈ s.messagePublications, p.id = q.id ∧ p.state = .published) ∨ Live s q.sourceMessageId

namespace Undisturbed

theorem traced {s t : Db} (h : Undisturbed s t) : Traced s t :=
  ⟨h.kept, fun n hn source hroot => .inl (h.copy n hn source hroot), h.revoked,
    fun q hq hstate => .inl (h.published q hq hstate)⟩

/-- A change of other tables. -/
theorem of_eq {s t : Db} (hmessages : t.messages = s.messages)
    (hpublications : t.messagePublications = s.messagePublications) : Undisturbed s t where
  kept m hm := ⟨m, hmessages ▸ hm, .refl m⟩
  copy n hn _ hroot := ⟨n, hmessages ▸ hn, rfl, hroot⟩
  revoked p hp := ⟨p, hpublications ▸ hp, rfl, fun h => h⟩
  published q hq hstate := ⟨q, hpublications ▸ hq, rfl, hstate⟩

theorem refl (s : Db) : Undisturbed s s := of_eq rfl rfl

theorem frame {ts : List TableName} {s t : Db} (h : Db.Writes ts s t) (hmessages : .messages ∉ ts)
    (hpublications : .messagePublications ∉ ts) : Undisturbed s t :=
  of_eq (h.messages hmessages) (h.messagePublications hpublications)

theorem trans {s t u : Db} (h : Undisturbed s t) (h' : Undisturbed t u) : Undisturbed s u where
  kept := by
    intro m hm
    obtain ⟨n, hn, hmn⟩ := h.kept m hm
    obtain ⟨o, ho, hno⟩ := h'.kept n hn
    exact ⟨o, ho, hmn.trans hno⟩
  copy := by
    intro o ho source hroot
    obtain ⟨n, hn, hno, hroot'⟩ := h'.copy o ho source hroot
    obtain ⟨m, hm, hmn, hroot''⟩ := h.copy n hn source hroot'
    exact ⟨m, hm, hmn.trans hno, hroot''⟩
  revoked := by
    intro p hp
    obtain ⟨q, hq, hpq, hrev⟩ := h.revoked p hp
    obtain ⟨r, hr, hqr, hrev'⟩ := h'.revoked q hq
    exact ⟨r, hr, hqr.trans hpq, fun hstate => hrev' (hrev hstate)⟩
  published := by
    intro r hr hstate
    obtain ⟨q, hq, hqr, hstate'⟩ := h'.published r hr hstate
    obtain ⟨p, hp, hpq, hstate''⟩ := h.published q hq hstate'
    exact ⟨p, hp, hpq.trans hqr, hstate''⟩

/-- Rows only grow later, and publications are revoked at most. -/
theorem updated {s t : Db} {p : Message → Prop} [DecidablePred p] {f : Message → Message}
    {k : Table.Keeps f} (hmessages : t.messages = s.messages.update p f k)
    (hpublications : t.messagePublications = s.messagePublications)
    (hf : ∀ m, p m → m.Later (f m)) : Undisturbed s t where
  kept m hm := ⟨_, hmessages ▸ Table.mem_update_of_mem hm, Message.Later.ite hf m⟩
  copy := by
    intro n hn source hroot
    rw [hmessages] at hn
    obtain ⟨m, hm, rfl⟩ := Table.mem_update.mp hn
    have hlater := Message.Later.ite hf m
    exact ⟨m, hm, hlater.id.symm, hlater.root ▸ hroot⟩
  revoked p hp := ⟨p, hpublications ▸ hp, rfl, fun h => h⟩
  published q hq hstate := ⟨q, hpublications ▸ hq, rfl, hstate⟩

/-- Some publications are revoked. -/
theorem revoking {s t : Db} {p : MessagePublication → Prop} [DecidablePred p]
    {k : Table.Keeps fun p : MessagePublication => { p with state := .revoked }}
    (hmessages : t.messages = s.messages)
    (hpublications : t.messagePublications = s.messagePublications.update p
      (fun p => { p with state := .revoked }) k) : Undisturbed s t where
  kept m hm := ⟨m, hmessages ▸ hm, .refl m⟩
  copy n hn source hroot := ⟨n, hmessages ▸ hn, rfl, hroot⟩
  revoked := by
    intro q hq
    refine ⟨_, hpublications ▸ Table.mem_update_of_mem hq, ?_⟩
    split
    · exact ⟨rfl, fun _ => rfl⟩
    · exact ⟨rfl, fun h => h⟩
  published := by
    intro q hq hstate
    rw [hpublications] at hq
    obtain ⟨q', hq', rfl⟩ := Table.mem_update.mp hq
    split at hstate
    · cases hstate
    · rename_i hp
      rw [if_neg hp]
      exact ⟨q', hq', rfl, hstate⟩

end Undisturbed

/-! ## Messages -/

namespace MessagesCoreService

open MessagesRepository

/-- A new message is no copy. -/
theorem create_undisturbed {s t : Db} {now : Time} {ids : Nat → Uuid} {roomId userId : Uuid}
    {viewer : ActiveMember} {input : SendInput} {streamId : Uuid} {reply : SendReceipt}
    (h : create s now ids roomId userId viewer input streamId = .ok (t, reply)) :
    Undisturbed s t := by
  have hpublications : t.messagePublications = s.messagePublications :=
    ((create_writes h).messagePublications (by simp))
  obtain ⟨m, -, -, hroot, hinsert⟩ := create_message h
  refine ⟨?_, ?_, ?_, ?_⟩
  · intro n hn
    exact ⟨n, (Table.mem_insert hinsert).mpr (.inl hn), .refl n⟩
  · intro n hn source hcopy
    rcases (Table.mem_insert hinsert).mp hn with hn | rfl
    · exact ⟨n, hn, rfl, hcopy⟩
    · rw [hroot] at hcopy
      cases hcopy
  · intro p hp
    exact ⟨p, hpublications ▸ hp, rfl, fun h => h⟩
  · intro q hq hstate
    exact ⟨q, hpublications ▸ hq, rfl, hstate⟩

theorem send_undisturbed {s t : Db} {now : Time} {ids : Nat → Uuid} {roomId userId : Uuid}
    {input : SendInput} {reply : SendReceipt}
    (h : send s now ids roomId userId input = .ok (t, reply)) : Undisturbed s t := by
  obtain ⟨admission, -, ⟨r, -, rfl, -⟩ | ⟨-, h⟩⟩ := send_ok h
  · exact .refl _
  · obtain ⟨u, streamId, hu, ht⟩ := sendNew_ok h
    exact (Undisturbed.frame (resolveStream_writes hu) (by simp) (by simp)).trans
      (create_undisturbed ht)

theorem blockMessageAndCopies_undisturbed {s t : Db} {now : Time} {request : DeletionRequest}
    {existing : Bool} (h : blockMessageAndCopies s now request existing = .ok t) :
    Undisturbed s t := by
  simp only [blockMessageAndCopies, bind_ok, pure_ok] at h
  obtain ⟨requests, -, rfl⟩ := h
  refine Undisturbed.trans (t := { s with
    messages := s.messages.update
      (fun m => m.roomId = request.roomId ∧ m.id = request.messageId ∧ m.deletedAt = none)
      (MessagesRepository.tombstone now) })
    (.updated (k := by exact ⟨fun _ => rfl⟩) rfl rfl fun m _ => .tombstone now m) ?_
  refine Undisturbed.trans (t := { s with
    messages := (s.messages.update
        (fun m => m.roomId = request.roomId ∧ m.id = request.messageId ∧ m.deletedAt = none)
        (MessagesRepository.tombstone now)).update
      (fun m => m.roomId = request.roomId ∧ m.deletionRootId = some request.messageId ∧
        m.deletedAt = none) (MessagesRepository.tombstone now) })
    (.updated (k := by exact ⟨fun _ => rfl⟩) rfl rfl fun m _ => .tombstone now m) ?_
  exact .revoking (k := by exact ⟨fun _ => rfl⟩) rfl rfl

theorem removeRow_undisturbed {s t : Db} {now : Time} {ids : Nat → Uuid} {intent : DeletionIntent}
    {roomId : Uuid} {row : Message} (h : removeRow s now ids intent roomId row = .ok t) :
    Undisturbed s t := by
  obtain ⟨request, existing, a, -, -, ha, ht⟩ := removeRow_ok h
  have hassets : Undisturbed a ((attachedAssets a roomId intent.targetId).foldl
      (fun db x => blockAsset db now x) a) :=
    .frame (Writes.foldl (fun db x => blockAsset_writes db now x) _ a) (by simp) (by simp)
  exact (blockMessageAndCopies_undisturbed ha).trans
    (hassets.trans (.frame (deletionEvent_writes ht) (by simp) (by simp)))

theorem remove_undisturbed {s t : Db} {now : Time} {ids : Nat → Uuid} {intent : DeletionIntent}
    {done : Bool} (h : remove s now ids intent = .ok (t, done)) : Undisturbed s t := by
  rcases remove_ok h with ⟨rfl, -⟩ | ⟨roomId, row, -, -, -, h⟩
  · exact .refl _
  · exact removeRow_undisturbed h

/-- A committed removal leaves its message deleted. -/
theorem remove_deleted {s t : Db} {now : Time} {ids : Nat → Uuid} {intent : DeletionIntent}
    (h : remove s now ids intent = .ok (t, true)) :
    ∃ m ∈ t.messages, m.id = intent.targetId ∧ m.deletedAt ≠ none := by
  rcases remove_ok h with ⟨-, hdone⟩ | ⟨roomId, row, -, -, hrow, h⟩
  · cases hdone
  obtain ⟨hmem, hroom, hid⟩ : row ∈ s.messages ∧ row.roomId = roomId ∧ row.id = intent.targetId := by
    simp only [ownedMessage, Option.bind_eq_bind, Option.bind_eq_some_iff, Option.pure_def,
      Option.some.injEq] at hrow
    obtain ⟨m, hm, sender, -, rfl⟩ := hrow
    have hholds := Table.holds_of_find? hm
    exact ⟨Table.mem_of_find? hm, hholds.1, hholds.2⟩
  obtain ⟨request, existing, a, hreqroom, hreqid, ha, ht⟩ := removeRow_ok h
  have hassets : Db.Writes [.mediaAssets] a ((attachedAssets a roomId intent.targetId).foldl
      (fun db x => blockAsset db now x) a) :=
    Writes.foldl (fun db x => blockAsset_writes db now x) _ a
  have hmessages : t.messages = a.messages := by
    rw [(deletionEvent_writes ht).messages (by simp), hassets.messages (by simp)]
  have hblocked : ∃ m ∈ a.messages, m.id = intent.targetId ∧ m.deletedAt ≠ none := by
    rw [blockMessageAndCopies_messages ha]
    rw [hreqroom, hreqid]
    obtain ⟨m, hm, hmid, hdeleted⟩ : ∃ m ∈ s.messages.update (fun m => m.roomId = roomId ∧
        m.id = intent.targetId ∧ m.deletedAt = none) (MessagesRepository.tombstone now),
        m.id = intent.targetId ∧ m.deletedAt ≠ none := by
      refine ⟨_, Table.mem_update_of_mem hmem, ?_⟩
      by_cases hlive : row.deletedAt = none
      · rw [if_pos ⟨hroom, hid, hlive⟩]
        exact ⟨hid, Option.some_ne_none _⟩
      · rw [if_neg fun h => hlive h.2.2]
        exact ⟨hid, hlive⟩
    have hlater := Message.Later.ite (p := fun m => m.roomId = roomId ∧
      m.deletionRootId = some intent.targetId ∧ m.deletedAt = none)
      (fun m _ => .tombstone now m) m
    exact ⟨_, Table.mem_update_of_mem hm, hlater.id.trans hmid, hlater.deleted hdeleted⟩
  rw [hmessages]
  exact hblocked

theorem invalidateRows_undisturbed {rows : List Message} {s t : Db} {ids : Nat → Uuid}
    (h : invalidateRows s ids rows = .ok t) : Undisturbed s t := by
  induction rows generalizing s ids with
  | nil =>
    cases h
    exact .refl _
  | cons row rows ih =>
    simp only [invalidateRows, recordEvent, bind_ok] at h
    obtain ⟨-, -, ⟨a, order⟩, ha, b, hb, hrest⟩ := h
    have hmoderated : Undisturbed s (moderateSticker s row) :=
      .updated (k := by exact ⟨fun _ => rfl⟩) rfl rfl fun _ _ =>
        ⟨rfl, rfl, rfl, rfl, rfl, rfl, rfl, rfl, Nat.le_succ _, fun h => h, fun _ => rfl⟩
    exact hmoderated.trans ((Undisturbed.frame (nextDeletionOrder_writes ha) (by simp)
      (by simp)).trans ((Undisturbed.frame (event_ok hb).2 (by simp) (by simp)).trans (ih hrest)))

theorem invalidateRevokedSticker_undisturbed {s t : Db} {ids : Nat → Uuid} {assetId : Uuid}
    {cursor : Option Uuid} (h : invalidateRevokedSticker s ids assetId = .ok (t, cursor)) :
    Undisturbed s t := by
  rcases invalidateRevokedSticker_ok h with rfl | ⟨rows, -, h⟩
  · exact .refl _
  · exact invalidateRows_undisturbed h

end MessagesCoreService

theorem ReactionsCoreService.setReaction_undisturbed {s t : Db} {now : Time} {ids : Nat → Uuid}
    {roomId userId messageId : Uuid} {emoji : Option String}
    (h : setReaction s now ids roomId userId messageId emoji = .ok t) : Undisturbed s t := by
  rcases setReaction_ok h with rfl | ⟨viewer, row, a, b, order, -, -, -, ha, hb, he⟩
  · exact .refl _
  · have hversion : Undisturbed a (ReactionsRepository.advanceVersion a roomId messageId) :=
      .updated (k := by exact ⟨fun _ => rfl⟩) rfl rfl fun _ _ =>
        ⟨rfl, rfl, rfl, rfl, rfl, rfl, rfl, rfl, Nat.le_succ _, fun h => h, fun h => h⟩
    exact (Undisturbed.frame (ReactionsRepository.write_writes ha) (by simp) (by simp)).trans
      (hversion.trans ((Undisturbed.frame (RoomStateService.nextOrder_writes hb) (by simp)
        (by simp)).trans (.frame (MessagesRepository.event_ok he).2 (by simp) (by simp))))

/-! ## Publications -/

namespace PublicationsCoreService

open PublicationsRepository PublicationPhotoRepository

/-- A source the owner may publish is live. -/
theorem Sourced.live {s : Db} {now : Time} {roomId userId messageId : Uuid} {e : Eligible}
    (h : Sourced s now roomId userId messageId e) : e.source.id = messageId ∧ Live s messageId := by
  have hloaded := MessagesRepository.load_some h.source
  refine ⟨hloaded.id_eq, e.source.toMessage, hloaded.message, hloaded.id_eq, ?_⟩
  obtain ⟨r, -, -, hcan⟩ := h.room
  unfold canPublishSource at hcan
  rw [Bool.and_eq_true, Bool.and_eq_true, Bool.and_eq_true] at hcan
  have havailable := hcan.1.1.1
  simp only [available, MessagesCoreService.messageFacts, Bool.and_eq_true, Bool.not_eq_true',
    Bool.or_eq_false_iff, Option.isSome_eq_false_iff, Option.isNone_iff_eq_none] at havailable
  obtain ⟨⟨⟨-, hdeleted⟩, hmoderated⟩, -, howner⟩ := havailable
  rintro (hdel | hmod | ⟨u, hu, hid, hleaving⟩)
  · exact hdel hdeleted
  · rw [hmoderated] at hmod
    cases hmod
  · obtain ⟨u', hu', hid', hstatus⟩ := hloaded.owner
    have hsame : u' = u := Table.eq_of_key hu' hu (k := (0, [u.id]))
      (by rw [hid, ← hid']; exact List.mem_cons_self) List.mem_cons_self
    rw [← hstatus, hsame, hleaving] at howner
    cases howner

theorem requestPublication_undisturbed {s t : Db} {now : Time} {ids : Nat → Uuid}
    {roomId userId messageId : Uuid} {reply : PublicationReceipt}
    (h : requestPublication s now ids roomId userId messageId = .ok (t, reply)) :
    Undisturbed s t := by
  obtain ⟨e, -, ⟨rfl, -⟩ | ⟨-, hw, hinsert⟩⟩ := requestPublication_ok h
  · exact .refl _
  · refine ⟨?_, ?_, ?_, ?_⟩
    · intro m hm
      exact ⟨m, hw.messages (by simp) ▸ hm, .refl m⟩
    · intro n hn source hroot
      exact ⟨n, hw.messages (by simp) ▸ hn, rfl, hroot⟩
    · intro p hp
      exact ⟨p, (Table.mem_insert hinsert).mpr (.inl hp), rfl, fun h => h⟩
    · intro q hq hstate
      rcases (Table.mem_insert hinsert).mp hq with hq | rfl
      · exact ⟨q, hq, rfl, hstate⟩
      · cases hstate

theorem revoke_undisturbed (s : Db) (publicationId : Uuid) :
    Undisturbed s (revoke s publicationId) :=
  .revoking (k := by exact ⟨fun _ => rfl⟩) rfl rfl

theorem discard_undisturbed (s : Db) (now : Time) (publicationId : Uuid) :
    Undisturbed s (discardCopies s now publicationId) :=
  .frame (discardCopies_writes s now publicationId) (by simp) (by simp)

/-- A copy's attachments leave the other messages alone. -/
theorem attachCopies_kept {s t : Db} {ids : Nat → Uuid} {roomId messageId : Uuid}
    {attempts : Option (List PhotoAttempt)}
    (h : attachCopies s ids roomId messageId attempts = .ok t) {m : Message} (hm : m ∈ s.messages)
    (hid : m.id ≠ messageId) : m ∈ t.messages := by
  cases attempts with
  | none =>
    cases h
    exact hm
  | some attempts =>
    rw [(PublicationPhotoRepository.attach_ok h).1]
    exact Table.mem_update.mpr ⟨m, hm, by rw [if_neg hid]⟩

/-- A publication makes one copy of a live source and publishes one publication. -/
theorem publishCopy_traced {s a t : Db} {now : Time} {ids : Nat → Uuid} {userId : Uuid}
    {p : MessagePublication} {e : Eligible} {text : Option String}
    {attempts : Option (List PhotoAttempt)} (hp : p ∈ s.messagePublications)
    (hstate : p.state = .preparing) (hsourced : Sourced s now p.roomId userId p.sourceMessageId e)
    (ha : Db.Writes [.mediaAssets, .mediaObjects] s a)
    (h : publishCopy a now ids p.roomId p.id e text attempts = .ok t) : Traced s t := by
  obtain ⟨stream, b, order, messages, c, -, hb, hm, hc, he⟩ := publishCopy_ok h
  obtain ⟨hid, hlive⟩ := hsourced.live
  have hevent := (MessagesRepository.event_ok he).2
  have hbm : b.messages = s.messages := by
    rw [(RoomStateService.nextOrder_writes hb).messages (by simp), ha.messages (by simp)]
  -- one publication is rewritten, the one the worker leases
  have hpublications : t.messagePublications = s.messagePublications.update (fun q => q.id = p.id)
      (fun q => { q with state := .published, publishedMessageId := some (ids 0) }) := by
    have hc' : c.messagePublications = b.messagePublications :=
      ((attachCopies_writes hc).messagePublications (by simp))
    have hs : b.messagePublications = s.messagePublications := by
      rw [(RoomStateService.nextOrder_writes hb).messagePublications (by simp),
        ha.messagePublications (by simp)]
    rw [hevent.messagePublications (by simp), ← hs, ← hc']
    rfl
  have hmessages : t.messages = c.messages := by
    rw [hevent.messages (by simp), (publish_writes c (ids 0) p.id).messages (by simp)]
  refine ⟨?_, ?_, ?_, ?_⟩
  · -- no message is changed
    intro m hmem
    refine ⟨m, ?_, .refl m⟩
    rw [← hbm] at hmem
    rw [hmessages]
    refine attachCopies_kept hc ((Table.mem_insert hm).mpr (.inl hmem)) fun hmid => ?_
    exact Table.fresh_of_insert hm hmem
      ⟨(0, [m.id]), List.mem_cons_self, List.mem_singleton.mpr (by rw [hmid]; rfl)⟩
  · intro n hn source hroot
    rw [hmessages] at hn
    obtain ⟨m, hmem, hnm⟩ := attachCopies_messages hc n hn
    have hsame : m.id = n.id ∧ m.deletionRootId = n.deletionRootId := by
      rcases hnm with rfl | ⟨-, rfl⟩
      · exact ⟨rfl, rfl⟩
      · exact ⟨rfl, rfl⟩
    rcases (Table.mem_insert hm).mp hmem with hold | rfl
    · exact .inl ⟨m, hbm ▸ hold, hsame.1, hsame.2.trans hroot⟩
    · -- The one new copy is of the source the worker just looked up.
      right
      have hsource : e.source.id = source := Option.some.inj (hsame.2.trans hroot)
      rw [← hsource, hid]
      exact hlive
  · intro q hq
    rw [hpublications]
    refine ⟨_, Table.mem_update_of_mem hq, ?_⟩
    split
    · rename_i hqp
      have hsame : q = p := Table.eq_of_key hq hp (k := (0, [q.id])) List.mem_cons_self
        (by rw [hqp]; exact List.mem_cons_self)
      refine ⟨rfl, fun hrevoked => ?_⟩
      rw [hsame, hstate] at hrevoked
      cases hrevoked
    · exact ⟨rfl, fun h => h⟩
  · intro q hq hpublished
    rw [hpublications] at hq
    obtain ⟨q', hq', rfl⟩ := Table.mem_update.mp hq
    split
    · rename_i hqp
      have hsame : q' = p := Table.eq_of_key hq' hp (k := (0, [q'.id])) List.mem_cons_self
        (by rw [hqp]; exact List.mem_cons_self)
      right
      rw [hsame]
      exact hlive
    · rename_i hqp
      rw [if_neg hqp] at hpublished
      exact .inl ⟨q', hq', rfl, hpublished⟩

theorem publishText_traced {s t : Db} {now : Time} {ids : Nat → Uuid} {lease : PublicationLease}
    {held : Bool} (h : publishText s now ids lease held = .ok t) : Traced s t := by
  rcases publishText_ok h with rfl | ⟨p, hp, hstate, rfl | ⟨userId, e, hsourced, -, h⟩⟩
  · exact (Undisturbed.refl _).traced
  · exact (revoke_undisturbed s p.id).traced
  · exact publishCopy_traced hp hstate hsourced (Writes.refl s) h

theorem preparePhoto_undisturbed {s t : Db} {now : Time} {ids : Nat → Uuid}
    {lease : PublicationLease} {held : Bool} {prepared : Prepared}
    (h : preparePhoto s now ids lease held = .ok (t, prepared)) : Undisturbed s t := by
  rcases preparePhoto_ok h with rfl | ⟨p, -, -, rfl⟩ | ⟨p, -, e, sources, attempts, -, -, h⟩
  · exact .refl _
  · exact (revoke_undisturbed s p.id).trans (discard_undisturbed _ now p.id)
  · exact (discard_undisturbed s now p.id).trans (.frame (allocate_writes h) (by simp) (by simp))

theorem finalizePhoto_traced {s t : Db} {now : Time} {ids : Nat → Uuid} {lease : PublicationLease}
    {held : Bool} {attempts : List PhotoAttempt}
    (h : finalizePhoto s now ids lease held attempts = .ok t) : Traced s t := by
  obtain ⟨p, hp, ⟨-, rfl⟩ | ⟨-, rfl⟩ | ⟨hstate, rfl | ⟨userId, e, a, hsourced, -, ha, h⟩⟩⟩ :=
    finalizePhoto_ok h
  · exact (Undisturbed.refl _).traced
  · exact (discard_undisturbed s now p.id).traced
  · exact ((revoke_undisturbed s p.id).trans (discard_undisturbed _ now p.id)).traced
  · exact publishCopy_traced hp hstate hsourced (readyAll_writes ha) h

theorem recoverPhotos_undisturbed (s : Db) (now : Time) (runnable recheck : Uuid → Bool) :
    Undisturbed s (recoverPhotos s now runnable recheck) := by
  unfold recoverPhotos
  generalize abandoned s runnable = candidates
  induction candidates generalizing s with
  | nil => exact .refl _
  | cons p candidates ih =>
    refine Undisturbed.trans ?_ (ih (recoverOne s now recheck p))
    rcases recoverOne_ok s now recheck p with hsame | ⟨-, hrevoked⟩
    · rw [hsame]
      exact .refl _
    · rw [hrevoked]
      exact (revoke_undisturbed s p.id).trans (discard_undisturbed _ now p.id)

end PublicationsCoreService

/-! ## Every step -/

/-- Not the physical purge of rows, after which an id names nothing. -/
def Command.Publishing : Command → Prop
  | .purgeStep .. => False
  | .accountContentPage .. => False
  | _ => True

theorem Command.exec_traced {c : Command} {s t : Db} (hc : c.Publishing)
    (h : c.exec s = .ok t) : Traced s t := by
  cases c with
  | publishText => exact PublicationsCoreService.publishText_traced h
  | finalizePhoto => exact PublicationsCoreService.finalizePhoto_traced h
  | setReaction => exact (ReactionsCoreService.setReaction_undisturbed h).traced
  | recoverPhotos =>
    cases h
    exact (PublicationsCoreService.recoverPhotos_undisturbed s _ _ _).traced
  | purgeStep | accountContentPage => exact hc.elim
  | send | remove | invalidateRevokedSticker | requestPublication | preparePhoto =>
    simp only [Command.exec, bind_ok, pure_ok] at h
    obtain ⟨⟨t, reply⟩, h, rfl⟩ := h
    first
      | exact (MessagesCoreService.send_undisturbed h).traced
      | exact (MessagesCoreService.remove_undisturbed h).traced
      | exact (MessagesCoreService.invalidateRevokedSticker_undisturbed h).traced
      | exact (PublicationsCoreService.requestPublication_undisturbed h).traced
      | exact (PublicationsCoreService.preparePhoto_undisturbed h).traced
  | _ => exact (Undisturbed.frame (exec_writes h) (by simp [tables]) (by simp [tables])).traced

/-! ## Whole runs -/

/-- The service without the physical purge. -/
def publishing : System Db Command := chatOf Command.Publishing

/-- A message is removed: its row is a tombstone. -/
def Removed (db : Db) (messageId : Uuid) : Prop :=
  ∃ m ∈ db.messages, m.id = messageId ∧ m.deletedAt ≠ none

theorem Removed.not_live {s : Db} {messageId : Uuid} (h : Removed s messageId) :
    ¬Live s messageId := by
  obtain ⟨m, hm, hid, hdeleted⟩ := h
  rintro ⟨n, hn, hnid, hlive⟩
  have hsame : m = n := Table.eq_of_key hm hn (k := (0, [m.id])) List.mem_cons_self
    (by rw [hid, ← hnid]; exact List.mem_cons_self)
  exact hlive (.inl (hsame ▸ hdeleted))

/-- A removed message stays removed. -/
theorem run_removed {s t : Db} {cs : List Command} {messageId : Uuid}
    (h : publishing.Run s cs t) (hremoved : Removed s messageId) : Removed t messageId := by
  induction h with
  | nil => exact hremoved
  | cons hstep _ ih =>
    obtain ⟨m, hm, hid, hdeleted⟩ := hremoved
    obtain ⟨n, hn, hlater⟩ := (Command.exec_traced hstep.1 hstep.2).kept m hm
    exact ih ⟨n, hn, hlater.id.trans hid, hlater.deleted hdeleted⟩

/-- A revoked publication stays revoked. -/
theorem run_revoked {s t : Db} {cs : List Command} {p : MessagePublication}
    (h : publishing.Run s cs t) (hp : p ∈ s.messagePublications) (hrevoked : p.state = .revoked) :
    ∃ q ∈ t.messagePublications, q.id = p.id ∧ q.state = .revoked := by
  induction h generalizing p with
  | nil => exact ⟨p, hp, rfl, hrevoked⟩
  | cons hstep _ ih =>
    obtain ⟨q, hq, hid, hstate⟩ := (Command.exec_traced hstep.1 hstep.2).revoked p hp
    obtain ⟨r, hr, hrid, hrstate⟩ := ih hq (hstate hrevoked)
    exact ⟨r, hr, hrid.trans hid, hrstate⟩

/-- **Deletion reaches every anonymous copy.** In every database a withdrawn source
hides all its copies. After a committed removal no step of a run makes another copy
of the message or publishes one of its publications. And a revoked publication is
never published again. -/
theorem deletion_reaches_copies :
    (∀ db : Db, ∀ source ∈ db.messages, Withdrawn db source → ∀ m ∈ db.messages,
      m.deletionRootId = some source.id → Hidden db m) ∧
    (∀ s t u v now ids intent cs c, publishing.Reachable s →
      MessagesCoreService.remove s now ids intent = .ok (t, true) → publishing.Run t cs u →
      publishing.step c u v →
      (∀ n ∈ v.messages, n.deletionRootId = some intent.targetId →
        ∃ m ∈ u.messages, m.id = n.id ∧ m.deletionRootId = some intent.targetId) ∧
      ∀ q ∈ v.messagePublications, q.sourceMessageId = intent.targetId → q.state = .published →
        ∃ p ∈ u.messagePublications, p.id = q.id ∧ p.state = .published) ∧
    ∀ s t cs, publishing.Reachable s → publishing.Run s cs t → ∀ p ∈ s.messagePublications,
      p.state = .revoked → ∀ q ∈ t.messagePublications, q.id = p.id → q.state ≠ .published := by
  refine ⟨?_, ?_, ?_⟩
  · intro db source hsource hwithdrawn m hm hroot
    exact copies_hidden hm hsource hroot hwithdrawn
  · intro s t u v now ids intent cs c _ hremove hrun hstep
    have hremoved : Removed u intent.targetId :=
      run_removed hrun (MessagesCoreService.remove_deleted hremove)
    have htraced := Command.exec_traced hstep.1 hstep.2
    constructor
    · intro n hn hroot
      exact (htraced.copy n hn _ hroot).resolve_right hremoved.not_live
    · intro q hq hsource hstate
      refine (htraced.published q hq hstate).resolve_right ?_
      rw [hsource]
      exact hremoved.not_live
  · intro s t cs _ hrun p hp hrevoked q hq hid hpublished
    obtain ⟨r, hr, hrid, hrstate⟩ := run_revoked hrun hp hrevoked
    have hsame : q = r := Table.eq_of_key hq hr (k := (0, [q.id])) List.mem_cons_self
      (by rw [hid, ← hrid]; exact List.mem_cons_self)
    rw [hsame, hrstate] at hpublished
    cases hpublished

/-- A fan writes to the owner, who publishes the text. -/
def publishedText : List Command :=
  [.environment .twoMembers, .createOwnedRoom (fun i => 10 + i) "room" .fan .sinceJoin 1 7,
    .joinRoom (fun i => 20 + i) 7 2,
    .send 0 (fun i => 30 + i) 7 2
      { membershipScope := ⟨2, 7, 21⟩, clientMessageId := 5, intent := .private_,
        recipientActorId := some 10, quoteId := none, content := .text "hi" },
    .requestPublication 0 (fun i => 40 + i) 7 1 34,
    .publishText 0 (fun i => 50 + i) ⟨some 7, some 40⟩ true]

/-- The fan removes its message, and a late worker runs the publication again. -/
theorem deletion_reaches_copies_late : ∃ s t v : Db,
    (∃ p ∈ s.messagePublications, p.id = 40 ∧ p.state = .published) ∧
    MessagesCoreService.remove s 1 (fun i => 60 + i) ⟨9, 2, false, 34, some 7, 1, none⟩ =
      .ok (t, true) ∧
    (∃ m ∈ t.messages, m.deletionRootId = some 34 ∧ Hidden t m) ∧
    PublicationsCoreService.publishText t 2 (fun i => 70 + i) ⟨some 7, some 40⟩ true = .ok v ∧
    (∃ p ∈ t.messagePublications, p.id = 40 ∧ p.state = .revoked) ∧
    ∀ q ∈ v.messagePublications, q.id = 40 → q.state ≠ .published := by
  obtain ⟨s, hs⟩ : ∃ s, ({} : Db).after publishedText = .ok s := ⟨_, rfl⟩
  obtain ⟨t, ht⟩ : ∃ t, MessagesCoreService.remove s 1 (fun i => 60 + i)
      ⟨9, 2, false, 34, some 7, 1, none⟩ = .ok (t, true) := by
    cases hs
    exact ⟨_, rfl⟩
  obtain ⟨v, hv⟩ : ∃ v, PublicationsCoreService.publishText t 2 (fun i => 70 + i)
      ⟨some 7, some 40⟩ true = .ok v := by
    cases hs
    cases ht
    exact ⟨_, rfl⟩
  -- the publication, and the removal after it
  have hreach : publishing.Reachable t := by
    refine .step ((run_of_allowed (fun c hc => ?_) hs).reachable (.init rfl))
      (c := .remove 1 (fun i => 60 + i) ⟨9, 2, false, 34, some 7, 1, none⟩) ⟨trivial, ?_⟩
    · simp only [publishedText, List.mem_cons, List.not_mem_nil, or_false] at hc
      rcases hc with rfl | rfl | rfl | rfl | rfl | rfl <;> exact trivial
    · simp only [Command.exec, ht]
      rfl
  have hstep : publishing.step (.publishText 2 (fun i => 70 + i) ⟨some 7, some 40⟩ true) t v :=
    ⟨trivial, hv⟩
  obtain ⟨hhidden, -, hrevoked⟩ := deletion_reaches_copies
  refine ⟨s, t, v, ?_, ht, ?_, hv, ?_, ?_⟩
  · cases hs
    exact ⟨_, .head _, rfl, rfl⟩
  · obtain ⟨source, hsource, hid, hdeleted⟩ := MessagesCoreService.remove_deleted ht
    obtain ⟨m, hm, hroot⟩ : ∃ m ∈ t.messages, m.deletionRootId = some 34 := by
      cases hs
      cases ht
      exact ⟨_, .tail _ (.head _), rfl⟩
    exact ⟨m, hm, hroot, hhidden t source hsource (.inl hdeleted) m hm (by rw [hid, hroot])⟩
  · cases hs
    cases ht
    exact ⟨_, .head _, rfl, rfl⟩
  · have hrun : publishing.Run t _ v := .single hstep
    have hlate := hrevoked t v _ hreach hrun
    cases hs
    cases ht
    exact hlate _ (.head _) rfl

end Rogichat
