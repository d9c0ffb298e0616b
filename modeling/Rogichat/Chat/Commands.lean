import Rogichat.Chat.Footprints

/-!
# What the other commands write

The footprints of removing, reacting, publishing and purging, and with them the
footprint of every command of the system.

* **`Command.tables`** — the tables a command may write.
* **`Command.exec_writes`** — and no others.
-/

namespace Rogichat

open Lib

/-! ## Removing -/

namespace MessagesCoreService

open MessagesRepository

/-- The event of a first deletion, and nothing for a repeated one. -/
theorem deletionEvent_ok {s t : Db} {ids : Nat → Uuid} {roomId : Uuid} {row : Message}
    (h : deletionEvent s ids roomId row = .ok t) :
    t = s ∨ row.deletedAt = none ∧ ∃ a order, nextDeletionOrder s roomId = .ok (a, order) ∧
      event a (ids 0) roomId row.streamId row.id (row.version + 1) order .messageDeleted = .ok t := by
  unfold deletionEvent at h
  split at h
  · rename_i hlive
    simp only [recordEvent, bind_ok] at h
    obtain ⟨⟨a, order⟩, ha, he⟩ := h
    exact .inr ⟨hlive, a, order, ha, he⟩
  · cases h
    exact .inl rfl

theorem nextDeletionOrder_writes {s t : Db} {roomId : Uuid} {order : Nat}
    (h : nextDeletionOrder s roomId = .ok (t, order)) : Db.Writes [.roomCounters] s t := by
  obtain ⟨c, -, -, -, rfl⟩ := nextDeletionOrder_ok h
  exact RoomStateRepository.advanceOrder_writes s order roomId

theorem deletionEvent_writes {s t : Db} {ids : Nat → Uuid} {roomId : Uuid} {row : Message}
    (h : deletionEvent s ids roomId row = .ok t) : Db.Writes [.roomCounters, .roomEvents] s t := by
  rcases deletionEvent_ok h with rfl | ⟨-, a, order, ha, he⟩
  · exact Writes.refl _
  · exact ((nextDeletionOrder_writes ha).mono (by simp)).trans ((event_ok he).2.mono (by simp))

/-- The parts of a removal. -/
theorem removeRow_ok {s t : Db} {now : Time} {ids : Nat → Uuid} {intent : DeletionIntent}
    {roomId : Uuid} {row : Message} (h : removeRow s now ids intent roomId row = .ok t) :
    ∃ request existing a, request.roomId = roomId ∧ request.messageId = intent.targetId ∧
      blockMessageAndCopies s now request existing = .ok a ∧
      deletionEvent ((attachedAssets a roomId intent.targetId).foldl
        (fun db x => blockAsset db now x) a) ids roomId row = .ok t := by
  simp only [removeRow, bind_ok] at h
  obtain ⟨-, -, a, ha, ht⟩ := h
  exact ⟨_, _, a, rfl, rfl, ha, ht⟩

theorem removeRow_writes {s t : Db} {now : Time} {ids : Nat → Uuid} {intent : DeletionIntent}
    {roomId : Uuid} {row : Message} (h : removeRow s now ids intent roomId row = .ok t) :
    Db.Writes [.deletionRequests, .messages, .commandReceipts, .messagePublications, .mediaAssets,
      .roomCounters, .roomEvents] s t := by
  obtain ⟨request, existing, a, -, -, ha, ht⟩ := removeRow_ok h
  exact ((blockMessageAndCopies_writes ha).mono (by simp)).trans
    (((Writes.foldl (fun db x => blockAsset_writes db now x) _ a).mono (by simp)).trans
      ((deletionEvent_writes ht).mono (by simp)))

/-- A removal found the actor's message, or changed nothing. -/
theorem remove_ok {s t : Db} {now : Time} {ids : Nat → Uuid} {intent : DeletionIntent} {done : Bool}
    (h : remove s now ids intent = .ok (t, done)) :
    (t = s ∧ done = false) ∨ ∃ roomId row, intent.roomId = some roomId ∧ done = true ∧
      ownedMessage s roomId intent.targetId intent.actorUserId = some row ∧
      removeRow s now ids intent roomId row = .ok t := by
  simp only [remove, bind_ok, require_ok] at h
  obtain ⟨-, -, roomId, hroom, h⟩ := h
  split at h
  · rename_i r row hr hrow
    simp only [bind_ok, pure_ok] at h
    obtain ⟨a, ha, heq⟩ := h
    cases heq
    exact .inr ⟨roomId, row, hroom, rfl, hrow, ha⟩
  · cases h
    exact .inl ⟨rfl, rfl⟩

theorem remove_writes {s t : Db} {now : Time} {ids : Nat → Uuid} {intent : DeletionIntent}
    {done : Bool} (h : remove s now ids intent = .ok (t, done)) :
    Db.Writes [.deletionRequests, .messages, .commandReceipts, .messagePublications, .mediaAssets,
      .roomCounters, .roomEvents] s t := by
  rcases remove_ok h with ⟨rfl, -⟩ | ⟨roomId, row, -, -, -, h⟩
  · exact Writes.refl _
  · exact removeRow_writes h

theorem moderateSticker_writes (s : Db) (row : Message) :
    Db.Writes [.messages] s (moderateSticker s row) := by
  intro n hn
  cases n <;> first | rfl | simp at hn

theorem invalidateRows_writes {rows : List Message} {s t : Db} {ids : Nat → Uuid}
    (h : invalidateRows s ids rows = .ok t) :
    Db.Writes [.messages, .roomCounters, .roomEvents] s t := by
  induction rows generalizing s ids with
  | nil =>
    cases h
    exact Writes.refl _
  | cons row rows ih =>
    simp only [invalidateRows, recordEvent, bind_ok] at h
    obtain ⟨-, -, ⟨a, order⟩, ha, b, hb, hrest⟩ := h
    exact ((moderateSticker_writes s row).mono (by simp)).trans
      (((nextDeletionOrder_writes ha).mono (by simp)).trans
        (((event_ok hb).2.mono (by simp)).trans (ih hrest)))

/-- The page of messages a revoked sticker invalidates. -/
theorem invalidateRevokedSticker_ok {s t : Db} {ids : Nat → Uuid} {assetId : Uuid}
    {cursor : Option Uuid} (h : invalidateRevokedSticker s ids assetId = .ok (t, cursor)) :
    t = s ∨ ∃ rows, (∀ row ∈ rows, row ∈ s.messages ∧ Invalidated s assetId row) ∧
      invalidateRows s ids rows = .ok t := by
  unfold invalidateRevokedSticker at h
  split at h
  · cases h
    exact .inl rfl
  · simp only [bind_ok, require_ok, pure_ok] at h
    obtain ⟨-, -, a, ha, heq⟩ := h
    cases heq
    refine .inr ⟨_, ?_, ha⟩
    intro row hrow
    have hsel := List.mem_of_mem_take hrow
    rw [List.mem_insertionSort] at hsel
    obtain ⟨hmem, -, hinv⟩ := Table.mem_select.mp hsel
    exact ⟨hmem, hinv⟩

theorem invalidateRevokedSticker_writes {s t : Db} {ids : Nat → Uuid} {assetId : Uuid}
    {cursor : Option Uuid} (h : invalidateRevokedSticker s ids assetId = .ok (t, cursor)) :
    Db.Writes [.messages, .roomCounters, .roomEvents] s t := by
  rcases invalidateRevokedSticker_ok h with rfl | ⟨rows, -, h⟩
  · exact Writes.refl _
  · exact invalidateRows_writes h

end MessagesCoreService

/-! ## Reactions -/

namespace ReactionsRepository

theorem write_writes {s t : Db} {id roomId messageId memberId : Uuid} {emoji : Option String}
    (h : write s id roomId messageId memberId emoji = .ok t) :
    Db.Writes [.messageReactions] s t := by
  unfold write at h
  split at h
  · cases h
    intro n hn
    cases n <;> first | rfl | simp at hn
  · cases h
    intro n hn
    cases n <;> first | rfl | simp at hn
  · simp only [bind_ok, require_ok, pure_ok] at h
    obtain ⟨reactions, -, rfl⟩ := h
    intro n hn
    cases n <;> first | rfl | simp at hn

theorem advanceVersion_writes (s : Db) (roomId messageId : Uuid) :
    Db.Writes [.messages] s (advanceVersion s roomId messageId) := by
  intro n hn
  cases n <;> first | rfl | simp at hn

end ReactionsRepository

namespace ReactionsCoreService

open ReactionsRepository

/-- A reaction to a message the actor can read, with its new version and event. -/
theorem setReaction_ok {s t : Db} {now : Time} {ids : Nat → Uuid} {roomId userId messageId : Uuid}
    {emoji : Option String} (h : setReaction s now ids roomId userId messageId emoji = .ok t) :
    t = s ∨ ∃ viewer row a b order,
      MembershipRepository.findActive s true now roomId userId = some viewer ∧
      MessagesRepository.load s true roomId messageId = some row ∧
      MessagesCoreService.readable s now viewer row = true ∧
      write s (ids 0) roomId messageId viewer.id emoji = .ok a ∧
      RoomStateService.nextOrder (advanceVersion a roomId messageId) roomId = .ok (b, order) ∧
      MessagesRepository.event b (ids 1) roomId row.streamId row.id (row.version + 1) order
        .messageUpdated = .ok t := by
  simp only [setReaction, AccessService.requireActiveMember, MessagesCoreService.recordEvent,
    bind_ok, require_ok, ensure_ok] at h
  obtain ⟨-, -, viewer, hviewer, row, hrow, -, hread, -, -, h⟩ := h
  split at h
  · cases h
    exact .inl rfl
  · simp only [bind_ok] at h
    obtain ⟨a, ha, ⟨b, order⟩, hb, he⟩ := h
    exact .inr ⟨viewer, row, a, b, order, hviewer, hrow, hread, ha, hb, he⟩

theorem setReaction_writes {s t : Db} {now : Time} {ids : Nat → Uuid}
    {roomId userId messageId : Uuid} {emoji : Option String}
    (h : setReaction s now ids roomId userId messageId emoji = .ok t) :
    Db.Writes [.messageReactions, .messages, .roomCounters, .roomEvents] s t := by
  rcases setReaction_ok h with rfl | ⟨viewer, row, a, b, order, -, -, -, ha, hb, he⟩
  · exact Writes.refl _
  · exact ((write_writes ha).mono (by simp)).trans
      (((advanceVersion_writes a roomId messageId).mono (by simp)).trans
        (((RoomStateService.nextOrder_writes hb).mono (by simp)).trans
          ((MessagesRepository.event_ok he).2.mono (by simp))))

end ReactionsCoreService

/-! ## Publications -/

namespace PublicationPhotoRepository

theorem block_writes (s : Db) (now : Time) (assetId : Uuid) :
    Db.Writes [.mediaAssets] s (block s now assetId) := by
  intro n hn
  cases n <;> first | rfl | simp at hn

theorem charge_writes {s t : Db} {bytes : Nat} (h : charge s bytes = .ok t) :
    Db.Writes [.mediaBudget] s t := by
  simp only [charge, bind_ok, pure_ok] at h
  obtain ⟨-, -, -, -, rfl⟩ := h
  intro n hn
  cases n <;> first | rfl | simp at hn

theorem link_writes {s t : Db} {id roomId publicationId : Uuid} {attempt : PhotoAttempt}
    (h : link s id roomId publicationId attempt = .ok t) : Db.Writes [.publicationMedia] s t := by
  simp only [link, bind_ok, require_ok, pure_ok] at h
  obtain ⟨media, -, rfl⟩ := h
  intro n hn
  cases n <;> first | rfl | simp at hn

theorem allocateOne_writes {s t : Db} {now : Time} {ids : Nat → Uuid}
    {roomId publicationId ownerId : Uuid} {source : PhotoSource} {attempt : PhotoAttempt}
    (h : allocateOne s now ids roomId publicationId ownerId source = .ok (t, attempt)) :
    Db.Writes [.mediaAssets, .mediaObjects, .publicationMedia] s t := by
  simp only [allocateOne, bind_ok, require_ok, pure_ok] at h
  obtain ⟨assets, -, objects, -, a, ha, heq⟩ := h
  cases heq
  refine Writes.trans (t := { s with mediaAssets := assets, mediaObjects := objects }) ?_
    ((link_writes ha).mono (by simp))
  intro n hn
  cases n <;> first | rfl | simp at hn

theorem allocateAll_writes {sources : List PhotoSource} {s t : Db} {now : Time} {ids : Nat → Uuid}
    {roomId publicationId ownerId : Uuid} {attempts : List PhotoAttempt}
    (h : allocateAll s now ids roomId publicationId ownerId sources = .ok (t, attempts)) :
    Db.Writes [.mediaAssets, .mediaObjects, .publicationMedia] s t := by
  induction sources generalizing s ids attempts with
  | nil =>
    cases h
    exact Writes.refl _
  | cons source sources ih =>
    simp only [allocateAll, bind_ok, pure_ok] at h
    obtain ⟨⟨a, attempt⟩, ha, ⟨b, rest⟩, hb, heq⟩ := h
    cases heq
    exact (allocateOne_writes ha).trans (ih hb)

theorem allocate_writes {s t : Db} {now : Time} {ids : Nat → Uuid}
    {roomId publicationId ownerId : Uuid} {sources : List PhotoSource} {attempts : List PhotoAttempt}
    (h : allocate s now ids roomId publicationId ownerId sources = .ok (t, attempts)) :
    Db.Writes [.mediaBudget, .mediaAssets, .mediaObjects, .publicationMedia] s t := by
  simp only [allocate, bind_ok] at h
  obtain ⟨a, ha, hb⟩ := h
  exact ((charge_writes ha).mono (by simp)).trans ((allocateAll_writes hb).mono (by simp))

theorem ready_writes {s t : Db} {publicationId : Uuid} {attempt : PhotoAttempt}
    (h : ready s publicationId attempt = .ok t) :
    Db.Writes [.mediaAssets, .mediaObjects] s t := by
  simp only [ready, bind_ok, ensure_ok, pure_ok] at h
  obtain ⟨-, -, -, -, rfl⟩ := h
  intro n hn
  cases n <;> first | rfl | simp at hn

theorem readyAll_writes {attempts : List PhotoAttempt} {s t : Db} {publicationId : Uuid}
    (h : readyAll s publicationId attempts = .ok t) :
    Db.Writes [.mediaAssets, .mediaObjects] s t := by
  induction attempts generalizing s with
  | nil =>
    cases h
    exact Writes.refl _
  | cons attempt attempts ih =>
    simp only [readyAll, bind_ok] at h
    obtain ⟨a, ha, hb⟩ := h
    exact (ready_writes ha).trans (ih hb)

/-- Attaching the copies makes the message a photo. -/
theorem attach_ok {s t : Db} {ids : Nat → Uuid} {roomId messageId : Uuid}
    {attempts : List PhotoAttempt} (h : attach s ids roomId messageId attempts = .ok t) :
    t.messages = s.messages.update (fun m => m.id = messageId)
        (fun m => { m with contentKind := .photo }) ∧
      Db.Writes [.messages, .messageAttachments] s t := by
  simp only [attach, bind_ok, require_ok, pure_ok] at h
  obtain ⟨attachments, -, rfl⟩ := h
  refine ⟨rfl, ?_⟩
  intro n hn
  cases n <;> first | rfl | simp at hn

end PublicationPhotoRepository

namespace PublicationsRepository

theorem revoke_writes (s : Db) (publicationId : Uuid) :
    Db.Writes [.messagePublications] s (revoke s publicationId) := by
  intro n hn
  cases n <;> first | rfl | simp at hn

theorem publish_writes (s : Db) (messageId publicationId : Uuid) :
    Db.Writes [.messagePublications] s (publish s messageId publicationId) := by
  intro n hn
  cases n <;> first | rfl | simp at hn

end PublicationsRepository

namespace PublicationsCoreService

open PublicationsRepository PublicationPhotoRepository

/-- What `sourceForOwner` found and checked. -/
structure Sourced (s : Db) (now : Time) (roomId userId messageId : Uuid) (e : Eligible) : Prop where
  viewer : MembershipRepository.findActive s true now roomId userId = some e.viewer
  source : MessagesRepository.load s true roomId messageId = some e.source
  publishable : Publishable e.source
  room : ∃ r, (s.rooms.find? fun r => r.id = roomId) = some r ∧ r.status = .active ∧
    canPublishSource (MessagesCoreService.accessFacts e.viewer r.ownerMemberId)
      (MessagesCoreService.messageFacts e.source none) (legacyFanOriginal e.source) = true
  photos : requirePhotos s roomId e.source = .ok ()
  revision : e.revision = e.source.contentRevision

theorem sourceForOwner_ok {s : Db} {now : Time} {roomId userId messageId : Uuid} {e : Eligible} :
    sourceForOwner s now roomId userId messageId = .ok e ↔
      Sourced s now roomId userId messageId e := by
  simp only [sourceForOwner, AccessService.requireActiveMember, bind_ok, require_ok, ensure_ok,
    pure_ok]
  constructor
  · rintro ⟨r, hr, -, hactive, viewer, hviewer, source, hsource, -, hcan, -, hpub, u, hphotos, rfl⟩
    exact ⟨hviewer, hsource, hpub, ⟨r, hr, hactive, hcan⟩, hphotos, rfl⟩
  · rintro ⟨hviewer, hsource, hpub, ⟨r, hr, hactive, hcan⟩, hphotos, hrev⟩
    refine ⟨r, hr, (), hactive, _, hviewer, _, hsource, (), hcan, (), hpub, (), hphotos, ?_⟩
    rw [← hrev]

/-- A request either finds the publication of this version or adds it. -/
theorem requestPublication_ok {s t : Db} {now : Time} {ids : Nat → Uuid}
    {roomId userId messageId : Uuid} {reply : PublicationReceipt}
    (h : requestPublication s now ids roomId userId messageId = .ok (t, reply)) :
    ∃ e, Sourced s now roomId userId messageId e ∧
      ((t = s ∧ ∃ row, existing s roomId messageId e.revision = some row ∧ reply = receipt row) ∨
        existing s roomId messageId e.revision = none ∧ Db.Writes [.messagePublications] s t ∧
          s.messagePublications.insert
            { id := ids 0, roomId := roomId, sourceMessageId := e.source.id,
              sourceVersion := e.revision, publisherMemberId := e.viewer.id,
              createdAt := now } = some t.messagePublications) := by
  simp only [requestPublication, bind_ok] at h
  obtain ⟨e, he, h⟩ := h
  refine ⟨e, sourceForOwner_ok.mp he, ?_⟩
  split at h
  · rename_i row hrow
    cases h
    exact .inl ⟨rfl, row, hrow, rfl⟩
  · rename_i hnone
    simp only [bind_ok, require_ok, pure_ok] at h
    obtain ⟨publications, hpub, heq⟩ := h
    cases heq
    refine .inr ⟨hnone, ?_, hpub⟩
    intro n hn
    cases n <;> first | rfl | simp at hn

theorem requestPublication_writes {s t : Db} {now : Time} {ids : Nat → Uuid}
    {roomId userId messageId : Uuid} {reply : PublicationReceipt}
    (h : requestPublication s now ids roomId userId messageId = .ok (t, reply)) :
    Db.Writes [.messagePublications] s t := by
  obtain ⟨e, -, ⟨rfl, -⟩ | ⟨-, hw, -⟩⟩ := requestPublication_ok h
  · exact Writes.refl _
  · exact hw

/-- An eligible source was found by `sourceForOwner`. -/
theorem eligibleSource_ok {s : Db} {now : Time} {account : Option User} {p : MessagePublication}
    {e : Eligible} (h : eligibleSource s now account p = .ok (some e)) :
    ∃ user, account = some user ∧ Sourced s now p.roomId user.id p.sourceMessageId e := by
  unfold eligibleSource at h
  split at h
  · cases h
  · rename_i user
    split at h
    · rename_i e' he
      cases h
      exact ⟨user, rfl, sourceForOwner_ok.mp he⟩
    · cases h
    · cases h

theorem lockedPublication_ok {s : Db} {now : Time} {lease : PublicationLease} {roomId : Uuid}
    {p : MessagePublication} {account : Option User}
    (h : lockedPublication s now lease = .ok (roomId, p, account)) :
    p ∈ s.messagePublications ∧ p.roomId = roomId := by
  simp only [lockedPublication, bind_ok, require_ok, pure_ok] at h
  obtain ⟨r, -, resource, -, p', hp, publisher, -, heq⟩ := h
  cases heq
  exact ⟨Table.mem_of_find? hp, (Table.holds_of_find? hp).1⟩

/-- A copy's attachments do not change which row it is. -/
theorem attachCopies_writes {s t : Db} {ids : Nat → Uuid} {roomId messageId : Uuid}
    {attempts : Option (List PhotoAttempt)} (h : attachCopies s ids roomId messageId attempts = .ok t) :
    Db.Writes [.messages, .messageAttachments] s t := by
  cases attempts with
  | none =>
    cases h
    exact Writes.refl _
  | some attempts => exact (attach_ok h).2

/-- The steps of a publication, each with the rows it wrote. -/
theorem publishCopy_ok {s t : Db} {now : Time} {ids : Nat → Uuid} {roomId publicationId : Uuid}
    {e : Eligible} {text : Option String} {attempts : Option (List PhotoAttempt)}
    (h : publishCopy s now ids roomId publicationId e text attempts = .ok t) :
    ∃ stream a order messages b, sharedStream s roomId = .ok stream ∧
      RoomStateService.nextOrder s roomId = .ok (a, order) ∧
      a.messages.insert (copyOf now (ids 0) roomId stream.id e.viewer.id
        e.source.contentOwnerUserId e.source.id text order) = some messages ∧
      attachCopies { a with messages := messages } (fun i => ids (2 + i)) roomId (ids 0)
        attempts = .ok b ∧
      MessagesRepository.event (publish b (ids 0) publicationId) (ids 1) roomId stream.id (ids 0) 1
        order .messageCreated = .ok t := by
  simp only [publishCopy, MessagesCoreService.recordEvent, bind_ok, require_ok] at h
  obtain ⟨stream, hs, ⟨a, order⟩, ha, messages, hm, b, hb, he⟩ := h
  exact ⟨stream, a, order, messages, b, hs, ha, hm, hb, he⟩

theorem publishCopy_writes {s t : Db} {now : Time} {ids : Nat → Uuid} {roomId publicationId : Uuid}
    {e : Eligible} {text : Option String} {attempts : Option (List PhotoAttempt)}
    (h : publishCopy s now ids roomId publicationId e text attempts = .ok t) :
    Db.Writes [.messagePublications, .messages, .messageAttachments, .roomCounters, .roomEvents]
      s t := by
  obtain ⟨stream, a, order, messages, b, -, ha, -, hb, he⟩ := publishCopy_ok h
  refine ((RoomStateService.nextOrder_writes ha).mono (by simp)).trans (Writes.trans ?_
    (((attachCopies_writes hb).mono (by simp)).trans
      (((publish_writes b (ids 0) publicationId).mono (by simp)).trans
        ((MessagesRepository.event_ok he).2.mono (by simp)))))
  intro n hn
  cases n <;> first | rfl | simp at hn

/-- What a text worker's transaction did. -/
theorem publishText_ok {s t : Db} {now : Time} {ids : Nat → Uuid} {lease : PublicationLease}
    {held : Bool} (h : publishText s now ids lease held = .ok t) :
    t = s ∨ ∃ p ∈ s.messagePublications, p.state = .preparing ∧
      (t = revoke s p.id ∨ ∃ userId e,
        Sourced s now p.roomId userId p.sourceMessageId e ∧ Current p e ∧
        publishCopy s now ids p.roomId p.id e e.source.textContent none = .ok t) := by
  simp only [publishText, bind_ok, pure_ok] at h
  obtain ⟨⟨roomId, p, account⟩, hp, u, hu, -, -, rfl⟩ := h
  obtain ⟨hmem, rfl⟩ := lockedPublication_ok hp
  unfold finalizeText at hu
  split at hu
  · cases hu
    exact .inl rfl
  · rename_i hstate
    rw [not_not] at hstate
    simp only [bind_ok] at hu
    obtain ⟨found, hfound, -, -, hu⟩ := hu
    refine .inr ⟨p, hmem, hstate, ?_⟩
    split at hu
    · cases hu
      exact .inl rfl
    · rename_i e he
      rw [Option.filter_eq_some_iff] at he
      obtain ⟨rfl, hcurrent⟩ := he
      obtain ⟨user, -, hsourced⟩ := eligibleSource_ok hfound
      exact .inr ⟨user.id, e, hsourced, of_decide_eq_true hcurrent, hu⟩

theorem publishText_writes {s t : Db} {now : Time} {ids : Nat → Uuid} {lease : PublicationLease}
    {held : Bool} (h : publishText s now ids lease held = .ok t) :
    Db.Writes [.messagePublications, .messages, .messageAttachments, .roomCounters, .roomEvents]
      s t := by
  rcases publishText_ok h with rfl | ⟨p, -, -, rfl | ⟨userId, e, -, -, h⟩⟩
  · exact Writes.refl _
  · exact (revoke_writes s p.id).mono (by simp)
  · exact publishCopy_writes h

theorem discardCopies_writes (s : Db) (now : Time) (publicationId : Uuid) :
    Db.Writes [.mediaAssets] s (discardCopies s now publicationId) :=
  Writes.foldl (fun db _ => block_writes db now _) _ s

/-- A photo worker found its publication, and its source if it may be published. -/
theorem photoContext_ok {s : Db} {now : Time} {lease : PublicationLease} {context : Context}
    (h : photoContext s now lease = .ok context) :
    context.publication ∈ s.messagePublications ∧ context.publication.roomId = context.roomId ∧
      ∀ e, context.eligible = some e → context.publication.state = .preparing ∧
        Current context.publication e ∧ ∃ userId,
          Sourced s now context.publication.roomId userId context.publication.sourceMessageId e := by
  simp only [photoContext, bind_ok, pure_ok] at h
  obtain ⟨⟨roomId, p, account⟩, hp, found, hfound, rfl⟩ := h
  obtain ⟨hmem, hroom⟩ := lockedPublication_ok hp
  refine ⟨hmem, hroom, ?_⟩
  intro e he
  simp only [Option.filter_eq_some_iff] at he
  obtain ⟨rfl, hcurrent⟩ := he
  unfold preparingSource at hfound
  split at hfound
  · rename_i hstate
    obtain ⟨user, -, hsourced⟩ := eligibleSource_ok hfound
    exact ⟨hstate, of_decide_eq_true hcurrent, user.id, hsourced⟩
  · cases hfound

/-- What preparing the photos did: revoked an ineligible publication, or allocated
the copies' media. -/
theorem preparePhoto_ok {s t : Db} {now : Time} {ids : Nat → Uuid} {lease : PublicationLease}
    {held : Bool} {prepared : Prepared}
    (h : preparePhoto s now ids lease held = .ok (t, prepared)) :
    t = s ∨ (∃ p ∈ s.messagePublications, p.state ≠ .published ∧
        t = discardCopies (revoke s p.id) now p.id) ∨
      ∃ p ∈ s.messagePublications, ∃ (e : Eligible) (sources : _) (attempts : _),
        photoSources s p.roomId e.source.id = .ok sources ∧ p.state = .preparing ∧
        allocate (discardCopies s now p.id) now ids p.roomId p.id e.source.contentOwnerUserId
          sources = .ok (t, attempts) := by
  simp only [preparePhoto, bind_ok] at h
  obtain ⟨context, hcontext, h⟩ := h
  obtain ⟨hmem, hroom, heligible⟩ := photoContext_ok hcontext
  split at h
  · simp only [bind_ok, pure_ok] at h
    obtain ⟨-, -, heq⟩ := h
    cases heq
    by_cases hpub : context.publication.state = .published
    · rw [if_pos hpub]
      exact .inl rfl
    · rw [if_neg hpub]
      exact .inr (.inl ⟨_, hmem, hpub, rfl⟩)
  · rename_i e he
    split at h
    · cases h
      exact .inl rfl
    · simp only [bind_ok, pure_ok] at h
      obtain ⟨sources, hsources, ⟨u, attempts⟩, hu, -, -, heq⟩ := h
      cases heq
      rw [← hroom] at hsources hu
      exact .inr (.inr ⟨_, hmem, e, sources, attempts, hsources, (heligible e he).1, hu⟩)

theorem preparePhoto_writes {s t : Db} {now : Time} {ids : Nat → Uuid} {lease : PublicationLease}
    {held : Bool} {prepared : Prepared}
    (h : preparePhoto s now ids lease held = .ok (t, prepared)) :
    Db.Writes [.messagePublications, .mediaBudget, .mediaAssets, .mediaObjects, .publicationMedia]
      s t := by
  rcases preparePhoto_ok h with rfl | ⟨p, -, -, rfl⟩ | ⟨p, -, e, sources, attempts, -, -, h⟩
  · exact Writes.refl _
  · exact ((revoke_writes s p.id).mono (by simp)).trans
      ((discardCopies_writes _ now p.id).mono (by simp))
  · exact ((discardCopies_writes s now p.id).mono (by simp)).trans
      ((allocate_writes h).mono (by simp))

/-- What finalizing the photos did. -/
theorem finalizePhoto_ok {s t : Db} {now : Time} {ids : Nat → Uuid} {lease : PublicationLease}
    {held : Bool} {attempts : List PhotoAttempt}
    (h : finalizePhoto s now ids lease held attempts = .ok t) :
    ∃ p ∈ s.messagePublications, (p.state = .published ∧ t = s) ∨
      (p.state = .revoked ∧ t = discardCopies s now p.id) ∨
      p.state = .preparing ∧ (t = discardCopies (revoke s p.id) now p.id ∨ ∃ userId e a,
        Sourced s now p.roomId userId p.sourceMessageId e ∧ Current p e ∧
        readyAll s p.id attempts = .ok a ∧
        publishCopy a now ids p.roomId p.id e none (some attempts) = .ok t) := by
  simp only [finalizePhoto, bind_ok, pure_ok] at h
  obtain ⟨context, hcontext, u, hu, -, -, rfl⟩ := h
  obtain ⟨hmem, hroom, heligible⟩ := photoContext_ok hcontext
  refine ⟨context.publication, hmem, ?_⟩
  unfold finalizeState at hu
  split at hu
  · rename_i hstate
    right
    right
    refine ⟨hstate, ?_⟩
    unfold finalizePreparing at hu
    simp only at hu
    split at hu
    · cases hu
      exact .inl rfl
    · rename_i e he
      simp only [bind_ok] at hu
      obtain ⟨sources, -, hu⟩ := hu
      split at hu
      · simp only [bind_ok] at hu
        obtain ⟨a, ha, hu⟩ := hu
        obtain ⟨-, hcurrent, userId, hsourced⟩ := heligible e he
        rw [← hroom] at hu
        exact .inr ⟨userId, e, a, hsourced, hcurrent, ha, hu⟩
      · cases hu
        exact .inl rfl
  · rename_i hstate
    cases hu
    exact .inr (.inl ⟨hstate, rfl⟩)
  · rename_i hstate
    cases hu
    exact .inl ⟨hstate, rfl⟩

theorem finalizePhoto_writes {s t : Db} {now : Time} {ids : Nat → Uuid} {lease : PublicationLease}
    {held : Bool} {attempts : List PhotoAttempt}
    (h : finalizePhoto s now ids lease held attempts = .ok t) :
    Db.Writes [.messagePublications, .mediaAssets, .mediaObjects, .messages, .messageAttachments,
      .roomCounters, .roomEvents] s t := by
  obtain ⟨p, -, ⟨-, rfl⟩ | ⟨-, rfl⟩ | ⟨-, rfl | ⟨userId, e, a, -, -, ha, h⟩⟩⟩ := finalizePhoto_ok h
  · exact Writes.refl _
  · exact (discardCopies_writes s now p.id).mono (by simp)
  · exact ((revoke_writes s p.id).mono (by simp)).trans
      ((discardCopies_writes _ now p.id).mono (by simp))
  · exact ((readyAll_writes ha).mono (by simp)).trans ((publishCopy_writes h).mono (by simp))

/-- One candidate of the sweep is revoked, or left alone. -/
theorem recoverOne_ok (s : Db) (now : Time) (runnable : Uuid → Bool) (p : MessagePublication) :
    recoverOne s now runnable p = s ∨
      (∃ q ∈ s.messagePublications, q.id = p.id ∧ q.state = .preparing) ∧
        recoverOne s now runnable p = discardCopies (revoke s p.id) now p.id := by
  unfold recoverOne
  split
  · exact .inl rfl
  · rename_i q hq
    split
    · exact .inl rfl
    · rename_i hstate
      push Not at hstate
      exact .inr ⟨⟨q, Table.mem_of_find? hq, (Table.holds_of_find? hq).2, hstate.1⟩, rfl⟩

theorem recoverOne_writes (s : Db) (now : Time) (runnable : Uuid → Bool) (p : MessagePublication) :
    Db.Writes [.messagePublications, .mediaAssets] s (recoverOne s now runnable p) := by
  rcases recoverOne_ok s now runnable p with h | ⟨-, h⟩
  · rw [h]
    exact Writes.refl _
  · rw [h]
    exact ((revoke_writes s p.id).mono (by simp)).trans
      ((discardCopies_writes _ now p.id).mono (by simp))

theorem recoverPhotos_writes (s : Db) (now : Time) (runnable recheck : Uuid → Bool) :
    Db.Writes [.messagePublications, .mediaAssets] s (recoverPhotos s now runnable recheck) :=
  Writes.foldl (fun db p => recoverOne_writes db now recheck p) _ s

end PublicationsCoreService

end Rogichat
