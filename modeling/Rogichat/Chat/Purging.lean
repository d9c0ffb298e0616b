import Rogichat.Chat.Commands

/-!
# What purging writes

The steps that erase deleted content, taken apart, and the footprint of every
command of the system.

* **`MessageDependenciesService.page_ok`** — a page is the first kind of dependants
  that had any, or the proof that none had.
* **`Command.tables`**, **`Command.exec_writes`** — the tables a command may write,
  and no others.
-/

namespace Rogichat

open Lib

/-- Rooms change by moving to a later content epoch only. -/
def Reepoched (s t : Db) : Prop :=
  ∀ r ∈ s.rooms, ∃ epoch, r.contentEpoch ≤ epoch ∧ { r with contentEpoch := epoch } ∈ t.rooms

namespace Reepoched

theorem of_eq {s t : Db} (h : t.rooms = s.rooms) : Reepoched s t :=
  fun r hr => ⟨r.contentEpoch, le_refl _, h ▸ hr⟩

theorem refl (s : Db) : Reepoched s s := of_eq rfl

theorem trans {s t u : Db} (h : Reepoched s t) (h' : Reepoched t u) : Reepoched s u := by
  intro r hr
  obtain ⟨e, he, hmem⟩ := h r hr
  obtain ⟨e', he', hmem'⟩ := h' _ hmem
  exact ⟨e', he.trans he', hmem'⟩

theorem advanceEpoch (s : Db) (roomId : Uuid) :
    Reepoched s (MessagePurgeRepository.advanceEpoch s roomId) := by
  intro r hr
  by_cases h : r.id = roomId
  · refine ⟨r.contentEpoch + 1, Nat.le_succ _, ?_⟩
    exact (Table.mem_update (k := by exact ⟨fun _ => rfl⟩)).mpr ⟨r, hr, by rw [if_pos h]⟩
  · refine ⟨r.contentEpoch, le_refl _, ?_⟩
    exact (Table.mem_update (k := by exact ⟨fun _ => rfl⟩)).mpr ⟨r, hr, by rw [if_neg h]⟩

end Reepoched

namespace MessagePurgeRepository

theorem advanceEpoch_writes (s : Db) (roomId : Uuid) :
    Db.Writes [.rooms] s (advanceEpoch s roomId) := by
  intro n hn
  cases n <;> first | rfl | simp at hn

theorem scrubReceipts_writes (s : Db) (roomId messageId : Uuid) (limit : Nat) :
    Db.Writes [.commandReceipts] s (scrubReceipts s roomId messageId limit).1 := by
  intro n hn
  cases n <;> first | rfl | simp at hn

theorem clearQuotes_writes (s : Db) (roomId messageId : Uuid) (limit : Nat) :
    Db.Writes [.messages, .rooms] s (clearQuotes s roomId messageId limit).1 := by
  unfold clearQuotes
  simp only
  split
  · exact Writes.refl _
  · intro n hn
    cases n <;> first | rfl | simp at hn

theorem publications_writes {s t : Db} {roomId messageId : Uuid} {limit jobs changed : Nat}
    (h : publications s roomId messageId limit jobs = .ok (t, changed)) :
    Db.Writes [.messagePublications] s t := by
  unfold publications at h
  simp only at h
  split at h
  · cases h
    exact Writes.refl _
  · split at h
    · cases h
      exact Writes.refl _
    · simp only [bind_ok, pure_ok] at h
      obtain ⟨-, -, heq⟩ := h
      cases heq
      intro n hn
      cases n <;> first | rfl | simp at hn

theorem reactions_writes (s : Db) (roomId messageId : Uuid) (limit : Nat) :
    Db.Writes [.messageReactions] s (reactions s roomId messageId limit).1 := by
  intro n hn
  cases n <;> first | rfl | simp at hn

theorem sticker_writes (s : Db) (roomId messageId : Uuid) :
    Db.Writes [.messageStickers] s (sticker s roomId messageId).1 := by
  intro n hn
  cases n <;> first | rfl | simp at hn

theorem events_writes (s : Db) (roomId messageId : Uuid) (limit jobs : Nat) :
    Db.Writes [.roomEvents, .rooms] s (events s roomId messageId limit jobs).1 := by
  unfold events
  simp only
  split
  · exact Writes.refl _
  · split
    · exact Writes.refl _
    · intro n hn
      cases n <;> first | rfl | simp at hn

/-- A message's row goes only when nothing refers to it. -/
theorem deleteMessage_ok {s t : Db} {roomId : Uuid} {m : Message}
    (h : deleteMessage s roomId m = .ok t) : ¬Referenced s roomId m.id ∧
      t.messages = s.messages.delete (fun x => x.id = m.id ∧ x.roomId = roomId) ∧
      Db.Writes [.messages] s t := by
  simp only [deleteMessage, bind_ok, ensure_ok, pure_ok] at h
  obtain ⟨-, href, rfl⟩ := h
  refine ⟨href, rfl, ?_⟩
  intro n hn
  cases n <;> first | rfl | simp at hn

theorem remove_ok {s t : Db} {roomId : Uuid} {m : Message}
    (h : MessagePurgeRepository.remove s roomId m = .ok t) :
    m.deletedAt ≠ none ∧ deleteMessage (advanceEpoch s roomId) roomId m = .ok t := by
  simp only [MessagePurgeRepository.remove, bind_ok, ensure_ok] at h
  obtain ⟨-, hdeleted, h⟩ := h
  exact ⟨hdeleted, h⟩

theorem remove_writes {s t : Db} {roomId : Uuid} {m : Message}
    (h : MessagePurgeRepository.remove s roomId m = .ok t) :
    Db.Writes [.rooms, .messages] s t :=
  ((advanceEpoch_writes s roomId).mono (by simp)).trans
    ((deleteMessage_ok (remove_ok h).2).2.2.mono (by simp))

theorem recordProof_writes {s t : Db} {now : Time} {roomId : Uuid} {intent : DeletionIntent}
    (h : recordProof s now roomId intent = .ok t) : Db.Writes [.messagePurgeCheckpoints] s t := by
  simp only [recordProof, bind_ok, pure_ok] at h
  obtain ⟨checkpoints, -, rfl⟩ := h
  intro n hn
  cases n <;> first | rfl | simp at hn

end MessagePurgeRepository

namespace MessageDependenciesService

open MessagePurgeRepository

/-- Every kind of dependants the page clears is gone. -/
structure Cleared (s : Db) (roomId messageId : Uuid) (limit : Nat) : Prop where
  receipts : (scrubReceipts s roomId messageId limit).2 = 0
  quotes : (clearQuotes s roomId messageId limit).2 = 0
  reactions : (reactions s roomId messageId limit).2 = 0
  stickers : (sticker s roomId messageId).2 = 0

/-- A page is the first kind of dependants that had any, or nothing when none had. -/
inductive Paged (s : Db) (roomId messageId : Uuid) (limit : Nat) : Db → Bool → Prop
  | elsewhere : Paged s roomId messageId limit s false
  | receipts : Paged s roomId messageId limit (scrubReceipts s roomId messageId limit).1 false
  | quotes : Paged s roomId messageId limit (clearQuotes s roomId messageId limit).1 false
  | publications {t : Db} {jobs changed : Nat} :
      publications s roomId messageId limit jobs = .ok (t, changed) →
        Paged s roomId messageId limit t false
  | reactions : Paged s roomId messageId limit (reactions s roomId messageId limit).1 false
  | stickers : Paged s roomId messageId limit (sticker s roomId messageId).1 false
  | events (jobs : Nat) : Paged s roomId messageId limit (events s roomId messageId limit jobs).1 false
  | done : Cleared s roomId messageId limit → Paged s roomId messageId limit s true

theorem page_ok {s t : Db} {roomId messageId : Uuid} {limit changed : Nat} {elsewhere : Elsewhere}
    {done : Bool} (h : page s roomId messageId limit elsewhere = .ok (t, changed, done)) :
    Paged s roomId messageId limit t done := by
  unfold page at h
  split at h
  · cases h
    exact .elsewhere
  · by_cases hreceipts : (scrubReceipts s roomId messageId limit).2 = 0
    swap
    · simp only [if_pos hreceipts, ne_eq, pure_ok] at h
      cases h
      exact .receipts
    by_cases hquotes : (clearQuotes s roomId messageId limit).2 = 0
    swap
    · simp only [hreceipts, ne_eq, not_true_eq_false, if_false, if_pos hquotes, pure_ok] at h
      cases h
      exact .quotes
    simp only [hreceipts, hquotes, ne_eq, not_true_eq_false, if_false, bind_ok] at h
    obtain ⟨⟨u, published⟩, hu, h⟩ := h
    split at h
    · cases h
      exact .publications hu
    by_cases hreactions : (reactions s roomId messageId limit).2 = 0
    swap
    · simp only [if_pos hreactions, pure_ok] at h
      cases h
      exact .reactions
    by_cases hstickers : (sticker s roomId messageId).2 = 0
    swap
    · simp only [hreactions, not_true_eq_false, if_false, if_pos hstickers, pure_ok] at h
      cases h
      exact .stickers
    simp only [hreactions, hstickers, not_true_eq_false, if_false] at h
    split at h
    · cases h
      exact .events _
    · cases h
      exact .done ⟨hreceipts, hquotes, hreactions, hstickers⟩

theorem page_writes {s t : Db} {roomId messageId : Uuid} {limit changed : Nat}
    {elsewhere : Elsewhere} {done : Bool}
    (h : page s roomId messageId limit elsewhere = .ok (t, changed, done)) :
    Db.Writes [.commandReceipts, .messages, .rooms, .messagePublications, .messageReactions,
      .messageStickers, .roomEvents] s t := by
  cases page_ok h with
  | elsewhere => exact Writes.refl _
  | receipts => exact (scrubReceipts_writes s _ _ _).mono (by simp)
  | quotes => exact (clearQuotes_writes s _ _ _).mono (by simp)
  | publications hp => exact (publications_writes hp).mono (by simp)
  | reactions => exact (reactions_writes s _ _ _).mono (by simp)
  | stickers => exact (sticker_writes s _ _).mono (by simp)
  | events => exact (events_writes s _ _ _ _).mono (by simp)
  | done => exact Writes.refl _

theorem page_rooms {s t : Db} {roomId messageId : Uuid} {limit changed : Nat}
    {elsewhere : Elsewhere} {done : Bool}
    (h : page s roomId messageId limit elsewhere = .ok (t, changed, done)) : Reepoched s t := by
  cases page_ok h with
  | quotes =>
    unfold clearQuotes
    simp only
    split
    · exact .refl _
    · exact .trans (.of_eq rfl) (.advanceEpoch _ roomId)
  | events =>
    unfold events
    simp only
    split
    · exact .refl _
    · split
      · exact .refl _
      · exact .trans (.of_eq rfl) (.advanceEpoch _ roomId)
  | publications hp => exact .of_eq ((publications_writes hp).rooms (by simp))
  | _ => exact .of_eq rfl

end MessageDependenciesService

namespace MessagePurgeService

open MessagePurgeRepository

/-- A purge step either only records what is gone, or clears a page of a message's
dependants and then perhaps its row. -/
inductive Stepped (s : Db) (roomId : Uuid) : Db → Prop
  | nothing : Stepped s roomId s
  | page {u a t : Db} {messageId : Uuid} {limit changed : Nat} {elsewhere : Elsewhere} {done : Bool} :
      Db.Writes [.messagePurgeCheckpoints] s u →
      MessageDependenciesService.page u roomId messageId limit elsewhere = .ok (a, changed, done) →
      Db.Writes [.messagePurgeCheckpoints] a t → Stepped s roomId t
  | row {a b t : Db} {m : Message} {limit changed : Nat} {elsewhere : Elsewhere} :
      MessageDependenciesService.page s roomId m.id limit elsewhere = .ok (a, changed, true) →
      MessagePurgeRepository.remove a roomId m = .ok b →
      Db.Writes [.messagePurgeCheckpoints] b t → Stepped s roomId t

theorem proveAbsence_writes {s t : Db} {now : Time} {roomId : Uuid} {intent : DeletionIntent}
    {proved : Bool} (h : proveAbsence s now roomId intent proved = .ok t) :
    Db.Writes [.messagePurgeCheckpoints] s t := by
  unfold proveAbsence at h
  split at h
  · cases h
    exact Writes.refl _
  · exact recordProof_writes h

theorem stepAbsent_ok {s t : Db} {now : Time} {roomId : Uuid} {intent : DeletionIntent}
    {request : Option DeletionRequest} {proof : Option MessagePurgeCheckpoint} {limit : Nat}
    {elsewhere : Elsewhere} {result : Status × Nat}
    (h : stepAbsent s now roomId intent request proof limit elsewhere = .ok (t, result)) :
    Stepped s roomId t := by
  unfold stepAbsent at h
  simp only at h
  split at h
  · cases h
    exact .nothing
  · split at h
    · cases h
      exact .nothing
    · simp only [bind_ok, pure_ok] at h
      obtain ⟨u, hu, ⟨a, changed, done⟩, ha, heq⟩ := h
      cases heq
      exact .page (proveAbsence_writes hu) ha (Writes.refl _)

theorem stepPresent_ok {s t : Db} {now : Time} {roomId : Uuid} {intent : DeletionIntent}
    {root : Message} {senderUserId : Uuid} {request : Option DeletionRequest} {limit : Nat}
    {elsewhere : Elsewhere} {result : Status × Nat}
    (h : stepPresent s now roomId intent root senderUserId request limit elsewhere =
      .ok (t, result)) : Stepped s roomId t := by
  unfold stepPresent at h
  simp only at h
  split at h
  · cases h
    exact .nothing
  · split at h
    · cases h
      exact .nothing
    · simp only [bind_ok] at h
      obtain ⟨⟨a, changed, done⟩, ha, h⟩ := h
      split at h
      · cases h
        exact .page (Writes.refl _) ha (Writes.refl _)
      · rename_i hdone
        rw [Bool.not_eq_false] at hdone
        subst hdone
        simp only [bind_ok] at h
        obtain ⟨b, hb, h⟩ := h
        split at h
        · cases h
          exact .row ha hb (Writes.refl _)
        · simp only [bind_ok, pure_ok] at h
          obtain ⟨c, hc, heq⟩ := h
          cases heq
          exact .row ha hb (recordProof_writes hc)

theorem step_ok {s t : Db} {now : Time} {lease : PurgeLease} {held : Bool} {limit : Nat}
    {elsewhere : Elsewhere} {result : Status × Nat}
    (h : step s now lease held limit elsewhere = .ok (t, result)) : ∃ roomId, Stepped s roomId t := by
  simp only [step, bind_ok, require_ok, pure_ok] at h
  obtain ⟨roomId, -, -, -, -, -, intent, -, -, -, -, -, u, hu, -, -, rfl⟩ := h
  refine ⟨roomId, ?_⟩
  unfold stepTarget at hu
  simp only at hu
  split at hu
  · exact stepAbsent_ok hu
  · exact stepPresent_ok hu

theorem step_writes {s t : Db} {now : Time} {lease : PurgeLease} {held : Bool} {limit : Nat}
    {elsewhere : Elsewhere} {result : Status × Nat}
    (h : step s now lease held limit elsewhere = .ok (t, result)) :
    Db.Writes [.commandReceipts, .messages, .rooms, .messagePublications, .messageReactions,
      .messageStickers, .roomEvents, .messagePurgeCheckpoints] s t := by
  obtain ⟨roomId, hstep⟩ := step_ok h
  cases hstep with
  | nothing => exact Writes.refl _
  | page hu ha ht =>
    exact (hu.mono (by simp)).trans (((MessageDependenciesService.page_writes
      ha).mono (by simp)).trans
      (ht.mono (by simp)))
  | row ha hb ht =>
    exact ((MessageDependenciesService.page_writes ha).mono (by simp)).trans
      (((remove_writes hb).mono (by simp)).trans (ht.mono (by simp)))

theorem step_rooms {s t : Db} {now : Time} {lease : PurgeLease} {held : Bool} {limit : Nat}
    {elsewhere : Elsewhere} {result : Status × Nat}
    (h : step s now lease held limit elsewhere = .ok (t, result)) : Reepoched s t := by
  obtain ⟨roomId, hstep⟩ := step_ok h
  cases hstep with
  | nothing => exact .refl _
  | page hu ha ht =>
    exact .trans (.of_eq (hu.rooms (by simp))) (.trans (MessageDependenciesService.page_rooms ha)
      (.of_eq (ht.rooms (by simp))))
  | row ha hb ht =>
    refine (MessageDependenciesService.page_rooms ha).trans
      (.trans ?_ (.of_eq (ht.rooms (by simp))))
    exact .trans (.advanceEpoch _ roomId)
      (.of_eq ((deleteMessage_ok (remove_ok hb).2).2.2.rooms (by simp)))

end MessagePurgeService

/-! ## The content of a deleted account -/

theorem AccountMediaRepository.admit_writes {s t : Db} {now : Time} {userId assetId roomId : Uuid}
    (h : admitAsset s now userId assetId roomId = .ok t) :
    Db.Writes [.mediaAssets, .mediaCleanupCheckpoints] s t := by
  simp only [admitAsset, bind_ok, require_ok, ensure_ok] at h
  obtain ⟨-, -, -, -, h⟩ := h
  split at h
  · cases h
    exact Writes.refl _
  · cases h
    intro n hn
    cases n <;> first | rfl | simp at hn

namespace AccountContentRepository

theorem checkpoint_writes {s t : Db} {intent : DeletionIntent} {m : Message}
    (h : checkpoint s intent m = .ok t) : Db.Writes [.accountContentCheckpoints] s t := by
  simp only [checkpoint, bind_ok, pure_ok] at h
  obtain ⟨checkpoints, -, rfl⟩ := h
  intro n hn
  cases n <;> first | rfl | simp at hn

theorem tombstone_writes (s : Db) (now : Time) (m : Message) (userId : Uuid) :
    Db.Writes [.messages] s (tombstone s now m userId) := by
  intro n hn
  cases n <;> first | rfl | simp at hn

/-- The row of an account's message goes once its copies have. -/
theorem remove_ok {s t : Db} {now : Time} {intent : DeletionIntent} {m : Message} {removed : Bool}
    (h : AccountContentRepository.remove s now intent m = .ok (t, removed)) :
    t = s ∨ ∃ u, MessagePurgeRepository.deleteMessage s m.roomId m = .ok u ∧
      Db.Writes [.accountContentCheckpoints] u t := by
  unfold AccountContentRepository.remove at h
  split at h
  · cases h
    exact .inl rfl
  · simp only [bind_ok, pure_ok] at h
    obtain ⟨-, -, u, hu, heq⟩ := h
    cases heq
    refine .inr ⟨u, hu, ?_⟩
    intro n hn
    cases n <;> first | rfl | simp at hn

end AccountContentRepository

namespace AccountContentService

open AccountContentRepository

theorem finish_writes (s : Db) (roomId : Uuid) (changed : Nat) :
    Db.Writes [.rooms] s (finish s roomId changed).1 := by
  unfold finish
  simp only
  split
  · exact Writes.refl _
  · exact MessagePurgeRepository.advanceEpoch_writes s roomId

/-- The tables of the media an account's messages refer to. -/
abbrev mediaTables : List TableName :=
  [.accountContentCheckpoints, .rooms, .mediaAssets, .mediaCleanupCheckpoints, .messageAttachments,
    .publicationMedia]

/-- A step on those tables, which moves rooms to a later epoch at most. -/
structure Lets (s t : Db) : Prop where
  writes : Db.Writes mediaTables s t
  rooms : Reepoched s t

namespace Lets

theorem of_writes {ts : List TableName} {s t : Db} (h : Db.Writes ts s t) (hts : ts ⊆ mediaTables)
    (hrooms : .rooms ∉ ts) : Lets s t :=
  ⟨h.mono hts, .of_eq (h.rooms hrooms)⟩

theorem refl (s : Db) : Lets s s := ⟨Writes.refl s, .refl s⟩

theorem trans {s t u : Db} (h : Lets s t) (h' : Lets t u) : Lets s u :=
  ⟨h.writes.trans h'.writes, h.rooms.trans h'.rooms⟩

theorem finish (s : Db) (roomId : Uuid) (changed : Nat) :
    Lets s (AccountContentService.finish s roomId changed).1 := by
  refine ⟨(finish_writes s roomId changed).mono (by simp), ?_⟩
  unfold AccountContentService.finish
  simp only
  split
  · exact .refl _
  · exact .advanceEpoch s roomId

end Lets

/-- A page of an account's content tombstones one message, lets go of its media, clears
a page of its dependants, or removes its row. -/
inductive Stepped (s : Db) : Db → Prop
  | media {t : Db} : Lets s t → Stepped s t
  | tombstone {u t : Db} {now : Time} {m : Message} {userId : Uuid} :
      Lets s u → Lets (AccountContentRepository.tombstone u now m userId) t → Stepped s t
  | page {u a t : Db} {roomId messageId : Uuid} {limit changed : Nat} {elsewhere : Elsewhere}
      {done : Bool} : Lets s u →
      MessageDependenciesService.page u roomId messageId limit elsewhere = .ok (a, changed, done) →
      Lets a t → Stepped s t
  | row {u a b t : Db} {m : Message} {limit changed : Nat} {elsewhere : Elsewhere} :
      Lets s u →
      MessageDependenciesService.page u m.roomId m.id limit elsewhere = .ok (a, changed, true) →
      MessagePurgeRepository.deleteMessage a m.roomId m = .ok b → Lets b t → Stepped s t

theorem pageMessage_ok {s t : Db} {now : Time} {intent : DeletionIntent} {m : Message}
    {limit changed : Nat} {elsewhere : Elsewhere}
    (h : pageMessage s now intent m limit elsewhere = .ok (t, changed)) : Stepped s t := by
  simp only [pageMessage, bind_ok] at h
  obtain ⟨u, hu, h⟩ := h
  have hcheck : Lets s u := .of_writes (checkpoint_writes hu) (by simp) (by simp)
  have admitted : ∀ {a b : Db} {userId assetId roomId : Uuid},
      AccountMediaRepository.admitAsset a now userId assetId roomId = .ok b → Lets a b :=
    fun h => .of_writes (AccountMediaRepository.admit_writes h) (by simp) (by simp)
  split at h
  · cases h
    exact .tombstone hcheck (.finish _ _ 1)
  · split at h
    · -- an attached asset, a publication's copy, or what is left of the message, in this order
      rename_i x hx
      simp only [bind_ok, pure_ok] at h
      obtain ⟨a, ha, heq⟩ := h
      cases heq
      refine .media (hcheck.trans ((admitted ha).trans (.trans ?_ (.finish _ _ 1))))
      refine ⟨?_, .of_eq rfl⟩
      intro n hn
      cases n <;> first | rfl | simp at hn
    · split at h
      · rename_i pm hpm
        simp only [bind_ok, pure_ok] at h
        obtain ⟨a, ha, heq⟩ := h
        cases heq
        refine .media (hcheck.trans ((admitted ha).trans (.trans ?_ (.finish _ _ 1))))
        refine ⟨?_, .of_eq rfl⟩
        intro n hn
        cases n <;> first | rfl | simp at hn
      · simp only [bind_ok] at h
        obtain ⟨⟨a, count, done⟩, ha, h⟩ := h
        split at h
        · cases h
          exact .page hcheck ha (.finish _ _ _)
        · rename_i hdone
          rw [Bool.not_eq_false] at hdone
          subst hdone
          simp only [bind_ok, pure_ok] at h
          obtain ⟨⟨b, removed⟩, hb, heq⟩ := h
          cases heq
          rcases AccountContentRepository.remove_ok hb with rfl | ⟨c, hc, hb⟩
          · exact .page hcheck ha (.finish _ _ _)
          · exact .row hcheck ha hc ((Lets.of_writes hb (by simp) (by simp)).trans (.finish _ _ _))

theorem page_ok {s t : Db} {now : Time} {intent : DeletionIntent} {limit : Nat}
    {elsewhere : Elsewhere} {changed : Option Nat}
    (h : page s now intent limit elsewhere = .ok (t, changed)) : Stepped s t := by
  simp only [page, bind_ok] at h
  obtain ⟨-, -, h⟩ := h
  split at h
  · simp only [bind_ok, pure_ok] at h
    obtain ⟨⟨a, count⟩, ha, heq⟩ := h
    cases heq
    exact pageMessage_ok ha
  · split at h
    · cases h
      exact .media (.refl _)
    · simp only [bind_ok, pure_ok] at h
      obtain ⟨-, -, ⟨a, count, done⟩, ha, heq⟩ := h
      cases heq
      exact .page (.refl _) ha (.refl _)

theorem page_writes {s t : Db} {now : Time} {intent : DeletionIntent} {limit : Nat}
    {elsewhere : Elsewhere} {changed : Option Nat}
    (h : page s now intent limit elsewhere = .ok (t, changed)) :
    Db.Writes [.commandReceipts, .messages, .rooms, .messagePublications, .messageReactions,
      .messageStickers, .roomEvents, .accountContentCheckpoints, .mediaAssets,
      .mediaCleanupCheckpoints, .messageAttachments, .publicationMedia] s t := by
  have media : ∀ {a b : Db}, Lets a b → Db.Writes [.commandReceipts, .messages,
      .rooms, .messagePublications, .messageReactions, .messageStickers, .roomEvents,
      .accountContentCheckpoints, .mediaAssets, .mediaCleanupCheckpoints, .messageAttachments,
      .publicationMedia] a b := fun hw => hw.writes.mono (by simp)
  cases page_ok h with
  | media hw => exact media hw
  | tombstone hu ht =>
    exact (media hu).trans (((tombstone_writes _ _ _ _).mono (by simp)).trans (media ht))
  | page hu ha ht =>
    exact (media hu).trans (((MessageDependenciesService.page_writes ha).mono (by simp)).trans
      (media ht))
  | row hu ha hb ht =>
    exact (media hu).trans (((MessageDependenciesService.page_writes ha).mono (by simp)).trans
      (((MessagePurgeRepository.deleteMessage_ok hb).2.2.mono (by simp)).trans (media ht)))

theorem page_rooms {s t : Db} {now : Time} {intent : DeletionIntent} {limit : Nat}
    {elsewhere : Elsewhere} {changed : Option Nat}
    (h : page s now intent limit elsewhere = .ok (t, changed)) : Reepoched s t := by
  cases page_ok h with
  | media hw => exact hw.rooms
  | tombstone hu ht => exact hu.rooms.trans (.trans (.of_eq rfl) ht.rooms)
  | page hu ha ht => exact hu.rooms.trans ((MessageDependenciesService.page_rooms ha).trans ht.rooms)
  | row hu ha hb ht =>
    exact hu.rooms.trans ((MessageDependenciesService.page_rooms ha).trans
      (.trans (.of_eq ((MessagePurgeRepository.deleteMessage_ok hb).2.2.rooms (by simp))) ht.rooms))

end AccountContentService

/-! ## Every command -/

/-- The tables a command may write. -/
def Command.tables : Command → List TableName
  | .createOwnedRoom .. =>
    [.rooms, .roomCounters, .messageStreams, .roomMembers, .membershipPeriods, .users]
  | .joinRoom .. => [.roomMembers, .roomCounters, .membershipPeriods, .users]
  | .leaveRoom .. => [.membershipPeriods, .roomTestGrants, .roomMembers, .users]
  | .setHistoryPolicy .. => [.rooms]
  | .block .. => [.actorBlocks, .roomMembers]
  | .ban .. => [.roomTestGrants, .membershipPeriods, .streamGrants, .roomMembers, .users]
  | .provision .. =>
    [.defaultRoomBindings, .creatorAccounts, .rooms, .roomMembers, .roomCounters,
      .membershipPeriods, .users, .messageStreams, .streamPairs, .streamGrants]
  | .send .. =>
    [.messageStreams, .streamPairs, .streamGrants, .roomMembers, .roomCounters, .messages,
      .messageAttachments, .messageStickers, .commandReceipts, .roomEvents]
  | .remove .. =>
    [.deletionRequests, .messages, .commandReceipts, .messagePublications, .mediaAssets,
      .roomCounters, .roomEvents]
  | .invalidateRevokedSticker .. => [.messages, .roomCounters, .roomEvents]
  | .setReaction .. => [.messageReactions, .messages, .roomCounters, .roomEvents]
  | .requestPublication .. => [.messagePublications]
  | .publishText .. =>
    [.messagePublications, .messages, .messageAttachments, .roomCounters, .roomEvents]
  | .preparePhoto .. =>
    [.messagePublications, .mediaBudget, .mediaAssets, .mediaObjects, .publicationMedia]
  | .finalizePhoto .. =>
    [.messagePublications, .mediaAssets, .mediaObjects, .messages, .messageAttachments,
      .roomCounters, .roomEvents]
  | .recoverPhotos .. => [.messagePublications, .mediaAssets]
  | .purgeStep .. =>
    [.commandReceipts, .messages, .rooms, .messagePublications, .messageReactions,
      .messageStickers, .roomEvents, .messagePurgeCheckpoints]
  | .accountContentPage .. =>
    [.commandReceipts, .messages, .rooms, .messagePublications, .messageReactions,
      .messageStickers, .roomEvents, .accountContentCheckpoints, .mediaAssets,
      .mediaCleanupCheckpoints, .messageAttachments, .publicationMedia]
  | .environment .. =>
    [.users, .userProfiles, .platformSoop, .authIdentities, .adminCapabilities, .roomTestGrants,
      .stickerCatalog, .mediaAssets, .mediaObjects, .roomMediaPolicy, .deletionIntents,
      .accountDeletionObligations]

/-- A command writes only its tables. -/
theorem Command.exec_writes {c : Command} {s t : Db} (h : c.exec s = .ok t) :
    Db.Writes c.tables s t := by
  cases c with
  | leaveRoom => exact RoomStateService.leaveRoom_writes h
  | block => exact ModerationCoreService.block_writes h
  | ban => exact ModerationCoreService.ban_writes h
  | setReaction => exact ReactionsCoreService.setReaction_writes h
  | publishText => exact PublicationsCoreService.publishText_writes h
  | finalizePhoto => exact PublicationsCoreService.finalizePhoto_writes h
  | recoverPhotos now runnable recheck =>
    cases h
    exact PublicationsCoreService.recoverPhotos_writes s now runnable recheck
  | environment e =>
    cases h
    intro n hn
    cases n <;> first | rfl | simp [Command.tables] at hn
  | _ =>
    -- The other commands also answer something, which `exec` drops.
    simp only [Command.exec, bind_ok, pure_ok] at h
    obtain ⟨⟨t, reply⟩, h, rfl⟩ := h
    first
      | exact RoomStateService.createOwnedRoom_writes h
      | exact RoomStateService.joinRoom_writes h
      | exact RoomsCoreService.setHistoryPolicy_writes h
      | exact DefaultRoomService.provision_writes h
      | exact MessagesCoreService.send_writes h
      | exact MessagesCoreService.remove_writes h
      | exact MessagesCoreService.invalidateRevokedSticker_writes h
      | exact PublicationsCoreService.requestPublication_writes h
      | exact PublicationsCoreService.preparePhoto_writes h
      | exact MessagePurgeService.step_writes h
      | exact AccountContentService.page_writes h

end Rogichat
