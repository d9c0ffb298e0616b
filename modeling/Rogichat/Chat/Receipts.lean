import Rogichat.Chat.Copies

/-!
# Receipts and retries

A send leaves a receipt under its room, member and client id, in the transaction
that inserts its message. Every later command with that key is answered from the
receipt, and no command deletes a receipt or opens a deleted one again: not a
removal, not the purge of the message the receipt names.

* **`CommandReceipt.Later`**, **`run_receipts`** — what becomes of a receipt.
* **`Answered`** — how a command with a receipt is answered.
* **`send_exactly_once`** — over whole runs.
-/

namespace Rogichat

open Lib

/-! ## Receipts over time -/

/-- A later version of a receipt row. -/
structure CommandReceipt.Later (r q : CommandReceipt) : Prop where
  id : q.id = r.id
  roomId : q.roomId = r.roomId
  actorId : q.actorId = r.actorId
  clientMessageId : q.clientMessageId = r.clientMessageId
  messageId : q.messageId = r.messageId
  digestVersion : q.digestVersion = r.digestVersion
  deleted : r.deleted = true → q.deleted = true
  digest : q.deleted = true ∨ q.payloadDigest = r.payloadDigest

namespace CommandReceipt.Later

theorem refl (r : CommandReceipt) : r.Later r :=
  ⟨rfl, rfl, rfl, rfl, rfl, rfl, fun h => h, .inr rfl⟩

theorem trans {r q p : CommandReceipt} (h : r.Later q) (h' : q.Later p) : r.Later p where
  id := h'.id.trans h.id
  roomId := h'.roomId.trans h.roomId
  actorId := h'.actorId.trans h.actorId
  clientMessageId := h'.clientMessageId.trans h.clientMessageId
  messageId := h'.messageId.trans h.messageId
  digestVersion := h'.digestVersion.trans h.digestVersion
  deleted hr := h'.deleted (h.deleted hr)
  digest := by
    rcases h'.digest with hp | hp
    · exact .inl hp
    · rcases h.digest with hq | hq
      · exact .inl (h'.deleted hq)
      · exact .inr (hp.trans hq)

/-- A scrubbed receipt. -/
theorem scrubbed (r : CommandReceipt) : r.Later { r with deleted := true, payloadDigest := none } :=
  ⟨rfl, rfl, rfl, rfl, rfl, rfl, fun _ => rfl, .inl rfl⟩

end CommandReceipt.Later

/-- Every receipt of `s` is still there in `t`. -/
def Receipted (s t : Db) : Prop :=
  ∀ r ∈ s.commandReceipts, ∃ q ∈ t.commandReceipts, r.Later q

namespace Receipted

theorem of_eq {s t : Db} (h : t.commandReceipts = s.commandReceipts) : Receipted s t :=
  fun r hr => ⟨r, h ▸ hr, .refl r⟩

theorem refl (s : Db) : Receipted s s := of_eq rfl

theorem frame {ts : List TableName} {s t : Db} (h : Db.Writes ts s t)
    (hreceipts : .commandReceipts ∉ ts) : Receipted s t :=
  of_eq (h.commandReceipts hreceipts)

theorem trans {s t u : Db} (h : Receipted s t) (h' : Receipted t u) : Receipted s u := by
  intro r hr
  obtain ⟨q, hq, hrq⟩ := h r hr
  obtain ⟨p, hp, hqp⟩ := h' q hq
  exact ⟨p, hp, hrq.trans hqp⟩

/-- Some receipts are scrubbed. -/
theorem scrub {s t : Db} {p : CommandReceipt → Prop} [DecidablePred p]
    {k : Table.Keeps fun r : CommandReceipt => { r with deleted := true, payloadDigest := none }}
    (h : t.commandReceipts = s.commandReceipts.update p
      (fun r => { r with deleted := true, payloadDigest := none }) k) : Receipted s t := by
  intro r hr
  refine ⟨_, h ▸ Table.mem_update_of_mem hr, ?_⟩
  split
  · exact .scrubbed r
  · exact .refl r

end Receipted

namespace MessagesRepository

theorem blockMessageAndCopies_receipts {s t : Db} {now : Time} {request : DeletionRequest}
    {existing : Bool} (h : blockMessageAndCopies s now request existing = .ok t) :
    t.commandReceipts = s.commandReceipts.update
      (fun r => r.roomId = request.roomId ∧ r.messageId = request.messageId)
      (fun r => { r with deleted := true, payloadDigest := none }) := by
  simp only [blockMessageAndCopies, bind_ok, pure_ok] at h
  obtain ⟨requests, -, rfl⟩ := h
  rfl

end MessagesRepository

namespace MessagesCoreService

open MessagesRepository

/-- The receipt of a new message, next to all that were there. -/
theorem create_receipt {s t : Db} {now : Time} {ids : Nat → Uuid} {roomId userId : Uuid}
    {viewer : ActiveMember} {input : SendInput} {streamId : Uuid} {reply : SendReceipt}
    (h : create s now ids roomId userId viewer input streamId = .ok (t, reply)) :
    s.commandReceipts.insert
        { id := ids 5, roomId := roomId, actorId := viewer.id,
          clientMessageId := input.clientMessageId, messageId := reply.messageId,
          payloadDigest := some input.payload } = some t.commandReceipts := by
  obtain ⟨a, b, c, d, order, ha, hb, hc, hd, he, rfl⟩ := create_ok h
  rw [(event_ok he).2.commandReceipts (by simp),
    ← (RoomStateService.nextOrder_writes ha).commandReceipts (by simp),
    ← (insertMessage_ok hb).2.commandReceipts (by simp),
    ← (attachSticker_writes hc).commandReceipts (by simp)]
  exact (insertReceipt_ok hd).1

theorem send_receipted {s t : Db} {now : Time} {ids : Nat → Uuid} {roomId userId : Uuid}
    {input : SendInput} {reply : SendReceipt}
    (h : send s now ids roomId userId input = .ok (t, reply)) : Receipted s t := by
  obtain ⟨admission, -, ⟨r, -, rfl, -⟩ | ⟨-, h⟩⟩ := send_ok h
  · exact .refl _
  · obtain ⟨u, streamId, hu, ht⟩ := sendNew_ok h
    refine (Receipted.frame (resolveStream_writes hu) (by simp)).trans fun r hr => ?_
    exact ⟨r, (Table.mem_insert (create_receipt ht)).mpr (.inl hr), .refl r⟩

/-- A removal scrubs the receipts of its message. -/
theorem removeRow_receipts {s t : Db} {now : Time} {ids : Nat → Uuid} {intent : DeletionIntent}
    {roomId : Uuid} {row : Message} (h : removeRow s now ids intent roomId row = .ok t) :
    t.commandReceipts = s.commandReceipts.update
      (fun r => r.roomId = roomId ∧ r.messageId = intent.targetId)
      (fun r => { r with deleted := true, payloadDigest := none }) := by
  obtain ⟨request, existing, a, hroom, hid, ha, ht⟩ := removeRow_ok h
  have hassets : Db.Writes [.mediaAssets] a ((attachedAssets a roomId intent.targetId).foldl
      (fun db x => blockAsset db now x) a) :=
    Writes.foldl (fun db x => blockAsset_writes db now x) _ a
  rw [(deletionEvent_writes ht).commandReceipts (by simp), hassets.commandReceipts (by simp),
    blockMessageAndCopies_receipts ha, hroom, hid]

theorem remove_receipted {s t : Db} {now : Time} {ids : Nat → Uuid} {intent : DeletionIntent}
    {done : Bool} (h : remove s now ids intent = .ok (t, done)) : Receipted s t := by
  rcases remove_ok h with ⟨rfl, -⟩ | ⟨roomId, row, -, -, -, h⟩
  · exact .refl _
  · exact .scrub (k := by exact ⟨fun _ => rfl⟩) (removeRow_receipts h)

/-- After a committed removal the receipts of the message are deleted. -/
theorem remove_scrubbed {s t : Db} {now : Time} {ids : Nat → Uuid} {intent : DeletionIntent}
    {r : CommandReceipt} (h : remove s now ids intent = .ok (t, true)) (hr : r ∈ s.commandReceipts)
    (hroom : intent.roomId = some r.roomId) (hmessage : intent.targetId = r.messageId) :
    ∃ q ∈ t.commandReceipts, r.Later q ∧ q.deleted = true := by
  rcases remove_ok h with ⟨-, hdone⟩ | ⟨roomId, row, hroomId, -, -, h⟩
  · cases hdone
  · have hsame : r.roomId = roomId := Option.some.inj (hroom.symm.trans hroomId)
    rw [removeRow_receipts h]
    refine ⟨_, Table.mem_update_of_mem hr, ?_⟩
    rw [if_pos ⟨hsame, hmessage.symm⟩]
    exact ⟨.scrubbed r, rfl⟩

end MessagesCoreService

/-! ## Purges -/

theorem MessagePurgeRepository.scrubReceipts_receipted (s : Db) (roomId messageId : Uuid)
    (limit : Nat) : Receipted s (scrubReceipts s roomId messageId limit).1 :=
  .scrub (k := by exact ⟨fun _ => rfl⟩) rfl

theorem MessageDependenciesService.page_receipted {s t : Db} {roomId messageId : Uuid}
    {limit changed : Nat} {elsewhere : Elsewhere} {done : Bool}
    (h : page s roomId messageId limit elsewhere = .ok (t, changed, done)) : Receipted s t := by
  cases page_ok h with
  | elsewhere => exact .refl _
  | receipts => exact MessagePurgeRepository.scrubReceipts_receipted s roomId messageId limit
  | quotes =>
    exact .frame (MessagePurgeRepository.clearQuotes_writes s roomId messageId limit) (by simp)
  | publications hp => exact .frame (MessagePurgeRepository.publications_writes hp) (by simp)
  | reactions => exact .frame (MessagePurgeRepository.reactions_writes s _ _ _) (by simp)
  | stickers => exact .frame (MessagePurgeRepository.sticker_writes s _ _) (by simp)
  | events jobs => exact .frame (MessagePurgeRepository.events_writes s _ _ _ jobs) (by simp)
  | done => exact .refl _

theorem MessagePurgeService.step_receipted {s t : Db} {now : Time} {lease : PurgeLease}
    {held : Bool} {limit : Nat} {elsewhere : Elsewhere} {result : Status × Nat}
    (h : step s now lease held limit elsewhere = .ok (t, result)) : Receipted s t := by
  obtain ⟨roomId, hstep⟩ := step_ok h
  cases hstep with
  | nothing => exact .refl _
  | page hu ha ht =>
    exact (Receipted.frame hu (by simp)).trans
      ((MessageDependenciesService.page_receipted ha).trans (.frame ht (by simp)))
  | row ha hb ht =>
    exact (MessageDependenciesService.page_receipted ha).trans
      ((Receipted.frame (MessagePurgeRepository.remove_writes hb) (by simp)).trans
        (.frame ht (by simp)))

theorem AccountContentService.page_receipted {s t : Db} {now : Time} {intent : DeletionIntent}
    {limit : Nat} {elsewhere : Elsewhere} {changed : Option Nat}
    (h : page s now intent limit elsewhere = .ok (t, changed)) : Receipted s t := by
  have media : ∀ {a b : Db}, Lets a b → Receipted a b := fun hw => .frame hw.writes (by simp)
  cases page_ok h with
  | media hw => exact media hw
  | @tombstone u _ now m userId hu ht =>
    have htomb : Receipted u (AccountContentRepository.tombstone u now m userId) := .of_eq rfl
    exact (media hu).trans (htomb.trans (media ht))
  | page hu ha ht =>
    exact (media hu).trans ((MessageDependenciesService.page_receipted ha).trans (media ht))
  | row hu ha hb ht =>
    exact (media hu).trans ((MessageDependenciesService.page_receipted ha).trans
      ((Receipted.frame (MessagePurgeRepository.deleteMessage_ok hb).2.2 (by simp)).trans
      (media ht)))

/-! ## Every command -/

theorem Command.exec_receipted {c : Command} {s t : Db} (h : c.exec s = .ok t) :
    Receipted s t := by
  cases c with
  | send | remove | purgeStep | accountContentPage =>
    simp only [Command.exec, bind_ok, pure_ok] at h
    obtain ⟨⟨t, reply⟩, h, rfl⟩ := h
    first
      | exact MessagesCoreService.send_receipted h
      | exact MessagesCoreService.remove_receipted h
      | exact MessagePurgeService.step_receipted h
      | exact AccountContentService.page_receipted h
  | _ => exact .frame (exec_writes h) (by simp [tables])

/-- No run loses a receipt or opens it again. -/
theorem run_receipts {allowed : Command → Prop} {s t : Db} {cs : List Command}
    (h : (chatOf allowed).Run s cs t) : Receipted s t := by
  induction h with
  | nil => exact .refl _
  | cons hstep _ ih => exact (Command.exec_receipted hstep.2).trans ih

/-! ## Answers -/

namespace MessagesCoreService

open MessagesRepository

/-- A command that the checks before the receipt admit, under the receipt's key. -/
structure Attempt (db : Db) (r : CommandReceipt) (now : Time) (userId : Uuid) (input : SendInput)
    (admission : Admission) : Prop where
  admitted : admitSend db now r.roomId userId input = .ok admission
  actor : admission.member.id = r.actorId
  key : input.clientMessageId = r.clientMessageId

/-- How commands under the receipt's key are answered. -/
structure Answered (db : Db) (r : CommandReceipt) : Prop where
  /-- Nothing is inserted, and the reply names the receipt's message. -/
  quiet : ∀ now ids userId input m t reply, member db r.roomId userId = some m →
    m.id = r.actorId → input.clientMessageId = r.clientMessageId →
    send db now ids r.roomId userId input = .ok (t, reply) → t = db ∧ reply.messageId = r.messageId
  deleted : ∀ now ids userId input admission, Attempt db r now userId input admission →
    r.deleted = true → send db now ids r.roomId userId input =
      .ok (db, .deleted r.clientMessageId r.messageId)
  conflict : ∀ now ids userId input admission, Attempt db r now userId input admission →
    r.deleted = false → r.payloadDigest ≠ some input.payload →
    send db now ids r.roomId userId input = .error (.api .conflict)
  committed : ∀ now ids userId input admission, Attempt db r now userId input admission →
    r.deleted = false → r.digestVersion = 1 → r.payloadDigest = some input.payload →
    ∀ row, load db true r.roomId r.messageId = some row →
      readable db now admission.viewer row = true →
      send db now ids r.roomId userId input =
        .ok (db, .committed r.clientMessageId r.messageId row.version)
  unreadable : ∀ now ids userId input admission, Attempt db r now userId input admission →
    r.deleted = false → r.digestVersion = 1 → r.payloadDigest = some input.payload →
    (∀ row, load db true r.roomId r.messageId = some row →
      readable db now admission.viewer row = false) →
    send db now ids r.roomId userId input = .error (.api .notFound)

/-- The receipt a command finds under its key. -/
theorem receipt_of_mem {db : Db} {r : CommandReceipt} (hr : r ∈ db.commandReceipts)
    {actorId clientMessageId : Uuid} (hactor : actorId = r.actorId)
    (hkey : clientMessageId = r.clientMessageId) :
    receipt db r.roomId actorId clientMessageId = some r := by
  subst hactor hkey
  refine Table.find?_eq_some hr ⟨rfl, rfl, rfl⟩ (k := (1, [r.roomId, r.actorId,
    r.clientMessageId])) (.tail _ (.head _)) ?_
  rintro q ⟨hroom, hactor, hclient⟩
  rw [← hroom, ← hactor, ← hclient]
  exact .tail _ (.head _)

/-- An admitted command with a receipt is a replay of it. -/
theorem send_of_attempt {db : Db} {r : CommandReceipt} (hr : r ∈ db.commandReceipts) {now : Time}
    {userId : Uuid} {input : SendInput} {admission : Admission}
    (h : Attempt db r now userId input admission) (ids : Nat → Uuid) :
    send db now ids r.roomId userId input = do
      let reply ← replay db now r.roomId admission.viewer input r
      return (db, reply) := by
  simp only [send, h.admitted, ok_bind, receipt_of_mem hr h.actor h.key]

theorem replay_messageId {db : Db} {now : Time} {roomId : Uuid} {viewer : ActiveMember}
    {input : SendInput} {r : CommandReceipt} {reply : SendReceipt}
    (h : replay db now roomId viewer input r = .ok reply) : reply.messageId = r.messageId := by
  unfold replay at h
  split at h
  · cases h
    rfl
  · simp only [bind_ok, ensure_ok, require_ok, pure_ok] at h
    obtain ⟨-, -, row, hload, -, -, rfl⟩ := h
    exact (MessagesRepository.load_some hload).id_eq

theorem replay_digest {db : Db} {now : Time} {roomId : Uuid} {viewer : ActiveMember}
    {input : SendInput} {r : CommandReceipt} {reply : SendReceipt}
    (h : replay db now roomId viewer input r = .ok reply) :
    r.deleted = true ∨ r.digestVersion = 1 ∧ r.payloadDigest = some input.payload := by
  unfold replay at h
  split at h
  · rename_i hdeleted
    exact .inl hdeleted
  · simp only [bind_ok, ensure_ok] at h
    obtain ⟨-, hdigest, -⟩ := h
    exact .inr hdigest

theorem answered {db : Db} {r : CommandReceipt} (hr : r ∈ db.commandReceipts) :
    Answered db r := by
  refine ⟨?_, ?_, ?_, ?_, ?_⟩
  · intro now ids userId input m t reply hmember hactor hkey hsend
    obtain ⟨admission, hadmitted, hcase⟩ := send_ok hsend
    have hsame : admission.member = m := Option.some.inj (hadmitted.member.symm.trans hmember)
    rw [hsame, receipt_of_mem hr hactor hkey] at hcase
    rcases hcase with ⟨q, hq, rfl, hreplay⟩ | ⟨hnone, -⟩
    · cases hq
      exact ⟨rfl, replay_messageId hreplay⟩
    · cases hnone
  · intro now ids userId input admission h hdeleted
    rw [send_of_attempt hr h, replay, if_pos hdeleted, h.key]
    rfl
  · intro now ids userId input admission h hlive hdigest
    rw [send_of_attempt hr h, replay, if_neg (by simp [hlive]), ensure_neg fun hc => hdigest hc.2]
    rfl
  · intro now ids userId input admission h hlive hversion hdigest row hload hread
    rw [send_of_attempt hr h, replay, if_neg (by simp [hlive]), ensure_pos ⟨hversion, hdigest⟩,
      hload, ok_bind, require_some, ok_bind, ensure_pos hread, h.key,
      (MessagesRepository.load_some hload).id_eq]
    rfl
  · intro now ids userId input admission h hlive hversion hdigest hunreadable
    rw [send_of_attempt hr h, replay, if_neg (by simp [hlive]), ensure_pos ⟨hversion, hdigest⟩,
      ok_bind]
    cases hload : load db true r.roomId r.messageId with
    | none => rfl
    | some row =>
      have hnot : ¬readable db now admission.viewer row = true := by
        simp [hunreadable row hload]
      rw [require_some, ok_bind, ensure_neg hnot]
      rfl

/-- The receipt that records a command, and what it replied. -/
structure Records (r : CommandReceipt) (roomId actorId : Uuid) (input : SendInput)
    (reply : SendReceipt) : Prop where
  roomId_eq : r.roomId = roomId
  actor : r.actorId = actorId
  key : r.clientMessageId = input.clientMessageId
  message : r.messageId = reply.messageId
  digest : r.deleted = true ∨ r.digestVersion = 1 ∧ r.payloadDigest = some input.payload

theorem Records.later {r q : CommandReceipt} {roomId actorId : Uuid} {input : SendInput}
    {reply : SendReceipt} (h : Records r roomId actorId input reply) (hlater : r.Later q) :
    Records q roomId actorId input reply where
  roomId_eq := hlater.roomId.trans h.roomId_eq
  actor := hlater.actorId.trans h.actor
  key := hlater.clientMessageId.trans h.key
  message := hlater.messageId.trans h.message
  digest := by
    rcases h.digest with hdeleted | ⟨hversion, hdigest⟩
    · exact .inl (hlater.deleted hdeleted)
    · rcases hlater.digest with hdeleted | hsame
      · exact .inl hdeleted
      · exact .inr ⟨hlater.digestVersion.trans hversion, hsame.trans hdigest⟩

/-- A committed send is recorded, whether it is new or a retry. -/
theorem send_recorded {s t : Db} {now : Time} {ids : Nat → Uuid} {roomId userId : Uuid}
    {input : SendInput} {reply : SendReceipt} {m : RoomMember}
    (hmember : member s roomId userId = some m)
    (h : send s now ids roomId userId input = .ok (t, reply)) :
    (t.messages = s.messages ∨ ∃ n : Message, n.id = reply.messageId ∧
        s.messages.insert n = some t.messages) ∧
      ∃ r ∈ t.commandReceipts, Records r roomId m.id input reply := by
  obtain ⟨admission, hadmitted, ⟨r, hr, rfl, hreplay⟩ | ⟨-, hnew⟩⟩ := send_ok h
  · have hsame : admission.member = m := Option.some.inj (hadmitted.member.symm.trans hmember)
    obtain ⟨hroom, hactor, hkey⟩ := Table.holds_of_find? hr
    refine ⟨.inl rfl, r, Table.mem_of_find? hr, hroom, hactor.trans (by rw [hsame]), hkey,
      (replay_messageId hreplay).symm, replay_digest hreplay⟩
  · obtain ⟨u, streamId, hu, ht⟩ := sendNew_ok hnew
    have hroom : admission.room.id = roomId := by
      have hholds := Table.holds_of_find? hadmitted.room
      exact hholds
    have hw := resolveStream_writes hu
    obtain ⟨n, hid, -, -, hinsert⟩ := create_message ht
    refine ⟨.inr ⟨n, hid, hw.messages (by simp) ▸ hinsert⟩, _,
      (Table.mem_insert (create_receipt ht)).mpr (.inr rfl), ?_⟩
    exact ⟨hroom, (hadmitted.viewer_eq hmember).1, rfl, rfl, .inr ⟨rfl, rfl⟩⟩

/-- **A send happens once for its key.** A committed send inserts at most the one
message it replies with. In every later state a receipt under its key names that
message, every command under the key is answered from the receipt and inserts
nothing, and once the message was removed the answer is `deleted`, whatever became
of the row. -/
theorem send_exactly_once {s t u : Db} {cs : List Command} {now : Time} {ids : Nat → Uuid}
    {roomId userId : Uuid} {input : SendInput} {reply : SendReceipt} {m : RoomMember}
    (hmember : member s roomId userId = some m)
    (hsend : send s now ids roomId userId input = .ok (t, reply)) (hrun : chat.Run t cs u) :
    (t.messages = s.messages ∨ ∃ n : Message, n.id = reply.messageId ∧
        s.messages.insert n = some t.messages) ∧
      (∃ r ∈ u.commandReceipts, Records r roomId m.id input reply ∧ Answered u r) ∧
      ∀ now ids intent v ds w, intent.targetId = reply.messageId → intent.roomId = some roomId →
        remove u now ids intent = .ok (v, true) → chat.Run v ds w →
        ∃ r ∈ w.commandReceipts, Records r roomId m.id input reply ∧ r.deleted = true ∧
          Answered w r := by
  obtain ⟨hmessages, r, hr, hrecords⟩ := send_recorded hmember hsend
  obtain ⟨q, hq, hrq⟩ := run_receipts hrun r hr
  have hqrecords := hrecords.later hrq
  refine ⟨hmessages, ⟨q, hq, hqrecords, answered hq⟩, ?_⟩
  intro now ids intent v ds w htarget hroom hremove hlater
  obtain ⟨p, hp, hqp, hdeleted⟩ := remove_scrubbed hremove hq (by rw [hroom, hqrecords.roomId_eq])
    (by rw [htarget, hqrecords.message])
  obtain ⟨o, ho, hpo⟩ := run_receipts hlater p hp
  exact ⟨o, ho, (hqrecords.later hqp).later hpo, hpo.deleted hdeleted, answered ho⟩

/-- A fan's first message to the owner, in one of its membership periods. -/
def fanMessage (periodId : Uuid) (text : String) : SendInput where
  membershipScope := ⟨2, 7, periodId⟩
  clientMessageId := 5
  intent := .private_
  recipientActorId := some 10
  quoteId := none
  content := .text text

/-- A room of the two accounts. -/
def roomOfTwo : List Command :=
  [.environment .twoMembers, .createOwnedRoom (fun i => 10 + i) "room" .fan .sinceJoin 1 7,
    .joinRoom (fun i => 20 + i) 7 2]

/-- The ledger has admitted the removal, and two purge steps erase the row. -/
def erasure : List Command :=
  [.environment
      { Environment.twoMembers with
        deletionIntents := ⟨[⟨9, 2, false, 34, some 7, 1, some 1⟩], by decide⟩ },
    .purgeStep 2 ⟨some 7, some 9⟩ true 500 {}, .purgeStep 3 ⟨some 7, some 9⟩ true 500 {}]

/-- The fan sends a message and removes it, and its row is purged; a retry, even of another text,
is told so and inserts nothing. -/
theorem send_exactly_once_removed : ∃ s t u v : Db,
    send s 0 (fun i => 30 + i) 7 2 (fanMessage 21 "hi") = .ok (t, .committed 5 34 1) ∧
    remove t 1 (fun i => 40 + i) ⟨9, 2, false, 34, some 7, 1, none⟩ = .ok (u, true) ∧
    u.messages.rows.length = 1 ∧ chat.Run u erasure v ∧ v.messages.rows = [] ∧
    send v 4 (fun i => 50 + i) 7 2 (fanMessage 21 "ho") = .ok (v, .deleted 5 34) := by
  obtain ⟨s, hs⟩ : ∃ s, ({} : Db).after roomOfTwo = .ok s := ⟨_, rfl⟩
  obtain ⟨t, ht⟩ : ∃ t, send s 0 (fun i => 30 + i) 7 2 (fanMessage 21 "hi") =
      .ok (t, .committed 5 34 1) := by
    cases hs
    exact ⟨_, rfl⟩
  obtain ⟨u, hu, hsent⟩ : ∃ u, remove t 1 (fun i => 40 + i) ⟨9, 2, false, 34, some 7, 1, none⟩ =
      .ok (u, true) ∧ u.messages.rows.length = 1 := by
    cases hs
    cases ht
    exact ⟨_, rfl, rfl⟩
  obtain ⟨v, hv, hpurged⟩ : ∃ v, u.after erasure = .ok v ∧ v.messages.rows = [] := by
    cases hs
    cases ht
    cases hu
    exact ⟨_, rfl, rfl⟩
  obtain ⟨m, hm⟩ : ∃ m, member s 7 2 = some m := by
    cases hs
    exact ⟨_, rfl⟩
  have hall := (send_exactly_once hm ht (.nil t)).2.2 1 _ _ u erasure v rfl rfl hu (run_of_after hv)
  obtain ⟨r, hr, hrecords, hdeleted, hanswered⟩ := hall
  refine ⟨s, t, u, v, ht, hu, hsent, run_of_after hv, hpurged, ?_⟩
  obtain ⟨admission, hadmit, hid⟩ : ∃ admission, admitSend v 4 7 2 (fanMessage 21 "ho") = .ok admission ∧
      admission.member.id = m.id := by
    cases hs
    cases ht
    cases hu
    cases hv
    cases hm
    exact ⟨_, rfl, rfl⟩
  have hreply := hanswered.deleted 4 (fun i => 50 + i) 2 (fanMessage 21 "ho") admission
    ⟨by rw [hrecords.roomId_eq]; exact hadmit, hid.trans hrecords.actor.symm, hrecords.key.symm⟩
    hdeleted
  rw [hrecords.roomId_eq, hrecords.key, hrecords.message] at hreply
  exact hreply

/-- The fan leaves and joins again: the retry of its message finds the live receipt
with its own digest, and is refused, as the message is from before the new period. -/
theorem send_retry_rejoined : ∃ s : Db, chat.Reachable s ∧
    (∃ r, receipt s 7 20 5 = some r ∧ r.deleted = false ∧ r.messageId = 34 ∧
      r.payloadDigest = some (fanMessage 21 "hi").payload) ∧
    (∃ admission, admitSend s 2 7 2 (fanMessage 41 "hi") = .ok admission ∧ admission.member.id = 20) ∧
    send s 2 (fun i => 50 + i) 7 2 (fanMessage 41 "hi") = .error (.api .notFound) := by
  obtain ⟨s, hs⟩ : ∃ s, ({} : Db).after (roomOfTwo ++
      [.send 0 (fun i => 30 + i) 7 2 (fanMessage 21 "hi"), .leaveRoom 1 7 2,
        .joinRoom (fun i => 40 + i) 7 2]) = .ok s := ⟨_, rfl⟩
  refine ⟨s, (run_of_after hs).reachable (.init rfl), ?_⟩
  cases hs
  exact ⟨⟨_, rfl, rfl, rfl, rfl⟩, ⟨_, rfl, rfl⟩, rfl⟩

end MessagesCoreService

end Rogichat
