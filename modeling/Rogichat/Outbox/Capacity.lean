import Rogichat.Outbox.Fenced

/-!
# The capacity of the outbox

`insert` makes room by evicting settled records. What it cannot evict are the records that
hold no receipt: those that were never settled, and those whose committed receipt was erased
with the authority it was settled under.

* **`insert_capacity`** — a new command is refused for its room if and only if the records
  that hold no receipt leave none.
* **`insert_new`** — otherwise all of them stay, and the limits are met.
* **`exec_results`** — what a step does to the receipts.
* **`outbox_capacity`** — over whole runs, with the history of the records without one.
-/

namespace Rogichat.Outbox

open Lib

/-! ## The size of a list -/

/-- The bytes a record takes in the state's JSON. -/
def OutboxRecord.size (r : OutboxRecord) : Nat := Json.byteSize r.toJson.render

/-- The bytes of a list are those of its items. -/
theorem byteSize_renderItems (vs : List Json) :
    Json.byteSize (Json.renderItems vs) =
      1 + (vs.map fun v => 1 + Json.byteSize v.render).sum := by
  induction vs with
  | nil => rfl
  | cons v vs ih =>
    rw [Json.renderItems, Json.byteSize_cons, Json.byteSize_append, ih, List.map_cons,
      List.sum_cons]
    show 1 + (_ + (1 + _)) = _
    omega

/-- A separator or bracket beside every item, and one more. -/
theorem byteSize_render_arr {vs : List Json} (h : vs ≠ []) :
    Json.byteSize (Json.arr vs).render = 1 + (vs.map fun v => 1 + Json.byteSize v.render).sum := by
  cases vs with
  | nil => exact absurd rfl h
  | cons v vs =>
    rw [Json.render, Json.byteSize_cons, Json.byteSize_append, byteSize_renderItems,
      List.map_cons, List.sum_cons]
    show 1 + (_ + (1 + _)) = _
    omega

/-- The limits, in the sizes of the records. -/
theorem full_iff {records : List OutboxRecord} {record : OutboxRecord} : Full records record ↔
    maxRecords ≤ records.length ∨
      maxBytes < 1 + (records.map fun r => 1 + r.size).sum + (1 + record.size) := by
  have hne : (records ++ [record]).map OutboxRecord.toJson ≠ [] := by simp
  rw [Full, byteSize_render_arr hne, List.map_map, List.map_append, List.sum_append]
  refine or_congr_right ?_
  rw [List.map_singleton, List.sum_singleton, ← Nat.add_assoc]
  rfl

/-- Fewer records are not fuller. -/
theorem Full.mono {l l' : List OutboxRecord} {record : OutboxRecord} (h : Full l record)
    (hsub : l.Sublist l') : Full l' record := by
  rw [full_iff] at h ⊢
  rcases h with h | h
  · exact .inl (h.trans hsub.length_le)
  · have hsum : (l.map fun r => 1 + r.size).sum ≤ (l'.map fun r => 1 + r.size).sum :=
      (hsub.map _).sum_le_sum fun _ _ => Nat.zero_le _
    exact .inr (by omega)

/-! ## Making room -/

/-- The records that hold no receipt. -/
def unsettled (records : List OutboxRecord) : List OutboxRecord :=
  records.filter fun r => r.result = none

/-- Making room erases settled records only. -/
theorem unsettled_eraseP (records : List OutboxRecord) :
    unsettled (records.eraseP fun r => r.result.isSome) = unsettled records := by
  induction records with
  | nil => rfl
  | cons r records ih =>
    cases hr : r.result with
    | some value =>
      rw [List.eraseP_cons_of_pos (by simp [hr]), unsettled, unsettled,
        List.filter_cons_of_neg (by simp [hr])]
    | none =>
      rw [List.eraseP_cons_of_neg (by simp [hr]), unsettled, unsettled,
        List.filter_cons_of_pos (by simp [hr]), List.filter_cons_of_pos (by simp [hr])]
      exact congrArg (r :: ·) ih

/-- Where nothing is settled nothing can be erased. -/
theorem unsettled_of_none {records : List OutboxRecord}
    (h : ¬∃ r ∈ records, r.result.isSome = true) : unsettled records = records := by
  refine List.filter_eq_self.mpr fun r hr => ?_
  rw [decide_eq_true_eq, ← Option.not_isSome_iff_eq_none]
  exact fun hsome => h ⟨r, hr, hsome⟩

/-- What room was made for fits, and what holds no receipt stays. -/
theorem makeRoom_ok {record : OutboxRecord} {fuel : Nat} {records kept : List OutboxRecord}
    (h : makeRoom record fuel records = .ok kept) :
    ¬Full kept record ∧ unsettled kept = unsettled records := by
  induction fuel generalizing records with
  | zero =>
    rw [makeRoom] at h
    split at h
    · cases h
    · rename_i hfits
      cases h
      exact ⟨hfits, rfl⟩
  | succ fuel ih =>
    rw [makeRoom] at h
    split at h
    · split at h
      · obtain ⟨hfits, hsame⟩ := ih h
        exact ⟨hfits, hsame.trans (unsettled_eraseP records)⟩
      · cases h
    · rename_i hfits
      cases h
      exact ⟨hfits, rfl⟩

/-- There is no room if and only if what holds no receipt leaves none. -/
theorem makeRoom_error {record : OutboxRecord} {fuel : Nat} {records : List OutboxRecord}
    {e : OutboxError} (hfuel : records.length ≤ fuel) :
    makeRoom record fuel records = .error e ↔
      e = .capacity ∧ Full (unsettled records) record := by
  induction fuel generalizing records with
  | zero =>
    obtain rfl := List.length_eq_zero_iff.mp (Nat.le_zero.mp hfuel)
    rw [makeRoom]
    by_cases hfull : Full [] record
    · rw [if_pos hfull, Except.error.injEq]
      exact ⟨fun h => ⟨h.symm, hfull⟩, fun h => h.1.symm⟩
    · rw [if_neg hfull]
      refine iff_of_false (by simp) ?_
      exact fun h => hfull h.2
  | succ fuel ih =>
    rw [makeRoom]
    by_cases hfull : Full records record
    · rw [if_pos hfull]
      by_cases hsettled : ∃ r ∈ records, r.result.isSome = true
      · obtain ⟨r, hr, hsome⟩ := hsettled
        have hshorter : (records.eraseP fun r => r.result.isSome).length ≤ fuel := by
          rw [List.length_eraseP_of_mem hr hsome]
          omega
        rw [if_pos ⟨r, hr, hsome⟩, ih hshorter, unsettled_eraseP]
      · rw [if_neg hsettled, unsettled_of_none hsettled, Except.error.injEq]
        exact ⟨fun h => ⟨h.symm, hfull⟩, fun h => h.1.symm⟩
    · rw [if_neg hfull]
      refine iff_of_false (by simp) ?_
      exact fun h => hfull (h.2.mono List.filter_sublist)

/-! ## Inserting -/

/-- The record of a new command. -/
def issued (authority : OutboxAuthority) (room : OutboxRoom) (payload : OutboxPayload)
    (now : Time) : OutboxRecord where
  clientMessageId := payload.clientMessageId
  roomId := room.roomId
  accountPartition := authority.accountPartition
  sessionKey := authority.sessionKey
  membershipScope := room.membershipScope
  authorizationRevision := room.authorizationRevision
  createdAt := now
  payloadExpiresAt := now + payloadMs
  expiresAt := now + identityMs
  payload := some payload

/-- A new command of a room the stored authority has. -/
def New (state : OutboxState) (roomId : String) (payload : OutboxPayload)
    (authority : OutboxAuthority) (room : OutboxRoom) : Prop :=
  state.authority = some authority ∧
    (authority.rooms.find? fun room => room.roomId = roomId) = some room ∧
    room.membershipScope = payload.membershipScope ∧
    state.find? payload.clientMessageId = none

/-- What `insert` does with a new command. -/
theorem insert_eq {state : OutboxState} {roomId : String} {payload : OutboxPayload} {now : Time}
    {authority : OutboxAuthority} {room : OutboxRoom}
    (h : New state roomId payload authority room) : insert state roomId payload now =
      makeRoom (issued authority room payload now) (expire state now).records.length
        (expire state now).records >>= fun records =>
          .ok { expire state now with
            records := records ++ [issued authority room payload now] } := by
  obtain ⟨hauthority, hroom, hscope, hnew⟩ := h
  have hid : room.roomId = roomId :=
    of_decide_eq_true (List.find?_some (p := fun room : OutboxRoom => room.roomId = roomId) hroom)
  subst hid
  simp only [insert, hauthority, hroom, hnew, require, ensure_pos hscope, ok_bind]
  rfl

/-- `insert` gets to a new command, or answers without making room. -/
theorem insert_cases (state : OutboxState) (roomId : String) (payload : OutboxPayload)
    (now : Time) : (∃ authority room, New state roomId payload authority room) ∨
      insert state roomId payload now ≠ .error .capacity ∧
        (state.find? payload.clientMessageId = none →
          ∀ state', insert state roomId payload now ≠ .ok state') := by
  unfold insert New
  cases hauthority : state.authority with
  | none => exact .inr ⟨by simp, fun _ _ => by simp⟩
  | some authority =>
    cases hroom : authority.rooms.find? fun room => room.roomId = roomId with
    | none =>
      simp only [require, hroom, ok_bind, error_bind]
      exact .inr ⟨by simp, fun _ _ => by simp⟩
    | some room =>
      simp only [require, hroom, ok_bind]
      by_cases hscope : room.membershipScope = payload.membershipScope
      · cases hfind : state.find? payload.clientMessageId with
        | none => exact .inl ⟨authority, room, rfl, hroom, hscope, rfl⟩
        | some prior =>
          refine .inr ⟨?_, fun h => by cases h⟩
          rw [ensure_pos hscope, ok_bind]
          intro h
          rcases bind_error.mp h with h | ⟨stored, -, h⟩
          · cases (require_error.mp h).2
          · rcases bind_error.mp h with h | ⟨_, -, h⟩
            · cases (ensure_error.mp h).2
            · cases h
      · rw [ensure_neg hscope]
        exact .inr ⟨by simp, fun _ _ => by simp⟩

/-- A new command is refused for its room if and only if what holds no receipt leaves none. -/
theorem insert_capacity {state : OutboxState} {roomId : String} {payload : OutboxPayload}
    {now : Time} : insert state roomId payload now = .error .capacity ↔
      ∃ authority room, New state roomId payload authority room ∧
        Full (unsettled (expire state now).records) (issued authority room payload now) := by
  have hroom : ∀ authority room, New state roomId payload authority room →
      (insert state roomId payload now = .error .capacity ↔
        Full (unsettled (expire state now).records) (issued authority room payload now)) := by
    intro authority room hnew
    rw [insert_eq hnew, bind_error, makeRoom_error (Nat.le_refl _)]
    constructor
    · rintro (⟨-, hfull⟩ | ⟨records, -, h⟩)
      · exact hfull
      · cases h
    · exact fun hfull => .inl ⟨rfl, hfull⟩
  constructor
  · intro h
    rcases insert_cases state roomId payload now with ⟨authority, room, hnew⟩ | ⟨hno, -⟩
    · exact ⟨authority, room, hnew, (hroom authority room hnew).mp h⟩
    · exact absurd h hno
  · rintro ⟨authority, room, hnew, hfull⟩
    exact (hroom authority room hnew).mpr hfull

/-- The limits of the stored records. -/
structure Bounded (records : List OutboxRecord) : Prop where
  ids : (records.map OutboxRecord.clientMessageId).Nodup
  length : records.length ≤ maxRecords
  bytes : Json.byteSize (Json.arr (records.map OutboxRecord.toJson)).render ≤ maxBytes

/-- After a new command went in, what held no receipt is still there, and the limits are
met. -/
theorem insert_new {state state' : OutboxState} {roomId : String} {payload : OutboxPayload}
    {now : Time} (hids : (state.records.map OutboxRecord.clientMessageId).Nodup)
    (hnew : state.find? payload.clientMessageId = none)
    (h : insert state roomId payload now = .ok state') :
    (∀ r ∈ (expire state now).records, r.result = none → r ∈ state'.records) ∧
      Bounded state'.records := by
  rcases insert_cases state roomId payload now with ⟨authority, room, hroom⟩ | ⟨-, hno⟩
  · rw [insert_eq hroom, bind_ok] at h
    obtain ⟨records, hrecords, h⟩ := h
    cases h
    obtain ⟨hfits, hsame⟩ := makeRoom_ok hrecords
    have hkept := kept_expire state now
    have hsub := makeRoom_sublist hrecords
    rw [Full, not_or, not_le, not_lt] at hfits
    refine ⟨?_, ?_, ?_, hfits.2⟩
    · intro r hr hnone
      have hmem : r ∈ unsettled (expire state now).records :=
        List.mem_filter.mpr ⟨hr, decide_eq_true hnone⟩
      rw [← hsame] at hmem
      exact List.mem_append_left _ (List.mem_of_mem_filter hmem)
    · rw [List.map_append, List.nodup_append]
      refine ⟨hids.sublist ((hsub.map _).trans hkept.ids), List.nodup_singleton _, ?_⟩
      intro id hid id' hid'
      obtain ⟨r, hr, rfl⟩ := List.mem_map.mp hid
      obtain rfl := List.mem_singleton.mp hid'
      obtain ⟨r₀, hr₀, hlater⟩ := hkept.later r (hsub.mem hr)
      rw [hlater.id]
      exact find?_none hnew r₀ hr₀
    · rw [List.length_append, List.length_singleton]
      omega
  · exact absurd h (hno hnew state')

/-! ## Receipts under the operations -/

/-- The operations that erase committed receipts. -/
def Op.Scrubs : Op → Prop
  | .grant _ | .quarantine _ | .revoke _ => True
  | _ => False

/-- What an operation does to the receipt of a record it keeps. -/
structure Op.Keeps (op : Op) (r r' : OutboxRecord) : Prop where
  id : r'.clientMessageId = r.clientMessageId
  result : r'.result = r.result ∨
    (∃ value, op = .settle value ∧ value.clientMessageId = r.clientMessageId ∧ r'.result ≠ none) ∨
    op.Scrubs ∧ r'.result = r.result.filter Receipt.isDeleted

theorem Op.Keeps.refl (op : Op) (r : OutboxRecord) : op.Keeps r r := ⟨rfl, .inl rfl⟩

/-- Scrubbing keeps a record without its payload. -/
theorem keeps_scrub {op : Op} (h : op.Scrubs) (r : OutboxRecord) : op.Keeps r r.scrub :=
  ⟨rfl, .inr (.inr ⟨h, rfl⟩)⟩

/-- What is kept after expiry was kept before. -/
theorem Op.Keeps.of_expired {op : Op} {r r' r'' : OutboxRecord} (h : op.Keeps r' r'')
    (hid : r'.clientMessageId = r.clientMessageId) (hresult : r'.result = r.result) :
    op.Keeps r r'' where
  id := h.id.trans hid
  result := by
    rw [← hresult, ← hid]
    exact h.result

/-- Expiry leaves the receipts of what it keeps, which has not expired. -/
theorem expire_result {state : OutboxState} {now : Time} {r' : OutboxRecord}
    (h : r' ∈ (expire state now).records) : ∃ r ∈ state.records, now < r.expiresAt ∧
      r'.clientMessageId = r.clientMessageId ∧ r'.result = r.result := by
  obtain ⟨r, hr, rfl⟩ := List.mem_map.mp h
  obtain ⟨hr, hexpires⟩ := List.mem_filter.mp hr
  refine ⟨r, hr, of_decide_eq_true hexpires, ?_⟩
  split
  · exact ⟨rfl, rfl⟩
  · exact ⟨rfl, rfl⟩

/-- The records after guarded work that only changes records. -/
theorem keeps_map {op : Op} {state : OutboxState} {now : Time} {f : OutboxRecord → OutboxRecord}
    (hf : ∀ r, op.Keeps r (f r)) {r' : OutboxRecord} (h : r' ∈ (expire state now).records.map f) :
    ∃ r ∈ state.records, op.Keeps r r' := by
  obtain ⟨r, hr, rfl⟩ := List.mem_map.mp h
  obtain ⟨r₀, hr₀, -, hid, hresult⟩ := expire_result hr
  exact ⟨r₀, hr₀, (hf r).of_expired hid hresult⟩

/-- Expiry keeps every record it leaves. -/
theorem keeps_expire {op : Op} {state : OutboxState} {now : Time} {r' : OutboxRecord}
    (h : r' ∈ (expire state now).records) : ∃ r ∈ state.records, op.Keeps r r' := by
  obtain ⟨r, hr, -, hid, hresult⟩ := expire_result h
  exact ⟨r, hr, hid, .inl hresult⟩

/-- A record that changes as one, or not at all. -/
theorem keeps_if {op : Op} {c : Prop} [Decidable c] {r r' : OutboxRecord} (h : c → op.Keeps r r') :
    op.Keeps r (if c then r' else r) := by
  by_cases hc : c
  · rw [if_pos hc]
    exact h hc
  · rw [if_neg hc]
    exact .refl op r

/-- An update of one record keeps the others. -/
theorem keeps_update {op : Op} {state : OutboxState} {now : Time} {id : String}
    {f : OutboxRecord → OutboxRecord} (hf : ∀ r, r.clientMessageId = id → op.Keeps r (f r))
    {r' : OutboxRecord} (h : r' ∈ ((expire state now).update id f).records) :
    ∃ r ∈ state.records, op.Keeps r r' :=
  keeps_map (fun r => keeps_if fun hid => hf r hid) h

/-- A receipt gives its record a result. -/
theorem settled_result {r settled : OutboxRecord} {value : Receipt}
    (h : applyReceipt r value = .ok settled) : settled.result ≠ none := by
  simp only [applyReceipt, bind_ok] at h
  obtain ⟨result, -, h⟩ := h
  split at h
  · rename_i hdeleted
    obtain ⟨prior, hprior, -⟩ := hdeleted
    cases h
    rw [Option.mem_def.mp hprior]
    exact Option.some_ne_none _
  · cases h
    exact Option.some_ne_none _

/-- A new authority keeps the records. -/
theorem grantWork_keeps {authority : OutboxAuthority} {state state' : OutboxState} {now : Time}
    {result : Result} (h : grantWork authority state now = .ok (state', result)) :
    ∀ r' ∈ state'.records, ∃ r ∈ state.records, (Op.grant authority).Keeps r r' := by
  simp only [grantWork, bind_ok, ensure_ok, pure_ok, Prod.mk.injEq] at h
  obtain ⟨-, -, rfl, -⟩ := h
  intro r' hr'
  obtain ⟨r, hr, rfl⟩ := List.mem_map.mp hr'
  obtain ⟨r₀, hr₀, -, hid, hresult⟩ := expire_result hr
  refine ⟨r₀, hr₀, Op.Keeps.of_expired ?_ hid hresult⟩
  by_cases hpermitted : Permitted r authority
  · rw [if_pos hpermitted]
    exact .refl _ r
  · rw [if_neg hpermitted]
    exact keeps_scrub (by exact trivial) r

/-- A revoked authority keeps the records. -/
theorem revokeWork_keeps {held : Option Grant} {state state' : OutboxState} {result : Result}
    (h : revokeWork held state = .ok (state', result)) :
    ∀ r' ∈ state'.records, ∃ r ∈ state.records, (Op.revoke held).Keeps r r' := by
  cases held with
  | none =>
    cases h
    exact fun r hr => ⟨r, hr, .refl _ r⟩
  | some held =>
    rw [revokeWork] at h
    split at h
    · cases h
      exact fun r hr => ⟨r, hr, .refl _ r⟩
    · simp only [bind_ok, ensure_ok, pure_ok, Prod.mk.injEq] at h
      obtain ⟨-, -, rfl, -⟩ := h
      intro r' hr'
      obtain ⟨r, hr, rfl⟩ := List.mem_map.mp hr'
      exact ⟨r, hr, keeps_scrub (by exact trivial) r⟩

/-- A `prepare` keeps receipts as they are, and adds a record where no unexpired one has its
id. -/
theorem prepare_results {t t' : Tab} {state state' : OutboxState} {now later : Time}
    {roomId : String} {given payload : OutboxPayload} {result : Result}
    (h : (Op.prepare roomId given payload).work t state now later = (t', .ok (state', result))) :
    ∀ r' ∈ state'.records,
      (∃ r ∈ state.records, (Op.prepare roomId given payload).Keeps r r') ∨
      r'.clientMessageId = payload.clientMessageId ∧
        ∀ r ∈ state.records, r.clientMessageId = payload.clientMessageId → r.expiresAt ≤ now := by
  rw [Op.work] at h
  obtain ⟨-, authority, -, -, -, hrest⟩ := guarded_ok h
  simp only [bind_ok, pure_ok, Prod.mk.injEq] at hrest
  obtain ⟨inserted, hinsert, rfl, -⟩ := hrest
  intro r' hr'
  cases hfind : (expire state now).find? payload.clientMessageId with
  | some prior =>
    rcases insert_ok hinsert with ⟨-, rfl⟩ | ⟨hnone, -⟩
    · exact .inl (keeps_expire hr')
    · rw [hfind] at hnone
      cases hnone
  | none =>
    rcases insert_cases (expire state now) roomId payload later with ⟨_, room, hroom⟩ | ⟨-, hno⟩
    · rw [insert_eq hroom, bind_ok] at hinsert
      obtain ⟨records, hrecords, hinsert⟩ := hinsert
      cases hinsert
      rcases List.mem_append.mp hr' with hr' | hr'
      · have hmem := (makeRoom_sublist hrecords).mem hr'
        obtain ⟨r₁, hr₁, -, hid, hresult⟩ := expire_result hmem
        obtain ⟨r, hr, hkeeps⟩ := keeps_expire hr₁
        exact .inl ⟨r, hr, hid.trans hkeeps.id, hresult ▸ hkeeps.result⟩
      · obtain rfl := List.mem_singleton.mp hr'
        refine .inr ⟨rfl, fun r hr hid => ?_⟩
        -- an unexpired record would have been found
        by_contra hexpires
        have hmem : (if r.payloadExpiresAt ≤ now then r.erase else r) ∈
            (expire state now).records :=
          List.mem_map.mpr ⟨r, List.mem_filter.mpr ⟨hr, decide_eq_true (not_le.mp hexpires)⟩, rfl⟩
        refine find?_none hfind _ hmem ?_
        split
        · exact hid
        · exact hid
    · exact absurd hinsert (hno hfind inserted)

/-- Every other operation adds no record, and a receipt comes by `settle`, or goes by a
change of authority, a quarantine or a revocation. -/
theorem work_results {op : Op} {t t' : Tab} {state state' : OutboxState} {now later : Time}
    {result : Result} (hop : ∀ roomId given payload, op ≠ .prepare roomId given payload)
    (h : op.work t state now later = (t', .ok (state', result))) :
    ∀ r' ∈ state'.records, ∃ r ∈ state.records, op.Keeps r r' := by
  intro r' hr'
  cases op with
  | «prepare» roomId given payload => exact absurd rfl (hop roomId given payload)
  | grant authority =>
    rw [Op.work] at h
    exact grantWork_keeps (Prod.mk.inj h).2 r' hr'
  | revoke held =>
    rw [Op.work] at h
    exact revokeWork_keeps (Prod.mk.inj h).2 r' hr'
  | beforeSend id explicitRetry =>
    rw [Op.work] at h
    split at h
    · rename_i hguarded
      cases h
      obtain ⟨-, authority, -, -, -, hrest⟩ := guarded_ok hguarded
      simp only [releaseWork, bind_ok, require_ok, ensure_ok, pure_ok, Prod.mk.injEq] at hrest
      obtain ⟨r, -, payload, -, -, -, -, -, rfl, -⟩ := hrest
      refine keeps_update ?_ hr'
      exact fun r _ => ⟨rfl, .inl rfl⟩
    · cases (Prod.mk.inj h).2
  | settle value =>
    rw [Op.work] at h
    obtain ⟨-, authority, -, -, -, hrest⟩ := guarded_ok h
    simp only [bind_ok, pure_ok, Prod.mk.injEq] at hrest
    obtain ⟨r, hr, settled, hsettled, rfl, -⟩ := hrest
    -- the settled record is the one the receipt names
    obtain ⟨-, hid⟩ := recordOf_ok hr
    refine keeps_update (fun r₀ hr₀ => ⟨?_, ?_⟩) hr'
    · exact ((applyReceipt_later hsettled).id.trans hid).trans hr₀.symm
    · exact .inr (.inl ⟨value, rfl, hr₀.symm, settled_result hsettled⟩)
  | quarantine ids =>
    rw [Op.work] at h
    obtain ⟨-, authority, -, -, -, hrest⟩ := guarded_ok h
    cases hrest
    exact keeps_map (fun r => keeps_if fun _ => keeps_scrub (by exact trivial) r) hr'
  | assertCurrent =>
    rw [Op.work] at h
    obtain ⟨-, authority, -, -, -, hrest⟩ := guarded_ok h
    cases hrest
    exact keeps_expire hr'
  | refresh authority =>
    rw [Op.work] at h
    obtain ⟨-, authority, -, -, -, hrest⟩ := guarded_ok h
    cases hrest
    exact keeps_expire hr'
  | recover roomId =>
    rw [Op.work] at h
    obtain ⟨-, authority, -, -, -, hrest⟩ := guarded_ok h
    simp only [bind_ok, pure_ok, Prod.mk.injEq] at hrest
    obtain ⟨-, -, rfl, -⟩ := hrest
    exact keeps_expire hr'
  | beforeLookup id =>
    rw [Op.work] at h
    obtain ⟨-, authority, -, -, -, hrest⟩ := guarded_ok h
    simp only [bind_ok, pure_ok, Prod.mk.injEq] at hrest
    obtain ⟨-, -, rfl, -⟩ := hrest
    exact keeps_expire hr'
  | lookupNotFound id =>
    rw [Op.work] at h
    obtain ⟨-, authority, -, -, -, hrest⟩ := guarded_ok h
    simp only [bind_ok, pure_ok, Prod.mk.injEq] at hrest
    obtain ⟨-, -, rfl, -⟩ := hrest
    exact keeps_expire hr'

/-! ## Receipts over a run -/

/-- The command lets the transaction of the operation run and commit. -/
def Commits (c : Command) (s : Sys) (op : Op) (now : Time) : Prop :=
  ∃ k later p, c = .run k now later true ∧ s.pending k = some p ∧ p.op = op

/-- The command commits a `prepare` of the id, of which no unexpired record is left. -/
def Prepares (c : Command) (s : Sys) (id : String) : Prop :=
  ∃ roomId given payload now, Commits c s (.prepare roomId given payload) now ∧
    payload.clientMessageId = id ∧
    ∀ r ∈ s.state.records, r.clientMessageId = id → r.expiresAt ≤ now

/-- The command commits a change of authority, a quarantine or a revocation, while the record
of the id holds a receipt that is no deletion. -/
def Erases (c : Command) (s : Sys) (id : String) : Prop :=
  ∃ op now, Commits c s op now ∧ op.Scrubs ∧
    ∃ r ∈ s.state.records, r.clientMessageId = id ∧ ∃ value ∈ r.result, value.isDeleted = false

/-- Beginning an operation writes nothing. -/
theorem begin_state (s : Sys) (tab : TabId) (t : Tab) (k : Nat) (op : Op) :
    (s.begin tab t k op).state = s.state := by
  unfold Sys.begin
  split <;> rfl

theorem beginGrant_state (s : Sys) (tab : TabId) (t : Tab) (k : Nat)
    (authority : OutboxAuthority) : (s.beginGrant tab t k authority).state = s.state :=
  begin_state _ tab _ k _

theorem suspended_state (s : Sys) (tab : TabId) (t : Tab) :
    (s.suspended tab t).state = s.state := by
  unfold Sys.suspended
  split <;> rfl

theorem start_state (s : Sys) (tab : TabId) (t : Tab) (k : Nat) (op : Op) :
    (s.start tab t k op).state = s.state := by
  cases op with
  | refresh authority =>
    rw [Sys.start]
    split
    · exact begin_state s tab _ k _
    · exact beginGrant_state s tab _ k authority
  | revoke held => exact (begin_state _ tab _ k _).trans (suspended_state s tab t)
  | _ => exact begin_state s tab t k _

theorem completed_state (s : Sys) (k : Nat) (p : Pending) (t : Tab) :
    (s.completed k p t).state = s.state := by
  unfold Sys.completed
  split
  · rfl
  · split <;> rfl
  · split
    · exact beginGrant_state _ p.tab t k _
    · rfl

/-- Where the records of a step, and their receipts, come from. -/
theorem exec_results {nfc : Nfc} {c : Command} {s s' : Sys} (h : exec nfc c s = some s') :
    ∀ r' ∈ s'.state.records, Prepares c s r'.clientMessageId ∨ ∃ r ∈ s.state.records,
      r'.clientMessageId = r.clientMessageId ∧
        (r'.result = r.result ∨ ∃ op now, Commits c s op now ∧ op.Keeps r r') := by
  have hsame : s'.state = s.state → ∀ r' ∈ s'.state.records, ∃ r ∈ s.state.records,
      r'.clientMessageId = r.clientMessageId ∧
        (r'.result = r.result ∨ ∃ op now, Commits c s op now ∧ op.Keeps r r') := by
    intro hstate r' hr'
    rw [hstate] at hr'
    exact ⟨r', hr', rfl, .inl rfl⟩
  have hexpired : ∀ now, s'.state = expire s.state now → ∀ r' ∈ s'.state.records,
      ∃ r ∈ s.state.records, r'.clientMessageId = r.clientMessageId ∧
        (r'.result = r.result ∨ ∃ op now, Commits c s op now ∧ op.Keeps r r') := by
    intro now hstate r' hr'
    rw [hstate] at hr'
    obtain ⟨r, hr, -, hid, hresult⟩ := expire_result hr'
    exact ⟨r, hr, hid, .inl hresult⟩
  intro r' hr'
  cases c with
  | openTab tab now =>
    obtain ⟨-, grant, rfl⟩ := exec_cases h
    exact .inr (hexpired now rfl r' hr')
  | openLost now =>
    have hlost : s' = { s with state := expire s.state now } := exec_cases h
    exact .inr (hexpired now (by rw [hlost]) r' hr')
  | call tab k call =>
    obtain ⟨t, op, -, -, -, rfl⟩ := exec_cases h
    exact .inr (hsame (start_state s tab t k op) r' hr')
  | complete k =>
    obtain ⟨p, t, -, -, rfl⟩ := exec_cases h
    exact .inr (hsame (completed_state s k p t) r' hr')
  | suspend tab =>
    obtain ⟨t, -, rfl⟩ := exec_cases h
    exact .inr (hsame (suspended_state s tab t) r' hr')
  | close tab =>
    obtain ⟨t, -, rfl | rfl⟩ := exec_cases h
    · exact .inr (hsame rfl r' hr')
    · exact .inr (hsame (suspended_state s tab t) r' hr')
  | run k now later commits =>
    obtain ⟨p, t, hp, -, -, rfl | ⟨-, -, -, rfl⟩⟩ := exec_cases h
    · exact .inr (hsame rfl r' hr')
    unfold Sys.ran at hr' hsame
    cases hwork : p.op.work t s.state now later with
    | mk t' outcome =>
      rw [hwork] at hr' hsame
      cases outcome with
      | error e => exact .inr (hsame rfl r' hr')
      | ok done =>
        obtain ⟨state, result⟩ := done
        cases commits with
        | false => exact .inr (hsame rfl r' hr')
        | true =>
          replace hr' : r' ∈ state.records := hr'
          have hcommits : Commits (.run k now later true) s p.op now := ⟨k, later, p, rfl, hp, rfl⟩
          -- only prepare puts a record in; the others rewrite those that are there
          by_cases hop : ∃ roomId given payload, p.op = .prepare roomId given payload
          · obtain ⟨roomId, given, payload, hop⟩ := hop
            rw [hop] at hwork hcommits
            rcases prepare_results hwork r' hr' with ⟨r, hr, hkeeps⟩ | ⟨hid, hexpires⟩
            · exact .inr ⟨r, hr, hkeeps.id, .inr ⟨_, now, hcommits, hkeeps⟩⟩
            · exact .inl ⟨roomId, given, payload, now, hcommits, hid.symm, hid ▸ hexpires⟩
          · have hother : ∀ roomId given payload, p.op ≠ .prepare roomId given payload :=
              fun roomId given payload heq => hop ⟨roomId, given, payload, heq⟩
            obtain ⟨r, hr, hkeeps⟩ := work_results hother hwork r' hr'
            exact .inr ⟨r, hr, hkeeps.id, .inr ⟨_, now, hcommits, hkeeps⟩⟩

/-- The record of the id holds no receipt. -/
def NoReceipt (id : String) (s : Sys) : Prop :=
  ∀ r ∈ s.state.records, r.clientMessageId = id → r.result = none

/-- The record of the id held no receipt since it was created, or since the receipt it held
was erased. -/
def Unsettled (nfc : Nfc) (cs : List Command) (s : Sys) (id : String) : Prop :=
  ∃ cs₁ c cs₂ u v, cs = cs₁ ++ c :: cs₂ ∧ (system nfc).Run {} cs₁ u ∧ (system nfc).step c u v ∧
    (Prepares c u id ∨ Erases c u id) ∧ (system nfc).RunIn (NoReceipt id) v cs₂ s

/-- The history of a record without a receipt. -/
theorem run_unsettled {nfc : Nfc} {cs : List Command} {s : Sys} (hrun : (system nfc).Run {} cs s) :
    ∀ r ∈ s.state.records, r.result = none → Unsettled nfc cs s r.clientMessageId := by
  refine System.Run.snoc_induct (P := fun cs s => ∀ r ∈ s.state.records, r.result = none →
    Unsettled nfc cs s r.clientMessageId) ?_ ?_ hrun
  · exact fun r hr => absurd hr List.not_mem_nil
  · intro cs c s t hbefore ih hstep r' hr' hnone
    have hids := (reachable_inv (hbefore.append (.single hstep) |>.reachable (.init rfl))).store.ids
    -- ids do not repeat, so the record is the only one of its id
    have hquiet : NoReceipt r'.clientMessageId t := fun r₂ hr₂ hid => by
      rw [eq_of_id hids hr₂ hr' hid, hnone]
    rcases exec_results hstep r' hr' with hprepares | ⟨r, hr, hid, hkeeps⟩
    · exact ⟨cs, c, [], s, t, rfl, hbefore, hstep, .inl hprepares, .nil hquiet⟩
    · have hextend : r.result = none → Unsettled nfc (cs ++ [c]) t r'.clientMessageId := by
        intro hbare
        obtain ⟨cs₁, c₁, cs₂, u, v, hcs, hfirst, hc₁, hwhy, hin⟩ := ih r hr hbare
        rw [hid] at hquiet ⊢
        refine ⟨cs₁, c₁, cs₂ ++ [c], u, v, ?_, hfirst, hc₁, hwhy, hin.snoc hstep hquiet⟩
        rw [hcs, List.append_assoc, List.cons_append]
      rcases hkeeps with hsame | ⟨op, now, hcommits, hkeeps⟩
      · exact hextend (hsame.symm.trans hnone)
      · rcases hkeeps.result with hsame | ⟨value, -, -, hsettled⟩ | ⟨hscrubs, hfilter⟩
        · exact hextend (hsame.symm.trans hnone)
        · exact absurd hnone hsettled
        · cases hresult : r.result with
          | none => exact hextend hresult
          | some value =>
            -- a receipt was erased, so it was no deletion
            rw [hnone, hresult, Option.filter_some] at hfilter
            have hkind : value.isDeleted = false := by
              by_contra hdeleted
              rw [Bool.not_eq_false] at hdeleted
              rw [if_pos hdeleted] at hfilter
              cases hfilter
            have herases : Erases c s r'.clientMessageId :=
              ⟨op, now, hcommits, hscrubs, r, hr, hid.symm, value, hresult, hkind⟩
            exact ⟨cs, c, [], s, t, rfl, hbefore, hstep, .inr herases, .nil hquiet⟩

/-! ## Finished commands that fill the store -/

/-- A record that fits needs no room. -/
theorem makeRoom_fits {record : OutboxRecord} {records : List OutboxRecord}
    (h : ¬Full records record) (fuel : Nat) : makeRoom record fuel records = .ok records := by
  cases fuel with
  | zero => rw [makeRoom, if_neg h]
  | succ fuel => rw [makeRoom, if_neg h]

/-- The last decimal digit of a number. -/
def digit (n : Nat) : Char := Char.ofNat (48 + n % 10)

/-- The characters of a numbered id. -/
def numberedChars (n : Nat) : List Char :=
  List.replicate 8 '0' ++ '-' :: List.replicate 4 '0' ++ '-' :: '4' :: List.replicate 3 '0' ++
    '-' :: '8' :: List.replicate 3 '0' ++ '-' :: List.replicate 9 '0' ++
    [digit (n / 100), digit (n / 10), digit n]

/-- Ids that are numbered by their last three digits. -/
def numbered (n : Nat) : String := String.ofList (numberedChars n)

theorem digit_fits (n : Nat) : Text.lowerHex (digit n) = true ∧ Json.Plain (digit n) := by
  have hall : ∀ k < 10, Text.lowerHex (Char.ofNat (48 + k)) = true ∧
      Json.Plain (Char.ofNat (48 + k)) := by
    decide
  exact hall (n % 10) (Nat.mod_lt n (by decide))

theorem digit_inj {m n : Nat} (h : digit m = digit n) : m % 10 = n % 10 := by
  have hall : ∀ j < 10, ∀ k < 10, Char.ofNat (48 + j) = Char.ofNat (48 + k) → j = k := by
    decide
  exact hall (m % 10) (Nat.mod_lt m (by decide)) (n % 10) (Nat.mod_lt n (by decide)) h

/-- Numbered ids below a thousand are distinct. -/
theorem numbered_inj {m n : Nat} (hm : m < 1000) (hn : n < 1000) (h : numbered m = numbered n) :
    m = n := by
  have hchars : numberedChars m = numberedChars n := by
    rw [← String.toList_ofList (l := numberedChars m),
      ← String.toList_ofList (l := numberedChars n)]
    exact congrArg String.toList h
  obtain ⟨-, hdigits⟩ := List.append_inj hchars rfl
  simp only [List.cons.injEq, and_true] at hdigits
  obtain ⟨hhundreds, htens, hones⟩ := hdigits
  have h₁ := digit_inj hhundreds
  have h₂ := digit_inj htens
  have h₃ := digit_inj hones
  omega

/-- A numbered id is a valid one. -/
theorem numbered_uuid (n : Nat) : uuid (numbered n) = .ok (numbered n) := by
  have hfits : Text.fits (Text.uuidPattern (Text.lit '4')) (numbered n).toList = true := by
    rw [numbered, String.toList_ofList]
    show (Text.lowerHex (digit (n / 100)) && (Text.lowerHex (digit (n / 10)) &&
      (Text.lowerHex (digit n) && true))) = true
    rw [(digit_fits _).1, (digit_fits _).1, (digit_fits _).1]
    rfl
  rw [uuid, ensure_pos hfits]
  rfl

/-- The bytes of a numbered id. -/
theorem numbered_size (n : Nat) : Json.byteSize (Json.quote (numbered n)) = 38 := by
  have hplain : ∀ c ∈ (numbered n).toList, Json.Plain c := by
    rw [numbered, String.toList_ofList]
    intro c hc
    rcases List.mem_append.mp hc with hc | hc
    · have hall : ∀ c ∈ List.replicate 8 '0' ++ '-' :: List.replicate 4 '0' ++
          '-' :: '4' :: List.replicate 3 '0' ++ '-' :: '8' :: List.replicate 3 '0' ++
          '-' :: List.replicate 9 '0', Json.Plain c := by
        intro c hc
        have hfour : c = '0' ∨ c = '-' ∨ c = '4' ∨ c = '8' := by
          simp only [List.mem_append, List.mem_cons, List.mem_replicate] at hc
          grind
        rcases hfour with rfl | rfl | rfl | rfl <;>
          exact Json.plain_of_toNat (by decide) (by decide) (by decide)
      exact hall c hc
    · simp only [List.mem_cons, List.not_mem_nil, or_false] at hc
      rcases hc with rfl | rfl | rfl
      · exact (digit_fits _).2
      · exact (digit_fits _).2
      · exact (digit_fits _).2
  rw [Json.byteSize_quote hplain, numbered, String.toList_ofList]
  rfl

/-- The one room of the run. -/
def onlyRoom : OutboxRoom := ⟨sharedRoom, scopeToken, scopeToken⟩

/-- The message sent under a number. -/
def numberedPayload (n : Nat) : OutboxPayload := { firstPayload with clientMessageId := numbered n }

/-- The receipt of a numbered message. -/
def numberedReceipt (n : Nat) : Receipt := .committed (numbered n) sharedRoom "1"

/-- The record of a command that was sent. -/
def finished (n : Nat) : OutboxRecord :=
  { issued member onlyRoom (numberedPayload n) 0 with
    payload := none, result := some (numberedReceipt n) }

/-- A numbered payload is in normal form. -/
theorem numberedPayload_normal (n : Nat) :
    normalizePayload plain (numberedPayload n) = .ok (numberedPayload n) := by
  have hcontent : normalizeContent plain (.text "a") = .ok (.text "a") := by decide +kernel
  have hscope : token scopeToken = .ok scopeToken := by decide +kernel
  simp only [normalizePayload, numberedPayload, firstPayload, hcontent, ok_bind,
    numbered_uuid n, hscope]
  rfl

theorem numberedReceipt_ok (n : Nat) :
    receipt (numberedReceipt n) (numbered n) = .ok (numberedReceipt n) := by
  have hroom : uuid sharedRoom = .ok sharedRoom := by decide +kernel
  have hversion : version "1" = .ok "1" := by decide +kernel
  simp only [receipt, numberedReceipt, Receipt.clientMessageId, numbered_uuid n, hroom, hversion]
  rfl

theorem finished_size (n : Nat) : (finished n).size ≤ 1000 := by
  have hid := numbered_size n
  simp only [OutboxRecord.size, OutboxRecord.toJson, finished, issued, numberedPayload,
    numberedReceipt, Receipt.toJson, Option.map_none, Option.map_some, Option.toList_none,
    Option.toList_some, List.append_nil, List.cons_append, List.nil_append, Json.render,
    Json.renderFields, Json.byteSize_cons, Json.byteSize_append, hid]
  decide +kernel

theorem issued_size (n : Nat) :
    (issued member onlyRoom (numberedPayload n) 0).size ≤ 1000 := by
  have hid := numbered_size n
  simp only [OutboxRecord.size, OutboxRecord.toJson, issued, numberedPayload, firstPayload,
    OutboxPayload.toJson, OutboxContent.toJson, optionalField,
    Option.map_none, Option.map_some, Option.toList_none,
    Option.toList_some, List.append_nil, List.cons_append, List.nil_append, Json.render,
    Json.renderFields, Json.byteSize_cons, Json.byteSize_append, hid]
  decide +kernel

/-- What is stored after `n` commands were sent. -/
def store (n : Nat) : OutboxState where
  authorityEpoch := 1
  authority := some member
  records := (List.range n).map finished

/-- Nothing of the run expires. -/
theorem store_expire (n : Nat) : expire (store n) 0 = store n := by
  have hrecords : (store n).records.filter (fun r => 0 < r.expiresAt) = (store n).records := by
    refine List.filter_eq_self.mpr fun r hr => ?_
    obtain ⟨m, -, rfl⟩ := List.mem_map.mp hr
    rfl
  rw [expire, hrecords]
  congr 1
  refine List.map_congr_left ?_ |>.trans (List.map_id _)
  intro r hr
  obtain ⟨m, -, rfl⟩ := List.mem_map.mp hr
  rfl

/-- Up to 256 records fit. -/
theorem store_fits {n : Nat} (hn : n < 256) :
    ¬Full (store n).records (issued member onlyRoom (numberedPayload n) 0) := by
  have hsum : ((store n).records.map fun r => 1 + r.size).sum ≤
      ((store n).records.map fun r => 1 + r.size).length • 1001 := by
    refine List.sum_le_card_nsmul _ _ ?_
    intro size hsize
    obtain ⟨r, hr, rfl⟩ := List.mem_map.mp hsize
    obtain ⟨m, -, rfl⟩ := List.mem_map.mp hr
    have hsmall := finished_size m
    omega
  have hlast := issued_size n
  have hlength : (store n).records.length = n := by rw [store, List.length_map, List.length_range]
  rw [List.length_map, hlength, smul_eq_mul] at hsum
  rw [full_iff, hlength, not_or, not_le, not_lt]
  refine ⟨hn, ?_⟩
  rw [maxBytes]
  omega

/-- The next number is new. -/
theorem store_new {n : Nat} (hn : n < 1000) :
    New (store n) sharedRoom (numberedPayload n) member onlyRoom := by
  refine ⟨rfl, rfl, rfl, ?_⟩
  refine List.find?_eq_none.mpr ?_
  intro r hr
  obtain ⟨m, hm, rfl⟩ := List.mem_map.mp hr
  have hlt := List.mem_range.mp hm
  rw [decide_eq_true_eq]
  intro hid
  have heq := numbered_inj (by omega) hn hid
  omega

/-- The next message is inserted. -/
theorem store_insert {n : Nat} (hn : n < 256) :
    insert (store n) sharedRoom (numberedPayload n) 0 = .ok { store n with
      records := (store n).records ++ [issued member onlyRoom (numberedPayload n) 0] } := by
  rw [insert_eq (store_new (by omega)), store_expire, makeRoom_fits (store_fits hn), ok_bind]

/-- The tab that sends them. -/
def sender (prepared : List String) : Tab where
  authority := some member
  authorityEpoch := some 1
  generation := 1
  lastGrant := some ⟨member, 1, 1⟩
  preparedHere := prepared

/-- The tab while a transaction of it has committed. -/
def busy (prepared : List String) : Tab := { sender prepared with completing := some 0 }

/-- The tab runs, and has called nothing. -/
structure Ready (s : Sys) (state : OutboxState) (prepared : List String) : Prop where
  state : s.state = state
  tab : s.tabs 0 = some (sender prepared)
  pending : s.pending 0 = none

/-- A call, its transaction and its completion. -/
def perform (call : Call) : List Command := [.call 0 0 call, .run 0 0 0 true, .complete 0]

/-- A committed operation is answered to a tab that still waits for it. -/
theorem completed_committed {s : Sys} {k : Nat} {p : Pending} {t : Tab} {result : Result}
    (hstage : p.stage = .committed result) (hfresh : ¬p.Stale t) : s.completed k p t =
      ({ s with log := resolveEvents p.tab p.op ++ s.log }.setTab p.tab
        { t.resolve p.op result with completing := none }).setPending k none := by
  rw [Sys.completed, hstage]
  exact if_neg hfresh

/-- An operation that needs nothing before its transaction. -/
theorem perform_run {s : Sys} {state state' : OutboxState} {held : List String} {call : Call}
    {op : Op} {result : Result} (held' : List String) (h : Ready s state held)
    (hop : call.op plain (sender held) = .ok op)
    (hstart : s.start 0 (sender held) 0 op = s.begin 0 (sender held) 0 op)
    (hwork : op.work (sender held) state 0 0 = (sender held, .ok (state', result)))
    (hresolve : { (busy held).resolve op result with completing := none } = sender held') :
    ∃ s', (system plain).Run s (perform call) s' ∧ Ready s' state' held' := by
  obtain ⟨rfl, htab, hpending⟩ := h
  let p : Pending := ⟨0, op, 1, .started⟩
  let s₁ := (s.setTab 0 (sender held)).setPending 0 (some p)
  have hcall : exec plain (.call 0 0 call) s = some s₁ := by
    simp only [exec, htab, hpending, hop, hstart]
    rfl
  have hp₁ : s₁.pending 0 = some p := by simp [s₁, Sys.setPending]
  have ht₁ : s₁.tabs 0 = some (sender held) := by simp [s₁, Sys.setPending, Sys.setTab]
  have hfresh : ¬p.Stale (sender held) := by
    rintro (hstopped | hgeneration)
    · cases hstopped
    · exact hgeneration rfl
  let s₂ := s₁.ran 0 p (sender held) 0 0 true
  have hrun : exec plain (.run 0 0 0 true) s₁ = some s₂ := by
    simp only [exec, hp₁]
    rw [show s₁.tabs p.tab = some (sender held) from ht₁]
    show (if p.Stale (sender held) then _ else if _ then _ else _) = _
    rw [if_neg hfresh, if_pos (show (sender held).completing = none from rfl)]
  have hran : s₂ = ({ s₁ with
      state := state', log := commitEvents 0 op result ++ s₁.log }.setTab 0
      (busy held)).setPending 0
        (some { p with stage := .committed result }) := by
    show s₁.ran 0 p (sender held) 0 0 true = _
    rw [Sys.ran, show p.op.work (sender held) s₁.state 0 0 = _ from hwork]
    rfl
  have hp₂ : s₂.pending 0 = some { p with stage := .committed result } := by
    rw [hran]
    simp [Sys.setPending]
  have ht₂ : s₂.tabs 0 = some (busy held) := by
    rw [hran]
    simp [Sys.setPending, Sys.setTab]
  have hstate₂ : s₂.state = state' := by
    rw [hran]
    rfl
  let s₃ := s₂.completed 0 { p with stage := .committed result } (busy held)
  have hcomplete : exec plain (.complete 0) s₂ = some s₃ := by
    simp only [exec, hp₂]
    rw [show s₂.tabs p.tab = some (busy held) from ht₂]
  have hcompleted : s₃ = ({ s₂ with log := resolveEvents 0 op ++ s₂.log }.setTab 0
      (sender held')).setPending 0 none := by
    rw [← hresolve]
    exact completed_committed rfl hfresh
  refine ⟨s₃, .cons hcall (.cons hrun (.single hcomplete)), ?_, ?_, ?_⟩
  · rw [hcompleted]
    exact hstate₂
  · rw [hcompleted]
    simp [Sys.setPending, Sys.setTab]
  · rw [hcompleted]
    simp [Sys.setPending]

/-- A command is sent: it is prepared, and its receipt is settled. -/
def send (n : Nat) : List Command :=
  perform (.prepare sharedRoom (numberedPayload n)) ++ perform (.settle (numberedReceipt n))

/-- The stored state under its own tab. -/
theorem guarded_sender {state : OutboxState} {held : List String}
    (hepoch : state.authorityEpoch = 1) (hauthority : state.authority = some member)
    (hexpire : expire state 0 = state)
    (rest : OutboxAuthority → OutboxState → Except OutboxError (OutboxState × Result)) :
    guarded (sender held) state 0 rest = (sender held, rest member state) := by
  have hsame : ¬(state.authorityEpoch ≠ 1 ∨ ¬SameAuthority state.authority (some member)) := by
    rw [not_or, not_not, not_not]
    exact ⟨hepoch, sameAuthority_iff.mpr hauthority⟩
  show (if _ ∨ _ then _ else _) = _
  rw [if_neg hsame, hexpire]

/-- What is stored between the two. -/
def prepared (n : Nat) : OutboxState :=
  { store n with
    records := (store n).records ++ [issued member onlyRoom (numberedPayload n) 0] }

theorem prepared_expire (n : Nat) : expire (prepared n) 0 = prepared n := by
  have hrecords : (expire (store n) 0).records = (store n).records := by rw [store_expire]
  show OutboxState.mk 1 (some member) _ = OutboxState.mk 1 (some member) _
  congr 1
  show List.map _ (List.filter _ ((store n).records ++ [_])) = _
  rw [List.filter_append, List.map_append]
  exact congrArg₂ (· ++ ·) hrecords rfl

/-- The next message is prepared. -/
theorem prepare_work {n : Nat} (hn : n < 256) :
    (Op.prepare sharedRoom (numberedPayload n) (numberedPayload n)).work (sender []) (store n) 0 0 =
      (sender [], .ok (prepared n, .prepared true)) := by
  have hnew : (store n).find? (numberedPayload n).clientMessageId = none :=
    (store_new (by omega)).2.2.2
  rw [Op.work, guarded_sender rfl rfl (store_expire n)]
  simp only [store_insert hn, hnew, ok_bind]
  rfl

theorem prepared_find {n : Nat} (hn : n < 256) :
    (prepared n).find? (numbered n) = some (issued member onlyRoom (numberedPayload n) 0) := by
  have hnew : (store n).find? (numbered n) = none := (store_new (by omega)).2.2.2
  show List.find? _ ((store n).records ++ [_]) = _
  rw [List.find?_append, show (store n).records.find? _ = none from hnew, Option.none_or]
  exact List.find?_cons_of_pos (decide_eq_true rfl)

/-- The prepared message is settled. -/
theorem settle_work {n : Nat} (hn : n < 256) :
    (Op.settle (numberedReceipt n)).work (sender [numbered n]) (prepared n) 0 0 =
      (sender [numbered n], .ok (store (n + 1), .done)) := by
  have hrecord : recordOf member (prepared n) (numbered n) =
      .ok (issued member onlyRoom (numberedPayload n) 0) := by
    rw [recordOf, prepared_find hn, require_some, ok_bind,
      ensure_pos ⟨rfl, onlyRoom, List.mem_singleton_self _, rfl⟩, ok_bind]
    rfl
  have hsettled : applyReceipt (issued member onlyRoom (numberedPayload n) 0) (numberedReceipt n) =
      .ok (finished n) := by
    show (receipt (numberedReceipt n) (numbered n) >>= _) = _
    rw [numberedReceipt_ok, ok_bind]
    rfl
  have hupdate : (prepared n).update (numbered n) (fun _ => finished n) = store (n + 1) := by
    show OutboxState.mk 1 (some member) _ = OutboxState.mk 1 (some member) _
    congr 1
    show List.map _ ((store n).records ++ [_]) = (List.range (n + 1)).map finished
    rw [List.map_append, List.range_succ, List.map_append]
    have hothers : (store n).records.map (fun r =>
        if r.clientMessageId = numbered n then finished n else r) = (store n).records := by
      refine List.map_congr_left ?_ |>.trans (List.map_id _)
      intro r hr
      exact if_neg (find?_none (store_new (by omega)).2.2.2 r hr)
    exact congrArg₂ (· ++ ·) hothers (congrArg (fun r => [r]) (if_pos rfl))
  rw [Op.work, guarded_sender rfl rfl (prepared_expire n)]
  simp only [show recordOf member (prepared n) (numberedReceipt n).clientMessageId = _ from hrecord,
    hsettled, ok_bind]
  rw [show (numberedReceipt n).clientMessageId = numbered n from rfl, hupdate]
  rfl

/-- One more message is sent and settled. -/
theorem send_run {n : Nat} (hn : n < 256) {s : Sys} (h : Ready s (store n) []) :
    ∃ s', (system plain).Run s (send n) s' ∧ Ready s' (store (n + 1)) [] := by
  have hcall : (Call.prepare sharedRoom (numberedPayload n)).op plain (sender []) =
      .ok (.prepare sharedRoom (numberedPayload n) (numberedPayload n)) := by
    rw [Call.op, numberedPayload_normal]
    rfl
  obtain ⟨s₁, hrun₁, hready₁⟩ := perform_run [numbered n] h hcall rfl
    (prepare_work hn) rfl
  have hforget : [numbered n].filter (· ≠ numbered n) = [] := by simp
  obtain ⟨s₂, hrun₂, hready₂⟩ := perform_run [] hready₁
    (show (Call.settle (numberedReceipt n)).op plain _ = _ from rfl) rfl (settle_work hn)
    (by
      show Tab.mk _ _ _ _ _ _ ([numbered n].filter (· ≠ numbered n)) _ _ = _
      rw [hforget]
      rfl)
  exact ⟨s₂, hrun₁.append hrun₂, hready₂⟩

/-- The tab opens the outbox and is authorized. -/
def opening : List Command :=
  [.openTab 0 0, .call 0 0 (.authorize member), .run 0 0 0 true, .complete 0]

deriving instance DecidableEq for Tab

/-- A tab opens and is granted its authority. -/
theorem play_opening : ((play plain opening {}).map fun s =>
      (s.state.authorityEpoch, s.state.authority, s.state.records, s.tabs 0,
        (s.pending 0).isNone)) =
    some (1, some member, [], some (sender []), true) := by
  decide +kernel

theorem opened_run : ∃ s, (system plain).Run {} opening s ∧ Ready s (store 0) [] := by
  obtain ⟨s, hplay, hfacts⟩ := Option.map_eq_some_iff.mp play_opening
  simp only [Prod.mk.injEq] at hfacts
  obtain ⟨hepoch, hauthority, hrecords, htab, hpending⟩ := hfacts
  refine ⟨s, run_of_play hplay, ?_, htab, Option.isNone_iff_eq_none.mp hpending⟩
  cases hstate : s.state with
  | mk epoch authority records =>
    rw [hstate] at hepoch hauthority hrecords
    rw [show epoch = 1 from hepoch, show authority = some member from hauthority,
      show records = [] from hrecords]
    rfl

/-- Commands are sent until `n` are stored. -/
theorem filled_run {n : Nat} (hn : n ≤ 256) :
    ∃ cs s, (system plain).Run {} cs s ∧ Ready s (store n) [] := by
  induction n with
  | zero =>
    obtain ⟨s, hrun, hready⟩ := opened_run
    exact ⟨opening, s, hrun, hready⟩
  | succ n ih =>
    obtain ⟨cs, s, hrun, hready⟩ := ih (by omega)
    obtain ⟨s', hsend, hready'⟩ := send_run (by omega) hready
    exact ⟨cs ++ send n, s', hrun.append hsend, hready'⟩

/-- What a quarantine leaves of it. -/
def quarantined (n : Nat) : OutboxState :=
  { store n with records := (store n).records.map OutboxRecord.scrub }

theorem quarantine_work (n : Nat) :
    (Op.quarantine none).work (sender []) (store n) 0 0 =
      (sender [], .ok (quarantined n, .done)) := by
  rw [Op.work, guarded_sender rfl rfl (store_expire n)]
  have hscrub : (store n).records.map (fun r =>
      if ∀ named ∈ (none : Option (List String)), r.clientMessageId ∈ named then r.scrub else r) =
      (store n).records.map OutboxRecord.scrub :=
    List.map_congr_left fun r _ => if_pos (by simp)
  show (_, Except.ok (OutboxState.mk 1 (some member) _, Result.done)) = _
  rw [hscrub]
  rfl

theorem quarantined_records {n : Nat} {r : OutboxRecord}
    (h : r ∈ (expire (quarantined n) 0).records) : r.result = none ∧ ∃ m < n,
      r.clientMessageId = numbered m := by
  obtain ⟨r₁, hr₁, -, hid, hresult⟩ := expire_result h
  obtain ⟨r₂, hr₂, rfl⟩ := List.mem_map.mp hr₁
  obtain ⟨m, hm, rfl⟩ := List.mem_map.mp hr₂
  exact ⟨hresult, m, List.mem_range.mp hm, hid⟩

theorem quarantined_length (n : Nat) : (expire (quarantined n) 0).records.length = n := by
  rw [expire, List.length_map, quarantined, List.filter_eq_self.mpr, List.length_map, store,
    List.length_map, List.length_range]
  intro r hr
  obtain ⟨r₁, hr₁, rfl⟩ := List.mem_map.mp hr
  obtain ⟨m, -, rfl⟩ := List.mem_map.mp hr₁
  rfl

/-- Commands are sent until the store is full, and then it is quarantined. -/
theorem quarantined_run : ∃ cs cs' s s', (system plain).Run {} cs s ∧ Ready s (store 256) [] ∧
    (system plain).Run {} (cs ++ cs') s' ∧ s'.state = quarantined 256 := by
  obtain ⟨cs, s, hrun, hready⟩ := filled_run (Nat.le_refl 256)
  obtain ⟨s', hquarantine, hstate, -, -⟩ := perform_run [] hready
    (show (Call.quarantine none).op plain (sender []) = .ok (.quarantine none) from rfl) rfl
    (quarantine_work 256) rfl
  exact ⟨cs, _, s, s', hrun, hready, hrun.append hquarantine, hstate⟩

theorem quarantined_new :
    New (quarantined 256) sharedRoom (numberedPayload 256) member onlyRoom := by
  refine ⟨rfl, rfl, rfl, ?_⟩
  refine List.find?_eq_none.mpr ?_
  intro r hr
  obtain ⟨r₁, hr₁, rfl⟩ := List.mem_map.mp hr
  exact List.find?_eq_none.mp (store_new (by omega)).2.2.2 r₁ hr₁

/-- No record of it holds a receipt, and they are as many as there may be. -/
theorem quarantined_full : Full (unsettled (expire (quarantined 256) 0).records)
    (issued member onlyRoom (numberedPayload 256) 0) := by
  refine .inl ?_
  rw [unsettled, List.filter_eq_self.mpr, quarantined_length]
  · exact Nat.le_refl _
  · exact fun r hr => decide_eq_true (quarantined_records hr).1

/-! ## The guarantees -/

/-- A new command is refused for its room if and only if the unexpired records that hold no
receipt leave none, and no command is refused so otherwise. One that goes in evicts no such
record, and leaves the limits met. The records that hold no receipt have held none since they
were created, or since a change of authority, a quarantine or a revocation erased it. -/
theorem outbox_capacity (nfc : Nfc) {cs : List Command} {s : Sys}
    (hrun : (system nfc).Run {} cs s) :
    (∀ roomId payload now, insert s.state roomId payload now = .error .capacity ↔
      ∃ authority room, New s.state roomId payload authority room ∧
        Full (unsettled (expire s.state now).records) (issued authority room payload now)) ∧
    (∀ roomId payload now state', s.state.find? payload.clientMessageId = none →
      insert s.state roomId payload now = .ok state' →
      (∀ r ∈ (expire s.state now).records, r.result = none → r ∈ state'.records) ∧
        Bounded state'.records) ∧
    ∀ r ∈ s.state.records, r.result = none → Unsettled nfc cs s r.clientMessageId := by
  have hids := (reachable_inv (hrun.reachable (.init rfl))).store.ids
  refine ⟨fun roomId payload now => insert_capacity, ?_, run_unsettled hrun⟩
  intro roomId payload now state' hnew h
  exact insert_new hids hnew h

/-- The last command there is room for goes in, within the limits; after the quarantine of a full
store the next one is refused, and the records that hold no receipt have the history of one. -/
theorem outbox_capacity_filled :
    (∃ cs s state', (system plain).Run {} cs s ∧ s.state.records.length = 255 ∧
      insert s.state sharedRoom (numberedPayload 255) 0 = .ok state' ∧
      (∀ r ∈ (expire s.state 0).records, r.result = none → r ∈ state'.records) ∧
      Bounded state'.records) ∧
    ∃ cs s, (system plain).Run {} cs s ∧ s.state.records.length = 256 ∧
      insert s.state sharedRoom (numberedPayload 256) 0 = .error .capacity ∧
      ∀ r ∈ s.state.records, Unsettled plain cs s r.clientMessageId := by
  constructor
  · obtain ⟨cs, s, hrun, hstate, -, -⟩ := filled_run (show 255 ≤ 256 by decide)
    have hinsert := store_insert (show 255 < 256 by decide)
    have hnew := (store_new (show 255 < 1000 by decide)).2.2.2
    have hlength : (store 255).records.length = 255 := by
      rw [store, List.length_map, List.length_range]
    rw [← hstate] at hinsert hnew hlength
    obtain ⟨hkept, hbounded⟩ := (outbox_capacity plain hrun).2.1 _ _ _ _ hnew hinsert
    exact ⟨cs, s, _, hrun, hlength, hinsert, hkept, hbounded⟩
  · obtain ⟨cs, cs', s, s', -, -, hrun, hstate⟩ := quarantined_run
    obtain ⟨hrefused, -, hhistory⟩ := outbox_capacity plain hrun
    refine ⟨_, s', hrun, ?_, (hrefused _ _ _).mpr ⟨member, onlyRoom, ?_⟩, ?_⟩
    · rw [hstate, quarantined, List.length_map, store, List.length_map, List.length_range]
    · rw [hstate]
      exact ⟨quarantined_new, quarantined_full⟩
    · intro r hr
      refine hhistory r hr ?_
      rw [hstate] at hr
      obtain ⟨r₁, hr₁, rfl⟩ := List.mem_map.mp hr
      obtain ⟨m, -, rfl⟩ := List.mem_map.mp hr₁
      rfl

/-- A receipt of the id was settled in the run. -/
def EverSettled (nfc : Nfc) (cs : List Command) (id : String) : Prop :=
  ∃ cs₁ cs₂ u, cs = cs₁ ++ cs₂ ∧ (system nfc).Run {} cs₁ u ∧ ¬NoReceipt id u

/-- The store fills up with commands that were all sent: after a quarantine the next one is
refused, although no record is left that was never settled. -/
theorem outbox_forgets : ¬∀ nfc cs s roomId payload now authority room,
    (system nfc).Run {} cs s → New s.state roomId payload authority room →
    insert s.state roomId payload now = .error .capacity →
    ∃ records, records.Sublist (expire s.state now).records ∧
      (∀ r ∈ records, ¬EverSettled nfc cs r.clientMessageId) ∧
      Full records (issued authority room payload now) := by
  intro hall
  obtain ⟨cs, cs', s, s', hrun, hready, hrun', hstate⟩ := quarantined_run
  have hnew : New s'.state sharedRoom (numberedPayload 256) member onlyRoom :=
    hstate ▸ quarantined_new
  have hrefused : insert s'.state sharedRoom (numberedPayload 256) 0 = .error .capacity := by
    refine insert_capacity.mpr ⟨member, onlyRoom, hnew, ?_⟩
    rw [hstate]
    exact quarantined_full
  obtain ⟨records, hsub, hnever, hfull⟩ := hall plain _ s' sharedRoom (numberedPayload 256) 0
    member onlyRoom hrun' hnew hrefused
  -- every record was settled before the quarantine
  have hnone : records = [] := by
    refine List.eq_nil_iff_forall_not_mem.mpr fun r hr => ?_
    refine hnever r hr ⟨cs, _, s, rfl, hrun, fun hquiet => ?_⟩
    have hmem := hsub.mem hr
    rw [hstate] at hmem
    obtain ⟨-, m, hm, hid⟩ := quarantined_records hmem
    have hfinished : finished m ∈ s.state.records := by
      rw [hready.state]
      exact List.mem_map_of_mem (List.mem_range.mpr hm)
    cases hquiet (finished m) hfinished hid.symm
  rw [hnone, full_iff] at hfull
  have hsmall := issued_size 256
  simp only [List.length_nil, List.map_nil, List.sum_nil, maxRecords, maxBytes] at hfull
  omega

end Rogichat.Outbox
