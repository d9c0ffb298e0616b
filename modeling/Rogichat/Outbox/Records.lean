import Rogichat.Outbox.Model

/-!
# Records under the operations

What one transaction's work does to the stored records: every operation only keeps
records, drops them or erases payloads, except the `prepare` that creates one, which
finds no record of its id.

* **`work_kept`**, **`work_created`** — the two cases.
* **`release_ok`** — what a committed `beforeSend` was checked against.
-/

namespace Rogichat.Outbox

open Lib

/-! ## Later versions -/

/-- A later version of a record has its id, and its payload unless that was erased. -/
structure OutboxRecord.Later (r r' : OutboxRecord) : Prop where
  id : r'.clientMessageId = r.clientMessageId
  payload : r'.payload = none ∨ r'.payload = r.payload

theorem OutboxRecord.Later.refl (r : OutboxRecord) : r.Later r := ⟨rfl, .inr rfl⟩

theorem OutboxRecord.Later.trans {r r' r'' : OutboxRecord} (h : r.Later r') (h' : r'.Later r'') :
    r.Later r'' := by
  refine ⟨h'.id.trans h.id, ?_⟩
  rcases h'.payload with hnone | hsame
  · exact .inl hnone
  · rw [hsame]
    exact h.payload

/-- An erased record is a later one. -/
theorem later_erase (r : OutboxRecord) : r.Later r.erase := ⟨rfl, .inl rfl⟩

theorem later_scrub (r : OutboxRecord) : r.Later r.scrub := ⟨rfl, .inl rfl⟩

/-- Records that were only dropped or replaced by later versions. -/
structure Kept (records records' : List OutboxRecord) : Prop where
  ids : (records'.map OutboxRecord.clientMessageId).Sublist
    (records.map OutboxRecord.clientMessageId)
  later : ∀ r' ∈ records', ∃ r ∈ records, r.Later r'

theorem Kept.refl (records : List OutboxRecord) : Kept records records :=
  ⟨.refl _, fun r hr => ⟨r, hr, .refl r⟩⟩

theorem Kept.trans {l l' l'' : List OutboxRecord} (h : Kept l l') (h' : Kept l' l'') :
    Kept l l'' := by
  refine ⟨h'.ids.trans h.ids, ?_⟩
  intro r'' hr''
  obtain ⟨r', hr', hlater'⟩ := h'.later r'' hr''
  obtain ⟨r, hr, hlater⟩ := h.later r' hr'
  exact ⟨r, hr, hlater.trans hlater'⟩

/-- Dropping records keeps the others. -/
theorem Kept.of_sublist {l l' : List OutboxRecord} (h : l'.Sublist l) : Kept l l' :=
  ⟨h.map _, fun r hr => ⟨r, h.mem hr, .refl r⟩⟩

theorem Kept.of_map {f : OutboxRecord → OutboxRecord} (l : List OutboxRecord)
    (hf : ∀ r ∈ l, r.Later (f r)) : Kept l (l.map f) := by
  constructor
  · have hids : (l.map f).map OutboxRecord.clientMessageId =
        l.map OutboxRecord.clientMessageId := by
      rw [List.map_map]
      exact List.map_congr_left fun r hr => (hf r hr).id
    rw [hids]
  · intro r' hr'
    obtain ⟨r, hr, rfl⟩ := List.mem_map.mp hr'
    exact ⟨r, hr, hf r hr⟩

/-- Expiry keeps the records it leaves. -/
theorem kept_expire (state : OutboxState) (now : Time) :
    Kept state.records (expire state now).records := by
  refine .trans (.of_sublist List.filter_sublist) (.of_map _ ?_)
  intro r _
  split
  · exact later_erase r
  · exact .refl r

/-- A new authority keeps the records. -/
theorem kept_applyAuthority (state : OutboxState) (authority : OutboxAuthority) (now : Time) :
    Kept state.records (applyAuthority state authority now).records := by
  refine (kept_expire state now).trans (.of_map _ ?_)
  intro r _
  split
  · exact .refl r
  · exact later_scrub r

/-- An update to later records keeps them. -/
theorem kept_update {state : OutboxState} {id : String} {f : OutboxRecord → OutboxRecord}
    (hf : ∀ r ∈ state.records, r.clientMessageId = id → r.Later (f r)) :
    Kept state.records (state.update id f).records := by
  refine .of_map _ ?_
  intro r hr
  split
  · rename_i hid
    exact hf r hr hid
  · exact .refl r

/-! ## Lookups -/

/-- A record is found by its id. -/
theorem find?_mem {state : OutboxState} {id : String} {r : OutboxRecord}
    (h : state.find? id = some r) : r ∈ state.records ∧ r.clientMessageId = id := by
  refine ⟨List.mem_of_find?_eq_some h, ?_⟩
  simpa using List.find?_some h

theorem find?_none {state : OutboxState} {id : String} (h : state.find? id = none) :
    ∀ r ∈ state.records, r.clientMessageId ≠ id := by
  intro r hr hid
  simpa [hid] using List.find?_eq_none.mp h r hr

/-- A record is found where the authority may send it. -/
theorem recordOf_ok {authority : OutboxAuthority} {state : OutboxState} {id : String}
    {r : OutboxRecord} (h : recordOf authority state id = .ok r) :
    r ∈ state.records ∧ r.clientMessageId = id := by
  simp only [recordOf, bind_ok, require_ok, ensure_ok, pure_ok] at h
  obtain ⟨found, hfind, -, -, rfl⟩ := h
  exact find?_mem hfind

/-- Two records of one id are one record. -/
theorem eq_of_id {records : List OutboxRecord}
    (hids : (records.map OutboxRecord.clientMessageId).Nodup) {r r' : OutboxRecord}
    (hr : r ∈ records) (hr' : r' ∈ records) (h : r.clientMessageId = r'.clientMessageId) :
    r = r' :=
  List.inj_on_of_nodup_map hids hr hr' h

/-! ## Preparing -/

/-- Making room only drops records. -/
theorem makeRoom_sublist {record : OutboxRecord} {fuel : Nat} {records kept : List OutboxRecord}
    (h : makeRoom record fuel records = .ok kept) : kept.Sublist records := by
  induction fuel generalizing records with
  | zero =>
    rw [makeRoom] at h
    split at h
    · cases h
    · cases h
      exact .refl _
  | succ fuel ih =>
    rw [makeRoom] at h
    split at h
    · split at h
      · exact (ih h).trans List.eraseP_sublist
      · cases h
    · cases h
      exact .refl _

/-- `insert` finds the record of the id, or adds one to what it keeps of the others. -/
theorem insert_ok {state state' : OutboxState} {roomId : String} {payload : OutboxPayload}
    {now : Time} (h : insert state roomId payload now = .ok state') :
    state.find? payload.clientMessageId ≠ none ∧ state' = state ∨
      state.find? payload.clientMessageId = none ∧ ∃ kept record,
        state'.records = kept ++ [record] ∧ Kept state.records kept ∧
        record.clientMessageId = payload.clientMessageId ∧ record.payload = some payload := by
  simp only [insert, bind_ok, require_ok, ensure_ok] at h
  obtain ⟨authority, -, room, -, -, -, h⟩ := h
  cases hfind : state.find? payload.clientMessageId with
  | some prior =>
    simp only [hfind, bind_ok, require_ok, ensure_ok, pure_ok] at h
    obtain ⟨stored, -, -, -, rfl⟩ := h
    exact .inl ⟨Option.some_ne_none _, rfl⟩
  | none =>
    simp only [hfind, bind_ok, pure_ok] at h
    obtain ⟨kept, hroom, rfl⟩ := h
    refine .inr ⟨rfl, kept, _, rfl, ?_, rfl, rfl⟩
    exact (kept_expire state now).trans (.of_sublist (makeRoom_sublist hroom))

theorem applyReceipt_later {r settled : OutboxRecord} {value : Receipt}
    (h : applyReceipt r value = .ok settled) : r.Later settled := by
  simp only [applyReceipt, bind_ok] at h
  obtain ⟨result, -, h⟩ := h
  split at h
  · cases h
    exact .refl r
  · cases h
    exact ⟨rfl, .inl rfl⟩

/-! ## The work of a transaction -/

/-- Guarded work that succeeds was done under the stored authority and epoch. -/
theorem guarded_ok {t t' : Tab} {state state' : OutboxState} {now : Time} {result : Result}
    {rest : OutboxAuthority → OutboxState → Except OutboxError (OutboxState × Result)}
    (h : guarded t state now rest = (t', .ok (state', result))) :
    t' = t ∧ ∃ authority, t.authority = some authority ∧ state.authority = some authority ∧
      t.authorityEpoch = some state.authorityEpoch ∧
      rest authority (expire state now) = .ok (state', result) := by
  unfold guarded at h
  cases hauthority : t.authority with
  | none =>
    rw [hauthority] at h
    cases (Prod.mk.inj h).2
  | some authority =>
    cases hepoch : t.authorityEpoch with
    | none =>
      rw [hauthority, hepoch] at h
      cases (Prod.mk.inj h).2
    | some epoch =>
      simp only [hauthority, hepoch] at h
      split at h
      · cases (Prod.mk.inj h).2
      · rename_i hsame
        rw [not_or, not_not, not_not] at hsame
        obtain ⟨ht, hrest⟩ := Prod.mk.inj h
        refine ⟨ht.symm, authority, rfl, sameAuthority_iff.mp hsame.2, ?_, hrest⟩
        rw [hsame.1]

/-- Guarded work that fails leaves the tab, or drops its authority. -/
theorem guarded_error {t t' : Tab} {state : OutboxState} {now : Time} {e : OutboxError}
    {rest : OutboxAuthority → OutboxState → Except OutboxError (OutboxState × Result)}
    (h : guarded t state now rest = (t', .error e)) :
    t' = t ∨ t' = t.drop ∧ t.authority ≠ none := by
  unfold guarded at h
  split at h
  · rename_i authority epoch hauthority hepoch
    split at h
    · cases h
      exact .inr ⟨rfl, hauthority ▸ Option.some_ne_none authority⟩
    · exact .inl (Prod.mk.inj h).1.symm
  · exact .inl (Prod.mk.inj h).1.symm

/-- The tab forgets that the id was not found. -/
def Tab.spend (t : Tab) (id : String) : Tab :=
  { t with lookup404 := t.lookup404.filter (· ≠ id) }

/-- What a `beforeSend` that succeeds was checked against. -/
structure Released (t : Tab) (state : OutboxState) (now : Time) (id : String)
    (explicitRetry : Bool) (payload : OutboxPayload) : Prop where
  authority : ∃ authority, t.authority = some authority ∧ state.authority = some authority ∧
    ∃ r ∈ (expire state now).records, r.clientMessageId = id ∧ r.payload = some payload ∧
      r.result = none ∧ Permitted r authority
  epoch : t.authorityEpoch = some state.authorityEpoch
  permission : id ∈ t.preparedHere ∨ explicitRetry = true ∧ id ∈ t.lookup404

/-- What a release hands out, and that it spends the tab's permission. -/
theorem release_ok {t t' : Tab} {state state' : OutboxState} {now later : Time} {id : String}
    {explicitRetry : Bool} {result : Result}
    (h : (Op.beforeSend id explicitRetry).work t state now later = (t', .ok (state', result))) :
    ∃ payload, result = .payload payload ∧ t' = t.spend id ∧
      Released t state now id explicitRetry payload ∧ Kept state.records state'.records := by
  rw [Op.work] at h
  split at h
  · rename_i t₁ result₁ hguarded
    cases h
    obtain ⟨rfl, authority, htab, hstored, hepoch, hrest⟩ := guarded_ok hguarded
    simp only [releaseWork, bind_ok, require_ok, ensure_ok, pure_ok, Prod.mk.injEq] at hrest
    obtain ⟨r, hr, payload, hpayload, -, ⟨hresult, hpermitted⟩, -, hpermission, rfl, rfl⟩ := hrest
    obtain ⟨hmem, hid⟩ := recordOf_ok hr
    refine ⟨payload, rfl, rfl, ⟨⟨authority, htab, hstored, r, hmem, hid, hpayload, hresult,
      hpermitted⟩, hepoch, hpermission⟩, ?_⟩
    exact (kept_expire state now).trans (kept_update fun r _ _ => ⟨rfl, .inr rfl⟩)
  · cases (Prod.mk.inj h).2

/-- What a `prepare` that succeeds did: it found a record of the id, or created one. -/
theorem prepare_ok {t t' : Tab} {state state' : OutboxState} {now later : Time} {roomId : String}
    {given payload : OutboxPayload} {result : Result}
    (h : (Op.prepare roomId given payload).work t state now later = (t', .ok (state', result))) :
    t' = t ∧ (result = .prepared false ∧ Kept state.records state'.records ∨
      result = .prepared true ∧ ∃ kept record, state'.records = kept ++ [record] ∧
        Kept state.records kept ∧ record.clientMessageId = payload.clientMessageId ∧
        record.payload = some payload ∧ ∀ r ∈ kept, r.clientMessageId ≠ payload.clientMessageId) := by
  rw [Op.work] at h
  obtain ⟨rfl, authority, -, -, -, hrest⟩ := guarded_ok h
  refine ⟨rfl, ?_⟩
  simp only [bind_ok, pure_ok, Prod.mk.injEq] at hrest
  obtain ⟨inserted, hinsert, rfl, rfl⟩ := hrest
  rcases insert_ok hinsert with ⟨hfound, rfl⟩ | ⟨hnone, kept, record, hrecords, hkept, hid, hpayload⟩
  · refine .inl ⟨?_, kept_expire state now⟩
    simpa [Option.isSome_iff_ne_none] using hfound
  · refine .inr ⟨by simp [hnone], kept, record, hrecords, (kept_expire state now).trans hkept, hid,
      hpayload, ?_⟩
    intro r hr
    obtain ⟨r₀, hr₀, hlater⟩ := hkept.later r hr
    rw [hlater.id]
    exact find?_none hnone r₀ hr₀

/-- The operations that neither create a record nor release one. -/
def Op.Quiet : Op → Prop
  | .prepare .. | .beforeSend .. => False
  | _ => True

/-- An operation prepares, releases or is quiet. -/
theorem Op.kinds (op : Op) : (∃ roomId given payload, op = .prepare roomId given payload) ∨
    (∃ id explicitRetry, op = .beforeSend id explicitRetry) ∨ op.Quiet := by
  cases op with
  | «prepare» roomId given payload => exact .inl ⟨roomId, given, payload, rfl⟩
  | beforeSend id explicitRetry => exact .inr (.inl ⟨id, explicitRetry, rfl⟩)
  | _ => exact .inr (.inr trivial)

/-- A new authority keeps the records. -/
theorem grantWork_kept {authority : OutboxAuthority} {state state' : OutboxState} {now : Time}
    {result : Result} (h : grantWork authority state now = .ok (state', result)) :
    Kept state.records state'.records := by
  simp only [grantWork, bind_ok, ensure_ok, pure_ok, Prod.mk.injEq] at h
  obtain ⟨-, -, rfl, -⟩ := h
  exact kept_applyAuthority _ authority now

/-- A revoked authority keeps the records. -/
theorem revokeWork_kept {held : Option Grant} {state state' : OutboxState} {result : Result}
    (h : revokeWork held state = .ok (state', result)) : Kept state.records state'.records := by
  cases held with
  | none =>
    cases h
    exact .refl _
  | some held =>
    rw [revokeWork] at h
    split at h
    · cases h
      exact .refl _
    · simp only [bind_ok, ensure_ok, pure_ok, Prod.mk.injEq] at h
      obtain ⟨-, -, rfl, -⟩ := h
      exact .of_map _ fun r _ => later_scrub r

/-- A receipt keeps the records. -/
theorem settle_kept {t t' : Tab} {state state' : OutboxState} {now later : Time} {value : Receipt}
    {result : Result} (hids : (state.records.map OutboxRecord.clientMessageId).Nodup)
    (h : (Op.settle value).work t state now later = (t', .ok (state', result))) :
    t' = t ∧ Kept state.records state'.records := by
  rw [Op.work] at h
  obtain ⟨rfl, authority, -, -, -, hrest⟩ := guarded_ok h
  refine ⟨rfl, ?_⟩
  simp only [bind_ok, pure_ok, Prod.mk.injEq] at hrest
  obtain ⟨r, hr, settled, hsettled, rfl, -⟩ := hrest
  obtain ⟨hmem, hid⟩ := recordOf_ok hr
  have hkept := kept_expire state now
  refine hkept.trans (kept_update ?_)
  intro r' hr' hid'
  obtain rfl := eq_of_id (hids.sublist hkept.ids) hr' hmem (hid'.trans hid.symm)
  exact applyReceipt_later hsettled

/-- Every other operation keeps its tab and only drops records and payloads. -/
theorem quiet_ok {op : Op} {t t' : Tab} {state state' : OutboxState} {now later : Time}
    {result : Result} (hids : (state.records.map OutboxRecord.clientMessageId).Nodup)
    (hquiet : op.Quiet) (h : op.work t state now later = (t', .ok (state', result))) :
    t' = t ∧ Kept state.records state'.records := by
  cases op with
  | prepare => cases hquiet
  | beforeSend => cases hquiet
  | assertCurrent =>
    rw [Op.work] at h
    obtain ⟨rfl, authority, -, -, -, hrest⟩ := guarded_ok h
    cases hrest
    exact ⟨rfl, kept_expire state now⟩
  | refresh authority =>
    rw [Op.work] at h
    obtain ⟨rfl, authority, -, -, -, hrest⟩ := guarded_ok h
    cases hrest
    exact ⟨rfl, kept_expire state now⟩
  | grant authority =>
    rw [Op.work] at h
    obtain ⟨rfl, hwork⟩ := Prod.mk.inj h
    exact ⟨rfl, grantWork_kept hwork⟩
  | recover roomId =>
    rw [Op.work] at h
    obtain ⟨rfl, authority, -, -, -, hrest⟩ := guarded_ok h
    simp only [bind_ok, pure_ok, Prod.mk.injEq] at hrest
    obtain ⟨-, -, rfl, -⟩ := hrest
    exact ⟨rfl, kept_expire state now⟩
  | beforeLookup id =>
    rw [Op.work] at h
    obtain ⟨rfl, authority, -, -, -, hrest⟩ := guarded_ok h
    simp only [bind_ok, pure_ok, Prod.mk.injEq] at hrest
    obtain ⟨-, -, rfl, -⟩ := hrest
    exact ⟨rfl, kept_expire state now⟩
  | lookupNotFound id =>
    rw [Op.work] at h
    obtain ⟨rfl, authority, -, -, -, hrest⟩ := guarded_ok h
    simp only [bind_ok, pure_ok, Prod.mk.injEq] at hrest
    obtain ⟨-, -, rfl, -⟩ := hrest
    exact ⟨rfl, kept_expire state now⟩
  | settle value => exact settle_kept hids h
  | quarantine ids =>
    rw [Op.work] at h
    obtain ⟨rfl, authority, -, -, -, hrest⟩ := guarded_ok h
    cases hrest
    -- a quarantined record is scrubbed in place, the others stay
    refine ⟨rfl, (kept_expire state now).trans (.of_map _ ?_)⟩
    intro r _
    split
    · exact later_scrub r
    · exact .refl r
  | revoke held =>
    rw [Op.work] at h
    obtain ⟨rfl, hwork⟩ := Prod.mk.inj h
    exact ⟨rfl, revokeWork_kept hwork⟩

/-- Work that fails leaves the tab, or drops its authority. -/
theorem work_error {op : Op} {t t' : Tab} {state : OutboxState} {now later : Time}
    {e : OutboxError} (h : op.work t state now later = (t', .error e)) :
    t' = t ∨ t' = t.drop ∧ t.authority ≠ none := by
  cases op with
  | grant authority => exact .inl (Prod.mk.inj h).1.symm
  | revoke held => exact .inl (Prod.mk.inj h).1.symm
  | beforeSend id explicitRetry =>
    rw [Op.work] at h
    split at h
    · cases (Prod.mk.inj h).2
    · rename_i hguarded
      cases h
      exact guarded_error hguarded
  | _ =>
    rw [Op.work] at h
    exact guarded_error h

end Rogichat.Outbox
