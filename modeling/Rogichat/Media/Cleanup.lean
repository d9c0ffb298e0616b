import Rogichat.Media.Model

/-!
# No bytes behind a deleted asset

The database and the object store commit separately, and a PUT lands when it will. What
keeps them together is what the rows have behind them (`Kept`): an object leaves
ALLOCATED only after its writer acknowledged the PUT, an attempt is marked acknowledged
only then, and it carries a `deleteObservedAt` only while the object is `Shut`: its bytes
are gone, and were removed after the acknowledgement. A PUT comes once and before its
acknowledgement, so nothing opens a shut object again.
-/

namespace Rogichat.Media

open Lib

/-! ## What the rows have behind them -/

/-- The bytes under the key were removed after the last acknowledgement of the object. -/
def Erased (log : List Event) (objectId : Uuid) (key : ObjectKey) : Prop :=
  ∃ newer older, log = newer ++ .removed key :: older ∧
    Event.acknowledged objectId ∈ older ∧ Event.acknowledged objectId ∉ newer

/-- No PUT of the object is to come, and its bytes are gone. -/
structure Shut (s : Sys) (objectId : Uuid) (key : ObjectKey) : Prop where
  acknowledged : s.writers objectId = .acknowledged
  gone : s.store key = false
  erased : Erased s.log objectId key

/-- The object's row. -/
def Db.Held (db : Db) (objectId : Uuid) (key : ObjectKey) : Prop :=
  ∃ o ∈ db.objects, o.id = objectId ∧ o.objectKey = key

/-- No row of the asset is DELETED. -/
def Db.Live (db : Db) (assetId : Uuid) : Prop :=
  ∀ a ∈ db.assets, a.id = assetId → a.state ≠ .deleted

/-- What an attempt row says is so. -/
structure AttemptRow.Ok (p : AttemptRow) (s : Sys) : Prop where
  acknowledged : p.writerAcknowledged = true → s.writers p.objectId = .acknowledged
  shut : p.deleteObservedAt ≠ none → Shut s p.objectId p.objectKey

/-- What the rows keep to in every run. -/
structure Kept (s : Sys) (db : Db) : Prop where
  keyed : ∀ o ∈ db.objects, o.objectKey.assetId = o.assetId
  /-- An object's evidence is of an acknowledged PUT. -/
  written : ∀ o ∈ db.objects, o.state ≠ .allocated → s.writers o.id = .acknowledged
  attempts : ∀ p ∈ db.attempts, db.Held p.objectId p.objectKey ∧ p.Ok s
  deleted : ∀ a ∈ db.assets, a.state = .deleted →
    ∀ o ∈ db.objects, o.assetId = a.id → ¬db.Open o

/-- The write loses no object and refunds nothing. -/
structure Grows (db db' : Db) : Prop where
  held : ∀ objectId key, db.Held objectId key → db'.Held objectId key
  budget : db.budget ≤ db'.budget

theorem Grows.refl (db : Db) : Grows db db := ⟨fun _ _ h => h, Nat.le_refl _⟩

theorem Grows.trans {db₁ db₂ db₃ : Db} (h : Grows db₁ db₂) (h' : Grows db₂ db₃) :
    Grows db₁ db₃ :=
  ⟨fun id key hheld => h'.held id key (h.held id key hheld), Nat.le_trans h.budget h'.budget⟩

variable {s t : Sys} {db db' : Db}

/-- One row for one key. -/
theorem Db.Held.key_eq {objectId : Uuid} {key : ObjectKey} (h : db.Held objectId key)
    {o : ObjectRow} (ho : o ∈ db.objects) (hid : o.id = objectId) : o.objectKey = key := by
  obtain ⟨r, hr, hrid, rfl⟩ := h
  have heq : o = r := Table.eq_of_key ho hr (k := Sum.inl o.id) (by simp [Row.keys])
    (by simp [Row.keys, hrid, hid])
  rw [heq]

theorem Db.Held.id_eq {objectId : Uuid} {key : ObjectKey} (h : db.Held objectId key)
    {o : ObjectRow} (ho : o ∈ db.objects) (hkey : o.objectKey = key) : o.id = objectId := by
  obtain ⟨r, hr, rfl, hrkey⟩ := h
  have heq : o = r := Table.eq_of_key ho hr (k := Sum.inr o.objectKey) (by simp [Row.keys])
    (by simp [Row.keys, hrkey, hkey])
  rw [heq]

theorem object_eq {o r : ObjectRow} (ho : o ∈ db.objects) (hr : r ∈ db.objects)
    (hid : o.id = r.id) : o = r :=
  Table.eq_of_key ho hr (k := Sum.inl o.id) (by simp [Row.keys]) (by simp [Row.keys, hid])

theorem asset_eq {a b : AssetRow} (ha : a ∈ db.assets) (hb : b ∈ db.assets)
    (hid : a.id = b.id) : a = b :=
  Table.eq_of_key ha hb (k := a.id) (by simp [Row.keys]) (by simp [Row.keys, hid])

/-- `lockAsset` finds the one row of that id. -/
theorem asset_ok {assetId : Uuid} {e : MediaError} {a : AssetRow}
    (h : db.asset assetId e = .ok a) :
    a ∈ db.assets ∧ a.id = assetId ∧ ∀ b ∈ db.assets, b.id = assetId → b = a := by
  rw [Db.asset, require_ok] at h
  have ha := Table.mem_of_find? h
  have hid : a.id = assetId := Table.holds_of_find? (p := fun a : AssetRow => a.id = assetId) h
  refine ⟨ha, hid, ?_⟩
  intro b hb hbid
  exact asset_eq hb ha (hbid.trans hid.symm)

theorem live_of_asset {assetId : Uuid} {e : MediaError} {a : AssetRow}
    (h : db.asset assetId e = .ok a) (hstate : a.state ≠ .deleted) : db.Live assetId := by
  intro b hb hbid
  rw [(asset_ok h).2.2 b hb hbid]
  exact hstate

/-- An object whose cleanup is open is of no DELETED asset. -/
theorem Kept.live_of_open (h : Kept s db) {o : ObjectRow} (ho : o ∈ db.objects)
    (hopen : db.Open o) : db.Live o.assetId := by
  intro a ha hid hdeleted
  exact h.deleted a ha hdeleted o ho hid.symm hopen

/-- The join with the attempt row is evidence of an acknowledgement. -/
theorem Kept.evidence (h : Kept s db) {o : ObjectRow} (ho : o ∈ db.objects)
    (hack : acknowledgedWrite (db.cleanupObject o)) : s.writers o.id = .acknowledged := by
  rcases hack with hflag | ⟨hstate, -⟩
  · obtain ⟨p, hp, hflag⟩ := Option.map_eq_some_iff.mp hflag
    have hof : p.Of o := Table.holds_of_find? (p := fun p : AttemptRow => p.Of o) hp
    rw [← hof.1]
    exact (h.attempts p (Table.mem_of_find? hp)).2.acknowledged hflag
  · exact h.written o ho hstate

/-! ## Writes of one table -/

/-- Assets that become no DELETED ones. -/
theorem Kept.of_assets (h : Kept s db) (hobjects : db'.objects = db.objects)
    (hattempts : db'.attempts = db.attempts)
    (hassets : ∀ a' ∈ db'.assets, a'.state = .deleted → ∃ a ∈ db.assets,
      a.id = a'.id ∧ a.state = .deleted) : Kept s db' := by
  have hopen : ∀ o, db'.Open o ↔ db.Open o := by
    intro o
    unfold Db.Open
    rw [hattempts]
  refine ⟨?_, ?_, ?_, ?_⟩
  · rw [hobjects]
    exact h.keyed
  · rw [hobjects]
    exact h.written
  · rw [hattempts]
    unfold Db.Held
    rw [hobjects]
    exact h.attempts
  · intro a' ha' hdeleted o ho hasset
    obtain ⟨a, ha, hid, hstate⟩ := hassets a' ha' hdeleted
    rw [hobjects] at ho
    rw [hopen]
    exact h.deleted a ha hstate o ho (hasset.trans hid.symm)

theorem mem_updateAsset {assetId : Uuid} {f : AssetRow → AssetRow} {k : Table.Keeps f}
    {a' : AssetRow} : a' ∈ (db.updateAsset assetId f k).assets ↔
      ∃ a ∈ db.assets, a' = if a.id = assetId then f a else a :=
  Table.mem_update (k := k)

/-- A change of assets that makes none DELETED. -/
theorem Kept.updateAsset (h : Kept s db) (assetId : Uuid) {f : AssetRow → AssetRow}
    {k : Table.Keeps f} (hf : ∀ a, (f a).state = .deleted → a.state = .deleted) :
    Kept s (db.updateAsset assetId f k) := by
  refine h.of_assets rfl rfl ?_
  intro a' ha' hdeleted
  obtain ⟨a, ha, rfl⟩ := mem_updateAsset.mp ha'
  refine ⟨a, ha, ?_, ?_⟩
  · split
    · exact (List.singleton_inj.mp (k.keys a)).symm
    · rfl
  · split at hdeleted
    · exact hf a hdeleted
    · exact hdeleted

theorem Kept.insertAsset (h : Kept s db) {row : AssetRow} {assets : Table AssetRow}
    {budget : Nat} (hins : db.assets.insert row = some assets) (hrow : row.state ≠ .deleted) :
    Kept s { db with assets := assets, budget := budget } := by
  refine h.of_assets rfl rfl ?_
  intro a' ha' hdeleted
  rcases (Table.mem_insert hins).mp ha' with ha | rfl
  · exact ⟨a', ha, rfl, hdeleted⟩
  · exact absurd hdeleted hrow

theorem Db.Live.updateAsset {id : Uuid} (h : db.Live id) (assetId : Uuid)
    {f : AssetRow → AssetRow} {k : Table.Keeps f}
    (hf : ∀ a, (f a).state = .deleted → a.state = .deleted) :
    (db.updateAsset assetId f k).Live id := by
  intro a' ha' haid hdeleted
  obtain ⟨a, ha, rfl⟩ := mem_updateAsset.mp ha'
  split at haid
  · rename_i hmatch
    rw [if_pos hmatch] at hdeleted
    exact h a ha ((List.singleton_inj.mp (k.keys a)).symm.trans haid) (hf a hdeleted)
  · rename_i hmatch
    rw [if_neg hmatch] at hdeleted
    exact h a ha haid hdeleted

/-- Attempts of one object change, whose asset is not DELETED. -/
theorem Kept.attempts_at (h : Kept s db) {objectId : Uuid} {attempts : Table AttemptRow}
    (hlive : ∀ o ∈ db.objects, o.id = objectId → db.Live o.assetId)
    (hother : ∀ p, p.objectId ≠ objectId → (p ∈ attempts ↔ p ∈ db.attempts))
    (hat : ∀ p ∈ attempts, p.objectId = objectId → db.Held p.objectId p.objectKey ∧ p.Ok s) :
    Kept s { db with attempts := attempts } := by
  refine ⟨h.keyed, h.written, ?_, ?_⟩
  · intro p hp
    by_cases hid : p.objectId = objectId
    · exact hat p hp hid
    · exact h.attempts p ((hother p hid).mp hp)
  · intro a ha hdeleted o ho hasset hopen
    -- the changed object is of a live asset, and the others keep their rows
    by_cases hid : o.id = objectId
    · exact hlive o ho hid a ha hasset.symm hdeleted
    · refine h.deleted a ha hdeleted o ho hasset ?_
      rcases hopen with hstate | hnone
      · exact .inl hstate
      · refine .inr fun hhas => hnone ?_
        obtain ⟨p, hp, hof, hrest⟩ := hhas
        refine ⟨p, (hother p ?_).mpr hp, hof, hrest⟩
        rw [hof.1]
        exact hid

theorem mem_upsertAttempt {row : AttemptRow} {f : AttemptRow → AttemptRow} {k : Table.Keeps f}
    {p : AttemptRow} (hp : p ∈ (db.upsertAttempt row f k).attempts) :
    p ∈ db.attempts ∧ p.objectId ≠ row.objectId ∨ p = row ∨
      ∃ q ∈ db.attempts, q.objectId = row.objectId ∧ p = f q := by
  unfold Db.upsertAttempt at hp
  cases hins : db.attempts.insert row with
  | none =>
    rw [hins] at hp
    obtain ⟨q, hq, rfl⟩ := (Table.mem_update (k := k)).mp hp
    by_cases hid : q.objectId = row.objectId
    · exact .inr (.inr ⟨q, hq, hid, if_pos hid⟩)
    · rw [if_neg hid]
      exact .inl ⟨hq, hid⟩
  | some attempts =>
    rw [hins] at hp
    rcases (Table.mem_insert hins).mp hp with hp | rfl
    · refine .inl ⟨hp, fun hid => Table.fresh_of_insert hins hp ?_⟩
      exact ⟨p.objectId, by simp [Row.keys], by simp [Row.keys, hid]⟩
    · exact .inr (.inl rfl)

theorem upsertAttempt_other {row : AttemptRow} {f : AttemptRow → AttemptRow}
    {k : Table.Keeps f} (hf : ∀ p, (f p).objectId = p.objectId) {p : AttemptRow}
    (hid : p.objectId ≠ row.objectId) :
    p ∈ (db.upsertAttempt row f k).attempts ↔ p ∈ db.attempts := by
  constructor
  · intro hp
    rcases mem_upsertAttempt hp with ⟨hp, -⟩ | rfl | ⟨q, -, hq, rfl⟩
    · exact hp
    · exact absurd rfl hid
    · exact absurd ((hf q).trans hq) hid
  · intro hp
    unfold Db.upsertAttempt
    cases hins : db.attempts.insert row with
    | none =>
      have := Table.mem_update_of_mem (p := fun p => p.objectId = row.objectId) (k := k) hp
      rwa [if_neg hid] at this
    | some attempts => exact (Table.mem_insert hins).mpr (.inl hp)

/-- The attempt row of an object whose asset is not DELETED. -/
theorem Kept.upsertAttempt (h : Kept s db) {o : ObjectRow} (ho : o ∈ db.objects)
    (hlive : db.Live o.assetId) {r : AttemptRow} {f : AttemptRow → AttemptRow}
    {k : Table.Keeps f} (hid : r.objectId = o.id) (hkey : r.objectKey = o.objectKey)
    (hrow : r.Ok s) (hf : ∀ p, (f p).objectId = p.objectId ∧ (f p).objectKey = p.objectKey)
    (hok : ∀ p ∈ db.attempts, p.objectId = o.id → (f p).Ok s) :
    Kept s (db.upsertAttempt r f k) ∧ Grows db (db.upsertAttempt r f k) := by
  refine ⟨?_, fun _ _ hheld => hheld, Nat.le_refl _⟩
  refine h.attempts_at ?_
    (fun p hne => upsertAttempt_other (fun p => (hf p).1) hne) ?_
  · intro o' ho' hoid
    rw [object_eq ho' ho (hoid.trans hid)]
    exact hlive
  · intro p hp hpid
    rcases mem_upsertAttempt hp with ⟨-, hne⟩ | rfl | ⟨q, hq, hqid, rfl⟩
    · exact absurd hpid hne
    · exact ⟨⟨o, ho, hid.symm, hkey.symm⟩, hrow⟩
    · rw [(hf q).1, (hf q).2]
      exact ⟨(h.attempts q hq).1, hok q hq (hqid.trans hid)⟩

/-- A change of the attempt rows of one object. -/
theorem Kept.updateAttempts (h : Kept s db) {objectId : Uuid} {f : AttemptRow → AttemptRow}
    {k : Table.Keeps f} (hlive : ∀ o ∈ db.objects, o.id = objectId → db.Live o.assetId)
    (hf : ∀ p ∈ db.attempts, p.objectId = objectId →
      (f p).objectId = p.objectId ∧ (f p).objectKey = p.objectKey ∧ (f p).Ok s) :
    Kept s { db with attempts := db.attempts.update (fun p => p.objectId = objectId) f k } := by
  have hkeeps : ∀ p, (f p).objectId = p.objectId := fun p => List.singleton_inj.mp (k.keys p)
  refine h.attempts_at hlive ?_ ?_
  · intro p hne
    constructor
    · intro hp
      obtain ⟨q, hq, rfl⟩ := (Table.mem_update (k := k)).mp hp
      by_cases hqid : q.objectId = objectId
      · rw [if_pos hqid, hkeeps] at hne
        exact absurd hqid hne
      · rw [if_neg hqid]
        exact hq
    · intro hp
      have := Table.mem_update_of_mem (p := fun p => p.objectId = objectId) (k := k) hp
      rwa [if_neg hne] at this
  · intro p hp hpid
    obtain ⟨q, hq, rfl⟩ := (Table.mem_update (k := k)).mp hp
    by_cases hqid : q.objectId = objectId
    · rw [if_pos hqid]
      obtain ⟨hid, hkey, hqok⟩ := hf q hq hqid
      rw [hid, hkey]
      exact ⟨(h.attempts q hq).1, hqok⟩
    · rw [if_neg hqid] at hpid
      exact absurd hpid hqid

/-- Acknowledged objects change, of assets that are not DELETED. -/
theorem Kept.updateObject (h : Kept s db) (objectId : Uuid) {f : ObjectRow → ObjectRow}
    {k : Table.Keeps f} (hf : ∀ o, (f o).id = o.id ∧ (f o).assetId = o.assetId ∧
      (f o).objectKey = o.objectKey)
    (hack : s.writers objectId = .acknowledged)
    (hlive : ∀ o ∈ db.objects, o.id = objectId → db.Live o.assetId) :
    Kept s (db.updateObject objectId f k) ∧ Grows db (db.updateObject objectId f k) := by
  have hheld : ∀ id key, db.Held id key → (db.updateObject objectId f k).Held id key := by
    rintro id key ⟨o, ho, hid, hkey⟩
    refine ⟨_, Table.mem_update_of_mem (k := k) ho, ?_⟩
    split
    · exact ⟨(hf o).1.trans hid, (hf o).2.2.trans hkey⟩
    · exact ⟨hid, hkey⟩
  refine ⟨⟨?_, ?_, ?_, ?_⟩, hheld, Nat.le_refl _⟩
  · intro o' ho'
    obtain ⟨o, ho, rfl⟩ := (Table.mem_update (k := k)).mp ho'
    split
    · rw [(hf o).2.1, (hf o).2.2]
      exact h.keyed o ho
    · exact h.keyed o ho
  · intro o' ho' hstate
    obtain ⟨o, ho, rfl⟩ := (Table.mem_update (k := k)).mp ho'
    by_cases hid : o.id = objectId
    · rw [if_pos hid, (hf o).1, hid]
      exact hack
    · rw [if_neg hid] at hstate ⊢
      exact h.written o ho hstate
  · intro p hp
    exact ⟨hheld _ _ (h.attempts p hp).1, (h.attempts p hp).2⟩
  · intro a ha hdeleted o' ho' hasset
    obtain ⟨o, ho, rfl⟩ := (Table.mem_update (k := k)).mp ho'
    by_cases hid : o.id = objectId
    · rw [if_pos hid, (hf o).2.1] at hasset
      exact absurd hdeleted (hlive o ho hid a ha hasset.symm)
    · rw [if_neg hid] at hasset ⊢
      exact h.deleted a ha hdeleted o ho hasset

/-- A new object, of an asset that is not DELETED. -/
theorem allocate_ok {objectId assetId attemptId : Uuid} {variant : Variant} (h : Kept s db)
    (hlive : db.Live assetId) (hok : db.allocate objectId assetId attemptId variant = .ok db') :
    Kept s db' ∧ Grows db db' ∧ db'.assets = db.assets := by
  simp only [Db.allocate, bind_ok, require_ok] at hok
  obtain ⟨objects, hins, hdb⟩ := hok
  rw [pure_ok] at hdb
  subst hdb
  have hheld : ∀ id key, db.Held id key → { db with objects := objects }.Held id key := by
    rintro id key ⟨o, ho, hrest⟩
    exact ⟨o, (Table.mem_insert hins).mpr (.inl ho), hrest⟩
  refine ⟨⟨?_, ?_, ?_, ?_⟩, ⟨hheld, Nat.le_refl _⟩, rfl⟩
  · intro o ho
    rcases (Table.mem_insert hins).mp ho with ho | rfl
    · exact h.keyed o ho
    · rfl
  · intro o ho hstate
    rcases (Table.mem_insert hins).mp ho with ho | rfl
    · exact h.written o ho hstate
    · exact absurd rfl hstate
  · intro p hp
    exact ⟨hheld _ _ (h.attempts p hp).1, (h.attempts p hp).2⟩
  · intro a ha hdeleted o ho hasset
    rcases (Table.mem_insert hins).mp ho with ho | rfl
    · exact h.deleted a ha hdeleted o ho hasset
    · exact absurd hdeleted (hlive a ha hasset.symm)

/-- Evidence is set for an object whose writer has acknowledged. -/
theorem dbFinishObject_ok {objectId assetId : Uuid} {state : ObjectState} {bytes : Nat}
    {sha256 : String} {e : MediaError} (h : Kept s db)
    (hack : s.writers objectId = .acknowledged)
    (hok : db.finishObject objectId assetId state bytes sha256 e = .ok db') :
    Kept s db' ∧ Grows db db' ∧ db'.assets = db.assets := by
  simp only [Db.finishObject, bind_ok, require_ok, ensure_ok] at hok
  obtain ⟨o, hfind, -, ⟨-, hstate⟩, hdb⟩ := hok
  rw [pure_ok] at hdb
  subst hdb
  have ho := Table.mem_of_find? hfind
  have hid : o.id = objectId := Table.holds_of_find? (p := fun o : ObjectRow => o.id = objectId) hfind
  have hlive : ∀ r ∈ db.objects, r.id = objectId → db.Live r.assetId := by
    intro r hr hrid
    rw [object_eq hr ho (hrid.trans hid.symm)]
    refine h.live_of_open ho (.inl ?_)
    rw [hstate]
    exact ObjectState.noConfusion
  obtain ⟨hkept, hgrows⟩ := h.updateObject _
    (f := fun o => { o with state := state, byteLength := some bytes, sha256 := some sha256 })
    (k := ⟨fun _ => rfl⟩) (fun _ => ⟨rfl, rfl, rfl⟩) hack hlive
  exact ⟨hkept, hgrows, rfl⟩

/-! ## Writers -/

theorem reserveMedia_ok {assetId : Uuid} {reservation : Nat} (h : Kept s db)
    (hok : reserveMedia db assetId reservation = .ok db') : Kept s db' ∧ Grows db db' := by
  simp only [reserveMedia, bind_ok, require_ok, ensure_ok] at hok
  obtain ⟨-, -, assets, hins, hdb⟩ := hok
  rw [pure_ok] at hdb
  subst hdb
  refine ⟨h.insertAsset hins AssetState.noConfusion, fun _ _ hheld => hheld, ?_⟩
  exact Nat.le_add_right _ _

theorem beginUpload_ok {assetId token objectId : Uuid} (h : Kept s db)
    (hok : beginUpload db assetId token objectId = .ok db') : Kept s db' ∧ Grows db db' := by
  simp only [beginUpload, bind_ok, ensure_ok] at hok
  obtain ⟨a, ha, -, -, -, hstate, hok⟩ := hok
  have hlive : db.Live assetId := by
    refine live_of_asset ha ?_
    rw [hstate]
    exact AssetState.noConfusion
  obtain ⟨hkept, hgrows, -⟩ := allocate_ok (h.updateAsset assetId (by exact fun _ h => (by cases h)))
    (hlive.updateAsset assetId (by exact fun _ h => (by cases h))) hok
  exact ⟨hkept, hgrows.held, hgrows.budget⟩

theorem finishUpload_ok {assetId token objectId : Uuid} {bytes : Nat} {sha256 : String}
    (h : Kept s db) (hack : s.writers objectId = .acknowledged)
    (hok : finishUpload db assetId token objectId bytes sha256 = .ok db') :
    Kept s db' ∧ Grows db db' := by
  simp only [finishUpload, bind_ok, ensure_ok] at hok
  obtain ⟨a, -, -, -, -, -, db₁, hfinish, hdb⟩ := hok
  rw [pure_ok] at hdb
  subst hdb
  obtain ⟨hkept, hgrows, -⟩ := dbFinishObject_ok h hack hfinish
  exact ⟨hkept.updateAsset assetId fun _ h => (by cases h), hgrows.held, hgrows.budget⟩

theorem prepareMedia_ok {assetId objectId attempt : Uuid} {poster : Option Uuid} {extra : Nat}
    {held : Bool} (h : Kept s db)
    (hok : prepareMedia db assetId objectId attempt poster extra held = .ok db') :
    Kept s db' ∧ Grows db db' := by
  simp only [prepareMedia, bind_ok, ensure_ok] at hok
  obtain ⟨a, ha, -, ⟨-, hstate⟩, -, -, db₁, hfirst, hok⟩ := hok
  have hlive : db.Live assetId := by
    refine live_of_asset ha ?_
    rw [hstate]
    exact AssetState.noConfusion
  -- the reservation of a retry, and the asset's share of it
  have hcharged : ∀ budget, Kept s { db with budget := budget } := fun _ =>
    h.of_assets rfl rfl fun a ha hdeleted => ⟨a, ha, rfl, hdeleted⟩
  obtain ⟨hkept₁, hgrows₁, hassets₁⟩ := allocate_ok
    ((hcharged _).updateAsset assetId (by exact fun _ h => h))
    (Db.Live.updateAsset (by exact hlive) assetId (by exact fun _ h => h)) hfirst
  have hgrows : Grows db db₁ :=
    ⟨hgrows₁.held, Nat.le_trans (Nat.le_add_right _ _) hgrows₁.budget⟩
  cases poster with
  | none =>
    simp only [pure_bind, bind_ok, ensure_ok] at hok
    obtain ⟨-, -, hdb⟩ := hok
    rw [pure_ok] at hdb
    subst hdb
    exact ⟨hkept₁, hgrows⟩
  | some posterId =>
    simp only [bind_ok, ensure_ok] at hok
    obtain ⟨db₂, hposter, -, -, hdb⟩ := hok
    rw [pure_ok] at hdb
    subst hdb
    obtain ⟨hkept₂, hgrows₂, -⟩ := allocate_ok hkept₁ (by
      unfold Db.Live
      rw [hassets₁]
      exact Db.Live.updateAsset (by exact hlive) assetId fun _ h => h) hposter
    exact ⟨hkept₂, hgrows.trans hgrows₂⟩

theorem finalizeMedia_ok {assetId : Uuid} {output : Output} {poster : Option Output}
    {held : Bool} (h : Kept s db)
    (hack : s.Finished (output.objectId :: (poster.map Output.objectId).toList))
    (hok : finalizeMedia db assetId output poster held = .ok db') :
    Kept s db' ∧ Grows db db' := by
  simp only [finalizeMedia, bind_ok, ensure_ok] at hok
  obtain ⟨a, -, -, -, db₁, hfirst, hok⟩ := hok
  obtain ⟨hkept₁, hgrows₁, -⟩ := dbFinishObject_ok h (hack _ List.mem_cons_self) hfirst
  cases poster with
  | none =>
    simp only [pure_bind, bind_ok, ensure_ok] at hok
    obtain ⟨-, -, hdb⟩ := hok
    rw [pure_ok] at hdb
    subst hdb
    exact ⟨hkept₁.updateAsset assetId fun _ h => (by cases h), hgrows₁.held, hgrows₁.budget⟩
  | some poster =>
    simp only [bind_ok, ensure_ok] at hok
    obtain ⟨db₂, hposter, -, -, hdb⟩ := hok
    rw [pure_ok] at hdb
    subst hdb
    have hposterAck := hack poster.objectId (List.mem_cons_of_mem _ List.mem_cons_self)
    obtain ⟨hkept₂, hgrows₂, -⟩ := dbFinishObject_ok hkept₁ hposterAck hposter
    have hgrows := hgrows₁.trans hgrows₂
    exact ⟨hkept₂.updateAsset assetId fun _ h => (by cases h), hgrows.held, hgrows.budget⟩

theorem allocateCopy_ok {destinationId objectId attemptId : Uuid} {bytes : Nat} (h : Kept s db)
    (hok : allocateCopy db destinationId objectId attemptId bytes = .ok db') :
    Kept s db' ∧ Grows db db' := by
  simp only [allocateCopy, bind_ok, ensure_ok, require_ok] at hok
  obtain ⟨-, -, assets, hins, hok⟩ := hok
  obtain ⟨hkept, hgrows, -⟩ := allocate_ok (h.insertAsset hins AssetState.noConfusion) (by
    intro b hb hid hdeleted
    rcases (Table.mem_insert hins).mp hb with hb | rfl
    · exact Table.fresh_of_insert hins hb
        ⟨b.id, by simp [Row.keys], by simp [Row.keys, hid]⟩
    · exact AssetState.noConfusion hdeleted) hok
  exact ⟨hkept, hgrows.held, Nat.le_trans (Nat.le_add_right _ _) hgrows.budget⟩

theorem readyCopy_ok {output : Output} {destinationId : Uuid} (h : Kept s db)
    (hack : s.writers output.objectId = .acknowledged)
    (hok : readyCopy db output destinationId = .ok db') : Kept s db' ∧ Grows db db' := by
  simp only [readyCopy, bind_ok, ensure_ok] at hok
  obtain ⟨a, -, -, -, hok⟩ := hok
  obtain ⟨hkept, hgrows, -⟩ := dbFinishObject_ok
    (h.updateAsset destinationId (by exact fun _ h => (by cases h))) hack hok
  exact ⟨hkept, hgrows.held, hgrows.budget⟩

theorem block_ok (assetId : Uuid) (now : Time) (h : Kept s db) :
    Kept s (block db assetId now) ∧ Grows db (block db assetId now) :=
  ⟨h.updateAsset assetId fun _ h => (by cases h), fun _ _ hheld => hheld, Nat.le_refl _⟩

/-- A DELETED asset is to be cleaned again. -/
theorem Kept.reopen (h : Kept s db) (assetId : Uuid) (checkpoints : Table CheckpointRow) :
    ∃ assets, assets = db.assets.update (fun a => a.id = assetId ∧ a.state = .deleted)
        (fun a => { a with state := .deleting }) ∧
      Kept s { db with assets := assets, checkpoints := checkpoints } ∧
      { db with assets := assets, checkpoints := checkpoints }.Live assetId := by
  have hopened : ∀ b ∈ db.assets.update (fun a => a.id = assetId ∧ a.state = .deleted)
      (fun a => { a with state := .deleting }), b.state = .deleted →
        b ∈ db.assets ∧ b.id ≠ assetId := by
    intro b' hb' hdeleted
    obtain ⟨b, hb, rfl⟩ := Table.mem_update.mp hb'
    split at hdeleted
    · cases hdeleted
    · rename_i hne
      rw [if_neg hne]
      exact ⟨hb, fun heq => hne ⟨heq, hdeleted⟩⟩
  refine ⟨_, rfl, h.of_assets rfl rfl ?_, ?_⟩
  · intro b hb hdeleted
    exact ⟨b, (hopened b hb hdeleted).1, rfl, hdeleted⟩
  · intro b hb hbid hdeleted
    exact (hopened b hb hdeleted).2 hbid

/-- The proof of a PUT, which asks for a new DELETE. -/
theorem Kept.proven (h : Kept s db) {o : ObjectRow} (ho : o ∈ db.objects)
    (hlive : db.Live o.assetId) (hack : s.writers o.id = .acknowledged) {row : AttemptRow}
    (hid : row.objectId = o.id) (hkey : row.objectKey = o.objectKey)
    (hnone : row.deleteObservedAt = none) :
    Kept s (db.upsertAttempt row fun p =>
      { p with writerAcknowledged := true, deleteObservedAt := none }) := by
  refine (h.upsertAttempt
    (f := fun p => { p with writerAcknowledged := true, deleteObservedAt := none })
    ho hlive hid hkey ⟨?_, ?_⟩ (fun _ => ⟨rfl, rfl⟩) ?_).1
  · intro _
    rw [hid]
    exact hack
  · intro hsome
    exact absurd hnone hsome
  · intro p _ hp
    refine ⟨fun _ => ?_, fun hsome => absurd rfl hsome⟩
    show s.writers p.objectId = .acknowledged
    rw [hp]
    exact hack

/-- The acknowledgement of a PUT: the asset is not DELETED after it. -/
theorem acknowledge_ok {assetId objectId : Uuid} {key : ObjectKey} (h : Kept s db)
    (hack : s.writers objectId = .acknowledged)
    (hok : acknowledge db assetId objectId key = .ok db') : Kept s db' ∧ Grows db db' := by
  simp only [acknowledge, bind_ok, require_ok, ensure_ok] at hok
  obtain ⟨a, ha, o, hfind, -, hkey, -, -, hdb⟩ := hok
  rw [pure_ok] at hdb
  have ho := Table.mem_of_find? hfind
  obtain ⟨rfl, rfl⟩ : o.assetId = assetId ∧ o.id = objectId :=
    Table.holds_of_find? (p := fun o : ObjectRow => o.assetId = assetId ∧ o.id = objectId) hfind
  split at hdb
  · obtain ⟨assets, rfl, h₁, hlive⟩ := h.reopen o.assetId
      ((db.checkpoints.insert { assetId := o.assetId }).getD db.checkpoints)
    subst hdb
    exact ⟨h₁.proven ho hlive hack rfl hkey.symm rfl, fun _ _ hheld => hheld, Nat.le_refl _⟩
  · rename_i hstate
    subst hdb
    exact ⟨h.proven ho (live_of_asset ha hstate) hack rfl hkey.symm rfl,
      fun _ _ hheld => hheld, Nat.le_refl _⟩

/-! ## Cleanup -/

/-- What a planned object says is so. -/
structure CleanupObject.Ok (x : CleanupObject) (s : Sys) (db : Db) : Prop where
  held : db.Held x.id x.objectKey
  acknowledged : acknowledgedWrite x → s.writers x.id = .acknowledged

theorem planObject_ok {o : ObjectRow} (h : Kept s db) (ho : o ∈ db.objects)
    (hlive : db.Live o.assetId) (hok : planObject db o = .ok db') :
    Kept s db' ∧ db'.objects = db.objects ∧ db'.assets = db.assets ∧ db'.budget = db.budget := by
  simp only [planObject, bind_ok] at hok
  obtain ⟨-, -, hdb⟩ := hok
  rw [pure_ok] at hdb
  have hevidence : decide (acknowledgedWrite (db.cleanupObject o)) = true →
      s.writers o.id = .acknowledged := fun hack => h.evidence ho (of_decide_eq_true hack)
  have hwrite := h.upsertAttempt ho hlive (k := ⟨fun _ => rfl⟩)
    (r := { objectId := o.id, assetId := o.assetId, attemptId := o.attemptId,
            objectKey := o.objectKey,
            writerAcknowledged := decide (acknowledgedWrite (db.cleanupObject o)) })
    (f := fun p =>
      { p with writerAcknowledged := decide (acknowledgedWrite (db.cleanupObject o)) })
    rfl rfl ⟨hevidence, fun hnone => absurd rfl hnone⟩ (fun _ => ⟨rfl, rfl⟩)
    fun p hp hid => ⟨fun hack => hid ▸ hevidence hack, (h.attempts p hp).2.shut⟩
  subst hdb
  exact ⟨hwrite.1, rfl, rfl, rfl⟩

theorem planObjects_ok {page : List ObjectRow} (h : Kept s db)
    (hpage : ∀ o ∈ page, o ∈ db.objects ∧ db.Live o.assetId)
    (hok : page.foldlM planObject db = .ok db') :
    Kept s db' ∧ db'.objects = db.objects ∧ db'.budget = db.budget := by
  induction page generalizing db with
  | nil =>
    rw [List.foldlM_nil, pure_ok] at hok
    subst hok
    exact ⟨h, rfl, rfl⟩
  | cons o page ih =>
    simp only [List.foldlM_cons, bind_ok] at hok
    obtain ⟨db₁, hfirst, hrest⟩ := hok
    obtain ⟨ho, hlive⟩ := hpage o List.mem_cons_self
    obtain ⟨h₁, hobjects, hassets, hbudget⟩ := planObject_ok h ho hlive hfirst
    obtain ⟨h₂, hobjects₂, hbudget₂⟩ := ih h₁ (by
      intro r hr
      unfold Db.Live
      rw [hobjects, hassets]
      exact hpage r (List.mem_cons_of_mem _ hr)) hrest
    exact ⟨h₂, hobjects₂.trans hobjects, hbudget₂.trans hbudget⟩

theorem planCleanup_ok {assetId : Uuid} {held : Bool} {page : List CleanupObject}
    (h : Kept s db) (hok : planCleanup db assetId held = .ok (db', page)) :
    Kept s db' ∧ Grows db db' ∧ ∀ x ∈ page, x.Ok s db' := by
  simp only [planCleanup, bind_ok, ensure_ok] at hok
  obtain ⟨a, ha, -, hstate, db₁, hplan, -, -, hdb⟩ := hok
  rw [pure_ok, Prod.mk.injEq] at hdb
  obtain ⟨rfl, rfl⟩ := hdb
  have hlive : db.Live assetId := by
    refine live_of_asset ha ?_
    rw [hstate]
    exact AssetState.noConfusion
  have hcheckpoints : ∀ checkpoints, Kept s { db with checkpoints := checkpoints } := fun _ =>
    h.of_assets rfl rfl fun a ha hdeleted => ⟨a, ha, rfl, hdeleted⟩
  have hmem : ∀ {checkpoints cursor o},
      o ∈ { db with checkpoints := checkpoints }.page assetId cursor →
        o ∈ db.objects ∧ o.assetId = assetId := by
    intro checkpoints cursor o ho
    have ho := List.mem_of_mem_take ho
    rw [List.mem_insertionSort] at ho
    obtain ⟨ho, hasset, -⟩ := Table.mem_select.mp ho
    exact ⟨ho, hasset⟩
  obtain ⟨hkept, hobjects, hbudget⟩ := planObjects_ok (hcheckpoints _) (by
    intro o ho
    obtain ⟨ho, hasset⟩ := hmem ho
    refine ⟨ho, ?_⟩
    rw [hasset]
    exact hlive) hplan
  have hheld : ∀ id key, db.Held id key → db₁.Held id key := by
    rintro id key ⟨o, ho, hrest⟩
    refine ⟨o, ?_, hrest⟩
    rw [hobjects]
    exact ho
  refine ⟨hkept, ⟨hheld, Nat.le_of_eq hbudget.symm⟩, ?_⟩
  intro x hx
  obtain ⟨o, ho, rfl⟩ := List.mem_map.mp hx
  obtain ⟨ho, -⟩ := hmem ho
  exact ⟨hheld _ _ ⟨o, ho, rfl, rfl⟩, h.evidence ho⟩

/-- Only what was planned as acknowledged, and is shut by now, is closed. -/
theorem finishObject_ok {assetId : Uuid} {now : Time} {planned : CleanupObject} (h : Kept s db)
    (hlive : db.Live assetId)
    (hshut : acknowledgedWrite planned → Shut s planned.id planned.objectKey)
    (hok : finishObject assetId now db planned = .ok db') :
    Kept s db' ∧ Grows db db' ∧ db'.assets = db.assets ∧ db'.budget = db.budget := by
  simp only [finishObject, bind_ok, require_ok, ensure_ok] at hok
  obtain ⟨o, hfind, -, hkey, -, -, hdb⟩ := hok
  have ho := Table.mem_of_find? hfind
  obtain ⟨hasset, hid⟩ : o.assetId = assetId ∧ o.id = planned.id :=
    Table.holds_of_find? (p := fun o : ObjectRow => o.assetId = assetId ∧ o.id = planned.id) hfind
  have hsame : ∀ r ∈ db.objects, r.id = o.id → db.Live r.assetId := by
    intro r hr hrid
    rw [object_eq hr ho hrid, hasset]
    exact hlive
  have hevidence : acknowledgedWrite (db.cleanupObject o) → s.writers o.id = .acknowledged :=
    h.evidence ho
  have hattempts : ∀ observed : Option Time, (observed ≠ none → acknowledgedWrite planned) →
      Kept s { db with
        attempts := db.attempts.update (fun p => p.objectId = o.id) fun p =>
          { p with
            writerAcknowledged := decide (acknowledgedWrite (db.cleanupObject o))
            deleteObservedAt := observed } } := by
    intro observed hplanned
    refine h.updateAttempts
      (f := fun p =>
        { p with
          writerAcknowledged := decide (acknowledgedWrite (db.cleanupObject o))
          deleteObservedAt := observed })
      hsame fun p hp hpid => ⟨rfl, rfl, fun hack => ?_, fun hobserved => ?_⟩
    · show s.writers p.objectId = .acknowledged
      rw [hpid]
      exact hevidence (of_decide_eq_true hack)
    · show Shut s p.objectId p.objectKey
      rw [hpid, ← (h.attempts p hp).1.key_eq ho hpid.symm, hid, hkey]
      exact hshut (hplanned hobserved)
  split at hdb
  · rename_i hclosed
    rw [pure_ok] at hdb
    subst hdb
    obtain ⟨hkept, hgrows⟩ := (hattempts (some now) fun _ => hclosed.2).updateObject o.id
      (f := fun o => { o with state := .deleted }) (k := ⟨fun _ => rfl⟩)
      (fun _ => ⟨rfl, rfl, rfl⟩) (hevidence (of_decide_eq_true hclosed.1)) hsame
    exact ⟨hkept, ⟨hgrows.held, hgrows.budget⟩, rfl, rfl⟩
  · rw [pure_ok] at hdb
    subst hdb
    exact ⟨hattempts none fun hsome => absurd rfl hsome,
      ⟨fun _ _ hheld => hheld, Nat.le_refl _⟩, rfl, rfl⟩

theorem finishObjects_ok {assetId : Uuid} {now : Time} {page : List CleanupObject}
    (h : Kept s db) (hlive : db.Live assetId)
    (hshut : ∀ x ∈ page, acknowledgedWrite x → Shut s x.id x.objectKey)
    (hok : page.foldlM (finishObject assetId now) db = .ok db') :
    Kept s db' ∧ Grows db db' ∧ db'.assets = db.assets ∧ db'.budget = db.budget := by
  induction page generalizing db with
  | nil =>
    rw [List.foldlM_nil, pure_ok] at hok
    subst hok
    exact ⟨h, Grows.refl db, rfl, rfl⟩
  | cons x page ih =>
    simp only [List.foldlM_cons, bind_ok] at hok
    obtain ⟨db₁, hfirst, hrest⟩ := hok
    obtain ⟨h₁, hgrows₁, hassets₁, hbudget₁⟩ :=
      finishObject_ok h hlive (hshut x List.mem_cons_self) hfirst
    obtain ⟨h₂, hgrows₂, hassets₂, hbudget₂⟩ := ih h₁ (by
      unfold Db.Live
      rw [hassets₁]
      exact hlive) (fun y hy => hshut y (List.mem_cons_of_mem _ hy)) hrest
    exact ⟨h₂, hgrows₁.trans hgrows₂, hassets₂.trans hassets₁, hbudget₂.trans hbudget₁⟩

/-- A refund is that of an asset now DELETED. -/
def Refunded (db db' : Db) : Prop :=
  ∃ a ∈ db.assets, a.state = .deleting ∧ db.budget = db'.budget + a.reservedBytes ∧
    ∃ a' ∈ db'.assets, a'.id = a.id ∧ a'.state = .deleted ∧ a'.reservedBytes = 0

theorem finishCleanup_ok {assetId : Uuid} {page : List CleanupObject} {now : Time}
    {held : Bool} (h : Kept s db)
    (hshut : ∀ x ∈ page, acknowledgedWrite x → Shut s x.id x.objectKey)
    (hok : finishCleanup db assetId page now held = .ok db') :
    Kept s db' ∧ (∀ objectId key, db.Held objectId key → db'.Held objectId key) ∧
      (db.budget ≤ db'.budget ∨ Refunded db db') := by
  simp only [finishCleanup, bind_ok, ensure_ok] at hok
  obtain ⟨a, ha, -, hstate, db₁, hfold, hok⟩ := hok
  have hlive : db.Live assetId := by
    refine live_of_asset ha ?_
    rw [hstate]
    exact AssetState.noConfusion
  obtain ⟨h₁, hgrows, hassets, hbudget⟩ := finishObjects_ok h hlive hshut hfold
  split at hok
  · -- some object is open: the asset stays DELETING
    simp only [bind_ok, ensure_ok] at hok
    obtain ⟨-, -, hdb⟩ := hok
    rw [pure_ok] at hdb
    subst hdb
    refine ⟨h₁.of_assets rfl rfl ?_, hgrows.held, .inl hgrows.budget⟩
    exact fun a ha hdeleted => ⟨a, ha, rfl, hdeleted⟩
  · rename_i hclosed
    simp only [bind_ok, ensure_ok] at hok
    obtain ⟨-, hle, -, -, hdb⟩ := hok
    rw [pure_ok] at hdb
    subst hdb
    obtain ⟨hmem, hid, huniq⟩ := asset_ok ha
    refine ⟨⟨h₁.keyed, h₁.written, h₁.attempts, ?_⟩, hgrows.held, .inr ?_⟩
    · intro b' hb' hdeleted o ho hasset hopen
      obtain ⟨b, hb, rfl⟩ := mem_updateAsset.mp hb'
      by_cases hbid : b.id = assetId
      · -- the asset that is closed now has no open object
        rw [if_pos hbid] at hasset
        exact hclosed ⟨o, ho, hasset.trans hbid, hopen⟩
      · rw [if_neg hbid] at hdeleted hasset
        exact h₁.deleted b hb hdeleted o ho hasset hopen
    · refine ⟨a, hmem, hstate, ?_, _, mem_updateAsset.mpr ⟨a, ?_, (if_pos hid).symm⟩, rfl, rfl, rfl⟩
      · show db.budget = db₁.budget - a.reservedBytes + a.reservedBytes
        rw [hbudget] at hle ⊢
        omega
      · show a ∈ db₁.assets
        rw [hassets]
        exact hmem

/-! ## Every order of steps -/

/-- What a cleanup carries between its transactions is so. -/
structure Cleanup.Ok (c : Cleanup) (s : Sys) (db : Db) : Prop where
  removed : ∀ x ∈ c.removed, x.Ok s db ∧ (acknowledgedWrite x → Shut s x.id x.objectKey)
  rest : ∀ x ∈ c.rest, x.Ok s db

/-- The invariant: the rows, the store and the log agree. -/
structure Inv (s : Sys) : Prop where
  kept : Kept s s.db
  /-- Every key in the store has its row. -/
  recorded : ∀ key, s.store key = true → ∃ objectId, s.db.Held objectId key
  acknowledged : ∀ objectId, s.writers objectId = .acknowledged →
    Event.acknowledged objectId ∈ s.log
  cleanups : ∀ worker c, s.cleanups worker = some c → c.Ok s s.db

/-- What a step of a writer or of the store leaves. -/
structure Settles (s t : Sys) (db : Db) : Prop where
  acknowledged : ∀ objectId, s.writers objectId = .acknowledged →
    t.writers objectId = .acknowledged
  shut : ∀ objectId key, db.Held objectId key → Shut s objectId key → Shut t objectId key

/-- A step that neither writers nor the store take part in. -/
theorem Settles.refl (s : Sys) (db db' : Db) {cleanups : Nat → Option Cleanup} :
    Settles s { s with db := db', cleanups := cleanups } db :=
  ⟨fun _ h => h, fun _ _ _ h => ⟨h.acknowledged, h.gone, h.erased⟩⟩

theorem Erased.cons {log : List Event} {objectId : Uuid} {key : ObjectKey}
    (h : Erased log objectId key) {e : Event} (he : e ≠ .acknowledged objectId) :
    Erased (e :: log) objectId key := by
  obtain ⟨newer, older, rfl, holder, hnewer⟩ := h
  refine ⟨e :: newer, older, rfl, holder, ?_⟩
  rw [List.mem_cons, not_or]
  exact ⟨he.symm, hnewer⟩

/-- A DELETE leaves nothing in the store that was not there. -/
theorem stored_of_removed {store : ObjectKey → Bool} {removed key : ObjectKey}
    (h : Function.update store removed false key = true) : store key = true := by
  by_cases heq : key = removed
  · subst heq
    rw [Function.update_self] at h
    cases h
  · rwa [Function.update_of_ne heq] at h

theorem Shut.gone_removed {objectId : Uuid} {key : ObjectKey} (h : Shut s objectId key)
    (removed : ObjectKey) : Function.update s.store removed false key = false := by
  rw [← Bool.not_eq_true]
  intro hkey
  have hstored := stored_of_removed hkey
  rw [h.gone] at hstored
  cases hstored

theorem Kept.settles (h : Kept s db) (hst : Settles s t db) : Kept t db := by
  refine ⟨h.keyed, fun o ho hstate => hst.acknowledged _ (h.written o ho hstate), ?_, h.deleted⟩
  intro p hp
  obtain ⟨hheld, hok⟩ := h.attempts p hp
  refine ⟨hheld, fun hack => hst.acknowledged _ (hok.acknowledged hack), ?_⟩
  intro hobserved
  exact hst.shut _ _ hheld (hok.shut hobserved)

theorem CleanupObject.Ok.settles {x : CleanupObject} (h : x.Ok s db) (hst : Settles s t db) :
    x.Ok t db :=
  ⟨h.held, fun hack => hst.acknowledged _ (h.acknowledged hack)⟩

theorem Cleanup.Ok.settles {c : Cleanup} (h : c.Ok s db) (hst : Settles s t db) : c.Ok t db := by
  refine ⟨?_, fun x hx => (h.rest x hx).settles hst⟩
  intro x hx
  obtain ⟨hok, hshut⟩ := h.removed x hx
  exact ⟨hok.settles hst, fun hack => hst.shut _ _ hok.held (hshut hack)⟩

theorem Cleanup.Ok.held {c : Cleanup} (h : c.Ok s db)
    (hheld : ∀ objectId key, db.Held objectId key → db'.Held objectId key) : c.Ok s db' := by
  refine ⟨fun x hx => ⟨⟨hheld _ _ (h.removed x hx).1.held, (h.removed x hx).1.acknowledged⟩,
    (h.removed x hx).2⟩, fun x hx => ⟨hheld _ _ (h.rest x hx).held, (h.rest x hx).acknowledged⟩⟩

/-- What a step has to keep. -/
theorem Inv.after (h : Inv s) (hst : Settles s t s.db) (hkept : Kept t t.db)
    (hheld : ∀ objectId key, s.db.Held objectId key → t.db.Held objectId key)
    (hrecorded : ∀ key, t.store key = true →
      s.store key = true ∨ ∃ objectId, t.db.Held objectId key)
    (hack : ∀ objectId, t.writers objectId = .acknowledged →
      Event.acknowledged objectId ∈ t.log)
    (hcleanups : ∀ worker c, t.cleanups worker = some c →
      s.cleanups worker = some c ∨ c.Ok t t.db) : Inv t := by
  refine ⟨hkept, ?_, hack, ?_⟩
  · intro key hkey
    rcases hrecorded key hkey with hold | hnew
    · obtain ⟨objectId, hold⟩ := h.recorded key hold
      exact ⟨objectId, hheld _ _ hold⟩
    · exact hnew
  · intro worker c hc
    rcases hcleanups worker c hc with hold | hnew
    · exact ((h.cleanups worker c hold).settles hst).held hheld
    · exact hnew

/-- A transaction of a writer. -/
theorem Inv.write (h : Inv s) {db' : Db} (hwrite : Kept s db' ∧ Grows s.db db') :
    Inv { s with db := db' } :=
  h.after (Settles.refl s s.db db') (hwrite.1.settles (Settles.refl s db' db')) hwrite.2.held
    (fun _ hkey => .inl hkey) h.acknowledged fun _ _ hc => .inl hc

theorem commit_eq {result : Except MediaError Db} (h : s.commit result = some t) :
    ∃ db', result = .ok db' ∧ t = { s with db := db' } := by
  cases result with
  | error e => cases h
  | ok db' => exact ⟨db', rfl, (Option.some.inj h).symm⟩

/-- A PUT lands only before its acknowledgement, and under no other object's key. -/
theorem put_step {objectId : Uuid} (h : Inv s) (hstep : exec (.put objectId) s = some t) :
    Inv t ∧ t.db = s.db := by
  rw [exec] at hstep
  split at hstep
  · rename_i o hfind hwriter
    cases hstep
    have ho := Table.mem_of_find? hfind
    have hid : o.id = objectId := Table.holds_of_find? (p := fun o : ObjectRow => o.id = objectId) hfind
    have hother : ∀ id, s.writers id = .acknowledged → id ≠ objectId := by
      rintro id hack rfl
      rw [hwriter] at hack
      cases hack
    have hst : Settles s
        { s with
          store := Function.update s.store o.objectKey true
          writers := Function.update s.writers objectId .landed } s.db := by
      refine ⟨fun id hack => ?_, fun id key hheld hshut => ⟨?_, ?_, hshut.erased⟩⟩
      · exact (Function.update_of_ne (hother id hack) _ _).trans hack
      · exact (Function.update_of_ne (hother id hshut.acknowledged) _ _).trans hshut.acknowledged
      · refine (Function.update_of_ne ?_ _ _).trans hshut.gone
        rintro rfl
        exact hother id hshut.acknowledged ((hheld.id_eq ho rfl).symm.trans hid)
    refine ⟨h.after hst (h.kept.settles hst) (fun _ _ hheld => hheld) ?_ ?_
      (fun _ _ hc => .inl hc), rfl⟩
    · intro key hkey
      by_cases heq : key = o.objectKey
      · exact .inr ⟨objectId, o, ho, hid, heq.symm⟩
      · exact .inl ((Function.update_of_ne heq _ _).symm.trans hkey)
    · intro id hack
      by_cases heq : id = objectId
      · subst heq
        have hack : Function.update s.writers id .landed id = Writer.acknowledged := hack
        rw [Function.update_self] at hack
        cases hack
      · exact h.acknowledged id ((Function.update_of_ne heq _ _).symm.trans hack)
  · cases hstep

/-- The acknowledgement is logged with the write, and no shut object's is still to come. -/
theorem acknowledge_step {objectId : Uuid} (h : Inv s)
    (hstep : exec (.acknowledge objectId) s = some t) :
    Inv t ∧ s.db.budget ≤ t.db.budget := by
  rw [exec] at hstep
  split at hstep
  · rename_i o hfind hwriter
    obtain ⟨db', hok, rfl⟩ := commit_eq hstep
    have hother : ∀ id, s.writers id = .acknowledged → id ≠ objectId := by
      rintro id hack rfl
      rw [hwriter] at hack
      cases hack
    have hst : ∀ db', Settles s
        { s with
          db := db'
          writers := Function.update s.writers objectId .acknowledged
          log := .acknowledged objectId :: s.log } s.db := by
      intro db'
      refine ⟨fun id hack => ?_, fun id key _ hshut => ⟨?_, hshut.gone, ?_⟩⟩
      · exact (Function.update_of_ne (hother id hack) _ _).trans hack
      · exact (Function.update_of_ne (hother id hshut.acknowledged) _ _).trans hshut.acknowledged
      · refine hshut.erased.cons ?_
        intro heq
        exact hother id hshut.acknowledged (Event.acknowledged.inj heq).symm
    obtain ⟨hkept, hgrows⟩ := acknowledge_ok (h.kept.settles (hst s.db))
      (Function.update_self _ _ _) hok
    refine ⟨h.after (hst db') (hkept.settles (Settles.refl _ db' db')) hgrows.held
      (fun _ hkey => .inl hkey) ?_ (fun _ _ hc => .inl hc), hgrows.budget⟩
    intro id hack
    by_cases heq : id = objectId
    · rw [heq]
      exact List.mem_cons_self
    · refine List.mem_cons_of_mem _ (h.acknowledged id ?_)
      exact (Function.update_of_ne heq _ _).symm.trans hack
  · cases hstep

/-- A worker's slot holds what was put there, or is another's. -/
theorem slot_cases {worker w : Nat} {slot : Option Cleanup} {c : Cleanup}
    (hc : Function.update s.cleanups worker slot w = some c) :
    slot = some c ∨ s.cleanups w = some c := by
  by_cases hw : w = worker
  · subst hw
    rw [Function.update_self] at hc
    exact .inl hc
  · rw [Function.update_of_ne hw] at hc
    exact .inr hc

theorem planCleanup_step {worker : Nat} {assetId : Uuid} {held : Bool} (h : Inv s)
    (hstep : exec (.planCleanup worker assetId held) s = some t) :
    Inv t ∧ s.db.budget ≤ t.db.budget := by
  rw [exec] at hstep
  split at hstep
  · rename_i db' page hfree hok
    cases hstep
    obtain ⟨hkept, hgrows, hpage⟩ := planCleanup_ok h.kept hok
    refine ⟨h.after (Settles.refl s _ _) (hkept.settles (Settles.refl s _ _)) hgrows.held
      (fun _ hkey => .inl hkey) h.acknowledged ?_, hgrows.budget⟩
    intro w c hc
    rcases slot_cases hc with hnew | hold
    · cases hnew
      refine .inr ⟨fun x hx => absurd hx List.not_mem_nil, fun x hx => ?_⟩
      exact ⟨(hpage x hx).held, (hpage x hx).acknowledged⟩
    · exact .inl hold
  · cases hstep

/-- A DELETE after the acknowledgement shuts the object. -/
theorem remove_step {worker : Nat} (h : Inv s) (hstep : exec (.remove worker) s = some t) :
    Inv t ∧ t.db = s.db := by
  rw [exec] at hstep
  split at hstep
  · rename_i assetId removed planned rest hslot
    cases hstep
    have hst : ∀ cleanups, Settles s
        { s with
          store := Function.update s.store planned.objectKey false
          cleanups := cleanups
          log := .removed planned.objectKey :: s.log } s.db :=
      fun _ => ⟨fun _ hack => hack, fun _ _ _ hshut => ⟨hshut.acknowledged,
        hshut.gone_removed planned.objectKey, hshut.erased.cons Event.noConfusion⟩⟩
    have hcleanup := h.cleanups worker _ hslot
    refine ⟨h.after (hst _) (h.kept.settles (hst _)) (fun _ _ hheld => hheld)
      (fun key hkey => .inl (stored_of_removed hkey))
      (fun id hack => List.mem_cons_of_mem _ (h.acknowledged id hack)) ?_, rfl⟩
    intro w c hc
    rcases slot_cases hc with hnew | hold
    · cases hnew
      have hcarried := hcleanup.settles (hst (Function.update s.cleanups worker
        (some ⟨assetId, removed ++ [planned], rest⟩)))
      refine .inr ⟨?_, fun x hx => hcarried.rest x (List.mem_cons_of_mem _ hx)⟩
      intro x hx
      rcases List.mem_append.mp hx with hx | hx
      · exact hcarried.removed x hx
      · rw [List.mem_singleton.mp hx]
        have hplanned := hcarried.rest planned List.mem_cons_self
        refine ⟨hplanned, fun hack => ⟨hplanned.acknowledged hack, Function.update_self _ _ _, ?_⟩⟩
        -- the acknowledgement was in the log when the object was planned
        refine ⟨[], s.log, rfl, ?_, List.not_mem_nil⟩
        exact h.acknowledged _ (hplanned.acknowledged hack)
    · exact .inl hold
  · cases hstep

theorem lateRemove_step {key : ObjectKey} (h : Inv s)
    (hstep : exec (.lateRemove key) s = some t) : Inv t ∧ t.db = s.db := by
  cases hstep
  have hst : Settles s { s with store := Function.update s.store key false } s.db :=
    ⟨fun _ hack => hack,
      fun _ _ _ hshut => ⟨hshut.acknowledged, hshut.gone_removed key, hshut.erased⟩⟩
  exact ⟨h.after hst (h.kept.settles hst) (fun _ _ hheld => hheld)
    (fun k hk => .inl (stored_of_removed hk)) h.acknowledged (fun _ _ hc => .inl hc), rfl⟩

theorem finishCleanup_step {worker : Nat} {now : Time} {held : Bool} (h : Inv s)
    (hstep : exec (.finishCleanup worker now held) s = some t) :
    Inv t ∧ (s.db.budget ≤ t.db.budget ∨ Refunded s.db t.db) := by
  rw [exec] at hstep
  split at hstep
  · rename_i assetId removed hslot
    obtain ⟨db', hok, rfl⟩ := commit_eq hstep
    have hremoved := (h.cleanups worker _ hslot).removed
    obtain ⟨hkept, hheld, hbudget⟩ :=
      finishCleanup_ok h.kept (fun x hx => (hremoved x hx).2) hok
    refine ⟨h.after (Settles.refl s _ _) (hkept.settles (Settles.refl s _ _)) hheld
      (fun _ hkey => .inl hkey) h.acknowledged ?_, hbudget⟩
    intro w c hc
    rcases slot_cases hc with hnew | hold
    · cases hnew
    · exact .inl hold
  · cases hstep

theorem abandon_step {worker : Nat} (h : Inv s) (hstep : exec (.abandon worker) s = some t) :
    Inv t ∧ t.db = s.db := by
  cases hstep
  refine ⟨h.after (Settles.refl s _ _) (h.kept.settles (Settles.refl s _ _))
    (fun _ _ hheld => hheld) (fun _ hkey => .inl hkey) h.acknowledged ?_, rfl⟩
  intro w c hc
  rcases slot_cases hc with hnew | hold
  · cases hnew
  · exact .inl hold

/-- Every step keeps the invariant, and refunds only what `Refunded` says. -/
theorem inv_step {c : Command} (h : Inv s) (hstep : exec c s = some t) :
    Inv t ∧ (s.db.budget ≤ t.db.budget ∨ Refunded s.db t.db) := by
  -- a write in one transaction, and a step that leaves the database as it is
  have hwrite : ∀ {result : Except MediaError Db}, s.commit result = some t →
      (∀ db', result = .ok db' → Kept s db' ∧ Grows s.db db') →
      Inv t ∧ (s.db.budget ≤ t.db.budget ∨ Refunded s.db t.db) := by
    intro result hcommit hok
    obtain ⟨db', hresult, rfl⟩ := commit_eq hcommit
    exact ⟨h.write (hok db' hresult), .inl (hok db' hresult).2.budget⟩
  have hlocal : Inv t ∧ t.db = s.db →
      Inv t ∧ (s.db.budget ≤ t.db.budget ∨ Refunded s.db t.db) := by
    rintro ⟨hinv, hdb⟩
    exact ⟨hinv, .inl (by rw [hdb])⟩
  cases c with
  | reserveMedia assetId reservation =>
    exact hwrite hstep fun _ hok => reserveMedia_ok h.kept hok
  | beginUpload assetId token objectId =>
    exact hwrite hstep fun _ hok => beginUpload_ok h.kept hok
  | finishUpload assetId token objectId bytes sha256 =>
    rw [exec] at hstep
    split at hstep
    · rename_i hack
      exact hwrite hstep fun _ hok =>
        finishUpload_ok h.kept (hack objectId List.mem_cons_self) hok
    · cases hstep
  | prepareMedia assetId objectId attempt poster extra held =>
    exact hwrite hstep fun _ hok => prepareMedia_ok h.kept hok
  | finalizeMedia assetId output poster held =>
    rw [exec] at hstep
    split at hstep
    · rename_i hack
      exact hwrite hstep fun _ hok => finalizeMedia_ok h.kept hack hok
    · cases hstep
  | allocateCopy destinationId objectId attemptId bytes =>
    exact hwrite hstep fun _ hok => allocateCopy_ok h.kept hok
  | readyCopy output destinationId =>
    rw [exec] at hstep
    split at hstep
    · rename_i hack
      exact hwrite hstep fun _ hok =>
        readyCopy_ok h.kept (hack output.objectId List.mem_cons_self) hok
    · cases hstep
  | block assetId now =>
    cases hstep
    exact ⟨h.write (block_ok assetId now h.kept), .inl (Nat.le_refl _)⟩
  | put objectId => exact hlocal (put_step h hstep)
  | acknowledge objectId =>
    obtain ⟨hinv, hbudget⟩ := acknowledge_step h hstep
    exact ⟨hinv, .inl hbudget⟩
  | planCleanup worker assetId held =>
    obtain ⟨hinv, hbudget⟩ := planCleanup_step h hstep
    exact ⟨hinv, .inl hbudget⟩
  | remove worker => exact hlocal (remove_step h hstep)
  | lateRemove key => exact hlocal (lateRemove_step h hstep)
  | finishCleanup worker now held => exact finishCleanup_step h hstep
  | abandon worker => exact hlocal (abandon_step h hstep)

theorem inv_reachable (h : system.Reachable s) : Inv s := by
  refine System.Reachable.induct (P := Inv) ⟨?_, ?_⟩ h
  · rintro s ⟨hassets, hobjects, hattempts, hstore, hwriters, hcleanups, hlog⟩
    refine ⟨⟨?_, ?_, ?_, ?_⟩, ?_, ?_, ?_⟩
    · intro o ho
      rw [hobjects] at ho
      exact absurd ho (Table.not_mem_empty o)
    · intro o ho
      rw [hobjects] at ho
      exact absurd ho (Table.not_mem_empty o)
    · intro p hp
      rw [hattempts] at hp
      exact absurd hp (Table.not_mem_empty p)
    · intro a ha
      rw [hassets] at ha
      exact absurd ha (Table.not_mem_empty a)
    · intro key hkey
      rw [hstore] at hkey
      cases hkey
    · intro id hack
      rw [hwriters] at hack
      cases hack
    · intro worker c hc
      rw [hcleanups] at hc
      cases hc
  · intro s t c _ hinv hstep
    exact (inv_step hinv hstep).1

/-- What a DELETED asset has behind it: each of its objects is closed, and the store has
none of its keys. -/
theorem Inv.deleted (h : Inv s) {a : AssetRow} (ha : a ∈ s.db.assets)
    (hstate : a.state = .deleted) :
    (∀ o ∈ s.db.objects, o.assetId = a.id →
      o.state = .deleted ∧ s.writers o.id = .acknowledged ∧ Erased s.log o.id o.objectKey) ∧
    ∀ key, key.assetId = a.id → s.store key = false := by
  have hshut : ∀ o ∈ s.db.objects, o.assetId = a.id →
      o.state = .deleted ∧ Shut s o.id o.objectKey := by
    intro o ho hasset
    have hclosed := h.kept.deleted a ha hstate o ho hasset
    rw [Db.Open, not_or, not_not, not_not] at hclosed
    obtain ⟨hdeleted, p, hp, hof, -, hobserved⟩ := hclosed
    refine ⟨hdeleted, ?_⟩
    rw [← hof.1, ← hof.2.2.2]
    exact (h.kept.attempts p hp).2.shut hobserved
  refine ⟨?_, ?_⟩
  · intro o ho hasset
    obtain ⟨hdeleted, hack, -, herased⟩ := hshut o ho hasset
    exact ⟨hdeleted, hack, herased⟩
  · intro key hkey
    rw [← Bool.not_eq_true]
    intro hstored
    -- what is stored has a row, and a row's key names its asset
    obtain ⟨id, o, ho, -, rfl⟩ := h.recorded key hstored
    obtain ⟨-, hgone⟩ := hshut o ho ((h.kept.keyed o ho).symm.trans hkey)
    rw [hgone.gone] at hstored
    cases hstored

/-- The checkpoint of an asset, made or found. -/
theorem checkpoint_exists (checkpoints : Table CheckpointRow) (assetId : Uuid) :
    ∃ c ∈ (checkpoints.insert { assetId := assetId }).getD checkpoints, c.assetId = assetId := by
  cases hins : checkpoints.insert { assetId := assetId } with
  | none =>
    obtain ⟨c, hc, k, hk, hk'⟩ := Table.clash_of_insert hins
    refine ⟨c, hc, ?_⟩
    exact (List.mem_singleton.mp hk).symm.trans (List.mem_singleton.mp hk')
  | some checkpoints' => exact ⟨_, (Table.mem_insert hins).mpr (.inr rfl), rfl⟩

/-- An acknowledgement for an object of a DELETED asset is taken, whatever state the
database is in, and opens the asset's cleanup again. -/
theorem acknowledge_reopens {a : AssetRow} {o : ObjectRow} (ha : a ∈ db.assets)
    (hstate : a.state = .deleted) (ho : o ∈ db.objects) (hasset : o.assetId = a.id)
    (hof : ∀ p ∈ db.attempts, p.objectId = o.id → p.Of o) :
    ∃ db', acknowledge db a.id o.id o.objectKey = .ok db' ∧ db'.budget = db.budget ∧
      { a with state := .deleting } ∈ db'.assets ∧ db'.Open o ∧
      ∃ c ∈ db'.checkpoints, c.assetId = a.id := by
  have hlock : db.asset a.id .writeProofConflict = .ok a :=
    require_ok.mpr (Table.find?_eq_some ha rfl (k := a.id) (by simp [Row.keys])
      fun b hb => by simp [Row.keys, hb])
  have hfind : db.objects.find? (fun r => r.assetId = a.id ∧ r.id = o.id) = some o :=
    Table.find?_eq_some ho ⟨hasset, rfl⟩ (k := Sum.inl o.id) (by simp [Row.keys])
      fun r hr => by simp [Row.keys, hr.2]
  have hprovenance : db.provenance o .writeProofConflict = .ok () := by
    refine ensure_pos ?_ _
    intro p hp
    exact hof p (Table.mem_of_find? hp)
      (Table.holds_of_find? (p := fun p : AttemptRow => p.objectId = o.id) hp)
  have htaken : ∃ db', acknowledge db a.id o.id o.objectKey = .ok db' := by
    rw [acknowledge, hlock, ok_bind, hfind, require_some, ok_bind, ensure_pos rfl, ok_bind,
      hprovenance, ok_bind]
    exact ⟨_, rfl⟩
  obtain ⟨db', hok⟩ := htaken
  refine ⟨db', hok, ?_⟩
  rw [acknowledge, hlock, ok_bind, hfind, require_some, ok_bind, ensure_pos rfl, ok_bind,
    hprovenance, ok_bind, pure_ok, if_pos hstate] at hok
  subst hok
  refine ⟨rfl, ?_, .inr ?_, checkpoint_exists db.checkpoints a.id⟩
  · have hmem := Table.mem_update_of_mem
      (p := fun b : AssetRow => b.id = a.id ∧ b.state = .deleted)
      (f := fun b => { b with state := .deleting }) (k := ⟨fun _ => rfl⟩) ha
    rwa [if_pos ⟨rfl, hstate⟩] at hmem
  · -- the attempt's row carries no `deleteObservedAt` now
    rintro ⟨p, hp, hpof, -, hobserved⟩
    rcases mem_upsertAttempt hp with ⟨-, hne⟩ | rfl | ⟨q, -, -, rfl⟩
    · exact hne hpof.1
    · exact hobserved rfl
    · exact hobserved rfl

/-! ## The result -/

/-- **Nothing is left behind a DELETED asset.** In every reachable state, each object of a
DELETED asset had its write acknowledged, and its bytes were removed after that; the store
holds no key of the asset. Quota comes back only with the closing of an asset that is
DELETED from then on. An acknowledgement for an object of a DELETED asset is taken in any
state of the database, and opens the asset's cleanup again. -/
theorem media_cleaned (s : Sys) (h : system.Reachable s) :
    (∀ a ∈ s.db.assets, a.state = .deleted →
      (∀ o ∈ s.db.objects, o.assetId = a.id →
        o.state = .deleted ∧ s.writers o.id = .acknowledged ∧ Erased s.log o.id o.objectKey) ∧
      ∀ key, key.assetId = a.id → s.store key = false) ∧
    (∀ c t, exec c s = some t → t.db.budget < s.db.budget → Refunded s.db t.db) ∧
    ∀ (db : Db) (a : AssetRow) (o : ObjectRow), a ∈ db.assets → a.state = .deleted →
      o ∈ db.objects → o.assetId = a.id → (∀ p ∈ db.attempts, p.objectId = o.id → p.Of o) →
      ∃ db', acknowledge db a.id o.id o.objectKey = .ok db' ∧ db'.budget = db.budget ∧
        { a with state := .deleting } ∈ db'.assets ∧ db'.Open o ∧
        ∃ c ∈ db'.checkpoints, c.assetId = a.id := by
  have hinv := inv_reachable h
  refine ⟨fun a ha hstate => hinv.deleted ha hstate, ?_, ?_⟩
  · intro c t hstep hless
    rcases (inv_step hinv hstep).2 with hle | hrefunded
    · omega
    · exact hrefunded
  · intro db a o ha hstate ho hasset hof
    exact acknowledge_reopens ha hstate ho hasset hof

/-! ## A late PUT -/

/-- The media before its first asset. -/
def start : Sys where
  db :=
    { assets := .empty, objects := .empty, attempts := .empty, checkpoints := .empty,
      budget := 0, limitBytes := 1000 }
  store _ := false
  writers _ := .allocated
  cleanups _ := none
  log := []

/-- An upload is blocked, and the first cleanup comes before its PUT lands. -/
def lateUpload : List Command :=
  [.reserveMedia 1 100, .beginUpload 1 7 2, .block 1 5, .planCleanup 0 1 true, .remove 0,
    .put 2, .finishCleanup 0 6 true, .acknowledge 2, .planCleanup 0 1 true,
    .finishCleanup 0 7 true, .planCleanup 0 1 true, .remove 0, .finishCleanup 0 8 true]

theorem lateUpload_deleted : ∃ s, system.Reachable s ∧ ∃ a ∈ s.db.assets, a.state = .deleted := by
  have hplay : ((System.play exec lateUpload start).map fun s =>
      decide (s.db.assets.Has fun a => a.state = .deleted)) = some true := by
    decide +kernel
  obtain ⟨s, hs, hhas⟩ := Option.map_eq_some_iff.mp hplay
  have hrun : system.Run start lateUpload s := System.Run.of_play (fun _ _ _ h => h) hs
  exact ⟨s, hrun.reachable (.init ⟨rfl, rfl, rfl, rfl, rfl, rfl, rfl⟩), of_decide_eq_true hhas⟩

theorem media_cleaned_late : ∃ s, system.Reachable s ∧ ∃ a ∈ s.db.assets, a.state = .deleted ∧
    ∀ key, key.assetId = a.id → s.store key = false := by
  obtain ⟨s, hs, a, ha, hstate⟩ := lateUpload_deleted
  exact ⟨s, hs, a, ha, hstate, ((media_cleaned s hs).1 a ha hstate).2⟩

end Rogichat.Media
