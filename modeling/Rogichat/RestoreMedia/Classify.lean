import Rogichat.RestoreMedia.Model

/-!
# What the classification of the rows says

* **`WellFormed`** — the rows pass every check.
* **`classify_ok`** — a snapshot is classified exactly when it is well formed.
* **`place_retained_iff`**, **`place_closed_iff`** — the objects that are to be kept, and those
  that are gone for good.
* **`obligations_iff`** — nothing is to be deleted exactly when no asset is obliged, every row
  names an asset, every object is kept or gone, and every stray attempt is over.
-/

namespace Rogichat.RestoreMedia

open Lib

theorem forM_ok {α ε : Type} {f : α → Except ε Unit} {as : List α} {u : Unit} :
    as.forM f = .ok u ↔ ∀ a ∈ as, f a = .ok () := by
  induction as with
  | nil =>
    refine ⟨fun _ a ha => absurd ha List.not_mem_nil, fun _ => ?_⟩
    rfl
  | cons a as ih =>
    have hcons : (a :: as).forM f = f a >>= fun _ => as.forM f := rfl
    rw [hcons, bind_ok]
    constructor
    · intro h b hb
      obtain ⟨_, ha, hrest⟩ := h
      rcases List.mem_cons.mp hb with rfl | hb
      · exact ha
      · exact ih.mp hrest b hb
    · intro h
      exact ⟨(), h a List.mem_cons_self,
        ih.mpr fun b hb => h b (List.mem_cons_of_mem a hb)⟩

/-! ## Checks -/

/-- The row of an object names an asset, has the key of its parts, agrees with its attempt and,
if it is shown, is not too large. -/
structure ObjectRow.Sound (object : ObjectRow) (limits : RestoreMediaLimits)
    (storePrefix : String) (s : Snapshot) : Prop where
  asset : ∃ a ∈ s.assets, a.id = object.assetId
  key : mediaKey storePrefix object.assetId object.attemptId object.variant =
    some object.objectKey
  proof : ∀ proof ∈ s.attempts, proof.objectId = object.id → proof.assetId = object.assetId ∧
    proof.attemptId = object.attemptId ∧ proof.objectKey = object.objectKey
  size : ∀ a ∈ s.assets, a.id = object.assetId → a.state = "READY" →
    object.state ∈ ["READY", "STORED"] → ∀ bytes ∈ object.byteLength, bytes ≤ limits.objectBytes

/-- The attempt has the key of its parts, and no other object has it. -/
structure AttemptRow.Sound (proof : AttemptRow) (storePrefix : String) (s : Snapshot) : Prop where
  key : mediaKey storePrefix proof.assetId proof.attemptId (lastPart proof.objectKey) =
    some proof.objectKey
  object : ∀ object ∈ s.objects, object.objectKey = proof.objectKey → object.id = proof.objectId

/-- The ready objects of a ready asset are those of its kind, one each, of one attempt. -/
structure AssetRow.Sound (asset : AssetRow) (s : Snapshot) : Prop where
  kind : asset.kind ∈ ["PHOTO", "AVATAR", "STICKER", "VIDEO"]
  variants : ∀ row ∈ s.ready asset, row.variant ∈ variantsOf asset.kind
  one : ∀ variant ∈ variantsOf asset.kind,
    ((s.ready asset).filter fun row => row.variant = variant).length ≤ 1
  attempt : asset.kind = "VIDEO" → ((s.ready asset).map ObjectRow.attemptId).dedup.length ≤ 1

/-- The rows pass every check. -/
structure WellFormed (limits : RestoreMediaLimits) (storePrefix : String) (s : Snapshot) :
    Prop where
  objects : ∀ object ∈ s.objects, object.Sound limits storePrefix s
  keys : (s.objects.rows.map ObjectRow.objectKey).Nodup
  attempts : ∀ proof ∈ s.attempts, proof.Sound storePrefix s
  assets : ∀ asset ∈ s.assets, asset.state = "READY" → asset.Sound s

variable {limits : RestoreMediaLimits} {storePrefix : String} {s : Snapshot}

/-- Looking an asset up finds the row with the id. -/
theorem Snapshot.asset_eq_some {id : String} {a : AssetRow} :
    s.asset id = some a ↔ a ∈ s.assets ∧ a.id = id := by
  unfold Snapshot.asset
  constructor
  · intro h
    exact ⟨Table.mem_of_find? h, Table.holds_of_find? (p := fun a : AssetRow => a.id = id) h⟩
  · intro h
    refine Table.find?_eq_some h.1 h.2 (k := id) (List.mem_singleton.mpr h.2.symm) ?_
    exact fun b hb => List.mem_singleton.mpr hb.symm

/-- Looking an asset up fails when no row has the id. -/
theorem Snapshot.asset_eq_none {id : String} :
    s.asset id = none ↔ ¬∃ a ∈ s.assets, a.id = id := by
  unfold Snapshot.asset
  rw [Table.find?_eq_none]
  exact ⟨fun h hex => hex.elim fun a ha => h a ha.1 ha.2, fun h a ha hid => h ⟨a, ha, hid⟩⟩

/-- The attempt an object came from. -/
theorem Snapshot.proof_eq_some {object : ObjectRow} {p : AttemptRow} :
    s.proof object = some p ↔ p ∈ s.attempts ∧ p.objectId = object.id := by
  unfold Snapshot.proof
  constructor
  · intro h
    exact ⟨Table.mem_of_find? h,
      Table.holds_of_find? (p := fun p : AttemptRow => p.objectId = object.id) h⟩
  · intro h
    refine Table.find?_eq_some h.1 h.2 (k := object.id) (List.mem_singleton.mpr h.2.symm) ?_
    exact fun q hq => List.mem_singleton.mpr hq.symm

/-- With distinct keys the object under a key is the only one. -/
theorem Snapshot.objectAt_eq_some (hkeys : (s.objects.rows.map ObjectRow.objectKey).Nodup)
    {key : String} {o : ObjectRow} :
    s.objectAt key = some o ↔ o ∈ s.objects ∧ o.objectKey = key := by
  unfold Snapshot.objectAt
  constructor
  · intro h
    refine ⟨List.mem_reverse.mp (List.mem_of_find?_eq_some h), ?_⟩
    exact of_decide_eq_true (List.find?_some (p := fun o : ObjectRow => decide (o.objectKey = key)) h)
  · intro h
    cases hfind : s.objects.rows.reverse.find? fun o => o.objectKey = key with
    | none =>
      rw [List.find?_eq_none] at hfind
      exact absurd (decide_eq_true h.2) (hfind o (List.mem_reverse.mpr h.1))
    | some o' =>
      have hmem := List.mem_reverse.mp (List.mem_of_find?_eq_some hfind)
      have hkey := of_decide_eq_true
        (List.find?_some (p := fun o : ObjectRow => decide (o.objectKey = key)) hfind)
      rw [List.inj_on_of_nodup_map hkeys hmem h.1 (hkey.trans h.2.symm)]

/-- An object passes when it is sound and its key is new. -/
theorem ObjectRow.checked_ok {object : ObjectRow} {seen : List String} {u : Unit} :
    object.checked limits storePrefix s seen = .ok u ↔
      object.Sound limits storePrefix s ∧ object.objectKey ∉ seen := by
  simp only [ObjectRow.checked, bind_ok, require_ok, ensure_ok]
  constructor
  · intro h
    obtain ⟨a, ha, -, hseen, -, hkey, -, hproof, hsize⟩ := h
    obtain ⟨hmem, hid⟩ := Snapshot.asset_eq_some.mp ha
    refine ⟨⟨⟨a, hmem, hid⟩, hkey, ?_, ?_⟩, hseen⟩
    · intro p hp hobject
      exact hproof p (Snapshot.proof_eq_some.mpr ⟨hp, hobject⟩)
    · intro b hb hidb hready hstate bytes hbytes
      have hsame : s.asset object.assetId = some b := Snapshot.asset_eq_some.mpr ⟨hb, hidb⟩
      obtain rfl := Option.some.inj (ha.symm.trans hsame)
      by_contra hlarge
      exact hsize ⟨hready, hstate, bytes, hbytes, not_le.mp hlarge⟩
  · intro h
    obtain ⟨hsound, hseen⟩ := h
    obtain ⟨a, hmem, hid⟩ := hsound.asset
    refine ⟨a, Snapshot.asset_eq_some.mpr ⟨hmem, hid⟩, (), hseen, (), hsound.key, (), ?_, ?_⟩
    · intro p hp
      obtain ⟨hp, hobject⟩ := Snapshot.proof_eq_some.mp hp
      exact hsound.proof p hp hobject
    · intro hlarge
      obtain ⟨hready, hstate, bytes, hbytes, hlt⟩ := hlarge
      exact absurd (hsound.size a hmem hid hready hstate bytes hbytes) (not_le.mpr hlt)

/-- The objects pass when each is sound and no key repeats. -/
theorem checkObjects_ok {seen : List String} {objects : List ObjectRow} {u : Unit} :
    checkObjects limits storePrefix s seen objects = .ok u ↔
      (∀ o ∈ objects, o.Sound limits storePrefix s ∧ o.objectKey ∉ seen) ∧
        (objects.map ObjectRow.objectKey).Nodup := by
  induction objects generalizing seen with
  | nil =>
    refine ⟨fun _ => ⟨fun o ho => absurd ho List.not_mem_nil, .nil⟩, fun _ => ?_⟩
    rfl
  | cons object rest ih =>
    rw [checkObjects, bind_ok]
    simp only [ObjectRow.checked_ok, ih, List.map_cons, List.nodup_cons]
    constructor
    · intro h
      obtain ⟨-, hfirst, hrest, hnodup⟩ := h
      refine ⟨?_, ?_, hnodup⟩
      · intro o ho
        rcases List.mem_cons.mp ho with rfl | ho
        · exact hfirst
        · exact ⟨(hrest o ho).1, fun hseen => (hrest o ho).2 (List.mem_cons_of_mem _ hseen)⟩
      · intro hmem
        obtain ⟨o, ho, hkey⟩ := List.mem_map.mp hmem
        exact (hrest o ho).2 (hkey ▸ List.mem_cons_self)
    · intro h
      obtain ⟨hall, hfresh, hnodup⟩ := h
      refine ⟨(), hall object List.mem_cons_self, ?_, hnodup⟩
      intro o ho
      refine ⟨(hall o (List.mem_cons_of_mem _ ho)).1, ?_⟩
      intro hseen
      rcases List.mem_cons.mp hseen with hkey | hseen
      · exact hfresh (List.mem_map.mpr ⟨o, ho, hkey⟩)
      · exact (hall o (List.mem_cons_of_mem _ ho)).2 hseen

/-- An attempt passes when it is sound. -/
theorem AttemptRow.checked_ok {proof : AttemptRow} {u : Unit}
    (hkeys : (s.objects.rows.map ObjectRow.objectKey).Nodup) :
    proof.checked storePrefix s = .ok u ↔ proof.Sound storePrefix s := by
  simp only [AttemptRow.checked, bind_ok, ensure_ok]
  constructor
  · intro h
    obtain ⟨-, hkey, hobject⟩ := h
    exact ⟨hkey, fun o ho hk => hobject o ((Snapshot.objectAt_eq_some hkeys).mpr ⟨ho, hk⟩)⟩
  · intro h
    refine ⟨(), h.key, ?_⟩
    intro o ho
    obtain ⟨ho, hk⟩ := (Snapshot.objectAt_eq_some hkeys).mp ho
    exact h.object o ho hk

/-- An asset passes when it is sound, if it is ready. -/
theorem AssetRow.checked_ok {asset : AssetRow} {u : Unit} :
    asset.checked s = .ok u ↔ (asset.state = "READY" → asset.Sound s) := by
  unfold AssetRow.checked
  by_cases hready : asset.state = "READY"
  · rw [if_pos hready]
    simp only [bind_ok, ensure_ok]
    constructor
    · intro h _
      obtain ⟨-, hkind, -, hvariants, -, hone, hattempt⟩ := h
      exact ⟨hkind, hvariants, hone, fun hv => not_lt.mp fun hlt => hattempt ⟨hv, hlt⟩⟩
    · intro h
      obtain ⟨hkind, hvariants, hone, hattempt⟩ := h hready
      exact ⟨(), hkind, (), hvariants, (), hone, fun hv => absurd hv.2 (not_lt.mpr (hattempt hv.1))⟩
  · rw [if_neg hready]
    exact ⟨fun _ h => absurd h hready, fun _ => rfl⟩

/-- A snapshot is classified exactly when it is well formed. -/
theorem classify_ok {k : Classification} :
    classify limits storePrefix s = .ok k ↔ WellFormed limits storePrefix s ∧
      k = ⟨s.retained limits, s.closed limits, s.pending limits, s.deletion limits,
        s.missingVariants⟩ := by
  simp only [classify, bind_ok, checkObjects_ok, forM_ok, pure_ok]
  constructor
  · intro h
    obtain ⟨-, ⟨hobjects, hkeys⟩, -, hattempts, -, hassets, rfl⟩ := h
    refine ⟨⟨fun o ho => (hobjects o ho).1, hkeys, ?_, ?_⟩, rfl⟩
    · exact fun p hp => (AttemptRow.checked_ok hkeys).mp (hattempts p hp)
    · exact fun a ha => AssetRow.checked_ok.mp (hassets a ha)
  · intro h
    obtain ⟨hwell, rfl⟩ := h
    refine ⟨(), ⟨fun o ho => ⟨hwell.objects o ho, List.not_mem_nil⟩, hwell.keys⟩, (), ?_, (), ?_,
      rfl⟩
    · exact fun p hp => (AttemptRow.checked_ok hwell.keys).mpr (hwell.attempts p hp)
    · exact fun a ha => AssetRow.checked_ok.mpr (hwell.assets a ha)

/-! ## Places -/

/-- The object is to be in the store: its asset is shown and not to be deleted, it was written,
and nobody has seen it deleted. -/
structure ObjectRow.Kept (object : ObjectRow) (limits : RestoreMediaLimits) (s : Snapshot)
    (expected : Expected) : Prop where
  written : ∀ proof ∈ s.attempts, proof.objectId = object.id →
    proof.writerAcknowledged = true ∧ proof.deleteObservedAt = none
  asset : ∃ a ∈ s.assets, a.id = object.assetId ∧ a.state = "READY" ∧ ¬a.Obliged s
  state : object.state ∈ ["READY", "STORED"]
  bytes : object.byteLength = some expected.bytes
  sized : 0 < expected.bytes ∧ expected.bytes ≤ limits.objectBytes
  sha256 : object.sha256 = some expected.sha256
  hex : Text.isSha256Hex expected.sha256 = true
  key : object.objectKey = expected.key

/-- The object is gone for good: it was written, and then seen deleted. -/
def ObjectRow.Gone (object : ObjectRow) (s : Snapshot) : Prop :=
  object.state = "DELETED" ∧ ∃ proof ∈ s.attempts, proof.objectId = object.id ∧ proof.Over

/-- What a kept object is expected to be in the store. -/
theorem ObjectRow.kept_eq {object : ObjectRow} {expected : Expected} :
    object.kept limits s = .retained expected ↔
      (∃ a ∈ s.assets, a.id = object.assetId ∧ a.state = "READY" ∧ ¬a.Obliged s) ∧
        object.state ∈ ["READY", "STORED"] ∧ object.byteLength = some expected.bytes ∧
        (0 < expected.bytes ∧ expected.bytes ≤ limits.objectBytes) ∧
        object.sha256 = some expected.sha256 ∧ Text.isSha256Hex expected.sha256 = true ∧
        object.objectKey = expected.key := by
  unfold ObjectRow.kept
  constructor
  · intro h
    split at h
    · rename_i a bytes sha256 ha hbytes hsha
      split at h
      · rename_i hall
        cases h
        obtain ⟨hmem, hid⟩ := Snapshot.asset_eq_some.mp ha
        exact ⟨⟨a, hmem, hid, hall.1, hall.2.1⟩, hall.2.2.1, hbytes,
          ⟨hall.2.2.2.1, hall.2.2.2.2.1⟩, hsha, hall.2.2.2.2.2, rfl⟩
      · cases h
    · cases h
  · intro h
    obtain ⟨⟨a, hmem, hid, hready, hfree⟩, hstate, hbytes, ⟨hpos, hle⟩, hsha, hhex, hkey⟩ := h
    rw [Snapshot.asset_eq_some.mpr ⟨hmem, hid⟩, hbytes, hsha]
    simp only
    rw [if_pos ⟨hready, hfree, hstate, hpos, hle, hhex⟩, hkey]

/-- An object that is to be kept is not closed. -/
theorem ObjectRow.kept_ne_closed {object : ObjectRow} : object.kept limits s ≠ .closed := by
  unfold ObjectRow.kept
  split
  · split <;> exact Place.noConfusion
  · exact Place.noConfusion

/-- An object is retained exactly when it is to be kept. -/
theorem ObjectRow.place_retained_iff {object : ObjectRow} {expected : Expected} :
    object.place limits s = .retained expected ↔ object.Kept limits s expected := by
  have hlive : object.state ∈ ["READY", "STORED"] → object.state ≠ "DELETED" := by
    intro h hd
    rw [hd] at h
    revert h
    decide
  unfold ObjectRow.place
  cases hproof : s.proof object with
  | none =>
    simp only
    rw [ObjectRow.kept_eq]
    constructor
    · intro h
      obtain ⟨hasset, hstate, hbytes, hsized, hsha, hhex, hkey⟩ := h
      refine ⟨?_, hasset, hstate, hbytes, hsized, hsha, hhex, hkey⟩
      intro p hp hid
      rw [Snapshot.proof_eq_some.mpr ⟨hp, hid⟩] at hproof
      cases hproof
    · intro h
      exact ⟨h.asset, h.state, h.bytes, h.sized, h.sha256, h.hex, h.key⟩
  | some proof =>
    simp only
    obtain ⟨hmem, hid⟩ := Snapshot.proof_eq_some.mp hproof
    constructor
    · intro h
      split at h
      · cases h
      rename_i hopen
      split at h
      · cases h
      obtain ⟨hasset, hstate, hbytes, hsized, hsha, hhex, hkey⟩ := ObjectRow.kept_eq.mp h
      refine ⟨?_, hasset, hstate, hbytes, hsized, hsha, hhex, hkey⟩
      intro p hp hpid
      have hsame := hproof.symm.trans (Snapshot.proof_eq_some.mpr ⟨hp, hpid⟩)
      obtain rfl := Option.some.inj hsame
      rw [not_or, Bool.not_eq_false] at hopen
      refine ⟨hopen.1, ?_⟩
      by_contra hobserved
      exact hopen.2 ⟨hobserved, hlive hstate⟩
    · intro h
      obtain ⟨hacknowledged, hobserved⟩ := h.written proof hmem hid
      rw [if_neg (by simp [hacknowledged, hobserved]), if_neg (by simp [hobserved])]
      exact ObjectRow.kept_eq.mpr ⟨h.asset, h.state, h.bytes, h.sized, h.sha256, h.hex, h.key⟩

/-- An object is closed exactly when it is gone. -/
theorem ObjectRow.place_closed_iff {object : ObjectRow} :
    object.place limits s = .closed ↔ object.Gone s := by
  unfold ObjectRow.place
  cases hproof : s.proof object with
  | none =>
    simp only
    refine ⟨fun h => absurd h ObjectRow.kept_ne_closed, ?_⟩
    intro h
    obtain ⟨-, p, hp, hid, -⟩ := h
    rw [Snapshot.proof_eq_some.mpr ⟨hp, hid⟩] at hproof
    cases hproof
  | some proof =>
    simp only
    obtain ⟨hmem, hid⟩ := Snapshot.proof_eq_some.mp hproof
    constructor
    · intro h
      split at h
      · cases h
      rename_i hopen
      rw [not_or, Bool.not_eq_false] at hopen
      split at h
      · rename_i hdeleted
        exact ⟨hdeleted.1, proof, hmem, hid, hopen.1, hdeleted.2⟩
      · exact absurd h ObjectRow.kept_ne_closed
    · intro h
      obtain ⟨hdeleted, p, hp, hpid, hacknowledged, hobserved⟩ := h
      have hsame := hproof.symm.trans (Snapshot.proof_eq_some.mpr ⟨hp, hpid⟩)
      obtain rfl := Option.some.inj hsame
      rw [if_neg (by simp [hacknowledged, hdeleted]), if_pos ⟨hdeleted, hobserved⟩]

/-- The retained list has what is to be kept. -/
theorem Snapshot.mem_retained {expected : Expected} :
    expected ∈ s.retained limits ↔ ∃ o ∈ s.objects, o.Kept limits s expected := by
  unfold Snapshot.retained
  rw [List.mem_filterMap]
  constructor
  · intro h
    obtain ⟨o, ho, hplace⟩ := h
    split at hplace
    · rename_i hretained
      cases hplace
      exact ⟨o, ho, ObjectRow.place_retained_iff.mp hretained⟩
    · cases hplace
  · intro h
    obtain ⟨o, ho, hkept⟩ := h
    refine ⟨o, ho, ?_⟩
    rw [ObjectRow.place_retained_iff.mpr hkept]

/-- A stray is an attempt whose key no object has. -/
theorem Snapshot.mem_strays (hkeys : (s.objects.rows.map ObjectRow.objectKey).Nodup)
    {p : AttemptRow} :
    p ∈ s.strays ↔ p ∈ s.attempts ∧ ∀ o ∈ s.objects, o.objectKey ≠ p.objectKey := by
  unfold Snapshot.strays
  rw [Table.mem_select]
  refine and_congr_right fun _ => ?_
  constructor
  · intro h o ho hkey
    rw [(Snapshot.objectAt_eq_some hkeys).mpr ⟨ho, hkey⟩] at h
    cases h
  · intro h
    cases hat : s.objectAt p.objectKey with
    | none => rfl
    | some o =>
      obtain ⟨ho, hkey⟩ := (Snapshot.objectAt_eq_some hkeys).mp hat
      exact absurd hkey (h o ho)

/-! ## Obligations -/

/-- Nothing is to be deleted, and nothing is in question. -/
structure Settled (limits : RestoreMediaLimits) (s : Snapshot) : Prop where
  assets : ∀ a ∈ s.assets, ¬a.Obliged s
  provenance : ∀ p ∈ s.provenance, ∃ a ∈ s.assets, a.id = p.assetId
  checkpoints : ∀ c ∈ s.checkpoints, ∃ a ∈ s.assets, a.id = c.assetId
  objects : ∀ o ∈ s.objects, (∃ expected, o.Kept limits s expected) ∨ o.Gone s
  strays : ∀ p ∈ s.attempts, (∀ o ∈ s.objects, o.objectKey ≠ p.objectKey) → p.Over

theorem toFinset_map_eq_empty {α : Type} {f : α → String} {as : List α} :
    (as.map f).toFinset = ∅ ↔ as = [] := by
  rw [List.toFinset_eq_empty_iff, List.map_eq_nil_iff]

/-- Nothing is obliged exactly when no asset, provenance or checkpoint is. -/
theorem obliged_eq_nil_iff : s.obliged = [] ↔ (∀ a ∈ s.assets, ¬a.Obliged s) ∧
    (∀ p ∈ s.provenance, ∃ a ∈ s.assets, a.id = p.assetId) ∧
    ∀ c ∈ s.checkpoints, ∃ a ∈ s.assets, a.id = c.assetId := by
  unfold Snapshot.obliged
  rw [List.append_eq_nil_iff, List.append_eq_nil_iff, List.map_eq_nil_iff, List.map_eq_nil_iff,
    List.map_eq_nil_iff, List.eq_nil_iff_forall_not_mem, List.eq_nil_iff_forall_not_mem,
    List.eq_nil_iff_forall_not_mem, and_assoc]
  simp only [Table.mem_select, Snapshot.asset_eq_none, not_and, not_not]

/-- Nothing is pending exactly when everything is kept or gone. -/
theorem pending_eq_empty_iff (hkeys : (s.objects.rows.map ObjectRow.objectKey).Nodup) :
    s.pending limits = ∅ ↔
      (∀ o ∈ s.objects, (∃ expected, o.Kept limits s expected) ∨ o.Gone s) ∧
        ∀ p ∈ s.attempts, (∀ o ∈ s.objects, o.objectKey ≠ p.objectKey) → p.Over := by
  unfold Snapshot.pending
  rw [Finset.union_eq_empty, toFinset_map_eq_empty, toFinset_map_eq_empty,
    List.eq_nil_iff_forall_not_mem, List.eq_nil_iff_forall_not_mem]
  refine and_congr ?_ ?_
  · refine forall_congr' fun o => ?_
    rw [Table.mem_select, not_and]
    refine imp_congr_right fun _ => ?_
    cases hplace : o.place limits s with
    | closed =>
      have hgone : o.Gone s := ObjectRow.place_closed_iff.mp hplace
      simp [hgone]
    | retained expected =>
      have hkept := ObjectRow.place_retained_iff.mp hplace
      simp only [reduceCtorEq, not_false_eq_true, true_iff]
      exact .inl ⟨expected, hkept⟩
    | pending =>
      simp only [not_true_eq_false, false_iff, not_or, not_exists]
      constructor
      · intro expected hkept
        rw [ObjectRow.place_retained_iff.mpr hkept] at hplace
        cases hplace
      · intro hgone
        rw [ObjectRow.place_closed_iff.mpr hgone] at hplace
        cases hplace
  · refine forall_congr' fun p => ?_
    rw [List.mem_filter, Snapshot.mem_strays hkeys]
    simp only [decide_not, Bool.not_eq_eq_eq_not, Bool.not_true, decide_eq_false_iff_not,
      not_and, not_not, and_imp]

/-- Nothing is to be deleted exactly when the rows are settled. -/
theorem obligations_iff (hkeys : (s.objects.rows.map ObjectRow.objectKey).Nodup) :
    s.deletion limits = ∅ ↔ Settled limits s := by
  unfold Snapshot.deletion
  rw [Finset.union_eq_empty, toFinset_map_eq_empty, Finset.image_eq_empty, obliged_eq_nil_iff,
    pending_eq_empty_iff hkeys]
  constructor
  · intro h
    obtain ⟨⟨hassets, hprovenance, hcheckpoints⟩, hobjects, hstrays⟩ := h
    exact ⟨hassets, hprovenance, hcheckpoints, hobjects, hstrays⟩
  · intro h
    exact ⟨⟨h.assets, h.provenance, h.checkpoints⟩, h.objects, h.strays⟩

/-- Every ready asset has the objects of its kind. -/
def Complete (s : Snapshot) : Prop :=
  ∀ a ∈ s.assets, a.state = "READY" → ∀ variant ∈ variantsOf a.kind,
    ∃ o ∈ s.objects, o.state = "READY" ∧ o.assetId = a.id ∧ o.variant = variant

/-- No variant is missing exactly when the ready assets are complete. -/
theorem missingVariants_iff : s.missingVariants = 0 ↔ Complete s := by
  unfold Snapshot.missingVariants Complete
  rw [List.sum_eq_zero_iff]
  constructor
  · intro h a ha hready variant hvariant
    have hzero := h _ (List.mem_map.mpr ⟨a, Table.mem_select.mpr ⟨ha, hready⟩, rfl⟩)
    rw [List.length_eq_zero_iff, List.filter_eq_nil_iff] at hzero
    by_contra hnone
    refine hzero variant hvariant (decide_eq_true ?_)
    intro o ho heq
    obtain ⟨ho, hstate, hasset⟩ := Table.mem_select.mp ho
    exact hnone ⟨o, ho, hstate, hasset, heq⟩
  · intro h n hn
    obtain ⟨a, ha, rfl⟩ := List.mem_map.mp hn
    obtain ⟨ha, hready⟩ := Table.mem_select.mp ha
    rw [List.length_eq_zero_iff, List.filter_eq_nil_iff]
    intro variant hvariant hnone
    obtain ⟨o, ho, hstate, hasset, heq⟩ := h a ha hready variant hvariant
    exact of_decide_eq_true hnone o (Table.mem_select.mpr ⟨ho, hstate, hasset⟩) heq

end Rogichat.RestoreMedia
