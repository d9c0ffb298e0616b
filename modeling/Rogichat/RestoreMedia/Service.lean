import Rogichat.Lib.Trace
import Rogichat.RestoreMedia.Exact

/-!
# The evidence the service issued

`reconcile` remembers the object it returns when it has verified; `bind` asks for that object and
for the same snapshot again. Objects may be made by anyone and be written to unless they are
frozen, as every result of `reconcile` is.

* **`Recorded`** — what is remembered is a frozen object some verified reconciliation returned.
* **`bind_iff`** — evidence binds exactly when it was issued for this store and the tables are
  those it was made of.
* **`bindMedia_of_issued`** — for issued evidence it is what the restore gate asks.
-/

namespace Rogichat.RestoreMedia

open Lib
open Restore (Crypto MediaCounts MediaStatus RestoreMediaEvidence)

/-- An object in memory that holds evidence. -/
structure EvidenceObject where
  value : RestoreMediaEvidence
  frozen : Bool

/-- A reconciliation that was made. -/
structure Made where
  reference : Nat
  store : StoreId
  answers : Answers

/-- The objects handed out, and what the service remembers of them. -/
structure State where
  /-- The objects, by the order they were made in. -/
  objects : List EvidenceObject := []
  issued : List Issued := []
  made : List Made := []

/-- What is done with the service and with its objects. -/
inductive Command
  | reconcile (store : Option StoreId) (answers : Answers)
  | make (value : RestoreMediaEvidence)
  | write (reference : Nat) (value : RestoreMediaEvidence)

variable (c : Crypto) (content : Bytes → String) (limits : RestoreMediaLimits)

/-- `reconcile`, with what it remembers. -/
def issue (store : Option StoreId) (answers : Answers) (s : State) : State :=
  let result := reconcile c content limits store answers
  let reference := s.objects.length
  { s with
    objects := s.objects ++ [⟨result, true⟩]
    issued := match store, result.status, result.manifestSha256 with
      | some id, .verified, some manifest => ⟨reference, manifest, id.storePrefix⟩ :: s.issued
      | _, _, _ => s.issued
    made := (store.map fun id => ⟨reference, id, answers⟩).toList ++ s.made }

/-- A command in a state; some have no effect in some states. -/
def exec : Command → State → Option State
  | .reconcile store answers, s => some (issue c content limits store answers s)
  | .make value, s => some { s with objects := s.objects ++ [⟨value, false⟩] }
  | .write reference value, s =>
    match s.objects[reference]? with
    | some ⟨_, false⟩ => some { s with objects := s.objects.set reference ⟨value, false⟩ }
    | _ => none

def service : System State Command where
  init s := s = {}
  step command s t := exec c content limits command s = some t

/-! ## What is remembered -/

/-- What is remembered is a frozen object some verified reconciliation returned. -/
structure Recorded (s : State) : Prop where
  issued : ∀ i ∈ s.issued, ∃ m ∈ s.made, m.reference = i.reference ∧
    m.store.storePrefix = i.storePrefix ∧
    s.objects[i.reference]? = some ⟨reconcile c content limits (some m.store) m.answers, true⟩ ∧
    (reconcile c content limits (some m.store) m.answers).status = .verified ∧
    (reconcile c content limits (some m.store) m.answers).manifestSha256 = some i.manifestSha256
  made : ∀ m ∈ s.made,
    s.objects[m.reference]? = some ⟨reconcile c content limits (some m.store) m.answers, true⟩ ∧
    ((reconcile c content limits (some m.store) m.answers).status = .verified →
      ∃ i ∈ s.issued, i.reference = m.reference ∧ i.storePrefix = m.store.storePrefix ∧
        (reconcile c content limits (some m.store) m.answers).manifestSha256 =
          some i.manifestSha256)
  apart : (s.issued.map Issued.reference).Nodup
  before : ∀ i ∈ s.issued, i.reference < s.objects.length

variable {c content limits} {s t : State}

/-- Frozen objects stay when others are made or written. -/
theorem Recorded.keep (hs : Recorded c content limits s) (hissued : t.issued = s.issued)
    (hmade : t.made = s.made) (hlength : s.objects.length ≤ t.objects.length)
    (hfrozen : ∀ (i : Nat) (v : RestoreMediaEvidence),
      s.objects[i]? = some ⟨v, true⟩ → t.objects[i]? = some ⟨v, true⟩) :
    Recorded c content limits t := by
  constructor
  · rw [hissued, hmade]
    intro i hi
    obtain ⟨m, hm, hreference, hpfx, hobject, hrest⟩ := hs.issued i hi
    exact ⟨m, hm, hreference, hpfx, hfrozen _ _ hobject, hrest⟩
  · rw [hissued, hmade]
    intro m hm
    exact ⟨hfrozen _ _ (hs.made m hm).1, (hs.made m hm).2⟩
  · rw [hissued]
    exact hs.apart
  · rw [hissued]
    exact fun i hi => (hs.before i hi).trans_le hlength

/-- Verified evidence has a manifest. -/
theorem manifest_of_verified {id : StoreId} {answers : Answers}
    (h : (reconcile c content limits (some id) answers).status = .verified) :
    ∃ s listed, Exact content limits id answers s listed ∧
      (reconcile c content limits (some id) answers).snapshotSha256 =
        some (restoreMediaDigest c s.toJson) ∧
      (reconcile c content limits (some id) answers).storageScopeSha256 =
        some id.storageScopeSha256 ∧
      (reconcile c content limits (some id) answers).manifestSha256 ≠ none := by
  unfold reconcile at h ⊢
  simp only at h ⊢
  by_cases hvalid : id.Valid
  · rw [if_neg (not_not.mpr hvalid)] at h ⊢
    cases hrun : execute c content limits id answers with
    | error stop =>
      rw [hrun] at h
      cases h
    | ok result =>
      rw [hrun] at h
      exact execute_verified hrun h
  · rw [if_pos hvalid] at h
    cases h

/-- Handing evidence out keeps the record. -/
theorem Recorded.issue (hs : Recorded c content limits s) (store : Option StoreId)
    (answers : Answers) : Recorded c content limits (issue c content limits store answers s) := by
  -- objects are only added, so a reference keeps naming the same evidence
  have hfrozen : ∀ (i : Nat) (v : RestoreMediaEvidence), s.objects[i]? = some ⟨v, true⟩ →
      (s.objects ++ [EvidenceObject.mk (reconcile c content limits store answers) true])[i]? =
        some ⟨v, true⟩ := by
    intro i v hi
    obtain ⟨hlt, -⟩ := List.getElem?_eq_some_iff.mp hi
    rw [List.getElem?_append_left hlt]
    exact hi
  have hlength : s.objects.length ≤
      (s.objects ++ [EvidenceObject.mk (reconcile c content limits store answers) true]).length := by
    simp
  cases store with
  | none => exact hs.keep rfl rfl hlength hfrozen
  | some id =>
    have hnew : (s.objects ++ [EvidenceObject.mk (reconcile c content limits (some id) answers)
        true])[s.objects.length]? = some
          (EvidenceObject.mk (reconcile c content limits (some id) answers) true) := by simp
    -- evidence is issued for a verified reconciliation only
    by_cases hverified : (reconcile c content limits (some id) answers).status = .verified
    · obtain ⟨-, -, -, -, -, hmanifest⟩ := manifest_of_verified hverified
      obtain ⟨manifest, hmanifest⟩ := Option.ne_none_iff_exists'.mp hmanifest
      have hissued : (RestoreMedia.issue c content limits (some id) answers s).issued =
          ⟨s.objects.length, manifest, id.storePrefix⟩ :: s.issued := by
        simp only [RestoreMedia.issue, hverified, hmanifest]
      constructor
      · rw [hissued]
        intro i hi
        rcases List.mem_cons.mp hi with rfl | hi
        · exact ⟨⟨s.objects.length, id, answers⟩, List.mem_cons_self, rfl, rfl, hnew, hverified,
            hmanifest⟩
        · obtain ⟨m, hm, hreference, hpfx, hobject, hrest⟩ := hs.issued i hi
          exact ⟨m, List.mem_cons_of_mem _ hm, hreference, hpfx, hfrozen _ _ hobject, hrest⟩
      · rw [hissued]
        intro m hm
        rcases List.mem_cons.mp hm with rfl | hm
        · exact ⟨hnew, fun _ => ⟨_, List.mem_cons_self, rfl, rfl, hmanifest⟩⟩
        · refine ⟨hfrozen _ _ (hs.made m hm).1, fun hv => ?_⟩
          obtain ⟨i, hi, hreference⟩ := (hs.made m hm).2 hv
          exact ⟨i, List.mem_cons_of_mem _ hi, hreference⟩
      · rw [hissued]
        -- every reference of before is below the number of objects
        refine List.nodup_cons.mpr ⟨?_, hs.apart⟩
        intro hmem
        obtain ⟨i, hi, hreference⟩ := List.mem_map.mp hmem
        exact absurd hreference (Nat.ne_of_lt (hs.before i hi))
      · rw [hissued]
        intro i hi
        rcases List.mem_cons.mp hi with rfl | hi
        · simp [RestoreMedia.issue]
        · exact (hs.before i hi).trans_le hlength
    · have hissued : (RestoreMedia.issue c content limits (some id) answers s).issued =
          s.issued := by
        simp only [RestoreMedia.issue]
        split
        · rename_i hstatus _
          exact absurd hstatus hverified
        · rfl
      constructor
      · rw [hissued]
        intro i hi
        obtain ⟨m, hm, hreference, hpfx, hobject, hrest⟩ := hs.issued i hi
        exact ⟨m, List.mem_cons_of_mem _ hm, hreference, hpfx, hfrozen _ _ hobject, hrest⟩
      · rw [hissued]
        intro m hm
        rcases List.mem_cons.mp hm with rfl | hm
        · exact ⟨hnew, fun hv => absurd hv hverified⟩
        · exact ⟨hfrozen _ _ (hs.made m hm).1, (hs.made m hm).2⟩
      · rw [hissued]
        exact hs.apart
      · rw [hissued]
        exact fun i hi => (hs.before i hi).trans_le hlength

/-- What is remembered was verified, in every run. -/
theorem reachable_recorded (h : (service c content limits).Reachable s) :
    Recorded c content limits s := by
  refine h.induct (P := Recorded c content limits) ⟨?_, ?_⟩
  · intro s hs
    subst hs
    constructor
    · exact fun i hi => absurd hi List.not_mem_nil
    · exact fun m hm => absurd hm List.not_mem_nil
    · exact .nil
    · exact fun i hi => absurd hi List.not_mem_nil
  · intro s t command _ hs hstep
    have hexec : exec c content limits command s = some t := hstep
    cases command with
    | reconcile store answers =>
      cases hexec
      exact hs.issue store answers
    | make value =>
      cases hexec
      refine hs.keep rfl rfl (by simp) ?_
      intro i v hi
      obtain ⟨hlt, -⟩ := List.getElem?_eq_some_iff.mp hi
      rw [List.getElem?_append_left hlt]
      exact hi
    | write reference value =>
      simp only [exec] at hexec
      split at hexec
      · rename_i old hold
        cases hexec
        refine hs.keep rfl rfl (by simp) ?_
        intro i v hi
        rw [List.getElem?_set_ne]
        · exact hi
        · -- a frozen object is not written to
          rintro rfl
          rw [hold] at hi
          cases hi
      · cases hexec

/-! ## Binding -/

/-- An issued object is found by its reference. -/
theorem find?_issued {issued : List Issued} (hapart : (issued.map Issued.reference).Nodup)
    {i : Issued} (hi : i ∈ issued) :
    (issued.find? fun j => j.reference = i.reference) = some i := by
  cases hfind : issued.find? fun j => j.reference = i.reference with
  | none =>
    rw [List.find?_eq_none] at hfind
    exact absurd (decide_eq_true rfl) (hfind i hi)
  | some j =>
    have hreference := of_decide_eq_true
      (List.find?_some (p := fun j : Issued => decide (j.reference = i.reference)) hfind)
    rw [List.inj_on_of_nodup_map hapart (List.mem_of_find?_eq_some hfind) hi hreference]

/-- Evidence binds exactly when it was issued, by a reconciliation that had verified, for the
store it is bound to, and the tables are still those it was made of. -/
theorem bind_iff (hs : (service c content limits).Reachable s) {reference : Nat}
    {object : EvidenceObject} (hobject : s.objects[reference]? = some object)
    (store : Option StoreId) (answer : Except RestoreMediaReason Snapshot) :
    bind c limits s.issued store reference object.value answer = true ↔
      ∃ m ∈ s.made, m.reference = reference ∧ store = some m.store ∧ m.store.Valid ∧
        ∃ snapshot listed, Exact content limits m.store m.answers snapshot listed ∧
          fetch limits answer = .ok snapshot := by
  have hr := reachable_recorded hs
  constructor
  · intro h
    unfold bind at h
    split at h
    · rename_i id i hfind
      have hi := List.mem_of_find?_eq_some hfind
      have hreference := of_decide_eq_true
        (List.find?_some (p := fun i : Issued => decide (i.reference = reference)) hfind)
      split at h
      · cases h
      rename_i hagrees
      simp only [not_or, not_not] at hagrees
      obtain ⟨-, -, hpfx, hscope⟩ := hagrees
      split at h
      · rename_i snapshot hfetch
        -- the reconciliation that issued it is the one the reference still names
        obtain ⟨m, hm, hmade, hmpfx, hmobject, hverified, -⟩ := hr.issued i hi
        rw [hreference, hobject] at hmobject
        obtain rfl := Option.some.inj hmobject
        obtain ⟨made, listed, hexact, hsnapshot, hstore, -⟩ := manifest_of_verified hverified
        have hdigest := of_decide_eq_true h
        rw [hsnapshot] at hdigest
        -- equal digests are equal snapshots
        have hsame := snapshotDigest_inj (Option.some.inj hdigest)
        rw [hstore] at hscope
        have hid : id = m.store := by
          cases id
          cases hmstore : m.store
          rw [hmstore] at hscope hmpfx
          simp only [StoreId.mk.injEq]
          exact ⟨hpfx.symm.trans hmpfx.symm, (Option.some.inj hscope).symm⟩
        obtain ⟨hvalid, -⟩ := reconcile_exact hverified
        exact ⟨m, hm, hmade.trans hreference, hid ▸ rfl, hvalid, made, listed, hexact,
          hsame ▸ hfetch⟩
      · cases h
    · cases h
  · intro h
    obtain ⟨m, hm, rfl, rfl, hvalid, snapshot, listed, hexact, hfetch⟩ := h
    have hverified : (reconcile c content limits (some m.store) m.answers).status = .verified :=
      reconcile_of_exact hvalid hexact
    obtain ⟨hmobject, hremembered⟩ := hr.made m hm
    obtain ⟨i, hi, hreference, hpfx, hmanifest⟩ := hremembered hverified
    rw [hobject] at hmobject
    obtain rfl := Option.some.inj hmobject
    obtain ⟨made, listed', hexact', hsnapshot, hscope, -⟩ := manifest_of_verified hverified
    have hsame : made = snapshot := Except.ok.inj (hexact'.snapshot.symm.trans hexact.snapshot)
    unfold bind
    rw [← hreference, find?_issued hr.apart hi]
    simp only
    rw [if_neg (by simp [hverified, hmanifest, hpfx, hscope]), hfetch]
    simp only
    rw [hsnapshot, hsame, decide_eq_true_eq]

/-! ### One photo -/

/-- Digests that are the texts themselves. -/
def plainCrypto : Crypto := ⟨fun s => s, fun _ => true, fun _ _ _ => true, Function.injective_id⟩

/-- The digest of three bytes, and one of everything else. -/
def contentOf (bytes : Bytes) : String :=
  String.ofList (List.replicate 64 (if bytes = [1, 2, 3] then 'b' else 'c'))

def fewLimits : RestoreMediaLimits := ⟨10, 10, 2, 100, 100⟩

def testStore : StoreId := ⟨"test", String.ofList (List.replicate 64 'a')⟩

def photoKey : String :=
  "test/11111111-1111-4111-8111-111111111111/22222222-2222-4222-8222-222222222222/image"

/-- A ready photo of an active account, in a message, with its image. -/
def photoTables : Snapshot where
  assets :=
    ⟨[{ id := "11111111-1111-4111-8111-111111111111", ownerUserId := "owner", kind := "PHOTO",
        state := "READY", expiresAt := "2026-01-01T00:00:00.000Z", reservedBytes := 3,
        ownerStatus := "ACTIVE", attachments := ["attachment"] }], List.pairwise_singleton _ _⟩
  objects :=
    ⟨[{ id := "object", assetId := "11111111-1111-4111-8111-111111111111",
        attemptId := "22222222-2222-4222-8222-222222222222", variant := "image",
        objectKey := photoKey, state := "READY", byteLength := some 3,
        sha256 := some (contentOf [1, 2, 3]) }], List.pairwise_singleton _ _⟩

/-- The listing of a store with that photo. -/
def photoPage : Page :=
  ⟨[⟨photoKey, some 3, "etag", some "2026-01-01T00:00:00.000Z"⟩], none⟩

/-- The tables have the photo, and the store holds its three bytes. -/
def photoAnswers : Answers where
  snapshot := .ok photoTables
  first _ := .ok photoPage
  read _ := .ok ⟨3, "etag", [.ok [1, 2], .ok [3]]⟩
  second _ := .ok photoPage
  current := .ok photoTables
  storeAfter := testStore

/-- The image, as it is listed. -/
def photoObject : RestoreInventoryObject := ⟨photoKey, 3, "etag", "2026-01-01T00:00:00.000Z"⟩

/-- The photo has to be in the store. -/
theorem photo_retained :
    photoTables.retained fewLimits = [⟨photoKey, 3, contentOf [1, 2, 3]⟩] := by
  decide +kernel

/-- The tables of the photo pass. -/
theorem photo_wellFormed : WellFormed fewLimits "test" photoTables := by
  have hchecked : (classify fewLimits "test" photoTables).isOk = true := by decide +kernel
  cases h : classify fewLimits "test" photoTables with
  | error reason =>
    rw [h] at hchecked
    cases hchecked
  | ok k => exact (classify_ok.mp h).1

/-- The listing of the photo goes through. -/
theorem photo_inventory : inventory fewLimits "test" photoAnswers.first = .ok [photoObject] := by
  decide +kernel

/-- The photo's evidence is exact. -/
theorem photo_exact :
    Exact contentOf fewLimits testStore photoAnswers photoTables [photoObject] := by
  have hwell := photo_wellFormed
  have hkept : ∀ {expected : Expected},
      (∃ o ∈ photoTables.objects, o.Kept fewLimits photoTables expected) ↔
        expected = ⟨photoKey, 3, contentOf [1, 2, 3]⟩ := by
    intro expected
    rw [← Snapshot.mem_retained, photo_retained, List.mem_singleton]
  refine ⟨rfl, rfl, photo_inventory, photo_inventory, rfl, hwell,
    (obligations_iff hwell.keys).mp ?_, missingVariants_iff.mp ?_, ?_, ?_, ?_⟩
  · decide +kernel
  · decide +kernel
  · intro key
    constructor
    · intro hkey
      obtain rfl := List.mem_singleton.mp hkey
      obtain ⟨o, ho, hexpected⟩ := hkept.mpr rfl
      exact ⟨o, ho, _, hexpected, rfl⟩
    · intro h
      obtain ⟨o, ho, expected, hexpected, rfl⟩ := h
      obtain rfl := hkept.mp ⟨o, ho, hexpected⟩
      exact List.mem_singleton_self _
  · intro o ho expected hexpected
    obtain rfl := hkept.mp ⟨o, ho, hexpected⟩
    exact ⟨photoObject, List.mem_singleton_self _, rfl, rfl, ⟨3, "etag", [.ok [1, 2], .ok [3]]⟩,
      [[1, 2], [3]], rfl, rfl, rfl, rfl, rfl, rfl⟩
  · rw [photo_retained]
    decide

/-- One reconciliation of a store, and a copy of the evidence it returned. -/
def copied (c : Crypto) (content : Bytes → String) (limits : RestoreMediaLimits)
    (store : StoreId) (answers : Answers) : State :=
  let s := issue c content limits (some store) answers {}
  { s with objects := s.objects ++ [⟨reconcile c content limits (some store) answers, false⟩] }

/-- Evidence may be copied. -/
theorem copied_reachable {store : StoreId} {answers : Answers} :
    (service c content limits).Reachable (copied c content limits store answers) :=
  .step (c := .make (reconcile c content limits (some store) answers))
    (.step (c := .reconcile (some store) answers) (.init rfl) rfl) rfl

/-- A copy is another object with the same content. -/
theorem copied_objects {store : StoreId} {answers : Answers} :
    (copied c content limits store answers).objects =
      [⟨reconcile c content limits (some store) answers, true⟩,
        ⟨reconcile c content limits (some store) answers, false⟩] := rfl

/-- Only the original was issued. -/
theorem copied_made {store : StoreId} {answers : Answers} :
    (copied c content limits store answers).made = [⟨0, store, answers⟩] := rfl

/-- The evidence of the photo binds while the tables have it. Where they have lost it the same
object does not bind, and its copy never binds. -/
theorem bind_iff_photo :
    let evidence := reconcile plainCrypto contentOf fewLimits (some testStore) photoAnswers
    let issued := (copied plainCrypto contentOf fewLimits testStore photoAnswers).issued
    bind plainCrypto fewLimits issued (some testStore) 0 evidence (.ok photoTables) = true ∧
      bind plainCrypto fewLimits issued (some testStore) 0 evidence (.ok {}) = false ∧
      bind plainCrypto fewLimits issued (some testStore) 1 evidence (.ok photoTables) = false := by
  have hvalid : testStore.Valid := by decide +kernel
  have hs : (service plainCrypto contentOf fewLimits).Reachable
      (copied plainCrypto contentOf fewLimits testStore photoAnswers) := copied_reachable
  have hobjects := @copied_objects plainCrypto contentOf fewLimits testStore photoAnswers
  have hmade := @copied_made plainCrypto contentOf fewLimits testStore photoAnswers
  have hfetch : fetch fewLimits (.ok photoTables) = .ok photoTables := rfl
  generalize copied plainCrypto contentOf fewLimits testStore photoAnswers = state at *
  generalize reconcile plainCrypto contentOf fewLimits (some testStore) photoAnswers = evidence at *
  have hissued : state.objects[0]? = some ⟨evidence, true⟩ := by rw [hobjects]; rfl
  have hcopied : state.objects[1]? = some ⟨evidence, false⟩ := by rw [hobjects]; rfl
  refine ⟨?_, ?_, ?_⟩
  · refine (bind_iff hs hissued _ _).mpr ⟨⟨0, testStore, photoAnswers⟩, ?_, rfl, rfl, hvalid,
      photoTables, _, photo_exact, hfetch⟩
    rw [hmade]
    exact List.mem_singleton_self _
  · refine Bool.eq_false_iff.mpr fun hbinds => ?_
    obtain ⟨m, hm, -, -, -, kept, _, hmexact, hempty⟩ := (bind_iff hs hissued _ _).mp hbinds
    rw [hmade] at hm
    obtain rfl := List.mem_singleton.mp hm
    have hsame : kept = photoTables := Except.ok.inj (hmexact.snapshot.symm.trans hfetch)
    have hnone : ({} : Snapshot) = kept := Except.ok.inj hempty
    have hassets := congrArg (fun s : Snapshot => s.assets.rows.length) (hnone.trans hsame)
    exact absurd hassets (by decide)
  · refine Bool.eq_false_iff.mpr fun hbinds => ?_
    obtain ⟨m, hm, hreference, -⟩ := (bind_iff hs hcopied _ _).mp hbinds
    rw [hmade] at hm
    obtain rfl := List.mem_singleton.mp hm
    cases hreference

/-! ## What the restore gate asks -/

/-- The canonical text of a snapshot within its limits. -/
def snapshotText (limits : RestoreMediaLimits) (answer : Except RestoreMediaReason Snapshot) : Option String :=
  match fetch limits answer with
  | .ok snapshot => some snapshot.toJson.canonical
  | .error _ => none

/-- For evidence that was issued for the store, `bind` is the check of the restore gate. -/
theorem bindMedia_of_issued {issued : List Issued} {id : StoreId} {reference : Nat} {i : Issued}
    {value : RestoreMediaEvidence} {answer : Except RestoreMediaReason Snapshot}
    {d : Restore.Domain} (hfind : (issued.find? fun j => j.reference = reference) = some i)
    (hmanifest : value.manifestSha256 = some i.manifestSha256)
    (hpfx : i.storePrefix = id.storePrefix)
    (hmedia : d.media = snapshotText limits answer) :
    bind c limits issued (some id) reference value answer =
      Restore.bindMedia c (some id.storageScopeSha256) d value := by
  unfold bind Restore.bindMedia snapshotText at *
  rw [hfind]
  simp only
  by_cases hagrees : value.status = .verified ∧
      value.storageScopeSha256 = some id.storageScopeSha256
  · rw [if_neg (by simp [hagrees.1, hagrees.2, hmanifest, hpfx])]
    cases hfetch : fetch limits answer with
    | error reason =>
      rw [hfetch] at hmedia
      simp [hmedia]
    | ok snapshot =>
      rw [hfetch] at hmedia
      simp only [hmedia, hagrees.1, hagrees.2, restoreMediaDigest, ne_eq, reduceCtorEq,
        not_false_eq_true, true_and, Option.map_some]
      exact decide_eq_decide.mpr Iff.rfl
  · rw [if_pos]
    · refine (decide_eq_false ?_).symm
      intro h
      exact hagrees ⟨h.2.1, h.2.2.1⟩
    · by_contra hnot
      simp only [not_or, not_not] at hnot
      exact hagrees ⟨hnot.1, hnot.2.2.2⟩

end Rogichat.RestoreMedia
