import Rogichat.RestoreMedia.Classify

/-!
# Verified means verified

* **`inventory_apart`** — a listing that was taken in has distinct keys.
* **`readBack_ok`** — what was read back is the whole stream.
* **`compareFrom_clean`** — a comparison without objections has compared everything.
* **`Exact`** — what verified evidence says.
* **`reconcile_verified_iff`** — evidence is verified exactly when it is so.
-/

namespace Rogichat.RestoreMedia

open Lib
open Restore (Crypto MediaCounts MediaStatus RestoreMediaEvidence)

variable {limits : RestoreMediaLimits} {storePrefix : String}

/-! ## The inventory -/

theorem textLt_trans {a b c : String} (h : TextLt a b) (h' : TextLt b c) : TextLt a c :=
  List.lt_trans h h'

theorem textLt_irrefl (a : String) : ¬TextLt a a := List.lt_irrefl _

/-- The keys of a listing so far ascend. -/
def Ascending (objects : List RestoreInventoryObject) : Prop :=
  (objects.map RestoreInventoryObject.key).Pairwise TextLt

/-- A listed object comes after the ones before it. -/
theorem admit_ascending {objects objects' : List RestoreInventoryObject} {o : Listed}
    (h : admitObject limits storePrefix objects o = .ok objects') (hs : Ascending objects) :
    Ascending objects' := by
  simp only [admitObject, bind_ok, ensure_ok, require_ok, pure_ok] at h
  obtain ⟨-, ⟨-, hprevious, -⟩, bytes, -, -, -, modified, -, -, -, rfl⟩ := h
  unfold Ascending at hs ⊢
  rw [List.map_append, List.pairwise_append]
  refine ⟨hs, List.pairwise_singleton _ _, ?_⟩
  intro key hkey key' hkey'
  obtain rfl := List.mem_singleton.mp hkey'
  -- the last key is the greatest one
  obtain ⟨last, front, hlast⟩ : ∃ last front, objects = front ++ [last] := by
    cases objects using List.reverseRecOn with
    | nil => exact absurd hkey List.not_mem_nil
    | append_singleton front last => exact ⟨last, front, rfl⟩
  rw [hlast, List.getLast?_concat] at hprevious
  rw [hlast, List.map_append, List.mem_append] at hkey
  rcases hkey with hkey | hkey
  · rw [hlast, List.map_append, List.pairwise_append] at hs
    exact textLt_trans (hs.2.2 key hkey last.key List.mem_cons_self) hprevious
  · obtain rfl := List.mem_singleton.mp hkey
    exact hprevious

/-- A page keeps the listing ascending. -/
theorem foldlM_admit_ascending {page : List Listed}
    {objects objects' : List RestoreInventoryObject}
    (h : page.foldlM (admitObject limits storePrefix) objects = .ok objects') (hs : Ascending objects) :
    Ascending objects' := by
  induction page generalizing objects with
  | nil =>
    rw [List.foldlM_nil, pure_ok] at h
    exact h ▸ hs
  | cons o page ih =>
    rw [List.foldlM_cons, bind_ok] at h
    obtain ⟨middle, hfirst, hrest⟩ := h
    exact ih hrest (admit_ascending hfirst hs)

/-- A listing that goes through ascends. -/
theorem inventoryFrom_ascending {list : Option String → Except RestoreMediaReason Page}
    {pages : Nat} {cursor : Option String} {cursors : List String}
    {objects listed : List RestoreInventoryObject}
    (h : inventoryFrom limits storePrefix list pages cursor cursors objects = .ok listed)
    (hs : Ascending objects) : Ascending listed := by
  induction pages generalizing cursor cursors objects with
  | zero => cases h
  | succ pages ih =>
    simp only [inventoryFrom, bind_ok] at h
    obtain ⟨page, -, -, -, middle, hpage, hrest⟩ := h
    have hmiddle := foldlM_admit_ascending hpage hs
    cases hnext : page.next with
    | none =>
      rw [hnext] at hrest
      simp only [pure_ok] at hrest
      exact hrest ▸ hmiddle
    | some next =>
      rw [hnext] at hrest
      exact ih hrest hmiddle

/-- A listing that was taken in has distinct keys. -/
theorem inventory_apart {list : Option String → Except RestoreMediaReason Page}
    {listed : List RestoreInventoryObject} (h : inventory limits storePrefix list = .ok listed) :
    (listed.map RestoreInventoryObject.key).Nodup := by
  refine (inventoryFrom_ascending h .nil).imp ?_
  intro a b hlt heq
  exact textLt_irrefl a (heq ▸ hlt)

/-- A listed object is read off its JSON. -/
theorem RestoreInventoryObject.encodes : Encodes RestoreInventoryObject.toJson := by
  refine .record (by decide) (fun _ => rfl) ?_ ?_
  · intro o v hv
    simp only [List.mem_cons, List.not_mem_nil, or_false] at hv
    rcases hv with rfl | rfl | rfl | rfl
    · exact Encodes.str.distinct _
    · exact Encodes.num.distinct _
    · exact Encodes.str.distinct _
    · exact Encodes.str.distinct _
  · intro a b h
    simp only [List.map_cons, List.map_nil, Json.sorted_str, Json.sorted_num, List.cons.injEq,
      Json.str.injEq, Json.num.injEq, Int.natCast_inj, and_true] at h
    cases a
    cases b
    simp only [RestoreInventoryObject.mk.injEq]
    exact h

/-- One digest is one inventory. -/
theorem inventoryDigest_inj {c : Crypto} {a b : List RestoreInventoryObject}
    (h : restoreMediaDigest c (inventoryJson a) = restoreMediaDigest c (inventoryJson b)) :
    a = b :=
  (Encodes.list RestoreInventoryObject.encodes).canonical (c.ideal h)

/-- One digest is one snapshot. -/
theorem snapshotDigest_inj {c : Crypto} {a b : Snapshot}
    (h : restoreMediaDigest c a.toJson = restoreMediaDigest c b.toJson) : a = b :=
  Snapshot.encodes.canonical (c.ideal h)

/-! ## Reading back -/

/-- A stream within the limit is collected whole. -/
theorem collect_ok {limit : Nat} {chunks : List (Except RestoreMediaReason Bytes)}
    {received all : Bytes} (hreceived : received.length ≤ limit) :
    collect limit chunks received = .ok all ↔
      ∃ parts : List Bytes, chunks = parts.map Except.ok ∧ all = received ++ parts.flatten ∧
        all.length ≤ limit := by
  induction chunks generalizing received with
  | nil =>
    rw [collect, pure_ok]
    constructor
    · intro h
      subst h
      exact ⟨[], rfl, by simp, hreceived⟩
    · intro h
      obtain ⟨parts, hparts, rfl, -⟩ := h
      obtain rfl := List.map_eq_nil_iff.mp hparts.symm
      simp
  | cons chunk rest ih =>
    simp only [collect, bind_ok, ensure_ok]
    constructor
    · intro h
      obtain ⟨part, rfl, -, hfits, hrest⟩ := h
      have hlimit : (received ++ part).length ≤ limit := by simpa using hfits
      obtain ⟨parts, rfl, rfl, hlength⟩ := (ih hlimit).mp hrest
      exact ⟨part :: parts, rfl, by simp, hlength⟩
    · intro h
      obtain ⟨parts, hparts, rfl, hlength⟩ := h
      cases parts with
      | nil => cases hparts
      | cons part parts =>
        obtain ⟨rfl, rfl⟩ := List.cons.inj hparts
        have hfits : received.length + part.length ≤ limit := by
          simp only [List.flatten_cons, List.length_append] at hlength
          omega
        have hlimit : (received ++ part).length ≤ limit := by simpa using hfits
        refine ⟨part, rfl, (), hfits, (ih hlimit).mpr ⟨parts, rfl, ?_, hlength⟩⟩
        simp

/-- What was read back is the whole stream. -/
theorem readBack_ok {content : Bytes → String} {expectedBytes : Nat} {response : Response}
    {actual : Actual} :
    readBack content limits expectedBytes response = .ok actual ↔
      response.bytes = expectedBytes ∧ expectedBytes ≤ limits.objectBytes ∧
        ∃ parts : List Bytes, response.chunks = parts.map Except.ok ∧
          parts.flatten.length ≤ expectedBytes ∧
          actual = ⟨parts.flatten.length, content parts.flatten, response.etag⟩ := by
  simp only [readBack, bind_ok, ensure_ok, pure_ok]
  constructor
  · intro h
    obtain ⟨-, ⟨hbytes, hlimit⟩, all, hall, rfl⟩ := h
    obtain ⟨parts, hparts, rfl, hlength⟩ := (collect_ok (Nat.zero_le _)).mp hall
    rw [List.nil_append] at hlength
    refine ⟨hbytes, hbytes ▸ hlimit, parts, hparts, hlength.trans (min_le_left _ _), ?_⟩
    rw [List.nil_append]
  · intro h
    obtain ⟨hbytes, hlimit, parts, hparts, hlength, rfl⟩ := h
    refine ⟨(), ⟨hbytes, hbytes.symm ▸ hlimit⟩, parts.flatten, ?_, rfl⟩
    refine (collect_ok (Nat.zero_le _)).mpr ⟨parts, hparts, (List.nil_append _).symm, ?_⟩
    exact le_min hlength (hlength.trans hlimit)

/-! ## Comparing -/

/-- The object is listed, and what the store returns is what is expected. -/
def Matches (content : Bytes → String) (read : String → Except RestoreMediaReason Response)
    (listed : List RestoreInventoryObject) (expected : Expected) : Prop :=
  ∃ l ∈ listed, l.key = expected.key ∧ l.bytes = expected.bytes ∧
    ∃ response : Response, ∃ parts : List Bytes, read expected.key = .ok response ∧
      response.bytes = expected.bytes ∧ response.etag = l.etag ∧
      response.chunks = parts.map Except.ok ∧
      parts.flatten.length = expected.bytes ∧ content parts.flatten = expected.sha256

variable {content : Bytes → String} {read : String → Except RestoreMediaReason Response}
  {listed : List RestoreInventoryObject}

/-- The comparison only adds to the counts, and leaves those that are not its own. -/
structure Grows (counts counts' : MediaCounts) : Prop where
  missing : counts.missing ≤ counts'.missing
  changed : counts.changed ≤ counts'.changed
  orphan : counts'.orphan = counts.orphan
  deletion : counts'.deletionObligations = counts.deletionObligations

/-- Counts only grow. -/
theorem Grows.trans {a b c : MediaCounts} (h : Grows a b) (h' : Grows b c) : Grows a c :=
  ⟨h.missing.trans h'.missing, h.changed.trans h'.changed, h'.orphan.trans h.orphan,
    h'.deletion.trans h.deletion⟩

/-- A comparison only adds objections. -/
theorem compareFrom_grows {total : Nat} {counts : MediaCounts} {verified : List Verified}
    {rest : List Expected} {result : MediaCounts × List Verified}
    (h : compareFrom content limits read listed total counts verified rest = .ok result) :
    Grows counts result.1 := by
  induction rest generalizing total counts verified with
  | nil =>
    rw [compareFrom, pure_ok] at h
    subst h
    exact ⟨le_refl _, le_refl _, rfl, rfl⟩
  | cons expected rest ih =>
    rw [compareFrom] at h
    split at h
    · refine .trans ?_ (ih h)
      exact ⟨Nat.le_succ _, le_refl _, rfl, rfl⟩
    split at h
    · refine .trans ?_ (ih h)
      exact ⟨le_refl _, Nat.le_succ _, rfl, rfl⟩
    simp only [bind_ok] at h
    obtain ⟨-, -, response, -, actual, -, h⟩ := h
    split at h
    · refine .trans ?_ (ih h)
      exact ⟨le_refl _, Nat.le_succ _, rfl, rfl⟩
    · refine .trans ?_ (ih h)
      exact ⟨le_refl _, le_refl _, rfl, rfl⟩

/-- A key is found when it is listed. -/
theorem find?_listed (hkeys : (listed.map RestoreInventoryObject.key).Nodup)
    {l : RestoreInventoryObject} {key : String} :
    (listed.find? fun o => o.key = key) = some l ↔ l ∈ listed ∧ l.key = key := by
  constructor
  · intro h
    exact ⟨List.mem_of_find?_eq_some h, of_decide_eq_true
      (List.find?_some (p := fun o : RestoreInventoryObject => decide (o.key = key)) h)⟩
  · intro h
    cases hfind : listed.find? fun o => o.key = key with
    | none =>
      rw [List.find?_eq_none] at hfind
      exact absurd (decide_eq_true h.2) (hfind l h.1)
    | some l' =>
      have hkey := of_decide_eq_true
        (List.find?_some (p := fun o : RestoreInventoryObject => decide (o.key = key)) hfind)
      rw [List.inj_on_of_nodup_map hkeys (List.mem_of_find?_eq_some hfind) h.1
        (hkey.trans h.2.symm)]

/-- One object of the comparison: it is read and found equal. -/
theorem matches_of_read (hkeys : (listed.map RestoreInventoryObject.key).Nodup)
    {expected : Expected} {l : RestoreInventoryObject} {response : Response} {actual : Actual}
    (hlisted : (listed.find? fun o => o.key = expected.key) = some l)
    (hbytes : l.bytes = expected.bytes) (hread : read expected.key = .ok response)
    (hback : readBack content limits expected.bytes response = .ok actual)
    (hequal : actual.bytes = expected.bytes ∧ actual.sha256 = expected.sha256 ∧
      actual.etag = l.etag) : Matches content read listed expected := by
  obtain ⟨hl, hkey⟩ := (find?_listed hkeys).mp hlisted
  obtain ⟨hresponse, -, parts, hparts, -, rfl⟩ := readBack_ok.mp hback
  exact ⟨l, hl, hkey, hbytes, response, parts, hread, hresponse, hequal.2.2, hparts, hequal.1,
    hequal.2.1⟩

/-- A comparison without objections has compared everything. -/
theorem compareFrom_clean (hkeys : (listed.map RestoreInventoryObject.key).Nodup) {total : Nat}
    {counts : MediaCounts} {verified : List Verified} {rest : List Expected}
    {result : MediaCounts × List Verified} (htotal : total ≤ limits.totalBytes)
    (h : compareFrom content limits read listed total counts verified rest = .ok result)
    (hmissing : result.1.missing = 0) (hchanged : result.1.changed = 0) :
    (∀ e ∈ rest, Matches content read listed e) ∧
      total + (rest.map Expected.bytes).sum ≤ limits.totalBytes := by
  induction rest generalizing total counts verified with
  | nil => exact ⟨fun e he => absurd he List.not_mem_nil, by simpa using htotal⟩
  | cons expected rest ih =>
    rw [compareFrom] at h
    split at h
    · -- an object that is not listed counts as missing
      have hgrows := (compareFrom_grows h).missing
      simp only [hmissing] at hgrows
      omega
    rename_i l hlisted
    split at h
    · have hgrows := (compareFrom_grows h).changed
      simp only [hchanged] at hgrows
      omega
    rename_i hbytes
    rw [not_not] at hbytes
    simp only [bind_ok, within, mapError_ok, ensure_ok] at h
    obtain ⟨-, hfits, response, hread, actual, hback, h⟩ := h
    split at h
    · have hgrows := (compareFrom_grows h).changed
      simp only [hchanged] at hgrows
      omega
    rename_i hequal
    simp only [not_or, not_not] at hequal
    obtain ⟨hall, hsum⟩ := ih hfits h
    refine ⟨?_, ?_⟩
    · intro e he
      rcases List.mem_cons.mp he with rfl | he
      · exact matches_of_read hkeys hlisted hbytes hread hback hequal
      · exact hall e he
    · rw [List.map_cons, List.sum_cons, ← Nat.add_assoc]
      exact hsum

/-- What is listed and read back as expected is compared without objections. -/
theorem compareFrom_total (hkeys : (listed.map RestoreInventoryObject.key).Nodup) {total : Nat}
    (counts : MediaCounts) (verified : List Verified) {rest : List Expected}
    (hall : ∀ e ∈ rest, Matches content read listed e ∧ e.bytes ≤ limits.objectBytes)
    (hsum : total + (rest.map Expected.bytes).sum ≤ limits.totalBytes) :
    ∃ result, compareFrom content limits read listed total counts verified rest = .ok result ∧
      result.1.missing = counts.missing ∧ result.1.changed = counts.changed := by
  induction rest generalizing total counts verified with
  | nil => exact ⟨(counts, verified), rfl, rfl, rfl⟩
  | cons expected rest ih =>
    obtain ⟨⟨l, hl, hkey, hbytes, response, parts, hread, hresponse, hetag, hparts, hlength,
      hcontent⟩, hsized⟩ := hall expected List.mem_cons_self
    rw [List.map_cons, List.sum_cons] at hsum
    have hrest : total + expected.bytes + (rest.map Expected.bytes).sum ≤ limits.totalBytes := by
      omega
    obtain ⟨result, hresult, hmissing, hchanged⟩ := ih { counts with retained := counts.retained + 1 }
      (verified ++ [⟨expected.key, expected.bytes, expected.sha256⟩])
      (fun e he => hall e (List.mem_cons_of_mem _ he)) hrest
    refine ⟨result, ?_, hmissing, hchanged⟩
    have hback : readBack content limits expected.bytes response =
        .ok ⟨expected.bytes, expected.sha256, l.etag⟩ := by
      refine readBack_ok.mpr ⟨hresponse, hsized, parts, hparts, le_of_eq hlength, ?_⟩
      rw [hlength, hcontent, hetag]
    rw [compareFrom, (find?_listed hkeys).mpr ⟨hl, hkey⟩]
    simp only [hbytes, ne_eq, not_true_eq_false, if_false, within]
    rw [ensure_pos (by omega), hread]
    simp only [Except.mapError, ok_bind, hback]
    rw [if_neg (by simp)]
    exact hresult

/-! ## Evidence -/

/-- What verified evidence says: both snapshots are one and both inventories are one, the rows
are well formed and nothing is to be deleted, every ready asset has its objects, and the store
holds exactly the objects that are to be kept, with the bytes the rows name. -/
structure Exact (content : Bytes → String) (limits : RestoreMediaLimits) (store : StoreId)
    (answers : Answers) (s : Snapshot) (listed : List RestoreInventoryObject) : Prop where
  snapshot : fetch limits answers.snapshot = .ok s
  current : fetch limits answers.current = .ok s
  first : inventory limits store.storePrefix answers.first = .ok listed
  second : inventory limits store.storePrefix answers.second = .ok listed
  storeAfter : answers.storeAfter = store
  wellFormed : WellFormed limits store.storePrefix s
  settled : Settled limits s
  complete : Complete s
  keys : ∀ key, key ∈ listed.map RestoreInventoryObject.key ↔
    ∃ o ∈ s.objects, ∃ expected, o.Kept limits s expected ∧ expected.key = key
  bytes : ∀ o ∈ s.objects, ∀ expected, o.Kept limits s expected →
    Matches content answers.read listed expected
  total : ((s.retained limits).map Expected.bytes).sum ≤ limits.totalBytes

/-- There is no objection exactly when no count is raised and nothing drifted. -/
theorem objections_eq_nil {counts : MediaCounts} {p q : Prop} [Decidable p] [Decidable q] :
    objections counts p q = [] ↔ counts.missing = 0 ∧ counts.changed = 0 ∧ counts.orphan = 0 ∧
      counts.deletionObligations = 0 ∧ ¬p ∧ ¬q := by
  unfold objections
  simp only [List.append_eq_nil_iff, ite_eq_right_iff, List.cons_ne_nil, imp_false, ne_eq,
    not_not, and_assoc]

/-- The listed objects are those that are to be kept. -/
theorem listed_iff {s : Snapshot} (keys : List String)
    (hpending : s.pending limits = ∅) :
    ((keys.filter fun key => key ∈ s.closed limits).map keyEntry).toFinset = ∅ ∧
      (keys.filter fun key => key ∉ s.closed limits ∧
        key ∉ (s.retained limits).map Expected.key ∧ key ∉ s.pending limits).length = 0 ↔
      ∀ key ∈ keys, key ∉ s.closed limits ∧ key ∈ (s.retained limits).map Expected.key := by
  rw [toFinset_map_eq_empty, List.length_eq_zero_iff, List.filter_eq_nil_iff,
    List.filter_eq_nil_iff]
  constructor
  · intro h key hkey
    have hopen : key ∉ s.closed limits := fun hc => h.1 key hkey (decide_eq_true hc)
    refine ⟨hopen, ?_⟩
    by_contra hnot
    refine h.2 key hkey (decide_eq_true ⟨hopen, hnot, ?_⟩)
    rw [hpending]
    exact Finset.notMem_empty key
  · intro h
    refine ⟨fun key hkey hc => (h key hkey).1 (of_decide_eq_true hc), ?_⟩
    intro key hkey hc
    exact (of_decide_eq_true hc).2.1 (h key hkey).2

/-- The keys that are kept are not those that are gone. -/
theorem retained_not_closed {s : Snapshot} (hkeys : (s.objects.rows.map ObjectRow.objectKey).Nodup)
    {expected : Expected} (h : expected ∈ s.retained limits) :
    expected.key ∉ s.closed limits := by
  obtain ⟨o, ho, hkept⟩ := Snapshot.mem_retained.mp h
  intro hclosed
  unfold Snapshot.closed at hclosed
  rw [Finset.mem_union, List.mem_toFinset, List.mem_toFinset] at hclosed
  rcases hclosed with hclosed | hclosed
  · obtain ⟨o', ho', hkey⟩ := List.mem_map.mp hclosed
    obtain ⟨ho', hplace⟩ := Table.mem_select.mp ho'
    obtain rfl := List.inj_on_of_nodup_map hkeys ho' ho (hkey.trans hkept.key.symm)
    rw [ObjectRow.place_retained_iff.mpr hkept] at hplace
    cases hplace
  · obtain ⟨p, hp, hkey⟩ := List.mem_map.mp hclosed
    obtain ⟨-, hfree⟩ := (Snapshot.mem_strays hkeys).mp (List.mem_filter.mp hp).1
    exact hfree o ho (hkept.key.trans hkey.symm)

/-- Without a deletion nothing is pending. -/
theorem deletion_pending {s : Snapshot} (h : s.deletion limits = ∅) : s.pending limits = ∅ := by
  unfold Snapshot.deletion at h
  rw [Finset.union_eq_empty, Finset.image_eq_empty] at h
  exact h.2

/-- A run of `execute` that ends verified. -/
theorem execute_verified {c : Crypto} {store : StoreId} {answers : Answers}
    {result : RestoreMediaEvidence} (h : execute c content limits store answers = .ok result)
    (hstatus : result.status = .verified) :
    ∃ s listed, Exact content limits store answers s listed ∧
      result.snapshotSha256 = some (restoreMediaDigest c s.toJson) ∧
      result.storageScopeSha256 = some store.storageScopeSha256 ∧
      result.manifestSha256 ≠ none := by
  simp only [execute, after, bind_ok, mapError_ok, classify_ok, ensure_ok] at h
  obtain ⟨s, hs, classification, ⟨hwell, rfl⟩, first, hfirst, ⟨counts, verified⟩, hcompare,
    second, hsecond, current, hcurrent, -, hstore, h⟩ := h
  split at h
  · rw [pure_ok] at h
    subst h
    cases hstatus
  rename_i hreasons
  rw [not_not, objections_eq_nil] at hreasons
  rw [pure_ok] at h
  subst h
  obtain ⟨hmissing, hchanged, horphan, hdeletion, hinventory, hdatabase⟩ := hreasons
  have hapart := inventory_apart hfirst
  have hgrows := compareFrom_grows hcompare
  rw [Finset.card_eq_zero, Finset.union_eq_empty] at hdeletion
  have horphan' := hgrows.orphan.symm.trans horphan
  have hlisted := (listed_iff _ (deletion_pending hdeletion.1)).mp ⟨hdeletion.2, horphan'⟩
  obtain ⟨hmatches, htotal⟩ := compareFrom_clean hapart (Nat.zero_le _) hcompare hmissing hchanged
  have hvariants : s.missingVariants = 0 := Nat.le_zero.mp (hmissing ▸ hgrows.missing)
  have hsame : first = second := inventoryDigest_inj (not_not.mp hinventory)
  have hcurrent' : current = s := snapshotDigest_inj (not_not.mp hdatabase)
  refine ⟨s, first, ⟨hs, hcurrent' ▸ hcurrent, hfirst, hsame ▸ hsecond, hstore, hwell,
    (obligations_iff hwell.keys).mp hdeletion.1, missingVariants_iff.mp hvariants, ?_, ?_, ?_⟩,
    rfl, rfl, Option.some_ne_none _⟩
  · intro key
    constructor
    · intro hkey
      obtain ⟨e, he, rfl⟩ := List.mem_map.mp (hlisted key hkey).2
      obtain ⟨o, ho, hkept⟩ := Snapshot.mem_retained.mp he
      exact ⟨o, ho, e, hkept, rfl⟩
    · intro h
      obtain ⟨o, ho, e, hkept, rfl⟩ := h
      obtain ⟨l, hl, hkey, -⟩ := hmatches e (Snapshot.mem_retained.mpr ⟨o, ho, hkept⟩)
      exact List.mem_map.mpr ⟨l, hl, hkey⟩
  · intro o ho e hkept
    exact hmatches e (Snapshot.mem_retained.mpr ⟨o, ho, hkept⟩)
  · rw [Nat.zero_add] at htotal
    exact htotal

/-- Where the evidence is exact, `execute` ends verified. -/
theorem execute_of_exact {c : Crypto} {store : StoreId} {answers : Answers} {s : Snapshot}
    (h : Exact content limits store answers s listed) :
    ∃ result, execute c content limits store answers = .ok result ∧ result.status = .verified := by
  have hapart := inventory_apart h.first
  have hnone := (obligations_iff h.wellFormed.keys).mpr h.settled
  have hall : ∀ e ∈ s.retained limits,
      Matches content answers.read listed e ∧ e.bytes ≤ limits.objectBytes := by
    intro e he
    obtain ⟨o, ho, hkept⟩ := Snapshot.mem_retained.mp he
    exact ⟨h.bytes o ho e hkept, hkept.sized.2⟩
  have hlisted := (listed_iff (listed.map RestoreInventoryObject.key)
    (deletion_pending hnone)).mpr fun key hkey => by
      obtain ⟨o, ho, e, hkept, rfl⟩ := (h.keys key).mp hkey
      have he := Snapshot.mem_retained.mpr ⟨o, ho, hkept⟩
      exact ⟨retained_not_closed h.wellFormed.keys he, List.mem_map.mpr ⟨e, he, rfl⟩⟩
  obtain ⟨⟨counts, verified⟩, hcompare, hmissing, hchanged⟩ := compareFrom_total hapart {
    zeroCounts with
    deletionObligations := (s.deletion limits).card
    missing := s.missingVariants
    orphan := ((listed.map RestoreInventoryObject.key).filter fun key =>
      key ∉ s.closed limits ∧ key ∉ (s.retained limits).map Expected.key ∧
        key ∉ s.pending limits).length } [] hall
    (show 0 + _ ≤ _ by rw [Nat.zero_add]; exact h.total)
  have hgrows := compareFrom_grows hcompare
  unfold execute after
  rw [h.snapshot]
  simp only [Except.mapError, ok_bind]
  rw [classify_ok.mpr ⟨h.wellFormed, rfl⟩]
  simp only [ok_bind, h.first]
  rw [hcompare]
  simp only [ok_bind, h.second, h.current]
  rw [ensure_pos h.storeAfter]
  simp only [ok_bind]
  rw [if_neg]
  · exact ⟨_, rfl, rfl⟩
  rw [not_not, objections_eq_nil]
  refine ⟨?_, hchanged, ?_, ?_, not_not.mpr rfl, not_not.mpr rfl⟩
  · exact hmissing.trans (missingVariants_iff.mpr h.complete)
  · exact hgrows.orphan.trans hlisted.2
  · rw [Finset.card_eq_zero, Finset.union_eq_empty]
    exact ⟨hnone, hlisted.1⟩

/-- Verified evidence was made of a valid store that held what the tables said. -/
theorem reconcile_exact {c : Crypto} {id : StoreId} {answers : Answers}
    (h : (reconcile c content limits (some id) answers).status = .verified) :
    id.Valid ∧ ∃ s listed, Exact content limits id answers s listed := by
  unfold reconcile at h
  simp only at h
  by_cases hvalid : id.Valid
  · rw [if_neg (not_not.mpr hvalid)] at h
    cases hrun : execute c content limits id answers with
    | error stop =>
      obtain ⟨reason, snapshotSha256, counts⟩ := stop
      rw [hrun] at h
      cases h
    | ok result =>
      rw [hrun] at h
      obtain ⟨s, listed, hexact, -⟩ := execute_verified hrun h
      exact ⟨hvalid, s, listed, hexact⟩
  · rw [if_pos hvalid] at h
    cases h

/-- Where the evidence is exact, a reconciliation of a valid store answers so. -/
theorem reconcile_of_exact {c : Crypto} {id : StoreId} {answers : Answers} {s : Snapshot}
    (hvalid : id.Valid) (hexact : Exact content limits id answers s listed) :
    (reconcile c content limits (some id) answers).status = .verified := by
  obtain ⟨result, hrun, hstatus⟩ := execute_of_exact (c := c) hexact
  unfold reconcile
  simp only
  rw [if_neg (not_not.mpr hvalid), hrun]
  exact hstatus

/-- Evidence is verified exactly when the store holds what the tables say, both times. -/
theorem reconcile_verified_iff (c : Crypto) (content : Bytes → String)
    (limits : RestoreMediaLimits) (store : Option StoreId) (answers : Answers) :
    (reconcile c content limits store answers).status = .verified ↔
      ∃ id s listed, store = some id ∧ id.Valid ∧ Exact content limits id answers s listed := by
  constructor
  · intro h
    cases store with
    | none => cases h
    | some id =>
      obtain ⟨hvalid, s, listed, hexact⟩ := reconcile_exact h
      exact ⟨id, s, listed, rfl, hvalid, hexact⟩
  · intro h
    obtain ⟨id, s, listed, rfl, hvalid, hexact⟩ := h
    exact reconcile_of_exact hvalid hexact

end Rogichat.RestoreMedia
