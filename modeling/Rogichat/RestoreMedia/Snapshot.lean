import Rogichat.Lib.Encode
import Rogichat.Lib.Table

/-!
# The snapshot of the media tables

The rows `RestoreMediaRepository.snapshot` reads, with the columns and relations it selects, and
the JSON their digest is made of. Columns are texts, as in the schema; a date is its ISO text and
a 64-bit number is written as a text.

* **`Snapshot.encodes`** — a snapshot is read back from its canonical text.
-/

namespace Rogichat.RestoreMedia

open Lib

/-- A catalog entry an object serves. -/
structure CatalogEntry where
  id : String
  status : String
  approvedAt : Option String := none
  deriving DecidableEq

structure AvatarProfile where
  userId : String
  userStatus : String
  deriving DecidableEq

/-- The publication an asset was copied for. -/
structure PublicationCopy where
  id : String
  state : String
  sourceDeletedAt : Option String := none
  sourceOwnerStatus : String
  deriving DecidableEq

/-- A row of `media_assets` with what it serves. -/
structure AssetRow where
  id : String
  ownerUserId : String
  roomId : Option String := none
  kind : String
  state : String
  deletedAt : Option String := none
  expiresAt : String
  reservedBytes : Nat
  ownerStatus : String
  catalogEntry : Option CatalogEntry := none
  /-- The first attachment of a live message. -/
  attachments : List String := []
  avatarProfile : Option AvatarProfile := none
  /-- The first publication it is the source of. -/
  publicationSources : List String := []
  publicationCopy : Option PublicationCopy := none
  deriving DecidableEq

/-- A row of `media_objects`. -/
structure ObjectRow where
  id : String
  assetId : String
  attemptId : String
  variant : String
  objectKey : String
  state : String
  byteLength : Option Nat := none
  sha256 : Option String := none
  deriving DecidableEq

/-- A row of `media_cleanup_attempts`. -/
structure AttemptRow where
  objectId : String
  assetId : String
  attemptId : String
  objectKey : String
  writerAcknowledged : Bool := false
  deleteObservedAt : Option String := none
  deriving DecidableEq

/-- A row of `account_media_provenance`; the digest of its ledger entry is written in hex. -/
structure ProvenanceRow where
  requestId : String
  referenceKind : String
  referenceId : String
  assetId : String
  contentOwnerUserId : String
  assetOwnerUserId : String
  roomId : Option String := none
  requestedAt : String
  ledgerSha256 : String
  disposition : String
  deriving DecidableEq

/-- A row of `media_cleanup_checkpoints`. -/
structure CheckpointRow where
  assetId : String
  objectCursor : Option String := none
  deriving DecidableEq

instance : Row AssetRow where
  Key := String
  decEq := inferInstance
  keys r := [r.id]
  keyed _ := List.cons_ne_nil _ _

instance : Row ObjectRow where
  Key := String
  decEq := inferInstance
  keys r := [r.id]
  keyed _ := List.cons_ne_nil _ _

instance : Row AttemptRow where
  Key := String
  decEq := inferInstance
  keys r := [r.objectId]
  keyed _ := List.cons_ne_nil _ _

instance : Row ProvenanceRow where
  Key := String × String × String × String
  decEq := inferInstance
  keys r := [(r.requestId, r.referenceKind, r.referenceId, r.assetId)]
  keyed _ := List.cons_ne_nil _ _

instance : Row CheckpointRow where
  Key := String
  decEq := inferInstance
  keys r := [r.assetId]
  keyed _ := List.cons_ne_nil _ _

/-- The rows, each table in the order of its primary key. -/
structure Snapshot where
  assets : Table AssetRow := .empty
  objects : Table ObjectRow := .empty
  attempts : Table AttemptRow := .empty
  provenance : Table ProvenanceRow := .empty
  checkpoints : Table CheckpointRow := .empty

/-! ## JSON -/

def CatalogEntry.toJson (e : CatalogEntry) : Json :=
  .obj (["id", "status", "approved_at"].zip
    [.str e.id, .str e.status, Json.nullable .str e.approvedAt])

/-- An object of one field. -/
def wrap (key : String) (v : Json) : Json := .obj ([key].zip [v])

def AvatarProfile.toJson (p : AvatarProfile) : Json :=
  .obj (["user_id", "user"].zip [.str p.userId, wrap "status" (.str p.userStatus)])

/-- The source of a publication. -/
def PublicationCopy.source (p : PublicationCopy) : Json :=
  .obj (["deleted_at", "content_owner"].zip
    [Json.nullable .str p.sourceDeletedAt, wrap "status" (.str p.sourceOwnerStatus)])

def PublicationCopy.toJson (p : PublicationCopy) : Json :=
  .obj (["id", "publication"].zip
    [.str p.id, .obj (["state", "source"].zip [.str p.state, p.source])])

def assetKeys : List String :=
  ["id", "owner_user_id", "room_id", "kind", "state", "deleted_at", "expires_at",
    "reserved_bytes", "owner", "catalog_entry", "attachments", "avatar_profile",
    "publication_sources", "publication_copy"]

def AssetRow.values (r : AssetRow) : List Json :=
  [.str r.id, .str r.ownerUserId, Json.nullable .str r.roomId, .str r.kind, .str r.state,
    Json.nullable .str r.deletedAt, .str r.expiresAt, .bigint r.reservedBytes,
    wrap "status" (.str r.ownerStatus), Json.nullable CatalogEntry.toJson r.catalogEntry,
    .arr (r.attachments.map fun id => wrap "id" (.str id)),
    Json.nullable AvatarProfile.toJson r.avatarProfile,
    .arr (r.publicationSources.map fun id => wrap "id" (.str id)),
    Json.nullable PublicationCopy.toJson r.publicationCopy]

def AssetRow.toJson (r : AssetRow) : Json := .obj (assetKeys.zip r.values)

def objectKeys : List String :=
  ["id", "asset_id", "attempt_id", "variant", "object_key", "state", "byte_length", "sha256"]

def ObjectRow.toJson (r : ObjectRow) : Json :=
  .obj (objectKeys.zip
    [.str r.id, .str r.assetId, .str r.attemptId, .str r.variant, .str r.objectKey, .str r.state,
      Json.nullable .bigint r.byteLength, Json.nullable .str r.sha256])

def attemptKeys : List String :=
  ["object_id", "asset_id", "attempt_id", "object_key", "writer_acknowledged",
    "delete_observed_at"]

def AttemptRow.toJson (r : AttemptRow) : Json :=
  .obj (attemptKeys.zip
    [.str r.objectId, .str r.assetId, .str r.attemptId, .str r.objectKey,
      .bool r.writerAcknowledged, Json.nullable .str r.deleteObservedAt])

def provenanceKeys : List String :=
  ["request_id", "reference_kind", "reference_id", "asset_id", "content_owner_user_id",
    "asset_owner_user_id", "room_id", "requested_at", "ledger_sha256", "disposition"]

def ProvenanceRow.toJson (r : ProvenanceRow) : Json :=
  .obj (provenanceKeys.zip
    [.str r.requestId, .str r.referenceKind, .str r.referenceId, .str r.assetId,
      .str r.contentOwnerUserId, .str r.assetOwnerUserId, Json.nullable .str r.roomId,
      .str r.requestedAt, .str r.ledgerSha256, .str r.disposition])

def CheckpointRow.toJson (r : CheckpointRow) : Json :=
  .obj (["asset_id", "object_cursor"].zip [.str r.assetId, Json.nullable .str r.objectCursor])

def Snapshot.toJson (s : Snapshot) : Json :=
  .obj (["assets", "objects", "attempts", "provenance", "checkpoints"].zip
    [.arr (s.assets.rows.map AssetRow.toJson), .arr (s.objects.rows.map ObjectRow.toJson),
      .arr (s.attempts.rows.map AttemptRow.toJson),
      .arr (s.provenance.rows.map ProvenanceRow.toJson),
      .arr (s.checkpoints.rows.map CheckpointRow.toJson)])

/-! ## Reading a snapshot back -/

/-- A nested value is read off its JSON. -/
theorem wrap_encodes {α : Type} (key : String) {f : α → Json} (hf : Encodes f) :
    Encodes fun a => wrap key (f a) := by
  refine .record (List.nodup_singleton key) (fun _ => rfl) ?_ ?_
  · intro a v hv
    obtain rfl := List.mem_singleton.mp hv
    exact hf.distinct a
  · intro a b h
    exact hf.inj a b (List.cons.inj h).1

theorem CatalogEntry.encodes : Encodes CatalogEntry.toJson := by
  refine .record (by decide) (fun _ => rfl) ?_ ?_
  · intro e v hv
    simp only [List.mem_cons, List.not_mem_nil, or_false] at hv
    rcases hv with rfl | rfl | rfl
    · exact Encodes.str.distinct _
    · exact Encodes.str.distinct _
    · exact Encodes.nullable_str.distinct _
  · intro a b h
    simp only [List.map_cons, List.map_nil, Json.sorted_str, List.cons.injEq, Json.str.injEq,
      and_true] at h
    obtain ⟨hid, hstatus, happroved⟩ := h
    cases a
    cases b
    simp only [CatalogEntry.mk.injEq]
    exact ⟨hid, hstatus, Encodes.nullable_str.inj _ _ happroved⟩

theorem AvatarProfile.encodes : Encodes AvatarProfile.toJson := by
  have hstatus := wrap_encodes "status" Encodes.str
  refine .record (by decide) (fun _ => rfl) ?_ ?_
  · intro e v hv
    simp only [List.mem_cons, List.not_mem_nil, or_false] at hv
    rcases hv with rfl | rfl
    · exact Encodes.str.distinct _
    · exact hstatus.distinct _
  · intro a b h
    simp only [List.map_cons, List.map_nil, Json.sorted_str, List.cons.injEq, Json.str.injEq,
      and_true] at h
    cases a
    cases b
    simp only [AvatarProfile.mk.injEq]
    exact ⟨h.1, hstatus.inj _ _ h.2⟩

/-- The publication of a copy, apart from its id. -/
theorem PublicationCopy.encodes : Encodes PublicationCopy.toJson := by
  have hstatus := wrap_encodes "status" Encodes.str
  have hsource : ∀ p : PublicationCopy, p.source.Distinct := by
    intro p
    refine Json.distinct_zip (by decide) rfl ?_
    intro v hv
    simp only [List.mem_cons, List.not_mem_nil, or_false] at hv
    rcases hv with rfl | rfl
    · exact Encodes.nullable_str.distinct _
    · exact hstatus.distinct _
  refine .record (by decide) (fun _ => rfl) ?_ ?_
  · intro p v hv
    simp only [List.mem_cons, List.not_mem_nil, or_false] at hv
    rcases hv with rfl | rfl
    · exact Encodes.str.distinct _
    · refine Json.distinct_zip (by decide) rfl ?_
      intro v hv
      simp only [List.mem_cons, List.not_mem_nil, or_false] at hv
      rcases hv with rfl | rfl
      · exact Encodes.str.distinct _
      · exact hsource p
  · intro a b h
    simp only [List.map_cons, List.map_nil, Json.sorted_str, List.cons.injEq, Json.str.injEq,
      and_true] at h
    obtain ⟨hid, hpublication⟩ := h
    have hpair := Json.values_of_sorted ["state", "source"] _ _ (by decide) rfl rfl hpublication
    simp only [List.map_cons, List.map_nil, Json.sorted_str, List.cons.injEq, Json.str.injEq,
      and_true] at hpair
    have hvalues := Json.values_of_sorted ["deleted_at", "content_owner"] _ _ (by decide) rfl rfl
      hpair.2
    simp only [List.map_cons, List.map_nil, List.cons.injEq, and_true] at hvalues
    cases a
    cases b
    simp only [PublicationCopy.mk.injEq]
    exact ⟨hid, hpair.1, Encodes.nullable_str.inj _ _ hvalues.1, hstatus.inj _ _ hvalues.2⟩

/-- An optional record. -/
theorem nullable_record {α : Type} {f : α → Json} (hf : Encodes f)
    (hobj : ∀ a, ∃ fs, f a = .obj fs) : Encodes (Json.nullable f) := by
  refine hf.nullable ?_
  intro a
  obtain ⟨fs, hfs⟩ := hobj a
  rw [hfs]
  exact Encodes.sorted_obj_ne fs

theorem nullable_bigint : Encodes (Json.nullable Json.bigint) := by
  refine Encodes.bigint.nullable ?_
  intro n
  simp [Json.bigint]

theorem AssetRow.encodes : Encodes AssetRow.toJson := by
  have hstatus := wrap_encodes "status" Encodes.str
  have hids := Encodes.list (wrap_encodes "id" Encodes.str)
  have hcatalog := nullable_record CatalogEntry.encodes fun _ => ⟨_, rfl⟩
  have havatar := nullable_record AvatarProfile.encodes fun _ => ⟨_, rfl⟩
  have hcopy := nullable_record PublicationCopy.encodes fun _ => ⟨_, rfl⟩
  refine .record (by decide) (fun _ => rfl) ?_ ?_
  · intro r v hv
    simp only [values, List.mem_cons, List.not_mem_nil, or_false] at hv
    rcases hv with rfl | rfl | rfl | rfl | rfl | rfl | rfl | rfl | rfl | rfl | rfl | rfl | rfl | rfl
    · exact Encodes.str.distinct _
    · exact Encodes.str.distinct _
    · exact Encodes.nullable_str.distinct _
    · exact Encodes.str.distinct _
    · exact Encodes.str.distinct _
    · exact Encodes.nullable_str.distinct _
    · exact Encodes.str.distinct _
    · exact Encodes.bigint.distinct _
    · exact hstatus.distinct _
    · exact hcatalog.distinct _
    · exact hids.distinct _
    · exact havatar.distinct _
    · exact hids.distinct _
    · exact hcopy.distinct _
  · intro a b h
    simp only [values, List.map_cons, List.map_nil, Json.sorted_str, List.cons.injEq,
      Json.str.injEq, and_true] at h
    obtain ⟨hid, howner, hroom, hkind, hstate, hdeleted, hexpires, hreserved, hownerStatus,
      hentry, hattachments, hprofile, hsources, hpublication⟩ := h
    cases a
    cases b
    simp only [AssetRow.mk.injEq]
    exact ⟨hid, howner, Encodes.nullable_str.inj _ _ hroom, hkind, hstate,
      Encodes.nullable_str.inj _ _ hdeleted, hexpires, Encodes.bigint.inj _ _ hreserved,
      hstatus.inj _ _ hownerStatus, hcatalog.inj _ _ hentry, hids.inj _ _ hattachments,
      havatar.inj _ _ hprofile, hids.inj _ _ hsources, hcopy.inj _ _ hpublication⟩

theorem ObjectRow.encodes : Encodes ObjectRow.toJson := by
  refine .record (by decide) (fun _ => rfl) ?_ ?_
  · intro r v hv
    simp only [List.mem_cons, List.not_mem_nil, or_false] at hv
    rcases hv with rfl | rfl | rfl | rfl | rfl | rfl | rfl | rfl
    · exact Encodes.str.distinct _
    · exact Encodes.str.distinct _
    · exact Encodes.str.distinct _
    · exact Encodes.str.distinct _
    · exact Encodes.str.distinct _
    · exact Encodes.str.distinct _
    · exact nullable_bigint.distinct _
    · exact Encodes.nullable_str.distinct _
  · intro a b h
    simp only [List.map_cons, List.map_nil, Json.sorted_str, List.cons.injEq, Json.str.injEq,
      and_true] at h
    obtain ⟨hid, hasset, hattempt, hvariant, hkey, hstate, hbytes, hsha⟩ := h
    cases a
    cases b
    simp only [ObjectRow.mk.injEq]
    exact ⟨hid, hasset, hattempt, hvariant, hkey, hstate, nullable_bigint.inj _ _ hbytes,
      Encodes.nullable_str.inj _ _ hsha⟩

theorem AttemptRow.encodes : Encodes AttemptRow.toJson := by
  refine .record (by decide) (fun _ => rfl) ?_ ?_
  · intro r v hv
    simp only [List.mem_cons, List.not_mem_nil, or_false] at hv
    rcases hv with rfl | rfl | rfl | rfl | rfl | rfl
    · exact Encodes.str.distinct _
    · exact Encodes.str.distinct _
    · exact Encodes.str.distinct _
    · exact Encodes.str.distinct _
    · exact Encodes.bool.distinct _
    · exact Encodes.nullable_str.distinct _
  · intro a b h
    simp only [List.map_cons, List.map_nil, Json.sorted_str, Json.sorted_bool, List.cons.injEq,
      Json.str.injEq, Json.bool.injEq, and_true] at h
    obtain ⟨hobject, hasset, hattempt, hkey, hacknowledged, hobserved⟩ := h
    cases a
    cases b
    simp only [AttemptRow.mk.injEq]
    exact ⟨hobject, hasset, hattempt, hkey, hacknowledged,
      Encodes.nullable_str.inj _ _ hobserved⟩

theorem ProvenanceRow.encodes : Encodes ProvenanceRow.toJson := by
  refine .record (by decide) (fun _ => rfl) ?_ ?_
  · intro r v hv
    simp only [List.mem_cons, List.not_mem_nil, or_false] at hv
    rcases hv with rfl | rfl | rfl | rfl | rfl | rfl | rfl | rfl | rfl | rfl
    · exact Encodes.str.distinct _
    · exact Encodes.str.distinct _
    · exact Encodes.str.distinct _
    · exact Encodes.str.distinct _
    · exact Encodes.str.distinct _
    · exact Encodes.str.distinct _
    · exact Encodes.nullable_str.distinct _
    · exact Encodes.str.distinct _
    · exact Encodes.str.distinct _
    · exact Encodes.str.distinct _
  · intro a b h
    simp only [List.map_cons, List.map_nil, Json.sorted_str, List.cons.injEq, Json.str.injEq,
      and_true] at h
    obtain ⟨hrequest, hkind, hreference, hasset, hcontent, howner, hroom, hrequested, hledger,
      hdisposition⟩ := h
    cases a
    cases b
    simp only [ProvenanceRow.mk.injEq]
    exact ⟨hrequest, hkind, hreference, hasset, hcontent, howner,
      Encodes.nullable_str.inj _ _ hroom, hrequested, hledger, hdisposition⟩

theorem CheckpointRow.encodes : Encodes CheckpointRow.toJson := by
  refine .record (by decide) (fun _ => rfl) ?_ ?_
  · intro r v hv
    simp only [List.mem_cons, List.not_mem_nil, or_false] at hv
    rcases hv with rfl | rfl
    · exact Encodes.str.distinct _
    · exact Encodes.nullable_str.distinct _
  · intro a b h
    simp only [List.map_cons, List.map_nil, Json.sorted_str, List.cons.injEq, Json.str.injEq,
      and_true] at h
    cases a
    cases b
    simp only [CheckpointRow.mk.injEq]
    exact ⟨h.1, Encodes.nullable_str.inj _ _ h.2⟩

theorem table_ext {ρ : Type} [Row ρ] {t u : Table ρ} (h : t.rows = u.rows) : t = u := by
  cases t
  cases u
  cases h
  rfl

/-- A snapshot is read back from its canonical text. -/
theorem Snapshot.encodes : Encodes Snapshot.toJson := by
  have hassets := Encodes.list AssetRow.encodes
  have hobjects := Encodes.list ObjectRow.encodes
  have hattempts := Encodes.list AttemptRow.encodes
  have hprovenance := Encodes.list ProvenanceRow.encodes
  have hcheckpoints := Encodes.list CheckpointRow.encodes
  refine .record (by decide) (fun _ => rfl) ?_ ?_
  · intro s v hv
    simp only [List.mem_cons, List.not_mem_nil, or_false] at hv
    rcases hv with rfl | rfl | rfl | rfl | rfl
    · exact hassets.distinct _
    · exact hobjects.distinct _
    · exact hattempts.distinct _
    · exact hprovenance.distinct _
    · exact hcheckpoints.distinct _
  · intro a b h
    simp only [List.map_cons, List.map_nil, List.cons.injEq, and_true] at h
    obtain ⟨ha, ho, ht, hp, hc⟩ := h
    cases a
    cases b
    simp only [Snapshot.mk.injEq]
    exact ⟨table_ext (hassets.inj _ _ ha), table_ext (hobjects.inj _ _ ho),
      table_ext (hattempts.inj _ _ ht), table_ext (hprovenance.inj _ _ hp),
      table_ext (hcheckpoints.inj _ _ hc)⟩

end Rogichat.RestoreMedia
