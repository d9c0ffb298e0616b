import Mathlib.Data.Finset.Card
import Rogichat.Lib.Bytes
import Rogichat.Lib.Outcome
import Rogichat.Lib.Text
import Rogichat.RestoreMedia.Snapshot
import Rogichat.Restore.Model

/-!
# Evidence that restored media is what the database says

`RestoreMediaService` compares a snapshot of the media tables with the objects in the store: it
lists the store twice, reads back every object that is to be kept, and reads the tables again.
It writes nothing; what it returns is evidence, of which it remembers what it has verified.

What the database and the store answer is an argument, with the deadline and the caller's
cancellation: an answer that does not come is an answer with their reason. `Date.parse` and the
test for a safe integer have been applied to what is listed.
-/

namespace Rogichat.RestoreMedia

open Lib
open Restore (Crypto MediaCounts MediaStatus RestoreMediaEvidence)

inductive RestoreMediaReason
  | missing | changed | orphan | deletionObligation | databaseDrift | inventoryDrift
  | invalidDatabase | storageUnavailable | databaseUnavailable | limitExceeded | cancelled
  | deadlineExceeded | configurationUnavailable
  deriving DecidableEq

def RestoreMediaReason.text : RestoreMediaReason → String
  | .missing => "MISSING"
  | .changed => "CHANGED"
  | .orphan => "ORPHAN"
  | .deletionObligation => "DELETION_OBLIGATION"
  | .databaseDrift => "DATABASE_DRIFT"
  | .inventoryDrift => "INVENTORY_DRIFT"
  | .invalidDatabase => "INVALID_DATABASE"
  | .storageUnavailable => "STORAGE_UNAVAILABLE"
  | .databaseUnavailable => "DATABASE_UNAVAILABLE"
  | .limitExceeded => "LIMIT_EXCEEDED"
  | .cancelled => "CANCELLED"
  | .deadlineExceeded => "DEADLINE_EXCEEDED"
  | .configurationUnavailable => "CONFIGURATION_UNAVAILABLE"

structure RestoreMediaLimits where
  rows : Nat
  objects : Nat
  pages : Nat
  objectBytes : Nat
  totalBytes : Nat
  deriving DecidableEq

/-! ## Texts -/

/-- The code units JavaScript counts and compares a text by. -/
def utf16 (s : String) : List Nat :=
  s.toList.flatMap fun c =>
    if c.toNat < 0x10000 then [c.toNat]
    else [0xD800 + (c.toNat - 0x10000) / 1024, 0xDC00 + (c.toNat - 0x10000) % 1024]

/-- `a < b` on texts. -/
def TextLt (a b : String) : Prop := utf16 a < utf16 b

instance (a b : String) : Decidable (TextLt a b) := inferInstanceAs (Decidable (utf16 a < utf16 b))

def prefixes : List String := ["local", "test", "qa", "production"]

/-- `[a-f0-9]{8}-[a-f0-9]{4}-[1-8][a-f0-9]{3}-[89ab][a-f0-9]{3}-[a-f0-9]{12}`. -/
def isMediaId (s : String) : Bool :=
  Text.fits (Text.uuidPattern fun c => '1' ≤ c && c ≤ '8') s.toList

def keyVariants : List String := ["input", "image", "video", "poster", "sheet", "mr"]

/-- The key of a variant an attempt has written. -/
def mediaKey (storePrefix assetId attemptId variant : String) : Option String :=
  if storePrefix ∈ prefixes ∧ isMediaId assetId = true ∧ isMediaId attemptId = true ∧
      variant ∈ keyVariants then
    some (storePrefix ++ "/" ++ assetId ++ "/" ++ attemptId ++ "/" ++ variant)
  else none

/-- `key.split('/').at(-1)`. -/
def lastPart (key : String) : String :=
  String.ofList (key.toList.reverse.takeWhile fun c => c ≠ '/').reverse

/-! ## Classifying the rows -/

namespace Snapshot

variable (s : Snapshot)

def asset (id : String) : Option AssetRow := s.assets.find? fun a => a.id = id

/-- The attempt recorded for an object. -/
def proof (object : ObjectRow) : Option AttemptRow :=
  s.attempts.find? fun p => p.objectId = object.id

/-- The object under a key; of several the last one. -/
def objectAt (key : String) : Option ObjectRow :=
  s.objects.rows.reverse.find? fun o => o.objectKey = key

/-- The asset was revoked by a deletion. -/
def Revoked (asset : AssetRow) : Prop :=
  s.provenance.Has fun p => p.disposition = "REVOKED" ∧ p.assetId = asset.id

/-- A deletion of the asset is under way. -/
def Checkpointed (asset : AssetRow) : Prop := s.checkpoints.Has fun c => c.assetId = asset.id

instance (asset : AssetRow) : Decidable (s.Revoked asset) :=
  inferInstanceAs (Decidable (s.provenance.Has _))

instance (asset : AssetRow) : Decidable (s.Checkpointed asset) :=
  inferInstanceAs (Decidable (s.checkpoints.Has _))

end Snapshot

/-- Its deletion has begun, or was asked for. -/
def AssetRow.Ending (a : AssetRow) (s : Snapshot) : Prop :=
  a.state ∉ ["READY", "DELETED"] ∨
    (a.state = "READY" ∧ (a.deletedAt ≠ none ∨ s.Revoked a ∨ s.Checkpointed a)) ∨
    (a.state = "DELETED" ∧ a.reservedBytes ≠ 0)

/-- What it was registered or copied for is gone. -/
def AssetRow.Withdrawn (a : AssetRow) : Prop :=
  (∃ e ∈ a.catalogEntry, e.status = "REVOKED") ∨
    ∃ c ∈ a.publicationCopy, c.state = "REVOKED" ∨ c.sourceDeletedAt ≠ none ∨
      c.sourceOwnerStatus ∈ ["DELETING", "DELETED"]

/-- A sticker of the service. -/
def AssetRow.Service (a : AssetRow) : Prop :=
  ∃ e ∈ a.catalogEntry, e.approvedAt ≠ none ∧ e.status ∈ ["ACTIVE", "RETIRED"]

/-- Somebody else's content shows it. -/
def AssetRow.Shared (a : AssetRow) : Prop :=
  a.attachments ≠ [] ∨ a.publicationSources ≠ [] ∨
    ∃ p ∈ a.avatarProfile, p.userStatus ∈ ["ACTIVE", "SUSPENDED"]

/-- Its owner is gone and nothing else holds it. -/
def AssetRow.Orphaned (a : AssetRow) : Prop :=
  a.state = "READY" ∧ a.ownerStatus ∉ ["ACTIVE", "SUSPENDED"] ∧ ¬a.Service ∧ ¬a.Shared

/-- The asset is to be deleted. -/
def AssetRow.Obliged (a : AssetRow) (s : Snapshot) : Prop :=
  a.Ending s ∨ a.Withdrawn ∨ a.Orphaned

instance (a : AssetRow) (s : Snapshot) : Decidable (a.Ending s) :=
  inferInstanceAs (Decidable (_ ∨ _))
instance (a : AssetRow) : Decidable a.Withdrawn := inferInstanceAs (Decidable (_ ∨ _))
instance (a : AssetRow) : Decidable a.Service := inferInstanceAs (Decidable (∃ e ∈ _, _))
instance (a : AssetRow) : Decidable a.Shared := inferInstanceAs (Decidable (_ ∨ _))
instance (a : AssetRow) : Decidable a.Orphaned := inferInstanceAs (Decidable (_ ∧ _))
instance (a : AssetRow) (s : Snapshot) : Decidable (a.Obliged s) :=
  inferInstanceAs (Decidable (_ ∨ _))

/-- What an object to be kept must look like. -/
structure Expected where
  key : String
  bytes : Nat
  sha256 : String
  deriving DecidableEq

/-- What becomes of an object. -/
inductive Place
  | closed
  | retained (expected : Expected)
  | pending
  deriving DecidableEq

/-- The place of an object whose writes are not in question. -/
def ObjectRow.kept (object : ObjectRow) (limits : RestoreMediaLimits) (s : Snapshot) : Place :=
  match s.asset object.assetId, object.byteLength, object.sha256 with
  | some asset, some bytes, some sha256 =>
    if asset.state = "READY" ∧ ¬asset.Obliged s ∧ object.state ∈ ["READY", "STORED"] ∧
        0 < bytes ∧ bytes ≤ limits.objectBytes ∧ Text.isSha256Hex sha256 = true then
      .retained ⟨object.objectKey, bytes, sha256⟩
    else .pending
  | _, _, _ => .pending

/-- Where an object belongs: kept, closed or pending. -/
def ObjectRow.place (object : ObjectRow) (limits : RestoreMediaLimits) (s : Snapshot) : Place :=
  match s.proof object with
  | some proof =>
    if proof.writerAcknowledged = false ∨
        (proof.deleteObservedAt ≠ none ∧ object.state ≠ "DELETED") then .pending
    else if object.state = "DELETED" ∧ proof.deleteObservedAt ≠ none then .closed
    else object.kept limits s
  | none => object.kept limits s

/-- The checks of an object's row. -/
def ObjectRow.checked (object : ObjectRow) (limits : RestoreMediaLimits) (storePrefix : String)
    (s : Snapshot) (seen : List String) : Except RestoreMediaReason Unit := do
  let asset ← require (s.asset object.assetId) .invalidDatabase
  ensure (object.objectKey ∉ seen) .invalidDatabase
  ensure (mediaKey storePrefix object.assetId object.attemptId object.variant =
    some object.objectKey) .invalidDatabase
  ensure (∀ proof ∈ s.proof object, proof.assetId = object.assetId ∧
    proof.attemptId = object.attemptId ∧ proof.objectKey = object.objectKey) .invalidDatabase
  ensure (¬(asset.state = "READY" ∧ object.state ∈ ["READY", "STORED"] ∧
    ∃ bytes ∈ object.byteLength, limits.objectBytes < bytes)) .limitExceeded

/-- The checks of the objects, under keys that were not seen before. -/
def checkObjects (limits : RestoreMediaLimits) (storePrefix : String) (s : Snapshot) :
    (seen : List String) → List ObjectRow → Except RestoreMediaReason Unit
  | _, [] => pure ()
  | seen, object :: rest => do
    object.checked limits storePrefix s seen
    checkObjects limits storePrefix s (object.objectKey :: seen) rest

/-- The checks of an attempt's row. -/
def AttemptRow.checked (proof : AttemptRow) (storePrefix : String) (s : Snapshot) :
    Except RestoreMediaReason Unit := do
  ensure (mediaKey storePrefix proof.assetId proof.attemptId (lastPart proof.objectKey) =
    some proof.objectKey) .invalidDatabase
  ensure (∀ object ∈ s.objectAt proof.objectKey, object.id = proof.objectId) .invalidDatabase

/-- The objects an asset of this kind has. -/
def variantsOf (kind : String) : List String :=
  if kind = "VIDEO" then ["video", "poster"] else ["image"]

/-- The objects of an asset that are ready. -/
def Snapshot.ready (s : Snapshot) (asset : AssetRow) : List ObjectRow :=
  s.objects.select fun o => o.state = "READY" ∧ o.assetId = asset.id

/-- The checks of a ready asset's row. -/
def AssetRow.checked (asset : AssetRow) (s : Snapshot) : Except RestoreMediaReason Unit := do
  if asset.state = "READY" then
    ensure (asset.kind ∈ ["PHOTO", "AVATAR", "STICKER", "VIDEO"]) .invalidDatabase
    ensure (∀ row ∈ s.ready asset, row.variant ∈ variantsOf asset.kind) .invalidDatabase
    ensure (∀ variant ∈ variantsOf asset.kind,
      ((s.ready asset).filter fun row => row.variant = variant).length ≤ 1) .invalidDatabase
    ensure (¬(asset.kind = "VIDEO" ∧
      1 < ((s.ready asset).map ObjectRow.attemptId).dedup.length)) .invalidDatabase

/-- How many objects of ready assets there are no rows of. -/
def Snapshot.missingVariants (s : Snapshot) : Nat :=
  ((s.assets.select fun a => a.state = "READY").map fun asset =>
    ((variantsOf asset.kind).filter fun variant =>
      decide (∀ row ∈ s.ready asset, row.variant ≠ variant)).length).sum

/-- What the tables say of the store. -/
structure Classification where
  retained : List Expected
  closed : Finset String
  pending : Finset String
  deletion : Finset String
  missingVariants : Nat

/-- An entry of the deletion set, for an asset. -/
def assetEntry (id : String) : String := "asset:" ++ id
/-- An entry of the deletion set, for a key. -/
def keyEntry (key : String) : String := "key:" ++ key

/-- Attempts whose object row is gone. -/
def Snapshot.strays (s : Snapshot) : List AttemptRow :=
  s.attempts.select fun p => s.objectAt p.objectKey = none

/-- The attempt is over: it was written and its object has been deleted. -/
def AttemptRow.Over (proof : AttemptRow) : Prop :=
  proof.writerAcknowledged = true ∧ proof.deleteObservedAt ≠ none

instance (proof : AttemptRow) : Decidable proof.Over := inferInstanceAs (Decidable (_ ∧ _))

namespace Snapshot

variable (s : Snapshot) (limits : RestoreMediaLimits)

/-- What has to be in the store. -/
def retained : List Expected :=
  s.objects.rows.filterMap fun object =>
    match object.place limits s with
    | .retained expected => some expected
    | _ => none

/-- What may no longer be in the store. -/
def closed : Finset String :=
  ((s.objects.select fun object => object.place limits s = .closed).map
    ObjectRow.objectKey).toFinset ∪
    ((s.strays.filter fun p => p.Over).map AttemptRow.objectKey).toFinset

/-- What may be in the store or not. -/
def pending : Finset String :=
  ((s.objects.select fun object => object.place limits s = .pending).map
    ObjectRow.objectKey).toFinset ∪
    ((s.strays.filter fun p => ¬p.Over).map AttemptRow.objectKey).toFinset

/-- The assets that are to be deleted, and those the tables name but do not have. -/
def obliged : List String :=
  ((s.assets.select fun a => a.Obliged s).map AssetRow.id) ++
    ((s.provenance.select fun p => s.asset p.assetId = none).map ProvenanceRow.assetId) ++
    ((s.checkpoints.select fun c => s.asset c.assetId = none).map CheckpointRow.assetId)

/-- What a deletion still has to do. -/
def deletion : Finset String :=
  (s.obliged.map assetEntry).toFinset ∪ (s.pending limits).image keyEntry

end Snapshot

/-- The rows are checked one by one; where they go does not depend on the checks. -/
def classify (limits : RestoreMediaLimits) (storePrefix : String) (s : Snapshot) :
    Except RestoreMediaReason Classification := do
  checkObjects limits storePrefix s [] s.objects.rows
  s.attempts.rows.forM fun proof => proof.checked storePrefix s
  s.assets.rows.forM fun asset => asset.checked s
  pure {
    retained := s.retained limits
    closed := s.closed limits
    pending := s.pending limits
    deletion := s.deletion limits
    missingVariants := s.missingVariants }

/-! ## The inventory -/

/-- An object as it is listed. -/
structure Listed where
  key : String
  /-- `none`: not a safe integer, or negative. -/
  bytes : Option Nat
  etag : String
  /-- `none`: not a text that `Date.parse` reads. -/
  modified : Option String

/-- An object as the store lists it. -/
structure RestoreInventoryObject where
  key : String
  bytes : Nat
  etag : String
  modified : String
  deriving DecidableEq

structure Page where
  objects : List Listed
  next : Option String

/-- The next object of a listing in the order of keys. -/
def admitObject (limits : RestoreMediaLimits) (storePrefix : String)
    (objects : List RestoreInventoryObject) (o : Listed) :
    Except RestoreMediaReason (List RestoreInventoryObject) := do
  let previous := (objects.getLast?.map RestoreInventoryObject.key).getD ""
  ensure ((storePrefix ++ "/").toList <+: o.key.toList ∧ TextLt previous o.key ∧
    (utf16 o.key).length ≤ 1024) .storageUnavailable
  let bytes ← require o.bytes .storageUnavailable
  ensure (o.etag ≠ "" ∧ (utf16 o.etag).length ≤ 256) .storageUnavailable
  let modified ← require o.modified .storageUnavailable
  ensure (objects.length + 1 ≤ limits.objects) .limitExceeded
  pure (objects ++ [⟨o.key, bytes, o.etag, modified⟩])

/-- The pages of a listing after a cursor. -/
def inventoryFrom (limits : RestoreMediaLimits) (storePrefix : String)
    (list : Option String → Except RestoreMediaReason Page) :
    (pages : Nat) → (cursor : Option String) → (cursors : List String) →
      (objects : List RestoreInventoryObject) →
      Except RestoreMediaReason (List RestoreInventoryObject)
  | 0, _, _, _ => throw .limitExceeded
  | pages + 1, cursor, cursors, objects => do
    let page ← list cursor
    ensure (page.objects.length ≤ 1000 ∧ ∀ next ∈ page.next, next ≠ "" ∧
      (utf16 next).length ≤ 2048 ∧ next ∉ cursors) .storageUnavailable
    let objects ← page.objects.foldlM (admitObject limits storePrefix) objects
    match page.next with
    | none => pure objects
    | some next =>
      inventoryFrom limits storePrefix list pages (some next) (next :: cursors) objects

/-- The listing from its first page. -/
def inventory (limits : RestoreMediaLimits) (storePrefix : String)
    (list : Option String → Except RestoreMediaReason Page) :
    Except RestoreMediaReason (List RestoreInventoryObject) :=
  inventoryFrom limits storePrefix list limits.pages none [] []

/-! ## Reading objects back -/

/-- What the store answers when an object is read. -/
structure Response where
  bytes : Nat
  etag : String
  chunks : List (Except RestoreMediaReason Bytes)

/-- The bytes of a stream, up to a limit. -/
def collect (limit : Nat) : List (Except RestoreMediaReason Bytes) → Bytes →
    Except RestoreMediaReason Bytes
  | [], received => pure received
  | chunk :: rest, received => do
    let chunk ← chunk
    ensure (received.length + chunk.length ≤ limit) .limitExceeded
    collect limit rest (received ++ chunk)

/-- What was read of an object. -/
structure Actual where
  bytes : Nat
  sha256 : String
  etag : String
  deriving DecidableEq

/-- `content` is the SHA-256 of a stream. -/
def readBack (content : Bytes → String) (limits : RestoreMediaLimits) (expectedBytes : Nat)
    (response : Response) : Except RestoreMediaReason Actual := do
  ensure (response.bytes = expectedBytes ∧ response.bytes ≤ limits.objectBytes)
    .storageUnavailable
  let received ← collect (min expectedBytes limits.objectBytes) response.chunks []
  pure ⟨received.length, content received, response.etag⟩

/-! ## Reconciling -/

/-- An object that was read back as the database has it. -/
structure Verified where
  key : String
  bytes : Nat
  sha256 : String
  deriving DecidableEq

def RestoreInventoryObject.toJson (o : RestoreInventoryObject) : Json :=
  .obj (["key", "bytes", "etag", "modified"].zip
    [.str o.key, .num o.bytes, .str o.etag, .str o.modified])

def Verified.toJson (v : Verified) : Json :=
  .obj (["key", "bytes", "sha256"].zip [.str v.key, .num v.bytes, .str v.sha256])

def inventoryJson (objects : List RestoreInventoryObject) : Json :=
  .arr (objects.map RestoreInventoryObject.toJson)

/-- The digest of a canonical text. -/
def restoreMediaDigest (c : Crypto) (v : Json) : String := c.sha256 v.canonical

/-- A failure, with the counts so far. -/
def within {α : Type} (counts : MediaCounts) (x : Except RestoreMediaReason α) :
    Except (RestoreMediaReason × MediaCounts) α :=
  x.mapError fun reason => (reason, counts)

/-- Every object that is to be kept is read back and compared. -/
def compareFrom (content : Bytes → String) (limits : RestoreMediaLimits)
    (read : String → Except RestoreMediaReason Response) (first : List RestoreInventoryObject) :
    (total : Nat) → MediaCounts → List Verified → List Expected →
      Except (RestoreMediaReason × MediaCounts) (MediaCounts × List Verified)
  | _, counts, verified, [] => pure (counts, verified)
  | total, counts, verified, expected :: rest =>
    match first.find? fun o => o.key = expected.key with
    | none =>
      compareFrom content limits read first total { counts with missing := counts.missing + 1 }
        verified rest
    | some listed =>
      if listed.bytes ≠ expected.bytes then
        compareFrom content limits read first total { counts with changed := counts.changed + 1 }
          verified rest
      else do
        within counts (ensure (total + expected.bytes ≤ limits.totalBytes) .limitExceeded)
        let response ← within counts (read expected.key)
        let actual ← within counts (readBack content limits expected.bytes response)
        if actual.bytes ≠ expected.bytes ∨ actual.sha256 ≠ expected.sha256 ∨
            actual.etag ≠ listed.etag then
          compareFrom content limits read first (total + expected.bytes)
            { counts with changed := counts.changed + 1 } verified rest
        else
          compareFrom content limits read first (total + expected.bytes)
            { counts with retained := counts.retained + 1 }
            (verified ++ [⟨expected.key, actual.bytes, actual.sha256⟩]) rest

/-- The store's configuration. -/
structure StoreId where
  storePrefix : String
  storageScopeSha256 : String
  deriving DecidableEq

/-- The store is one the service knows. -/
def StoreId.Valid (store : StoreId) : Prop :=
  Text.isSha256Hex store.storageScopeSha256 = true ∧ store.storePrefix ∈ prefixes

instance (store : StoreId) : Decidable store.Valid := inferInstanceAs (Decidable (_ ∧ _))

/-- What the database and the store answer while the evidence is made. -/
structure Answers where
  snapshot : Except RestoreMediaReason Snapshot
  first : Option String → Except RestoreMediaReason Page
  read : String → Except RestoreMediaReason Response
  second : Option String → Except RestoreMediaReason Page
  current : Except RestoreMediaReason Snapshot
  /-- The store's configuration at the end. -/
  storeAfter : StoreId

/-- `RestoreMediaRepository.snapshot`. -/
def fetch (limits : RestoreMediaLimits) (answer : Except RestoreMediaReason Snapshot) :
    Except RestoreMediaReason Snapshot := do
  let s ← answer
  ensure (s.assets.rows.length ≤ limits.rows ∧ s.objects.rows.length ≤ limits.rows ∧
    s.attempts.rows.length ≤ limits.rows ∧ s.provenance.rows.length ≤ limits.rows ∧
    s.checkpoints.rows.length ≤ limits.rows) .limitExceeded
  pure s

def zeroCounts : MediaCounts := ⟨0, 0, 0, 0, 0⟩

/-- Failures, with the digest of the snapshot once there is one, and the counts so far. -/
abbrev Stopped := RestoreMediaReason × Option String × MediaCounts

/-- A failure after the first snapshot. -/
def after {α : Type} (snapshotSha256 : String) (counts : MediaCounts)
    (x : Except RestoreMediaReason α) : Except Stopped α :=
  x.mapError fun reason => (reason, some snapshotSha256, counts)

/-- `reasons`, without repetitions and in order. -/
def reasonTexts (reasons : List RestoreMediaReason) : List String :=
  (reasons.map RestoreMediaReason.text).dedup.insertionSort (· ≤ ·)

def evidence (status : MediaStatus) (scope snapshotSha256 manifestSha256 : Option String)
    (counts : MediaCounts) (reasons : List RestoreMediaReason) : RestoreMediaEvidence where
  status := status
  snapshotSha256 := snapshotSha256
  manifestSha256 := manifestSha256
  storageScopeSha256 := scope
  counts := counts
  reasons := reasonTexts reasons

/-- What the counts and the second look at the store and the tables speak against. -/
def objections (counts : MediaCounts) (inventoryDrift databaseDrift : Prop)
    [Decidable inventoryDrift] [Decidable databaseDrift] : List RestoreMediaReason :=
  (if counts.missing ≠ 0 then [.missing] else []) ++
    (if counts.changed ≠ 0 then [.changed] else []) ++
    (if counts.orphan ≠ 0 then [.orphan] else []) ++
    (if counts.deletionObligations ≠ 0 then [.deletionObligation] else []) ++
    (if inventoryDrift then [.inventoryDrift] else []) ++
    (if databaseDrift then [.databaseDrift] else [])

/-- The comparison, up to the answer that stops it. -/
def execute (c : Crypto) (content : Bytes → String) (limits : RestoreMediaLimits)
    (store : StoreId) (answers : Answers) : Except Stopped RestoreMediaEvidence := do
  let snapshot ← (fetch limits answers.snapshot).mapError fun reason => (reason, none, zeroCounts)
  let snapshotSha256 := restoreMediaDigest c snapshot.toJson
  let classification ← after snapshotSha256 zeroCounts (classify limits store.storePrefix snapshot)
  let counts := { zeroCounts with
    deletionObligations := classification.deletion.card
    missing := classification.missingVariants }
  let first ← after snapshotSha256 counts (inventory limits store.storePrefix answers.first)
  let keys := first.map RestoreInventoryObject.key
  -- an object that was deleted is back
  let deletion := classification.deletion ∪
    ((keys.filter fun key => key ∈ classification.closed).map keyEntry).toFinset
  let retainedKeys := classification.retained.map Expected.key
  let counts := { counts with
    orphan := (keys.filter fun key => key ∉ classification.closed ∧ key ∉ retainedKeys ∧
      key ∉ classification.pending).length }
  let (counts, verified) ← (compareFrom content limits answers.read first 0 counts []
    classification.retained).mapError fun stop => (stop.1, some snapshotSha256, stop.2)
  let counts := { counts with deletionObligations := deletion.card }
  let second ← after snapshotSha256 counts (inventory limits store.storePrefix answers.second)
  let current ← after snapshotSha256 counts (fetch limits answers.current)
  after snapshotSha256 counts (ensure (answers.storeAfter = store) .configurationUnavailable)
  let reasons := objections counts
    (restoreMediaDigest c (inventoryJson first) ≠ restoreMediaDigest c (inventoryJson second))
    (restoreMediaDigest c current.toJson ≠ snapshotSha256)
  if reasons ≠ [] then
    pure (evidence .blocked (some store.storageScopeSha256) (some snapshotSha256) none counts
      reasons)
  else
    let manifest := restoreMediaDigest c (.obj
      (["version", "storageScopeSha256", "snapshotSha256", "inventory", "verified"].zip
        [.num 1, .str store.storageScopeSha256, .str snapshotSha256, inventoryJson second,
          .arr ((verified.mergeSort fun v w => ¬TextLt w.key v.key).map Verified.toJson)]))
    pure (evidence .verified (some store.storageScopeSha256) (some snapshotSha256)
      (some manifest) counts [])

/-- The comparison and its evidence, whatever happened. -/
def reconcile (c : Crypto) (content : Bytes → String) (limits : RestoreMediaLimits)
    (store : Option StoreId) (answers : Answers) : RestoreMediaEvidence :=
  let scope := (store.map StoreId.storageScopeSha256).filter fun s => Text.isSha256Hex s
  match store with
  | none => evidence .unavailable scope none none zeroCounts [.configurationUnavailable]
  | some store =>
    if ¬store.Valid then
      evidence .unavailable scope none none zeroCounts [.configurationUnavailable]
    else match execute c content limits store answers with
      | .ok result => result
      | .error (reason, snapshotSha256, counts) =>
        evidence .unavailable scope snapshotSha256 none counts [reason]

/-! ## The service -/

/-- What the service remembers of the evidence it issued: which object it is, its manifest and
the prefix of the store it speaks about. -/
structure Issued where
  reference : Nat
  manifestSha256 : String
  storePrefix : String
  deriving DecidableEq

/-- `reference` is the object `bind` is called with, `value` what is written in it. -/
def bind (c : Crypto) (limits : RestoreMediaLimits) (issued : List Issued)
    (store : Option StoreId) (reference : Nat) (value : RestoreMediaEvidence)
    (answer : Except RestoreMediaReason Snapshot) : Bool :=
  match store, issued.find? fun i => i.reference = reference with
  | some store, some i =>
    if value.status ≠ .verified ∨ some i.manifestSha256 ≠ value.manifestSha256 ∨
        i.storePrefix ≠ store.storePrefix ∨
        value.storageScopeSha256 ≠ some store.storageScopeSha256 then false
    else match fetch limits answer with
      | .ok snapshot => decide (some (restoreMediaDigest c snapshot.toJson) = value.snapshotSha256)
      | .error _ => false
  | _, _ => false

end Rogichat.RestoreMedia
