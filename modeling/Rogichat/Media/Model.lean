import Mathlib.Data.List.Sort
import Mathlib.Logic.Function.Basic
import Rogichat.Basic
import Rogichat.Lib.Outcome
import Rogichat.Lib.Table
import Rogichat.Lib.Text
import Rogichat.Lib.Trace

/-!
# Media assets and their objects

The tables of an asset's life, the object store, and the parties that write both:
uploads, transforms and publication copies, which allocate an object before they PUT
its bytes and record the acknowledgement of the PUT, and the cleanup that removes the
bytes again. A PUT lands at any time after its allocation; its writer may be gone by
then, and only a writer whose PUT has succeeded acknowledges it. Whether a job's lease
still holds when a transaction checks it is an argument of the step.

What decides that an asset is to be deleted (its owner, room, message, sticker or
expiry) lies outside: `block` may come at any time. Checks of the owner, the room and a
deadline only refuse, and are left out.
-/

namespace Rogichat.Media

open Lib

inductive AssetState
  | reserved | uploading | processing | ready | deleting | deleted
  deriving DecidableEq, Repr

inductive ObjectState
  | allocated | stored | ready | deleted
  deriving DecidableEq, Repr

inductive Variant
  | input | image | video | poster
  deriving DecidableEq, Repr

/-- The parts of an object's key; the environment's prefix is fixed. -/
structure ObjectKey where
  assetId : Uuid
  attemptId : Uuid
  variant : Variant
  deriving DecidableEq, Repr

/-- The key an attempt writes a variant under. -/
def mediaKey (assetId attemptId : Uuid) (variant : Variant) : ObjectKey :=
  ⟨assetId, attemptId, variant⟩

structure AssetRow where
  id : Uuid
  state : AssetState := .reserved
  reservedBytes : Nat
  uploadToken : Option Uuid := none
  deletedAt : Option Time := none
  deriving DecidableEq, Repr

structure ObjectRow where
  id : Uuid
  assetId : Uuid
  attemptId : Uuid
  variant : Variant
  objectKey : ObjectKey
  state : ObjectState := .allocated
  byteLength : Option Nat := none
  sha256 : Option String := none
  deriving DecidableEq, Repr

/-- A row of `media_cleanup_attempts`. -/
structure AttemptRow where
  objectId : Uuid
  assetId : Uuid
  attemptId : Uuid
  objectKey : ObjectKey
  writerAcknowledged : Bool := false
  deleteObservedAt : Option Time := none
  deriving DecidableEq, Repr

/-- A row of `media_cleanup_checkpoints`. -/
structure CheckpointRow where
  assetId : Uuid
  objectCursor : Option Uuid := none
  deriving DecidableEq, Repr

instance : Row AssetRow where
  Key := Uuid
  decEq := inferInstance
  keys r := [r.id]
  keyed _ := List.cons_ne_nil _ _

instance : Row ObjectRow where
  Key := Uuid ⊕ ObjectKey
  decEq := inferInstance
  keys r := [.inl r.id, .inr r.objectKey]
  keyed _ := List.cons_ne_nil _ _

instance : Row AttemptRow where
  Key := Uuid
  decEq := inferInstance
  keys r := [r.objectId]
  keyed _ := List.cons_ne_nil _ _

instance : Row CheckpointRow where
  Key := Uuid
  decEq := inferInstance
  keys r := [r.assetId]
  keyed _ := List.cons_ne_nil _ _

structure Db where
  assets : Table AssetRow
  objects : Table ObjectRow
  attempts : Table AttemptRow
  checkpoints : Table CheckpointRow
  /-- `media_budget`: the reserved bytes of all assets, and their limit. -/
  budget : Nat
  limitBytes : Nat

inductive MediaError
  | notFound | mediaState | sourceUnavailable | invalidResource | capacity | staleMediaLease
  | writeProofConflict | provenanceConflict
  deriving DecidableEq, Repr

/-! ## Rows under their locks -/

/-- `lockAsset`. -/
def Db.asset (db : Db) (assetId : Uuid) (e : MediaError) : Except MediaError AssetRow :=
  require (db.assets.find? fun a => a.id = assetId) e

def Db.updateAsset (db : Db) (assetId : Uuid) (f : AssetRow → AssetRow)
    (k : Table.Keeps f := by exact ⟨fun _ => rfl⟩) : Db :=
  { db with assets := db.assets.update (fun a => a.id = assetId) f k }

def Db.updateObject (db : Db) (objectId : Uuid) (f : ObjectRow → ObjectRow)
    (k : Table.Keeps f := by exact ⟨fun _ => rfl⟩) : Db :=
  { db with objects := db.objects.update (fun o => o.id = objectId) f k }

/-- The attempt row belongs to the object. -/
def AttemptRow.Of (p : AttemptRow) (o : ObjectRow) : Prop :=
  p.objectId = o.id ∧ p.assetId = o.assetId ∧ p.attemptId = o.attemptId ∧
    p.objectKey = o.objectKey

instance (p : AttemptRow) (o : ObjectRow) : Decidable (p.Of o) :=
  inferInstanceAs (Decidable (p.objectId = o.id ∧ p.assetId = o.assetId ∧
    p.attemptId = o.attemptId ∧ p.objectKey = o.objectKey))

/-- `allocate`: the object's row, before its bytes. -/
def Db.allocate (db : Db) (objectId assetId attemptId : Uuid) (variant : Variant) :
    Except MediaError Db := do
  let objects ← require (db.objects.insert
    { id := objectId, assetId := assetId, attemptId := attemptId, variant := variant,
      objectKey := mediaKey assetId attemptId variant }) .invalidResource
  return { db with objects := objects }

/-- Create the object's attempt row, or change it. -/
def Db.upsertAttempt (db : Db) (row : AttemptRow) (f : AttemptRow → AttemptRow)
    (k : Table.Keeps f := by exact ⟨fun _ => rfl⟩) : Db :=
  { db with
    attempts := (db.attempts.insert row).getD
      (db.attempts.update (fun p => p.objectId = row.objectId) f k) }

/-- An attempt row that exists is of this object. -/
def Db.provenance (db : Db) (o : ObjectRow) (e : MediaError) : Except MediaError Unit :=
  ensure (∀ p ∈ db.attempts.find? fun p => p.objectId = o.id, p.Of o) e

/-! ## Writers -/

/-- An asset is reserved within the budget. -/
def reserveMedia (db : Db) (assetId : Uuid) (reservation : Nat) : Except MediaError Db := do
  ensure (db.budget + reservation ≤ db.limitBytes) .capacity
  let assets ← require (db.assets.insert { id := assetId, reservedBytes := reservation })
    .invalidResource
  return { db with assets := assets, budget := db.budget + reservation }

/-- An upload takes a reserved asset. -/
def beginUpload (db : Db) (assetId token objectId : Uuid) : Except MediaError Db := do
  let asset ← db.asset assetId .notFound
  ensure (asset.deletedAt = none) .notFound
  ensure (asset.state = .reserved) .mediaState
  let db := db.updateAsset assetId fun a =>
    { a with state := .uploading, uploadToken := some token }
  db.allocate objectId assetId token .input

/-- Set an allocated object's evidence: exactly one row must change. -/
def Db.finishObject (db : Db) (objectId assetId : Uuid) (state : ObjectState) (bytes : Nat)
    (sha256 : String) (e : MediaError) : Except MediaError Db := do
  let o ← require (db.objects.find? fun o => o.id = objectId) e
  ensure (o.assetId = assetId ∧ o.state = .allocated) e
  return db.updateObject objectId fun o =>
    { o with state := state, byteLength := some bytes, sha256 := some sha256 }

/-- An upload ends with what it has written. -/
def finishUpload (db : Db) (assetId token objectId : Uuid) (bytes : Nat) (sha256 : String) :
    Except MediaError Db := do
  let asset ← db.asset assetId .mediaState
  ensure (asset.state = .uploading ∧ asset.uploadToken = some token ∧ asset.deletedAt = none)
    .mediaState
  ensure (0 < bytes ∧ Text.isSha256Hex sha256 = true) .invalidResource
  let db ← db.finishObject objectId assetId .stored bytes sha256 .mediaState
  return db.updateAsset assetId fun a => { a with state := .processing }

/-- The attempt of a transform: its object, and the poster of a video. A retry reserves
another output. -/
def prepareMedia (db : Db) (assetId objectId attempt : Uuid) (poster : Option Uuid)
    (extra : Nat) (held : Bool) : Except MediaError Db := do
  let asset ← db.asset assetId .invalidResource
  ensure (asset.deletedAt = none ∧ asset.state = .processing) .sourceUnavailable
  let retry := db.objects.Has fun o => o.assetId = assetId ∧ o.variant ≠ .input
  ensure (retry → db.budget + extra ≤ db.limitBytes) .capacity
  let bytes := if retry then extra else 0
  let db := { db with budget := db.budget + bytes }.updateAsset assetId fun a =>
    { a with reservedBytes := a.reservedBytes + bytes }
  let db ← db.allocate objectId assetId attempt (if poster.isSome then .video else .image)
  let db ←
    match poster with
    | none => pure db
    | some posterId => db.allocate posterId assetId attempt .poster
  ensure (held = true) .staleMediaLease
  return db

/-- An output of a transform: its object and what the decoder made. -/
structure Output where
  objectId : Uuid
  bytes : Nat
  sha256 : String

def finalizeMedia (db : Db) (assetId : Uuid) (output : Output) (poster : Option Output)
    (held : Bool) : Except MediaError Db := do
  let asset ← db.asset assetId .invalidResource
  ensure (asset.state = .processing ∧ asset.deletedAt = none) .sourceUnavailable
  let db ← db.finishObject output.objectId assetId .ready output.bytes output.sha256
    .invalidResource
  let db ←
    match poster with
    | none => pure db
    | some poster =>
      db.finishObject poster.objectId assetId .ready poster.bytes poster.sha256 .invalidResource
  ensure (held = true) .staleMediaLease
  return db.updateAsset assetId fun a => { a with state := .ready }

/-- `PublicationPhotoRepository.allocate`, one photo. -/
def allocateCopy (db : Db) (destinationId objectId attemptId : Uuid) (bytes : Nat) :
    Except MediaError Db := do
  ensure (db.budget + bytes ≤ db.limitBytes) .capacity
  let assets ← require (db.assets.insert
    { id := destinationId, state := .processing, reservedBytes := bytes }) .invalidResource
  { db with assets := assets, budget := db.budget + bytes }.allocate objectId destinationId
    attemptId .image

/-- `PublicationPhotoRepository.ready`. -/
def readyCopy (db : Db) (output : Output) (destinationId : Uuid) : Except MediaError Db := do
  let asset ← db.asset destinationId .sourceUnavailable
  ensure (asset.state = .processing ∧ asset.deletedAt = none) .sourceUnavailable
  let db := db.updateAsset destinationId fun a => { a with state := .ready }
  db.finishObject output.objectId destinationId .ready output.bytes output.sha256
    .sourceUnavailable

/-- The asset is to be deleted. -/
def block (db : Db) (assetId : Uuid) (now : Time) : Db :=
  db.updateAsset assetId fun a =>
    { a with state := .deleting, deletedAt := some (a.deletedAt.getD now) }

/-- `MediaWriteProofRepository.acknowledge`. -/
def acknowledge (db : Db) (assetId objectId : Uuid) (key : ObjectKey) :
    Except MediaError Db := do
  let asset ← db.asset assetId .writeProofConflict
  let o ← require (db.objects.find? fun o => o.assetId = assetId ∧ o.id = objectId)
    .writeProofConflict
  ensure (o.objectKey = key) .writeProofConflict
  db.provenance o .writeProofConflict
  let db :=
    if asset.state = .deleted then
      { db with
        assets := db.assets.update (fun a => a.id = assetId ∧ a.state = .deleted) fun a =>
          { a with state := .deleting }
        checkpoints := (db.checkpoints.insert { assetId := assetId }).getD db.checkpoints }
    else db
  return db.upsertAttempt
    { objectId := objectId, assetId := assetId, attemptId := o.attemptId, objectKey := key,
      writerAcknowledged := true }
    fun p => { p with writerAcknowledged := true, deleteObservedAt := none }

/-! ## Cleanup -/

/-- An object with what is recorded of its writer. -/
structure CleanupObject where
  id : Uuid
  objectKey : ObjectKey
  state : ObjectState
  byteLength : Option Nat
  sha256 : Option String
  writerAcknowledged : Option Bool

/-- A write whose end was seen. -/
def acknowledgedWrite (row : CleanupObject) : Prop :=
  row.writerAcknowledged = some true ∨ row.state ≠ .allocated ∧ (∃ n ∈ row.byteLength, 0 < n) ∧
    ∃ sha256 ∈ row.sha256, Text.isSha256Hex sha256 = true

instance : DecidablePred acknowledgedWrite := fun row =>
  inferInstanceAs (Decidable (row.writerAcknowledged = some true ∨
    row.state ≠ .allocated ∧ (∃ n ∈ row.byteLength, 0 < n) ∧
      ∃ sha256 ∈ row.sha256, Text.isSha256Hex sha256 = true))

/-- The object joined with its attempt row. -/
def Db.cleanupObject (db : Db) (o : ObjectRow) : CleanupObject where
  id := o.id
  objectKey := o.objectKey
  state := o.state
  byteLength := o.byteLength
  sha256 := o.sha256
  writerAcknowledged := (db.attempts.find? fun p => p.Of o).map AttemptRow.writerAcknowledged

/-- `ORDER BY o.id LIMIT 100`, from the cursor on. -/
def Db.page (db : Db) (assetId : Uuid) (cursor : Option Uuid) : List ObjectRow :=
  ((db.objects.select fun o => o.assetId = assetId ∧ ∀ c ∈ cursor, c < o.id).insertionSort
    fun a b => a.id ≤ b.id).take 100

/-- Record what is known of an object's writer before its DELETE. -/
def planObject (db : Db) (o : ObjectRow) : Except MediaError Db := do
  db.provenance o .provenanceConflict
  let acknowledged := decide (acknowledgedWrite (db.cleanupObject o))
  return db.upsertAttempt
    { objectId := o.id, assetId := o.assetId, attemptId := o.attemptId, objectKey := o.objectKey,
      writerAcknowledged := acknowledged }
    fun p => { p with writerAcknowledged := acknowledged }

/-- The planning transaction of `cleanupMedia`. -/
def planCleanup (db : Db) (assetId : Uuid) (held : Bool) :
    Except MediaError (Db × List CleanupObject) := do
  let asset ← db.asset assetId .invalidResource
  ensure (asset.state = .deleting) .sourceUnavailable
  let checkpoints := (db.checkpoints.insert { assetId := assetId }).getD db.checkpoints
  let cursor := (checkpoints.find? fun c => c.assetId = assetId).bind CheckpointRow.objectCursor
  let db := { db with checkpoints := checkpoints }
  let page := db.page assetId cursor
  let db' ← page.foldlM planObject db
  ensure (held = true) .staleMediaLease
  -- the page carries what was known before this transaction wrote
  return (db', page.map db.cleanupObject)

/-- One object of `finishPage`: it is closed if its writer was known to have terminated
before its DELETE. -/
def finishObject (assetId : Uuid) (now : Time) (db : Db) (planned : CleanupObject) :
    Except MediaError Db := do
  let current ← require (db.objects.find? fun o => o.assetId = assetId ∧ o.id = planned.id)
    .provenanceConflict
  ensure (current.objectKey = planned.objectKey) .provenanceConflict
  ensure (db.attempts.Has fun p => p.objectId = current.id) .provenanceConflict
  let acknowledged := decide (acknowledgedWrite (db.cleanupObject current))
  let closed := acknowledged = true ∧ acknowledgedWrite planned
  let db :=
    { db with
      attempts := db.attempts.update (fun p => p.objectId = current.id) fun p =>
        { p with
          writerAcknowledged := acknowledged
          deleteObservedAt := if closed then some now else none } }
  if closed then
    return db.updateObject current.id fun o => { o with state := .deleted }
  else return db

/-- An object whose cleanup is not proven. -/
def Db.Open (db : Db) (o : ObjectRow) : Prop :=
  o.state ≠ .deleted ∨
    ¬db.attempts.Has fun p => p.Of o ∧ p.writerAcknowledged = true ∧ p.deleteObservedAt ≠ none

instance (db : Db) (o : ObjectRow) : Decidable (db.Open o) :=
  inferInstanceAs (Decidable (_ ∨ ¬_))

/-- The closing transaction of `cleanupMedia`: `finishPage`, and `deleteAsset` once
every object of the asset is closed. -/
def finishCleanup (db : Db) (assetId : Uuid) (page : List CleanupObject) (now : Time)
    (held : Bool) : Except MediaError Db := do
  let asset ← db.asset assetId .invalidResource
  ensure (asset.state = .deleting) .sourceUnavailable
  let db ← page.foldlM (finishObject assetId now) db
  let cursor := (page.getLast?).map CleanupObject.id
  let db :=
    { db with
      checkpoints := db.checkpoints.update (fun c => c.assetId = assetId) fun c =>
        { c with objectCursor := cursor } }
  if db.objects.Has fun o => o.assetId = assetId ∧ db.Open o then
    ensure (held = true) .staleMediaLease
    return db
  else
    ensure (asset.reservedBytes ≤ db.budget) .invalidResource
    ensure (held = true) .staleMediaLease
    return { db with budget := db.budget - asset.reservedBytes }.updateAsset assetId fun a =>
      { a with state := .deleted, reservedBytes := 0, uploadToken := none }

/-! ## The system -/

/-- Where the one writer of an object stands. -/
inductive Writer
  /-- Its PUT has not landed, and may still. -/
  | allocated
  /-- Its bytes are in the store. -/
  | landed
  /-- It has acknowledged its PUT. -/
  | acknowledged
  deriving DecidableEq, Repr

/-- A cleanup between its two transactions. -/
structure Cleanup where
  assetId : Uuid
  removed : List CleanupObject
  rest : List CleanupObject

/-- What has happened, for the statements about whole runs. -/
inductive Event
  | acknowledged (objectId : Uuid)
  | removed (key : ObjectKey)
  deriving DecidableEq

/-- The tables, the store, the writes under way and the log. -/
structure Sys where
  db : Db
  store : ObjectKey → Bool
  writers : Uuid → Writer
  cleanups : Nat → Option Cleanup
  log : List Event

/-- The transactions of the service, and when writes arrive. -/
inductive Command
  | reserveMedia (assetId : Uuid) (reservation : Nat)
  | beginUpload (assetId token objectId : Uuid)
  | finishUpload (assetId token objectId : Uuid) (bytes : Nat) (sha256 : String)
  | prepareMedia (assetId objectId attempt : Uuid) (poster : Option Uuid) (extra : Nat)
      (held : Bool)
  | finalizeMedia (assetId : Uuid) (output : Output) (poster : Option Output) (held : Bool)
  | allocateCopy (destinationId objectId attemptId : Uuid) (bytes : Nat)
  | readyCopy (output : Output) (destinationId : Uuid)
  | block (assetId : Uuid) (now : Time)
  /-- The PUT of an object lands. -/
  | put (objectId : Uuid)
  /-- The writer of an object acknowledges its PUT. -/
  | acknowledge (objectId : Uuid)
  | planCleanup (worker : Nat) (assetId : Uuid) (held : Bool)
  /-- The worker's next `store.remove` succeeds. -/
  | remove (worker : Nat)
  /-- A DELETE lands whose worker did not wait for it. -/
  | lateRemove (key : ObjectKey)
  | finishCleanup (worker : Nat) (now : Time) (held : Bool)
  /-- A worker is gone. -/
  | abandon (worker : Nat)

/-- A transaction commits, or leaves no trace. -/
def Sys.commit (s : Sys) (result : Except MediaError Db) : Option Sys :=
  match result with
  | .ok db => some { s with db := db }
  | .error _ => none

/-- A writer that finalizes has acknowledged its PUTs. -/
def Sys.Finished (s : Sys) (outputs : List Uuid) : Prop :=
  ∀ objectId ∈ outputs, s.writers objectId = .acknowledged

instance (s : Sys) (outputs : List Uuid) : Decidable (s.Finished outputs) :=
  inferInstanceAs (Decidable (∀ objectId ∈ outputs, _))

/-- A command in a state, when it is possible there. -/
def exec (c : Command) (s : Sys) : Option Sys :=
  match c with
  | .reserveMedia assetId reservation => s.commit (reserveMedia s.db assetId reservation)
  | .beginUpload assetId token objectId => s.commit (beginUpload s.db assetId token objectId)
  | .finishUpload assetId token objectId bytes sha256 =>
    if s.Finished [objectId] then s.commit (finishUpload s.db assetId token objectId bytes sha256)
    else none
  | .prepareMedia assetId objectId attempt poster extra held =>
    s.commit (prepareMedia s.db assetId objectId attempt poster extra held)
  | .finalizeMedia assetId output poster held =>
    if s.Finished (output.objectId :: (poster.map Output.objectId).toList) then
      s.commit (finalizeMedia s.db assetId output poster held)
    else none
  | .allocateCopy destinationId objectId attemptId bytes =>
    s.commit (allocateCopy s.db destinationId objectId attemptId bytes)
  | .readyCopy output destinationId =>
    if s.Finished [output.objectId] then s.commit (readyCopy s.db output destinationId) else none
  | .block assetId now => some { s with db := block s.db assetId now }
  | .put objectId =>
    match s.db.objects.find? fun o => o.id = objectId, s.writers objectId with
    | some o, .allocated =>
      some { s with
        store := Function.update s.store o.objectKey true
        writers := Function.update s.writers objectId .landed }
    | _, _ => none
  | .acknowledge objectId =>
    match s.db.objects.find? fun o => o.id = objectId, s.writers objectId with
    | some o, .landed =>
      { s with
        writers := Function.update s.writers objectId .acknowledged
        log := .acknowledged objectId :: s.log }.commit
          (acknowledge s.db o.assetId objectId o.objectKey)
    | _, _ => none
  | .planCleanup worker assetId held =>
    match s.cleanups worker, planCleanup s.db assetId held with
    | none, .ok (db, page) =>
      some { s with
        db := db
        cleanups := Function.update s.cleanups worker (some ⟨assetId, [], page⟩) }
    | _, _ => none
  | .remove worker =>
    match s.cleanups worker with
    | some ⟨assetId, removed, planned :: rest⟩ =>
      some { s with
        store := Function.update s.store planned.objectKey false
        cleanups :=
          Function.update s.cleanups worker (some ⟨assetId, removed ++ [planned], rest⟩)
        log := .removed planned.objectKey :: s.log }
    | _ => none
  | .lateRemove key => some { s with store := Function.update s.store key false }
  | .finishCleanup worker now held =>
    match s.cleanups worker with
    | some ⟨assetId, removed, []⟩ =>
      { s with cleanups := Function.update s.cleanups worker none }.commit
        (finishCleanup s.db assetId removed now held)
    | _ => none
  | .abandon worker => some { s with cleanups := Function.update s.cleanups worker none }

/-- The media of an environment, before its first asset. -/
def system : System Sys Command where
  init s := s.db.assets = .empty ∧ s.db.objects = .empty ∧ s.db.attempts = .empty ∧
    s.store = (fun _ => false) ∧ s.writers = (fun _ => .allocated) ∧
    s.cleanups = (fun _ => none) ∧ s.log = []
  step c s t := exec c s = some t

end Rogichat.Media
