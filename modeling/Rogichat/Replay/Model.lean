import Mathlib.Data.List.Sort
import Rogichat.Basic
import Rogichat.Ledger.Intent
import Rogichat.Lib.Outcome
import Rogichat.Lib.Table
import Rogichat.Lib.Trace

/-!
# The deletion-replay journal

`DeletionReplayRepository`: one lease per source for the discovery of its inventory,
one per entry for the execution of its receipt. Each operation is one committed
transaction. It locks the rows it reads before it reads the clock, so transactions
serialise on their rows, and every reading of the clock is an argument: the readings
of a run need not even be monotone. `SKIP LOCKED` is the set of entries other
transactions hold when `claimEntry` reads the queue.
-/

namespace Rogichat.Replay

open Lib Ledger

/-- Why an entry could not be replayed. -/
inductive ReplayFailure
  | unavailable | invalidReceipt | receiptConflict | applyFailed | scrubFailed | inventoryInvalid
  deriving DecidableEq, Repr

/-- What an entry of a ledger is. -/
inductive Classification
  | valid | invalidKey | invalidSize
  deriving DecidableEq, Repr

/-- Everything `last_failure_code` of an entry is set to. -/
inductive EntryFailure
  | replay (code : ReplayFailure)
  | listed (classification : Classification)
  | discoveryConflict
  deriving DecidableEq, Repr

/-- The two passes over an entry. -/
inductive Phase
  | apply | scrub
  deriving DecidableEq, Repr

inductive EntryState
  | ready | retry | observed | invalid
  deriving DecidableEq, Repr

/-- New entries and those tried before take turns. -/
inductive Lane
  | new | retry
  deriving DecidableEq, Repr

/-- The lane whose turn is next. -/
def Lane.other : Lane → Lane
  | .new => .retry
  | .retry => .new

/-- The errors that roll a transaction back. -/
inductive ReplayError
  | fenceLost | pageBound | receiptConflict | outOfRange
  deriving DecidableEq, Repr

def leaseMs : Nat := 60000
def retryMs : Nat := 5000

/-- A row of `deletion_replay_sources`. -/
structure SourceRow where
  sourceId : Digest
  environment : LedgerEnvironment
  cursor : Option String := none
  generation : Nat := 1
  discoveryToken : Option Uuid := none
  discoveryEpoch : Nat := 0
  discoveryUntil : Option Time := none
  nextLane : Lane := .new
  currentFailureCode : Option ReplayFailure := none
  lastFailureCode : Option ReplayFailure := none
  firstFailureAt : Option Time := none
  lastFailureAt : Option Time := none
  deriving DecidableEq, Repr

instance : Row SourceRow where
  Key := Digest
  decEq := inferInstance
  keys r := [r.sourceId]
  keyed _ := List.cons_ne_nil _ _

/-- A row of `deletion_replay_entries`. -/
structure EntryRow where
  sourceId : Digest
  keySha256 : Digest
  objectKey : Option String
  classification : Classification
  phase : Phase := .apply
  state : EntryState
  evidenceConflict : Bool := false
  receiptSha256 : Option Digest := none
  discoveredGeneration : Nat
  processedGeneration : Option Nat := none
  nextAttemptAt : Time
  firstFailureAt : Option Time := none
  lastFailureAt : Option Time := none
  lastFailureCode : Option EntryFailure := none
  attemptCount : Nat := 0
  claimToken : Option Uuid := none
  claimEpoch : Nat := 0
  claimUntil : Option Time := none
  deriving DecidableEq, Repr

instance : Row EntryRow where
  Key := Digest × Digest
  decEq := inferInstance
  keys r := [(r.sourceId, r.keySha256)]
  keyed _ := List.cons_ne_nil _ _

structure Db where
  sources : Table SourceRow
  entries : Table EntryRow

structure ReplaySource where
  sourceId : Digest
  environment : LedgerEnvironment

/-- The right to list a ledger. -/
structure DiscoveryClaim extends ReplaySource where
  token : Uuid
  epoch : Nat
  generation : Nat
  cursor : Option String

/-- The right to replay an entry. -/
structure ReplayClaim extends ReplaySource where
  keySha256 : Digest
  key : String
  token : Uuid
  epoch : Nat
  phase : Phase

/-- An entry as a listing shows it. -/
structure LedgerDiscoveryItem where
  keySha256 : Digest
  key : Option String
  classification : Classification
  deriving DecidableEq

structure Page where
  items : List LedgerDiscoveryItem
  cursor : Option String

/-- The entry of a source's object. -/
def At (sourceId keySha256 : Digest) (e : EntryRow) : Prop :=
  e.sourceId = sourceId ∧ e.keySha256 = keySha256

instance (sourceId keySha256 : Digest) : DecidablePred (At sourceId keySha256) := fun e =>
  inferInstanceAs (Decidable (e.sourceId = sourceId ∧ e.keySha256 = keySha256))

/-! ## Discovery -/

/-- `source`: the row, created at first use and then locked. -/
def DeletionReplayRepository.source (db : Db) (source : ReplaySource) :
    Except ReplayError (Db × SourceRow) := do
  let sources := (db.sources.insert
    { sourceId := source.sourceId, environment := source.environment }).getD db.sources
  let row ← require (sources.find? fun r => r.sourceId = source.sourceId) .fenceLost
  ensure (row.environment = source.environment) .fenceLost
  return ({ db with sources := sources }, row)

/-- Change the locked source row. -/
def Db.updateSource (db : Db) (sourceId : Digest) (f : SourceRow → SourceRow)
    (k : Table.Keeps f := by exact ⟨fun _ => rfl⟩) : Db :=
  { db with sources := db.sources.update (fun r => r.sourceId = sourceId) f k }

/-- A listing is claimed when nobody holds it. -/
def DeletionReplayRepository.claimDiscovery (db : Db) (source : ReplaySource) (now : Time)
    (token : Uuid) : Except ReplayError (Db × Option DiscoveryClaim) := do
  let (db, row) ← DeletionReplayRepository.source db source
  if ∃ t ∈ row.discoveryUntil, now < t then return (db, none)
  let epoch := row.discoveryEpoch + 1
  ensure (epoch ≤ maxUnsignedBigInt) .outOfRange
  let db := db.updateSource source.sourceId fun r =>
    { r with
      discoveryToken := some token, discoveryEpoch := epoch,
      discoveryUntil := some (now + leaseMs) }
  return (db, some { toReplaySource := source, token := token, epoch := epoch,
                     generation := row.generation, cursor := row.cursor })

/-- The claim is the one stored in the row, and has not expired. -/
def DiscoveryCurrent (claim : DiscoveryClaim) (now : Time) (row : SourceRow) : Prop :=
  row.discoveryToken = some claim.token ∧ row.discoveryEpoch = claim.epoch ∧
    (∃ t ∈ row.discoveryUntil, now < t) ∧ row.generation = claim.generation ∧
    row.cursor = claim.cursor

instance (claim : DiscoveryClaim) (now : Time) : DecidablePred (DiscoveryCurrent claim now) :=
  fun row => inferInstanceAs (Decidable (row.discoveryToken = some claim.token ∧
    row.discoveryEpoch = claim.epoch ∧ (∃ t ∈ row.discoveryUntil, now < t) ∧
    row.generation = claim.generation ∧ row.cursor = claim.cursor))

/-- The claim is the one that holds the listing. -/
def DeletionReplayRepository.discoveryFence (db : Db) (claim : DiscoveryClaim) (now : Time) :
    Except ReplayError (Db × SourceRow) := do
  let (db, row) ← DeletionReplayRepository.source db claim.toReplaySource
  ensure (DiscoveryCurrent claim now row) .fenceLost
  return (db, row)

/-- `entry`: the row, locked. -/
def DeletionReplayRepository.entry (db : Db) (sourceId keySha256 : Digest) :
    Except ReplayError EntryRow :=
  require (db.entries.find? (At sourceId keySha256)) .fenceLost

/-- Change the locked entry. -/
def Db.updateEntry (db : Db) (sourceId keySha256 : Digest) (f : EntryRow → EntryRow)
    (k : Table.Keeps f := by exact ⟨fun _ => rfl⟩) : Db :=
  { db with entries := db.entries.update (At sourceId keySha256) f k }

/-- The entry `registerPage` creates for a key it has not seen. -/
def LedgerDiscoveryItem.entry (claim : DiscoveryClaim) (now : Time) (item : LedgerDiscoveryItem) :
    EntryRow :=
  let valid := item.classification = .valid
  { sourceId := claim.sourceId, keySha256 := item.keySha256, objectKey := item.key,
    classification := item.classification, state := if valid then .ready else .invalid,
    discoveredGeneration := claim.generation, nextAttemptAt := now,
    firstFailureAt := if valid then none else some now,
    lastFailureAt := if valid then none else some now,
    lastFailureCode := if valid then none else some (.listed item.classification) }

/-- The listing contradicts the recorded evidence. -/
def Contradicts (item : LedgerDiscoveryItem) (e : EntryRow) : Prop :=
  e.objectKey ≠ item.key ∨ e.classification ≠ item.classification

instance (item : LedgerDiscoveryItem) : DecidablePred (Contradicts item) := fun e =>
  inferInstanceAs (Decidable (e.objectKey ≠ item.key ∨ e.classification ≠ item.classification))

/-- A contradiction is recorded beside the evidence, which stays as it is. -/
def EntryRow.conflicted (now : Time) (e : EntryRow) : EntryRow :=
  { e with
    evidenceConflict := true, firstFailureAt := some (e.firstFailureAt.getD now),
    lastFailureAt := some now, lastFailureCode := some .discoveryConflict }

/-- A newer pass lists the entry again; one that was observed is to be replayed. -/
def EntryRow.relisted (generation : Nat) (now : Time) (e : EntryRow) : EntryRow :=
  let newer := e.discoveredGeneration < generation
  let reobserve := newer ∧ e.state = .observed ∧ e.evidenceConflict = false ∧ e.claimToken = none
  { e with
    discoveredGeneration := if newer then generation else e.discoveredGeneration
    state := if reobserve then .retry else e.state
    phase := if reobserve then .apply else e.phase
    nextAttemptAt := if reobserve then now else e.nextAttemptAt }

/-- One item of a page. -/
def registerItem (claim : DiscoveryClaim) (now : Time) (db : Db) (item : LedgerDiscoveryItem) :
    Except ReplayError Db := do
  let entries := (db.entries.insert (item.entry claim now)).getD db.entries
  let db := { db with entries := entries }
  let row ← DeletionReplayRepository.entry db claim.sourceId item.keySha256
  if Contradicts item row then
    return db.updateEntry claim.sourceId item.keySha256 (EntryRow.conflicted now)
  else
    return db.updateEntry claim.sourceId item.keySha256 (EntryRow.relisted claim.generation now)

/-- `registerPage`; `later` is the clock after all its locks were granted. The count
of invalid items it also returns is a statistic. -/
def DeletionReplayRepository.registerPage (db : Db) (claim : DiscoveryClaim) (page : Page)
    (now later : Time) : Except ReplayError Db := do
  ensure (page.items.length ≤ 50) .pageBound
  let (db, _) ← DeletionReplayRepository.discoveryFence db claim now
  let db ← page.items.foldlM (registerItem claim now) db
  let (db, row) ← DeletionReplayRepository.discoveryFence db claim later
  ensure (page.cursor = none → row.generation + 1 ≤ maxUnsignedBigInt) .outOfRange
  return db.updateSource claim.sourceId fun r =>
    { r with
      cursor := page.cursor
      generation := if page.cursor = none then r.generation + 1 else r.generation
      discoveryToken := none, discoveryUntil := none, currentFailureCode := none }

/-- A listing failed; its claim ends. -/
def DeletionReplayRepository.failDiscovery (db : Db) (claim : DiscoveryClaim)
    (code : ReplayFailure) (now : Time) : Except ReplayError Db := do
  let (db, row) ← DeletionReplayRepository.discoveryFence db claim now
  return db.updateSource claim.sourceId fun r =>
    { r with
      currentFailureCode := some code, lastFailureCode := some code,
      firstFailureAt := some (row.firstFailureAt.getD now), lastFailureAt := some now,
      discoveryToken := none, discoveryUntil := none }

/-! ## Execution -/

/-- The entries a lane may take. -/
def Due (sourceId : Digest) (lane : Lane) (now : Time) (e : EntryRow) : Prop :=
  e.sourceId = sourceId ∧ e.classification = .valid ∧ e.evidenceConflict = false ∧
    (e.state = .ready ∨ e.state = .retry) ∧ e.nextAttemptAt ≤ now ∧
    (∀ t ∈ e.claimUntil, t ≤ now) ∧
    match lane with
    | .new => e.attemptCount = 0
    | .retry => 0 < e.attemptCount

instance (sourceId : Digest) (lane : Lane) (now : Time) :
    DecidablePred (Due sourceId lane now) := fun e => by
  unfold Due
  cases lane <;> exact inferInstance

/-- `ORDER BY next_attempt_at, key_sha256`. -/
def DueLe (a b : EntryRow) : Prop :=
  a.nextAttemptAt < b.nextAttemptAt ∨
    a.nextAttemptAt = b.nextAttemptAt ∧ a.keySha256 ≤ b.keySha256

instance : DecidableRel DueLe := fun a b =>
  inferInstanceAs (Decidable (a.nextAttemptAt < b.nextAttemptAt ∨
    a.nextAttemptAt = b.nextAttemptAt ∧ a.keySha256 ≤ b.keySha256))

/-- The candidate of a lane, among the entries no other transaction holds. -/
def candidate (db : Db) (sourceId : Digest) (lane : Lane) (now : Time) (locked : List Digest) :
    Option EntryRow :=
  db.entries.first? (fun e => Due sourceId lane now e ∧ e.keySha256 ∉ locked) DueLe

/-- Take the candidate of a lane; `fresh` is the clock once it is locked. -/
def claimLane (db : Db) (source : ReplaySource) (lane : Lane) (found : EntryRow) (fresh : Time)
    (token : Uuid) : Except ReplayError (Db × Option ReplayClaim) := do
  let entry ← DeletionReplayRepository.entry db source.sourceId found.keySha256
  let key ← require entry.objectKey .fenceLost
  ensure (key ≠ "" ∧ entry.evidenceConflict = false ∧ ∀ t ∈ entry.claimUntil, t ≤ fresh) .fenceLost
  let epoch := entry.claimEpoch + 1
  ensure (epoch ≤ maxUnsignedBigInt ∧ entry.attemptCount + 1 ≤ maxUnsignedBigInt) .outOfRange
  let db := db.updateEntry source.sourceId found.keySha256 fun e =>
    { e with
      claimToken := some token, claimEpoch := epoch, claimUntil := some (fresh + leaseMs)
      attemptCount := e.attemptCount + 1 }
  let db := db.updateSource source.sourceId fun r => { r with nextLane := lane.other }
  return (db, some { toReplaySource := source, keySha256 := found.keySha256, key := key,
                     token := token, epoch := epoch, phase := entry.phase })

/-- `claimEntry`: the lane whose turn it is, then the other. -/
def DeletionReplayRepository.claimEntry (db : Db) (source : ReplaySource) (now : Lane → Time)
    (fresh : Time) (locked : List Digest) (token : Uuid) :
    Except ReplayError (Db × Option ReplayClaim) := do
  let (db, row) ← DeletionReplayRepository.source db source
  let lane := row.nextLane
  match candidate db source.sourceId lane (now lane) locked with
  | some found => claimLane db source lane found fresh token
  | none =>
    match candidate db source.sourceId lane.other (now lane.other) locked with
    | some found => claimLane db source lane.other found fresh token
    | none => return (db, none)

/-- The claim is the entry's current one, and has not expired. -/
def ClaimCurrent (claim : ReplayClaim) (now : Time) (e : EntryRow) : Prop :=
  e.claimToken = some claim.token ∧ e.claimEpoch = claim.epoch ∧
    (∃ t ∈ e.claimUntil, now < t) ∧ e.objectKey = some claim.key ∧ e.phase = claim.phase ∧
    e.classification = .valid ∧ e.evidenceConflict = false

instance (claim : ReplayClaim) (now : Time) : DecidablePred (ClaimCurrent claim now) := fun e =>
  inferInstanceAs (Decidable (e.claimToken = some claim.token ∧ e.claimEpoch = claim.epoch ∧
    (∃ t ∈ e.claimUntil, now < t) ∧ e.objectKey = some claim.key ∧ e.phase = claim.phase ∧
    e.classification = .valid ∧ e.evidenceConflict = false))

/-- `fence`; a digest, where one is given, may not differ from a pinned one. -/
def DeletionReplayRepository.fence (db : Db) (claim : ReplayClaim) (now : Time)
    (digest : Option Digest) : Except ReplayError EntryRow := do
  let row ← DeletionReplayRepository.entry db claim.sourceId claim.keySha256
  ensure (ClaimCurrent claim now row) .fenceLost
  ensure (∀ d ∈ digest, ∀ r ∈ row.receiptSha256, r = d) .receiptConflict
  return row

/-- The first digest of an entry is kept. -/
def DeletionReplayRepository.pinReceipt (db : Db) (claim : ReplayClaim) (digest : Digest)
    (now : Time) : Except ReplayError Db := do
  let _ ← DeletionReplayRepository.fence db claim now (some digest)
  return db.updateEntry claim.sourceId claim.keySha256 fun e =>
    { e with receiptSha256 := some digest }

inductive FinishStatus
  | observed | pending | scrub | reapply
  deriving DecidableEq, Repr

/-- The phase an entry is left in. -/
def FinishStatus.phase (status : FinishStatus) (claimed : Phase) : Phase :=
  match status with
  | .reapply => .apply
  | .scrub => .scrub
  | .observed | .pending => claimed

/-- A replay ends in a status. -/
def DeletionReplayRepository.finish (db : Db) (claim : ReplayClaim) (digest : Digest)
    (status : FinishStatus) (now : Time) : Except ReplayError Db := do
  let row ← DeletionReplayRepository.fence db claim now (some digest)
  return db.updateEntry claim.sourceId claim.keySha256 fun e =>
    { e with
      receiptSha256 := some digest
      state := if status = .observed then .observed else .retry
      phase := status.phase claim.phase
      processedGeneration :=
        if status = .observed then some row.discoveredGeneration else e.processedGeneration
      nextAttemptAt := now + retryMs, claimToken := none, claimUntil := none }

/-- A replay failed; the entry rests. -/
def DeletionReplayRepository.failEntry (db : Db) (claim : ReplayClaim) (code : ReplayFailure)
    (now : Time) : Except ReplayError Db := do
  let row ← DeletionReplayRepository.fence db claim now none
  return db.updateEntry claim.sourceId claim.keySha256 fun e =>
    { e with
      state := if code = .invalidReceipt ∨ code = .receiptConflict then .invalid else .retry
      nextAttemptAt := now + retryMs, firstFailureAt := some (row.firstFailureAt.getD now),
      lastFailureAt := some now, lastFailureCode := some (.replay code),
      claimToken := none, claimUntil := none }

/-! ## The journal as a system -/

inductive Command
  | claimDiscovery (source : ReplaySource) (now : Time) (token : Uuid)
  | registerPage (claim : DiscoveryClaim) (page : Page) (now later : Time)
  | failDiscovery (claim : DiscoveryClaim) (code : ReplayFailure) (now : Time)
  | claimEntry (source : ReplaySource) (now : Lane → Time) (fresh : Time) (locked : List Digest)
      (token : Uuid)
  | pinReceipt (claim : ReplayClaim) (digest : Digest) (now : Time)
  | finish (claim : ReplayClaim) (digest : Digest) (status : FinishStatus) (now : Time)
  | failEntry (claim : ReplayClaim) (code : ReplayFailure) (now : Time)

open DeletionReplayRepository in
/-- A command in a state; a failed one changes nothing. -/
def exec (c : Command) (db : Db) : Except ReplayError Db :=
  match c with
  | .claimDiscovery source now token => (·.1) <$> claimDiscovery db source now token
  | .registerPage claim page now later => registerPage db claim page now later
  | .failDiscovery claim code now => failDiscovery db claim code now
  | .claimEntry source now fresh locked token =>
    (·.1) <$> claimEntry db source now fresh locked token
  | .pinReceipt claim digest now => pinReceipt db claim digest now
  | .finish claim digest status now => finish db claim digest status now
  | .failEntry claim code now => failEntry db claim code now

/-- The journal, started without rows. -/
def system : System Db Command where
  init db := db = ⟨.empty, .empty⟩
  step c s t := exec c s = .ok t

end Rogichat.Replay
