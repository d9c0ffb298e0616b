import Mathlib.Data.List.Sort
import Rogichat.Basic
import Rogichat.Lib.Outcome
import Rogichat.Lib.Table

/-!
# The jobs table and its operations

`jobs.repository.ts`, `jobs.service.ts`, `jobs-core.service.ts`, `jobs.policy.ts`
and the recovery of `purge-worker.repository.ts`. Each operation is one committed
transaction: a function from the table and the database clock to the table it
leaves, or to the error that rolled it back.

The two digests the code recognises, `sha256("purge:" + request)` and
`sha256("media-cleanup:" + asset)`, are kept as the text they hash; every other
dedupe key is an opaque text. `SKIP LOCKED` is the set of rows other transactions
hold when the claim reads the queue.
-/

namespace Rogichat.Queue

open Lib

inductive JobPurpose
  | realtimeHint | media | publication | purge | push | ledgerExport
  deriving DecidableEq, Repr

inductive JobState
  | pending | running | completed | failed
  deriving DecidableEq, Repr

inductive JobConsumer
  | api | worker
  deriving DecidableEq, Repr

/-- `JOB_ERROR_CODES`. -/
inductive JobErrorCode
  | temporaryUnavailable | dependencyTimeout | rateLimited | sourceUnavailable
  | invalidResource | attemptsExhausted | permanentFailure | leaseExpired
  deriving DecidableEq, Repr

/-- What `continuePurge` records. -/
inductive PurgeContinuation
  | progress | deferred | subsetDrained | evidenceUnavailable
  deriving DecidableEq, Repr

/-- Everything `last_error_code` is ever set to. -/
inductive LastErrorCode
  | error (code : JobErrorCode)
  | mediaCleanupProgress | mediaWriterUnproven
  | purgeProgress | purgeDeferred | purgeEvidenceUnavailable | purgeSubsetDrained
  deriving DecidableEq, Repr

/-- A dedupe key, as the text whose SHA-256 is stored. -/
inductive DedupeKey
  | purge (requestId : Uuid)
  | mediaCleanup (assetId : Uuid)
  | text (label : String)
  deriving DecidableEq, Repr

/-- The errors the operations throw. -/
inductive JobError
  | jobConsumerForbidden | invalidJobPolicy | invalidJobLease | jobDedupeConflict
  | duplicateKey | outOfRange | mediaCleanupLeaseLost | invalidPurgeContinuation
  | purgeLeaseLost | purgeJobConflict
  deriving DecidableEq, Repr

/-- A row of `jobs`. -/
structure Job where
  id : Uuid
  purpose : JobPurpose
  roomId : Option Uuid
  resourceId : Option Uuid
  state : JobState := .pending
  generation : Nat := 0
  leaseOwner : Option Uuid := none
  leaseToken : Option Uuid := none
  leaseUntil : Option Time := none
  availableAt : Time
  attempts : Nat := 0
  maxAttempts : Nat := 5
  lastErrorCode : Option LastErrorCode := none
  dedupeKey : Option DedupeKey
  deriving DecidableEq, Repr

/-- The primary key, and `(purpose, dedupe_key)` where there is a dedupe key. -/
instance : Row Job where
  Key := Uuid ⊕ JobPurpose × DedupeKey
  decEq := inferInstance
  keys r := .inl r.id :: (r.dedupeKey.map fun k => .inr (r.purpose, k)).toList
  keyed _ := List.cons_ne_nil _ _

theorem eq_of_id {jobs : Table Job} {r s : Job} (hr : r ∈ jobs) (hs : s ∈ jobs)
    (h : r.id = s.id) : r = s :=
  Table.eq_of_key hr hs (k := .inl r.id) List.mem_cons_self
    (h ▸ List.mem_cons_self)

/-- What a worker holds of a claimed job. -/
structure JobLease where
  id : Uuid
  purpose : JobPurpose
  roomId : Option Uuid
  resourceId : Option Uuid
  generation : Nat
  leaseOwner : Uuid
  leaseToken : Uuid
  attempts : Nat
  maxAttempts : Nat
  deriving DecidableEq, Repr

def maxDelayMs : Nat := 86400000
def maxLeaseMs : Nat := 300000

/-- `integer`: a policy number within its bounds. -/
def integer (value min max : Nat) : Except JobError Unit :=
  ensure (min ≤ value ∧ value ≤ max) .invalidJobPolicy

/-- `leaseValues`: the generation fits the column and is not zero. -/
def leaseValues (lease : JobLease) : Except JobError Unit :=
  ensure (1 ≤ lease.generation ∧ lease.generation ≤ maxUnsignedBigInt) .invalidJobLease

/-- The purposes of a consumer's jobs. -/
def consumerPurposes : JobConsumer → List JobPurpose
  | .api => [.realtimeHint]
  | .worker => [.purge, .media, .publication, .push, .ledgerExport]

/-- Scheduling identity of a purge job: its key is the digest of its resource. -/
def isDurablePurge (row : Job) : Bool :=
  row.purpose = .purge && row.resourceId.isSome &&
    row.dedupeKey = row.resourceId.map DedupeKey.purge

/-! ## Enqueue -/

/-- A job that is to be enqueued. -/
structure EnqueueJob where
  id : Uuid
  purpose : JobPurpose
  roomId : Option Uuid := none
  resourceId : Option Uuid := none
  dedupeKey : Option DedupeKey := none
  maxAttempts : Nat := 5
  delayMs : Nat := 0

/-- `enqueue`: a plain insert, or an insert that a clashing row silently
swallows and that must then find the job it stands for. -/
def JobsCoreService.enqueue (jobs : Table Job) (now : Time) (input : EnqueueJob) :
    Except JobError (Table Job × Uuid) := do
  integer input.maxAttempts 1 25
  integer input.delayMs 0 maxDelayMs
  let row : Job :=
    { id := input.id, purpose := input.purpose, roomId := input.roomId,
      resourceId := input.resourceId, maxAttempts := input.maxAttempts,
      dedupeKey := input.dedupeKey, availableAt := now + input.delayMs }
  match input.dedupeKey with
  | none =>
    let jobs ← require (jobs.insert row) .duplicateKey
    return (jobs, input.id)
  | some key =>
    let jobs := (jobs.insert row).getD jobs
    let existing ← require
      (jobs.find? fun j => j.purpose = input.purpose ∧ j.dedupeKey = some key) .jobDedupeConflict
    ensure (existing.roomId = input.roomId ∧ existing.resourceId = input.resourceId)
      .jobDedupeConflict
    return (jobs, existing.id)

/-! ## Claim -/

/-- A worker process. -/
structure Jobs where
  consumer : JobConsumer
  ownerId : Uuid

/-- What `durablePurge` reads of other tables: which assets have a cleanup
checkpoint, and the scope and room of a deletion intent. -/
structure PurgeEvidence where
  cleanupCheckpoint : Uuid → Bool
  intent : Uuid → Option (Bool × Option Uuid)

/-- `durablePurge`; an intent is `(scope is ACCOUNT, room_id)`, any other scope
but `MESSAGE` being absent. -/
def durablePurge (evidence : PurgeEvidence) (row : Job) : Bool :=
  if row.purpose = .media ∧ row.resourceId.any evidence.cleanupCheckpoint then true
  else if !isDurablePurge row then false
  else
    match row.resourceId.bind evidence.intent with
    | none => false
    | some (isAccount, roomId) =>
      roomId = row.roomId && (if isAccount then row.roomId.isNone else row.roomId.isSome)

/-- The rows a claim may take. -/
def Claimable (purposes : List JobPurpose) (now : Time) (j : Job) : Prop :=
  j.purpose ∈ purposes ∧
    (j.state = .pending ∧ j.availableAt ≤ now ∨
      j.state = .running ∧ ∃ t ∈ j.leaseUntil, t ≤ now)

instance (purposes : List JobPurpose) (now : Time) : DecidablePred (Claimable purposes now) :=
  fun j => inferInstanceAs (Decidable (j.purpose ∈ purposes ∧
    (j.state = .pending ∧ j.availableAt ≤ now ∨
      j.state = .running ∧ ∃ t ∈ j.leaseUntil, t ≤ now)))

/-- `CASE WHEN purpose="PURGE" THEN 0 ELSE 1 END`. -/
def Job.rank (j : Job) : Nat := if j.purpose = .purge then 0 else 1

/-- `ORDER BY` the rank, then `available_at`, then `id`. -/
def QueueLe (a b : Job) : Prop :=
  a.rank < b.rank ∨ a.rank = b.rank ∧
    (a.availableAt < b.availableAt ∨ a.availableAt = b.availableAt ∧ a.id ≤ b.id)

instance : DecidableRel QueueLe := fun a b =>
  inferInstanceAs (Decidable (a.rank < b.rank ∨ a.rank = b.rank ∧
    (a.availableAt < b.availableAt ∨ a.availableAt = b.availableAt ∧ a.id ≤ b.id)))

/-- The repository's `claim`: the queue in order, without the rows other
transactions hold, cut at the limit. -/
def JobsRepository.claim (jobs : Table Job) (purposes : List JobPurpose) (now : Time)
    (locked : List Uuid) (limit : Nat) : List Job :=
  (((jobs.select (Claimable purposes now)).filter fun j => j.id ∉ locked).insertionSort
    QueueLe).take limit

/-- `exhaust`. -/
def JobsRepository.exhaust (jobs : Table Job) (generation : Nat) (id : Uuid) : Table Job :=
  jobs.update (fun j => j.id = id) fun j =>
    { j with
      state := .failed, generation := generation, leaseOwner := none, leaseToken := none,
      leaseUntil := none, lastErrorCode := some (.error .attemptsExhausted) }

/-- `lease`. -/
def JobsRepository.lease (jobs : Table Job) (generation : Nat) (owner token : Uuid)
    (leaseUntil : Time) (id : Uuid) (attempts : Nat) : Table Job :=
  jobs.update (fun j => j.id = id) fun j =>
    { j with
      state := .running, generation := generation, leaseOwner := some owner,
      leaseToken := some token, leaseUntil := some leaseUntil, attempts := attempts }

structure ClaimOptions where
  purposes : Option (List JobPurpose) := none
  limit : Option Nat := none
  leaseMs : Option Nat := none

/-- The loop of `Jobs.claim` over the locked rows. A generation that no longer
fits its column fails the write, and with it the whole claim. -/
def claimRows (self : Jobs) (evidence : PurgeEvidence) (token : Uuid → Uuid) (leaseUntil : Time) :
    List Job → Table Job → Except JobError (Table Job × List JobLease)
  | [], jobs => return (jobs, [])
  | row :: rows, jobs => do
    let generation := row.generation + 1
    ensure (generation ≤ maxUnsignedBigInt) .outOfRange
    let durable := durablePurge evidence row
    if row.attempts ≥ row.maxAttempts ∧ durable = false then
      claimRows self evidence token leaseUntil rows (JobsRepository.exhaust jobs generation row.id)
    else
      let attempts :=
        if durable then max row.attempts (min (row.attempts + 1) row.maxAttempts)
        else row.attempts + 1
      let jobs :=
        JobsRepository.lease jobs generation self.ownerId (token row.id) leaseUntil row.id attempts
      let (jobs, leases) ← claimRows self evidence token leaseUntil rows jobs
      return (jobs,
        { id := row.id, purpose := row.purpose, roomId := row.roomId, resourceId := row.resourceId,
          generation := generation, leaseOwner := self.ownerId, leaseToken := token row.id,
          attempts := attempts, maxAttempts := row.maxAttempts } :: leases)

/-- `Jobs.claim`. -/
def Jobs.claim (self : Jobs) (jobs : Table Job) (now : Time) (options : ClaimOptions)
    (locked : List Uuid) (evidence : PurgeEvidence) (token : Uuid → Uuid) :
    Except JobError (Table Job × List JobLease) := do
  let allowed := consumerPurposes self.consumer
  let purposes := options.purposes.getD allowed
  ensure (purposes ≠ [] ∧ purposes.Nodup ∧ ∀ p ∈ purposes, p ∈ allowed) .jobConsumerForbidden
  let most := if self.consumer = .api then 20 else 10
  let limit := options.limit.getD most
  integer limit 1 most
  let leaseMs := options.leaseMs.getD 30000
  integer leaseMs 1000 maxLeaseMs
  claimRows self evidence token (now + leaseMs)
    (JobsRepository.claim jobs purposes now locked limit) jobs

/-! ## Fenced operations -/

/-- The `fence` of the repository: the row still carries this lease, and the
lease has not expired. -/
def Fence (now : Time) (lease : JobLease) (j : Job) : Prop :=
  j.id = lease.id ∧ j.purpose = lease.purpose ∧ j.generation = lease.generation ∧
    j.leaseOwner = some lease.leaseOwner ∧ j.leaseToken = some lease.leaseToken ∧
    j.state = .running ∧ ∃ t ∈ j.leaseUntil, now < t

instance (now : Time) (lease : JobLease) : DecidablePred (Fence now lease) := fun j =>
  inferInstanceAs (Decidable (j.id = lease.id ∧ j.purpose = lease.purpose ∧
    j.generation = lease.generation ∧ j.leaseOwner = some lease.leaseOwner ∧
    j.leaseToken = some lease.leaseToken ∧ j.state = .running ∧ ∃ t ∈ j.leaseUntil, now < t))

/-- The fence of the continuations, which also compares room and resource. -/
def ScopedFence (purpose : JobPurpose) (now : Time) (lease : JobLease) (j : Job) : Prop :=
  j.id = lease.id ∧ j.purpose = purpose ∧ j.roomId = lease.roomId ∧
    j.resourceId = lease.resourceId ∧ j.state = .running ∧ j.generation = lease.generation ∧
    j.leaseOwner = some lease.leaseOwner ∧ j.leaseToken = some lease.leaseToken ∧
    ∃ t ∈ j.leaseUntil, now < t

instance (purpose : JobPurpose) (now : Time) (lease : JobLease) :
    DecidablePred (ScopedFence purpose now lease) := fun j =>
  inferInstanceAs (Decidable (j.id = lease.id ∧ j.purpose = purpose ∧ j.roomId = lease.roomId ∧
    j.resourceId = lease.resourceId ∧ j.state = .running ∧ j.generation = lease.generation ∧
    j.leaseOwner = some lease.leaseOwner ∧ j.leaseToken = some lease.leaseToken ∧
    ∃ t ∈ j.leaseUntil, now < t))

/-- Clear the lease columns. -/
def Job.unleased (j : Job) : Job :=
  { j with leaseOwner := none, leaseToken := none, leaseUntil := none }

/-- `own`: a worker only presents leases of its own, for purposes it consumes. -/
def Jobs.own (self : Jobs) (lease : JobLease) : Except JobError Unit := do
  leaseValues lease
  ensure (lease.leaseOwner = self.ownerId ∧ lease.purpose ∈ consumerPurposes self.consumer)
    .jobConsumerForbidden

/-- `JobsCoreService.complete`, inside a domain transaction. -/
def JobsCoreService.complete (jobs : Table Job) (now : Time) (lease : JobLease) :
    Except JobError (Table Job × Bool) := do
  leaseValues lease
  return (jobs.update (Fence now lease) fun j =>
      { j.unleased with state := .completed, lastErrorCode := none },
    decide (jobs.Has (Fence now lease)))

/-- `Jobs.complete`. -/
def Jobs.complete (self : Jobs) (jobs : Table Job) (now : Time) (lease : JobLease) :
    Except JobError (Table Job × Bool) := do
  self.own lease
  JobsCoreService.complete jobs now lease

/-- `Jobs.renew`. -/
def Jobs.renew (self : Jobs) (jobs : Table Job) (now : Time) (lease : JobLease)
    (leaseMs : Nat) : Except JobError (Table Job × Bool) := do
  self.own lease
  integer leaseMs 1000 maxLeaseMs
  return (jobs.update (Fence now lease) fun j => { j with leaseUntil := some (now + leaseMs) },
    decide (jobs.Has (Fence now lease)))

/-- How a job is tried again. -/
structure RetryOptions where
  delayMs : Nat
  terminal : Bool := false

/-- `Jobs.retry`; the jittered default delay is the caller's `delayMs`. -/
def Jobs.retry (self : Jobs) (jobs : Table Job) (now : Time) (lease : JobLease)
    (code : JobErrorCode) (options : RetryOptions) : Except JobError (Table Job × Bool) := do
  self.own lease
  integer options.delayMs 0 maxDelayMs
  return (jobs.update (Fence now lease) fun j =>
      { j.unleased with
        state := if options.terminal ∨ j.attempts ≥ j.maxAttempts then .failed else .pending
        availableAt := now + options.delayMs, lastErrorCode := some (.error code) },
    decide (jobs.Has (Fence now lease)))

/-- `continueMedia`. -/
def JobsCoreService.continueMedia (jobs : Table Job) (now : Time) (lease : JobLease) (progress : Bool) :
    Except JobError (Table Job × Bool) := do
  leaseValues lease
  ensure (lease.purpose = .media ∧ lease.resourceId.isSome ∧
    jobs.Has (ScopedFence .media now lease)) .mediaCleanupLeaseLost
  return (jobs.update (ScopedFence .media now lease) fun j =>
    { j.unleased with
      state := .pending, availableAt := now + (if progress then 5000 else 300000)
      lastErrorCode := some (if progress then .mediaCleanupProgress else .mediaWriterUnproven) },
    true)

/-- `continuePurge`: only for a job whose key is the canonical purge key. -/
def JobsCoreService.continuePurge (jobs : Table Job) (now : Time) (lease : JobLease)
    (outcome : PurgeContinuation) : Except JobError (Table Job × Bool) := do
  leaseValues lease
  ensure (lease.purpose = .purge ∧ lease.resourceId.isSome) .invalidPurgeContinuation
  let row ← require (jobs.find? fun j => j.id = lease.id) .purgeLeaseLost
  ensure (isDurablePurge row = true) .purgeLeaseLost
  ensure (jobs.Has (ScopedFence .purge now lease)) .purgeLeaseLost
  return (jobs.update (ScopedFence .purge now lease) fun j =>
    { j.unleased with
      state := .pending, availableAt := now + (if outcome = .progress then 5000 else 300000)
      lastErrorCode := some (match outcome with
        | .progress => .purgeProgress
        | .deferred => .purgeDeferred
        | .evidenceUnavailable => .purgeEvidenceUnavailable
        | .subsetDrained => .purgeSubsetDrained) },
    true)

/-! ## Recovery -/

/-- `recoverMedia`. -/
def JobsCoreService.recoverMedia (jobs : Table Job) (now : Time) (assetId : Uuid) : Table Job :=
  jobs.update (fun j => j.purpose = .media ∧ j.resourceId = some assetId ∧
      j.dedupeKey = some (.mediaCleanup assetId) ∧ (j.state = .completed ∨ j.state = .failed))
    fun j => { j.unleased with state := .pending, availableAt := now }

/-- The failures `PurgeWorkerRepository.recover` may undo. -/
def recoverable : LastErrorCode → Bool
  | .error .attemptsExhausted | .error .temporaryUnavailable | .error .dependencyTimeout
  | .error .rateLimited | .error .sourceUnavailable | .error .leaseExpired => true
  | _ => false

/-- `PurgeWorkerRepository.recover`. -/
def PurgeWorkerRepository.recover (jobs : Table Job) (now : Time) (requestId : Uuid) (roomId : Option Uuid) :
    Except JobError (Table Job) := do
  match jobs.find? fun j => j.purpose = .purge ∧ j.dedupeKey = some (.purge requestId) with
  | none => return jobs
  | some row =>
    ensure (isDurablePurge row = true ∧ row.resourceId = some requestId ∧ row.roomId = roomId)
      .purgeJobConflict
    if row.state ≠ .failed ∨ row.availableAt + 300000 > now ∨
        row.lastErrorCode.any recoverable = false then
      return jobs
    else
      ensure (row.generation + 1 ≤ maxUnsignedBigInt) .outOfRange
      return jobs.update (fun j => j.id = row.id ∧ j.state = .failed) fun j =>
        { j.unleased with
          state := .pending, availableAt := now + 5000, generation := j.generation + 1 }

end Rogichat.Queue
