import Mathlib.Data.List.Sort
import Mathlib.Logic.Function.Basic
import Rogichat.Chat.Schema
import Rogichat.Lib.Table
import Rogichat.Lib.Trace
import Rogichat.Restore.Proof

/-!
# The restore gate

A restored database is quarantined (`prepare`), measured (`observe`) and, on a signed
release of what was measured, authorized once (`consume`). Any number of attempts run these
commands, one transaction at a time; an attempt may stop anywhere. The custody daemon is
asked before a transaction, in a step of its own, so its answer may be out of date when the
transaction runs. A transaction is one step, so its second fence is its first.

Outside the gate, and arguments of the steps: the custody daemon's answers, the ledger's
listing and receipts, the evidence of a media reconciliation, and what a deletion receipt
that is applied does to the tables. Other writes to the tables may come at any time
(`drift`). The end of `prepare`, its `observe`, is an attempt of its own.
-/

namespace Rogichat.Restore

open Lib Ledger

/-! ## The restored tables -/

structure SessionRow where
  id : Uuid
  revokedAt : Option Time := none

structure LoginRow where
  status : LoginStatus
  expiresAt : Time

structure AppleTransactionRow where
  id : Uuid
  status : LoginStatus
  expiresAt : Time
  proof : Option String := none
  completionDigest : Option String := none

structure PushRow where
  revokedAt : Option Time := none
  generation : Nat

structure RoomRow where
  id : Uuid
  ownerMemberId : Option Uuid := none
  contentEpoch : Nat
  policyVersion : Nat

structure MemberRow where
  id : Uuid
  role : MemberRole
  status : MemberStatus
  activePeriodId : Option Uuid := none
  aclEpoch : Nat

structure PeriodRow where
  leftAt : Option Time := none

structure GrantRow where
  canRead : Bool
  canSend : Bool
  revokedAt : Option Time := none

structure TestGrantRow where
  revokedAt : Option Time := none

structure PasswordRow where
  disabledAt : Option Time := none
  revision : Nat

structure UserRow where
  id : Uuid
  status : UserStatus
  membershipGeneration : Nat
  reviewerExpiresAt : Option Time := none

structure AdminRow where
  manageRooms : Bool
  manageUsers : Bool
  manageStickers : Bool
  manageTestAccess : Bool

/-- What is read of a creator's row. -/
structure CreatorRow where
  enabled : Bool

structure ProfileRow where
  userId : Uuid
  birthdayVisibleToStreamers : Bool
  revision : Nat

structure IntentRow where
  requestId : String
  environment : LedgerEnvironment
  ledgerSha256 : String
  blockedAt : Option Time := none

structure ObligationRow where
  guardCoverage : Bool

structure IdentityRow where
  id : Uuid
  apple : Bool
  status : LinkStatus
  revokedAt : Option Time := none

inductive CredentialStatus
  | exchangePending | exchangeUnknown | pending | active | revokePending | revoking | revoked
  deriving DecidableEq

structure CredentialRow where
  id : Uuid
  status : CredentialStatus
  token : Option String := none
  leaseToken : Option Uuid := none
  availableAt : Time

/-- The tables the gate reads and writes. Of the media tables only the canonical text of
their snapshot counts; there is none when a table is over its limit. -/
structure Domain where
  sessions : List SessionRow
  loginTransactions : List LoginRow
  appleTransactions : List AppleTransactionRow
  pushSubscriptions : List PushRow
  rooms : List RoomRow
  members : List MemberRow
  periods : List PeriodRow
  grants : List GrantRow
  testGrants : List TestGrantRow
  passwords : List PasswordRow
  users : List UserRow
  admins : List AdminRow
  creators : List CreatorRow
  profiles : List ProfileRow
  intents : List IntentRow
  obligations : List ObligationRow
  identities : List IdentityRow
  credentials : List CredentialRow
  media : Option String

/-- `RestoreGateRepository.quarantine`, its writes to the tables. -/
def Domain.quarantine (d : Domain) (now : Time) : Domain :=
  { d with
    sessions := d.sessions.map fun r => { r with revokedAt := some now }
    loginTransactions := d.loginTransactions.map fun r =>
      { r with status := .failed, expiresAt := now }
    appleTransactions := d.appleTransactions.map fun r =>
      { r with status := .failed, expiresAt := now, proof := none, completionDigest := none }
    pushSubscriptions := d.pushSubscriptions.map fun r =>
      { r with revokedAt := some now, generation := r.generation + 1 }
    rooms := d.rooms.map fun r =>
      { r with
        ownerMemberId := none
        contentEpoch := r.contentEpoch + 1
        policyVersion := r.policyVersion + 1 }
    members := d.members.map fun r =>
      { r with role := .fan, status := .banned, activePeriodId := none, aclEpoch := r.aclEpoch + 1 }
    periods := d.periods.map fun r => { r with leftAt := some (r.leftAt.getD now) }
    grants := d.grants.map fun r =>
      { r with canRead := false, canSend := false, revokedAt := some now }
    testGrants := d.testGrants.map fun r => { r with revokedAt := some now }
    passwords := d.passwords.map fun r =>
      { r with disabledAt := some now, revision := r.revision + 1 }
    users := d.users.map fun r =>
      { r with membershipGeneration := r.membershipGeneration + 1, reviewerExpiresAt := none }
    admins := d.admins.map fun _ => ⟨false, false, false, false⟩
    creators := d.creators.map fun _ => ⟨false⟩
    profiles := d.profiles.map fun r =>
      { r with birthdayVisibleToStreamers := false, revision := r.revision + 1 } }

/-! ## What is observed of them -/

/-- The counts that have to be zero. -/
def Domain.violations (d : Domain) : List (String × Nat) :=
  [("sessions", d.sessions.countP fun r => r.revokedAt = none),
    ("loginTransactions", d.loginTransactions.countP fun r => r.status ≠ .failed),
    ("appleTransactions", d.appleTransactions.countP fun r => r.status ≠ .failed),
    ("pushBindings", d.pushSubscriptions.countP fun r => r.revokedAt = none),
    ("members", d.members.countP fun r =>
      r.status ≠ .banned ∨ r.activePeriodId ≠ none ∨ r.role ≠ .fan),
    ("periods", d.periods.countP fun r => r.leftAt = none),
    ("owners", d.rooms.countP fun r => r.ownerMemberId ≠ none),
    ("grants", d.grants.countP fun r =>
      r.canRead = true ∨ r.canSend = true ∨ r.revokedAt = none),
    ("admins", d.admins.countP fun r =>
      r.manageRooms = true ∨ r.manageUsers = true ∨ r.manageStickers = true ∨
        r.manageTestAccess = true),
    ("testGrants", d.testGrants.countP fun r => r.revokedAt = none),
    ("passwords", d.passwords.countP fun r => r.disabledAt = none),
    ("reviewers", d.users.countP fun r => r.reviewerExpiresAt ≠ none),
    ("creators", d.creators.countP fun r => r.enabled = true),
    ("birthdays", d.profiles.countP fun r => r.birthdayVisibleToStreamers = true),
    ("unappliedDeletion", d.intents.countP fun r => r.blockedAt = none),
    ("uncoveredAccounts", d.obligations.countP fun r => r.guardCoverage = false)]

def userStatusText : UserStatus → String
  | .active => "ACTIVE"
  | .suspended => "SUSPENDED"
  | .deleting => "DELETING"
  | .deleted => "DELETED"

/-- A `BIGINT` is given as its decimal text. -/
def bigint (n : Nat) : Json := .str (toString n)

/-- An id is given as its number. -/
def uuid (id : Uuid) : Json := .num id

/-- A date is given as its milliseconds. -/
def date (t : Option Time) : Json := t.elim .null fun t => .num t

/-- The rows of a table in the order of their ids. -/
def byId {ρ : Type} (id : ρ → Nat) (rows : List ρ) : List ρ :=
  rows.insertionSort fun r s => id r ≤ id s

/-- A row of the generation manifest, for an account. -/
def userGeneration (r : UserRow) : Json :=
  .obj [("id", uuid r.id), ("status", .str (userStatusText r.status)),
    ("membership_generation", bigint r.membershipGeneration)]

/-- A row of the generation manifest, for a room. -/
def roomGeneration (r : RoomRow) : Json :=
  .obj [("id", uuid r.id), ("content_epoch", bigint r.contentEpoch),
    ("policy_version", .num r.policyVersion)]

/-- A row of the generation manifest, for a member. -/
def memberGeneration (r : MemberRow) : Json :=
  .obj [("id", uuid r.id), ("acl_epoch", bigint r.aclEpoch)]

/-- A row of the generation manifest, for a profile. -/
def profileGeneration (r : ProfileRow) : Json :=
  .obj [("user_id", uuid r.userId), ("revision", bigint r.revision)]

/-- A row of the generation manifest, for a session. -/
def sessionGeneration (r : SessionRow) : Json :=
  .obj [("id", uuid r.id), ("revoked_at", date r.revokedAt)]

/-- A row of the generation manifest, for a receipt. -/
def receiptGeneration (r : IntentRow) : Json :=
  .obj [("request_id", .str r.requestId), ("environment", .str r.environment.text),
    ("ledger_sha256", .str r.ledgerSha256), ("blocked_at", date r.blockedAt)]

def generationKeys : List String :=
  ["users", "rooms", "members", "profiles", "sessions", "receipts"]

/-- `generations`: the identities and generations of the rows, not their numbers. -/
def Domain.generations (d : Domain) : Json :=
  .obj (generationKeys.zip
    [.arr ((byId UserRow.id d.users).map userGeneration),
      .arr ((byId RoomRow.id d.rooms).map roomGeneration),
      .arr ((byId MemberRow.id d.members).map memberGeneration),
      .arr ((byId ProfileRow.userId d.profiles).map profileGeneration),
      .arr ((byId SessionRow.id d.sessions).map sessionGeneration),
      .arr ((d.intents.insertionSort fun r s => r.requestId ≤ s.requestId).map receiptGeneration)])

/-- A table with more rows is not hashed. -/
def generationTake : Nat := 10001

/-- The applied receipts, by key. -/
def Domain.receiptManifest (d : Domain) : Except Rejected (List InventoryItem) := do
  let items ← d.intents.mapM fun r => do
    let key ← (deletionIntentKey r.environment r.requestId).mapError fun _ =>
      Rejected.restoreGateRejected
    return { key := key, sha256 := r.ledgerSha256 : InventoryItem }
  return items.insertionSort fun i j => i.key ≤ j.key

/-- What `observation` returns. -/
structure Observed where
  violations : List (String × Nat)
  receiptManifestSha256 : String
  generationSha256 : String
  deriving DecidableEq

/-- `RestoreGateRepository.observation`. -/
def Domain.observation (d : Domain) (c : Crypto) : Except Rejected Observed := do
  check (∀ n ∈ [d.users.length, d.rooms.length, d.members.length, d.profiles.length,
    d.sessions.length, d.intents.length], n < generationTake)
  let manifest ← d.receiptManifest
  return { violations := d.violations
           receiptManifestSha256 := c.sha256 (Json.canonical (inventoryJson manifest))
           generationSha256 := c.sha256 (Json.canonical d.generations) }

/-- What is left to do of the provider's rows. -/
structure AppleRestoreReadiness where
  quarantined : Bool
  identitiesPending : Bool
  transactionsPending : Bool
  credentialsPending : Bool
  upstreamRevocationPending : Bool
  providerConfigured : Bool
  deriving DecidableEq

/-- `AppleRestoreRepository.readiness`. -/
def Domain.readiness (d : Domain) (providerConfigured : Bool) : AppleRestoreReadiness :=
  let identities := d.identities.any fun r =>
    r.apple && decide (r.status ≠ .revoked ∨ r.revokedAt = none)
  let transactions := d.appleTransactions.any fun r =>
    decide (r.status = .pending ∨ r.status = .processing ∨ r.proof ≠ none ∨
      r.completionDigest ≠ none)
  let credentials := d.credentials.any fun r =>
    decide (r.status ∉ [.revoked, .revokePending, .revoking, .exchangeUnknown] ∨
      r.status ≠ .revoking ∧ r.leaseToken ≠ none ∨
      r.status ∈ [.revoked, .exchangeUnknown] ∧ r.token ≠ none)
  let upstream := d.credentials.any fun r => decide (r.status ≠ .revoked ∨ r.token ≠ none)
  { quarantined := !identities && !transactions && !credentials
    identitiesPending := identities
    transactionsPending := transactions
    credentialsPending := credentials
    upstreamRevocationPending := upstream
    providerConfigured := providerConfigured }

/-- The passes over the provider's rows, in their order. -/
inductive ProviderPhase
  | identities | transactions | credentials | complete
  deriving DecidableEq

/-- The ids of a page: `id > afterId`, in order, at most `limit`. -/
def pageIds {ρ : Type} (id : ρ → Uuid) (rows : List ρ) (afterId : Option Uuid) (limit : Nat) :
    List Uuid :=
  (((rows.map id).filter fun i => decide (∀ a ∈ afterId, a < i)).insertionSort (· ≤ ·)).take limit

/-- What a page of a pass did, and where the next one starts. -/
structure ApplePage where
  domain : Domain
  lastId : Option Uuid
  hasMore : Bool

/-- `AppleRestoreRepository.page`. -/
def Domain.applePage (d : Domain) (phase : ProviderPhase) (afterId : Option Uuid) (limit : Nat)
    (now : Time) : ApplePage :=
  let page (ids : List Uuid) (domain : Domain) : ApplePage :=
    { domain := domain, lastId := ids.getLast?.or afterId, hasMore := decide (ids.length = limit) }
  match phase with
  | .identities =>
    let ids := pageIds IdentityRow.id (d.identities.filter IdentityRow.apple) afterId limit
    page ids { d with
      identities := d.identities.map fun r =>
        if r.id ∈ ids ∧ r.apple = true ∧ (r.status ≠ .revoked ∨ r.revokedAt = none) then
          { r with status := .revoked, revokedAt := some now }
        else r }
  | .transactions =>
    let ids := pageIds AppleTransactionRow.id d.appleTransactions afterId limit
    page ids { d with
      appleTransactions := d.appleTransactions.map fun r =>
        if r.id ∈ ids then
          { r with
            status := if r.status = .pending ∨ r.status = .processing then .failed else r.status
            proof := none
            completionDigest := none }
        else r }
  | .credentials =>
    let ids := pageIds CredentialRow.id d.credentials afterId limit
    page ids { d with
      credentials := d.credentials.map fun r =>
        if r.id ∈ ids then
          { r with
            status :=
              if r.token.isSome then .revokePending
              else if r.status = .revoked then .revoked else .exchangeUnknown
            leaseToken := none
            availableAt := now }
        else r }
  | .complete => page [] d

/-! ## Media evidence and custody -/

/-- What the comparison of the media says. -/
inductive MediaStatus
  | verified | blocked | unavailable
  deriving DecidableEq

def MediaStatus.text : MediaStatus → String
  | .verified => "verified"
  | .blocked => "blocked"
  | .unavailable => "unavailable"

/-- How many objects are in each way as they should not be. -/
structure MediaCounts where
  retained : Nat
  missing : Nat
  changed : Nat
  orphan : Nat
  deletionObligations : Nat
  deriving DecidableEq

/-- The evidence that the media is what the database says. -/
structure RestoreMediaEvidence where
  status : MediaStatus
  snapshotSha256 : Option String
  manifestSha256 : Option String
  storageScopeSha256 : Option String
  counts : MediaCounts
  reasons : List String
  deriving DecidableEq

/-- `RestoreMediaService.bind`: evidence this process made, of a snapshot that still is. -/
def bindMedia (c : Crypto) (store : Option String) (d : Domain)
    (evidence : RestoreMediaEvidence) : Bool :=
  decide (store ≠ none ∧ evidence.status = .verified ∧ evidence.storageScopeSha256 = store ∧
    d.media ≠ none ∧ d.media.map c.sha256 = evidence.snapshotSha256)

/-- What a custody lease binds a run to. -/
structure RestoreAuthorizationBinding where
  authorizationEpoch : String
  authorizationKeySha256 : String
  storageScopeSha256 : String
  storageFenceId : String
  mysqlServerUuid : String
  deriving DecidableEq

/-- What the custody daemon says it holds. -/
structure Held extends RestoreAuthorizationBinding where
  mysqlLeaseName : String
  mysqlLeaseOwner : Nat
  expiresAt : Int
  deriving DecidableEq

/-- The database server, as a transaction sees it. -/
structure Custody where
  owner : String → Option Nat
  serverUuid : String
  databaseName : String

/-- What a run is configured with. -/
structure Settings where
  scope : RestoreScope
  authorizationEpoch : String
  authorizationKeySha256 : String
  verifier : RestoreProofVerifier
  /-- The storage scope of the configured media store. -/
  store : Option String
  providerConfigured : Bool

/-! ## Observations -/

/-- A measurement of the restored database. -/
structure Observation where
  scope : RestoreScope
  boundarySha256 : String
  binding : RestoreAuthorizationBinding
  state : Observed
  apple : AppleRestoreReadiness
  media : RestoreMediaEvidence
  mediaBound : Bool
  epoch : String
  deriving DecidableEq

def RestoreAuthorizationBinding.values (b : RestoreAuthorizationBinding) : List Json :=
  [.str b.authorizationEpoch, .str b.authorizationKeySha256, .str b.storageScopeSha256,
    .str b.storageFenceId, .str b.mysqlServerUuid]

def bindingKeys : List String :=
  ["authorizationEpoch", "authorizationKeySha256", "storageScopeSha256", "storageFenceId",
    "mysqlServerUuid"]

/-- The violations, by name. -/
def violationsJson (violations : List (String × Nat)) : Json :=
  .obj (violations.map fun v => (v.1, .num v.2))

def appleKeys : List String :=
  ["quarantined", "identitiesPending", "transactionsPending", "credentialsPending",
    "upstreamRevocationPending", "providerConfigured"]

def AppleRestoreReadiness.toJson (a : AppleRestoreReadiness) : Json :=
  .obj (appleKeys.zip
    [.bool a.quarantined, .bool a.identitiesPending, .bool a.transactionsPending,
      .bool a.credentialsPending, .bool a.upstreamRevocationPending, .bool a.providerConfigured])

/-- A text or `null`. -/
def nullable (s : Option String) : Json := s.elim .null .str

def countKeys : List String := ["retained", "missing", "changed", "orphan", "deletionObligations"]

def MediaCounts.toJson (n : MediaCounts) : Json :=
  .obj (countKeys.zip
    [.num n.retained, .num n.missing, .num n.changed, .num n.orphan, .num n.deletionObligations])

def evidenceKeys : List String :=
  ["version", "status", "snapshotSha256", "manifestSha256", "storageScopeSha256", "counts",
    "reasons"]

def RestoreMediaEvidence.toJson (e : RestoreMediaEvidence) : Json :=
  .obj (evidenceKeys.zip
    [.num 1, .str e.status.text, nullable e.snapshotSha256, nullable e.manifestSha256,
      nullable e.storageScopeSha256, e.counts.toJson, .arr (e.reasons.map Json.str)])

def observationKeys : List String :=
  ["version", "scope", "boundarySha256"] ++ bindingKeys ++
    ["violations", "receiptManifestSha256", "generationSha256", "apple", "media", "mediaBound",
      "epoch"]

def Observation.toJson (o : Observation) : Json :=
  .obj (observationKeys.zip
    ([.num 1, o.scope.toJson, .str o.boundarySha256] ++ o.binding.values ++
      [violationsJson o.state.violations, .str o.state.receiptManifestSha256,
        .str o.state.generationSha256, o.apple.toJson, o.media.toJson, .bool o.mediaBound,
        .str o.epoch]))

/-- The digest of a measurement's canonical text. -/
def Observation.digest (c : Crypto) (o : Observation) : String :=
  c.sha256 (Json.canonical o.toJson)

/-- The observation is one that may be released, for this inventory. -/
def Observation.Ready (c : Crypto) (o : Observation) (inventory : List InventoryItem) : Prop :=
  o.media.status = .verified ∧ o.mediaBound = true ∧
    o.state.receiptManifestSha256 = c.sha256 (Json.canonical (inventoryJson inventory)) ∧
    (∀ v ∈ o.state.violations, v.2 = 0) ∧ o.apple.quarantined = true

instance (c : Crypto) (o : Observation) (inventory : List InventoryItem) :
    Decidable (o.Ready c inventory) :=
  inferInstanceAs (Decidable (_ ∧ _ ∧ _ ∧ _ ∧ _))

/-! ## The checkpoint of a run -/

inductive RestorePhase
  | new | quarantined | observed | releaseAuthorized
  deriving DecidableEq, Repr

/-- A row of `restore_gate_checkpoints`. -/
structure CheckpointRow where
  runId : String
  targetId : String
  contextSha256 : String
  boundarySha256 : String
  boundaryIssuer : String
  epoch : String
  phase : RestorePhase := .new
  providerPhase : ProviderPhase := .identities
  providerAfterId : Option Uuid := none
  observationSha256 : Option String := none
  releaseNonce : Option String := none
  releaseSha256 : Option String := none

instance : Row CheckpointRow where
  Key := Nat × String
  decEq := inferInstance
  keys r := [(0, r.runId), (1, r.targetId)]
  keyed _ := List.cons_ne_nil _ _

inductive Verb
  | prepare
  | observe
  | consume (release : VerifiedProof ReleasePayload)

/-- One run of a command, between its transactions. -/
structure Attempt where
  settings : Settings
  verb : Verb
  boundary : VerifiedProof BoundaryPayload
  /-- The ledger was read whole, and is the boundary's inventory. -/
  received : Bool := false
  /-- `prepare` is past its first transaction. -/
  begun : Bool := false
  /-- `prepare` is past the provider's pages. -/
  provided : Bool := false
  /-- The daemon's answer that the next transaction, or the reconciliation, goes by. -/
  custody : Option Held := none
  /-- The media evidence, and the custody it was made under. -/
  measured : Option (RestoreMediaEvidence × Held) := none

/-- What has happened, for the statements about whole runs. -/
inductive Event
  /-- A write of `prepare` has committed. -/
  | mutated (runId : String)
  /-- An observation has committed; `recorded` when it was ready, and made the run's. -/
  | observed (runId : String) (recorded : Bool) (domain : Domain) (observation : Observation)
  | consumed (runId : String)

/-- The rows the gate reads and writes, the attempts and the log. -/
structure Sys where
  checkpoints : Table CheckpointRow
  domain : Domain
  custody : Custody
  now : Time
  attempts : Nat → Option Attempt
  log : List Event

/-- `binding`: this process's authorization, under the daemon's custody. -/
def Attempt.binding (a : Attempt) (held : Held) : RestoreAuthorizationBinding :=
  { held.toRestoreAuthorizationBinding with
    authorizationEpoch := a.settings.authorizationEpoch
    authorizationKeySha256 := a.settings.authorizationKeySha256 }

def targetIdentity (c : Crypto) (databaseName mysqlServerUuid : String) : String :=
  c.sha256 ("rogichat:restore-target:v1:" ++ Json.canonical (.obj
    [("version", .num 1), ("databaseName", .str databaseName),
      ("mysqlServerUuid", .str mysqlServerUuid)]))

/-- The digest a custody lease is held under. -/
def contextSha256 (c : Crypto) (scope : RestoreScope) (binding : RestoreAuthorizationBinding) :
    String :=
  c.sha256 (Json.canonical (.obj (("scope", scope.toJson) :: bindingKeys.zip binding.values)))

/-- `RestoreGateRepository.fence`. -/
def Sys.fence (s : Sys) (targetId : String) (held : Held) : Except Rejected Unit :=
  check (s.custody.databaseName = targetId ∧
    s.custody.owner held.mysqlLeaseName = some held.mysqlLeaseOwner ∧
    s.custody.serverUuid = held.mysqlServerUuid ∧ (s.now : Int) < held.expiresAt * 1000)

/-- `RestoreGateRepository.lock`. -/
def Sys.lock (s : Sys) (c : Crypto) (a : Attempt) (held : Held) :
    Except Rejected CheckpointRow := do
  let row ← require (s.checkpoints.find? fun r => r.runId = a.settings.scope.restoreRunId)
    .restoreGateRejected
  check (row.targetId = targetIdentity c a.settings.scope.targetId held.mysqlServerUuid ∧
    row.contextSha256 = contextSha256 c a.settings.scope (a.binding held) ∧
    row.boundarySha256 = a.boundary.sha256 ∧ row.boundaryIssuer = a.boundary.issuer)
  return row

/-- `RestoreGateRepository.begin`: the run's row, made unless it exists. -/
def Sys.begin_ (s : Sys) (c : Crypto) (a : Attempt) (held : Held) :
    Except Rejected (Sys × CheckpointRow) := do
  let s' := { s with
    checkpoints := (s.checkpoints.insert
      { runId := a.settings.scope.restoreRunId
        targetId := targetIdentity c a.settings.scope.targetId held.mysqlServerUuid
        contextSha256 := contextSha256 c a.settings.scope (a.binding held)
        boundarySha256 := a.boundary.sha256
        boundaryIssuer := a.boundary.issuer
        epoch := (a.binding held).authorizationEpoch }).getD s.checkpoints }
  let row ← s'.lock c a held
  return (s', row)

/-- Change the run's row. -/
def Sys.updateRow (s : Sys) (runId : String) (f : CheckpointRow → CheckpointRow)
    (k : Table.Keeps f := by exact ⟨fun _ => rfl⟩) : Sys :=
  { s with checkpoints := s.checkpoints.update (fun r => r.runId = runId) f k }

/-- An attempt is opened or goes on. -/
def Sys.setAttempt (s : Sys) (id : Nat) (a : Attempt) : Sys :=
  { s with attempts := Function.update s.attempts id (some a) }

/-- Seconds, as the proofs count them. -/
def Sys.clock (s : Sys) : Int := (s.now / 1000 : Nat)

/-- `held`: the boundary is in force, and the daemon speaks of this authorization. -/
def Sys.held (s : Sys) (a : Attempt) (held : Held) : Except Rejected Unit :=
  check (s.clock < a.boundary.payload.expiresAt ∧
    held.authorizationEpoch = a.settings.authorizationEpoch ∧
    held.authorizationKeySha256 = a.settings.authorizationKeySha256)

/-- `sameCustody`: two answers of the daemon speak of one lease. -/
def Attempt.SameCustody (a : Attempt) (before after : Held) : Prop :=
  a.binding before = a.binding after ∧ before.mysqlLeaseName = after.mysqlLeaseName ∧
    before.mysqlLeaseOwner = after.mysqlLeaseOwner ∧ before.mysqlServerUuid = after.mysqlServerUuid

instance (a : Attempt) (before after : Held) : Decidable (a.SameCustody before after) :=
  inferInstanceAs (Decidable (_ ∧ _ ∧ _ ∧ _))

def Sys.attempt (s : Sys) (id : Nat) : Except Rejected Attempt :=
  require (s.attempts id) .restoreGateRejected

/-! ## The commands, transaction by transaction -/

/-- `prepare` or `observe`, up to the verified boundary. -/
def open_ (c : Crypto) (s : Sys) (id : Nat) (settings : Settings) (prepare : Bool)
    (envelope : Envelope) : Except Rejected Sys := do
  check (s.attempts id = none)
  let boundary ← settings.verifier.boundary c envelope settings.scope s.clock
  return s.setAttempt id
    { settings := settings, verb := if prepare then .prepare else .observe, boundary := boundary }

/-- `consume`, up to its verified proofs. -/
def openConsume (c : Crypto) (s : Sys) (id : Nat) (settings : Settings)
    (envelope releaseEnvelope : Envelope) : Except Rejected Sys := do
  check (s.attempts id = none)
  let boundary ← settings.verifier.boundary c envelope settings.scope s.clock
  let release ← settings.verifier.release c releaseEnvelope settings.scope s.clock
  check (release.payload.boundarySha256 = boundary.sha256)
  return s.setAttempt id { settings := settings, verb := .consume release, boundary := boundary }

/-- `receipts`: what the ledger lists, a key that is no intent's being none, and the digest
of what it stores under a key. -/
def receive (s : Sys) (id : Nat) (listing : List (Option String))
    (stored : String → Option String) : Except Rejected Sys := do
  let a ← s.attempt id
  let keys := listing.filterMap fun key => key
  check (none ∉ listing ∧ keys.Nodup ∧ keys.length ≤ 10000)
  check (keys.insertionSort (· ≤ ·) = a.boundary.payload.inventory.map InventoryItem.key)
  check (∀ item ∈ a.boundary.payload.inventory, stored item.key = some item.sha256)
  return s.setAttempt id { a with received := true }

/-- The daemon is asked once the ledger was read, and answers. -/
def assertHeld (s : Sys) (id : Nat) (held : Held) : Except Rejected Sys := do
  let a ← s.attempt id
  check (a.received = true)
  s.held a held
  return s.setAttempt id { a with custody := some held }

/-- The first transaction of `prepare`. -/
def begin_ (c : Crypto) (s : Sys) (id : Nat) : Except Rejected Sys := do
  let a ← s.attempt id
  check (a.verb matches .prepare ∧ a.received = true)
  let held ← require a.custody .restoreGateRejected
  s.fence a.settings.scope.targetId held
  let (s, row) ← s.begin_ c a held
  check (row.phase ≠ .releaseAuthorized)
  let s :=
    if row.phase = .new then
      { s.updateRow row.runId fun r => { r with phase := .quarantined } with
        domain := s.domain.quarantine s.now
        log := .mutated row.runId :: s.log }
    else s
  return s.setAttempt id { a with begun := true, custody := none }

def ProviderPhase.next : ProviderPhase → ProviderPhase
  | .identities => .transactions
  | .transactions => .credentials
  | .credentials | .complete => .complete

/-- A provider page of `prepare`. -/
def page (c : Crypto) (s : Sys) (id : Nat) : Except Rejected Sys := do
  let a ← s.attempt id
  check (a.begun = true)
  let held ← require a.custody .restoreGateRejected
  s.fence a.settings.scope.targetId held
  let row ← s.lock c a held
  check (row.phase ≠ .releaseAuthorized)
  if row.providerPhase = .complete then
    return s.setAttempt id { a with provided := true, custody := none }
  else
    let result := s.domain.applePage row.providerPhase row.providerAfterId 100 s.now
    let next := if result.hasMore then row.providerPhase else row.providerPhase.next
    let s :=
      { s.updateRow row.runId fun r =>
          { r with
            providerPhase := next
            providerAfterId := if result.hasMore then result.lastId else none } with
        domain := result.domain
        log := .mutated row.runId :: s.log }
    return s.setAttempt id { a with provided := decide (next = .complete), custody := none }

/-- `restoreMutation`: a receipt is applied, or an account's bindings are scrubbed. -/
def restoreMutation (c : Crypto) (s : Sys) (id : Nat) (result : Domain) :
    Except Rejected Sys := do
  let a ← s.attempt id
  check (a.provided = true)
  let held ← require a.custody .restoreGateRejected
  s.fence a.settings.scope.targetId held
  let row ← s.lock c a held
  check (row.phase = .quarantined ∨ row.phase = .observed)
  return { s with domain := result, log := .mutated row.runId :: s.log }.setAttempt id
    { a with custody := none }

/-- `mediaObservation`, from the reconciliation on: its evidence, under the custody that was
there before it. -/
def measure (s : Sys) (id : Nat) (evidence : RestoreMediaEvidence) (held : Held) :
    Except Rejected Sys := do
  let a ← s.attempt id
  check (¬(a.verb matches .prepare) ∧ a.received = true)
  let before ← require a.custody .restoreGateRejected
  s.held a held
  check (a.SameCustody before held)
  check (evidence.storageScopeSha256 = some held.storageScopeSha256)
  return s.setAttempt id { a with measured := some (evidence, held), custody := none }

/-- What both `observe` and `consume` make of the state they are in. -/
def Sys.observation (s : Sys) (c : Crypto) (a : Attempt) (row : CheckpointRow)
    (evidence : RestoreMediaEvidence) (held : Held) : Except Rejected Observation := do
  let state ← s.domain.observation c
  return { scope := a.settings.scope
           boundarySha256 := a.boundary.sha256
           binding := a.binding held
           state := state
           apple := s.domain.readiness a.settings.providerConfigured
           media := evidence
           mediaBound := bindMedia c a.settings.store s.domain evidence
           epoch := row.epoch }

/-- The transaction of `observe`. -/
def observe (c : Crypto) (s : Sys) (id : Nat) : Except Rejected Sys := do
  let a ← s.attempt id
  check (a.verb matches .observe)
  let (evidence, held) ← require a.measured .restoreGateRejected
  s.fence a.settings.scope.targetId held
  let row ← s.lock c a held
  check (row.phase ≠ .new ∧ row.providerPhase = .complete)
  let o ← s.observation c a row evidence held
  let recorded := o.Ready c a.boundary.payload.inventory ∧ row.phase ≠ .releaseAuthorized
  let s' := { s with log := .observed row.runId (decide recorded) s.domain o :: s.log }
  if recorded then
    return s'.updateRow row.runId fun r =>
      { r with phase := .observed, observationSha256 := some (o.digest c) }
  else return s'

/-- The transaction of `consume`. -/
def consume (c : Crypto) (s : Sys) (id : Nat) : Except Rejected Sys := do
  let a ← s.attempt id
  let release ←
    match a.verb with
    | .consume release => pure release
    | _ => .error .restoreGateRejected
  let (evidence, held) ← require a.measured .restoreGateRejected
  s.fence a.settings.scope.targetId held
  let row ← s.lock c a held
  check (row.phase = .observed ∧ row.providerPhase = .complete)
  let o ← s.observation c a row evidence held
  check (o.Ready c a.boundary.payload.inventory)
  check (row.observationSha256 = some (o.digest c) ∧
    release.payload.observationSha256 = o.digest c ∧
    (s.now : Int) < release.payload.expiresAt * 1000)
  check (row.releaseNonce = none)
  -- the nonce is a unique column
  check (¬s.checkpoints.Has fun r => r.releaseNonce = some release.payload.nonce)
  return { s with log := .consumed row.runId :: s.log }.updateRow row.runId fun r =>
    { r with
      phase := .releaseAuthorized
      releaseNonce := some release.payload.nonce
      releaseSha256 := some release.sha256 }

/-! ## The system -/

/-- The gate's operations, the passing of time and whatever else writes to the database. -/
inductive Command
  | open_ (id : Nat) (settings : Settings) (prepare : Bool) (envelope : Envelope)
  | openConsume (id : Nat) (settings : Settings) (envelope releaseEnvelope : Envelope)
  | receive (id : Nat) (listing : List (Option String)) (stored : String → Option String)
  | assertHeld (id : Nat) (held : Held)
  | begin_ (id : Nat)
  | page (id : Nat)
  | restoreMutation (id : Nat) (result : Domain)
  | measure (id : Nat) (evidence : RestoreMediaEvidence) (held : Held)
  | observe (id : Nat)
  | consume (id : Nat)
  /-- The attempt stops. -/
  | abandon (id : Nat)
  /-- Any other write to the tables. -/
  | drift (domain : Domain)
  | tick (elapsed : Nat)
  | custody (custody : Custody)

/-- A command in a state; a rejected one changes nothing. -/
def exec (c : Crypto) (command : Command) (s : Sys) : Except Rejected Sys :=
  match command with
  | .open_ id settings prepare envelope => open_ c s id settings prepare envelope
  | .openConsume id settings envelope releaseEnvelope =>
    openConsume c s id settings envelope releaseEnvelope
  | .receive id listing stored => receive s id listing stored
  | .assertHeld id held => assertHeld s id held
  | .begin_ id => begin_ c s id
  | .page id => page c s id
  | .restoreMutation id result => restoreMutation c s id result
  | .measure id evidence held => measure s id evidence held
  | .observe id => observe c s id
  | .consume id => consume c s id
  | .abandon id => return { s with attempts := Function.update s.attempts id none }
  | .drift domain => return { s with domain := domain }
  | .tick elapsed => return { s with now := s.now + elapsed }
  | .custody custody => return { s with custody := custody }

/-- A restored database, whatever its tables hold, before any run. -/
def system (c : Crypto) : System Sys Command where
  init s := s.checkpoints = .empty ∧ s.attempts = (fun _ => none) ∧ s.log = []
  step command s t := exec c command s = .ok t

end Rogichat.Restore
