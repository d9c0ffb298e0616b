import Rogichat.Identity.Schema

/-!
# Apple exchanges and notifications

`AppleService.exchange` and `AppleLifecycleService.notification`, each one committed
transaction: a function from the tables and the database clock to the tables it leaves, or to
the error that rolled it back. The exchange's second try after a duplicate key is another
transaction. What `nativeSession` answers is left out, but not what it refuses.
-/

namespace Rogichat.Identity

open Lib

/-! ## Guards -/

/-- `checkKey` with a key. -/
def IdentityGuardService.checkKey (config : Config) (db : Db) (key : GuardKey) :
    Except AuthError Unit :=
  ensure (∀ fingerprint ∈ db.guardKey, fingerprint = config.fingerprint key) .authUnavailable

/-- `lock`: the sentinel is created where there is no row. -/
def IdentityGuardRepository.lock (guards : Table SubjectGuard) (sentinel : SubjectGuard) :
    Table SubjectGuard :=
  (guards.insert sentinel).getD guards

/-- `checkApple`. -/
def IdentityGuardService.checkApple (config : Config) (db : Db) (scope subject : String) :
    Except AuthError Db := do
  let key ← require config.identityGuardKey .authUnavailable
  IdentityGuardService.checkKey config db key
  let subjectHmac := config.appleHmac key scope subject
  let guards := IdentityGuardRepository.lock db.guards
    { subjectHmac, keyFingerprint := config.fingerprint key }
  ensure (¬guards.Has fun g => g.subjectHmac = subjectHmac ∧ g.requestId ≠ none) .authFailed
  return { db with guards }

/-- `requireRegistration`. -/
def IdentityGuardService.requireRegistration (db : Db) : Except AuthError Unit :=
  ensure (¬db.obligations.Has fun o => o.guardCoverage = false) .authUnavailable

/-! ## Sessions -/

/-- `SessionCredentials`. -/
inductive SessionCredentials
  | web (token csrf : Option Secret)
  | native (token : Secret) (clientId : ClientId)
  deriving DecidableEq, Repr

/-- The token of a session's answer. -/
def SessionCredentials.token : SessionCredentials → Option Secret
  | .web token _ => token
  | .native token _ => some token

/-- A session row that is current: not revoked, not expired, and its account active. -/
def Current (db : Db) (now : Time) (client : ClientId) (s : AuthSession) : Prop :=
  s.client = client ∧ s.revokedAt = none ∧ now < s.expiresAt ∧
    db.users.Has fun u => u.id = s.userId ∧ u.status = .active

instance (db : Db) (now : Time) (client : ClientId) : DecidablePred (Current db now client) :=
  fun s => inferInstanceAs (Decidable (s.client = client ∧ s.revokedAt = none ∧
    now < s.expiresAt ∧ db.users.Has fun u => u.id = s.userId ∧ u.status = .active))

/-- `SessionService.require`. -/
def SessionService.require (db : Db) (now : Time) (client : ClientId) (token csrf : Option Secret) :
    Except AuthError AuthSession := do
  let token ← Lib.require token .unauthenticated
  let session ← Lib.require
    (db.sessions.find? fun s => s.token = token ∧ Current db now client s) .unauthenticated
  ensure (∀ proof ∈ csrf, proof = session.csrf) .forbidden
  return session

/-- `issue` and `issueNative`: seven days. -/
def SessionService.issue (config : Config) (db : Db) (now : Time) (userId : Uuid)
    (client : ClientId) (drawn : Drawn) : Except AuthError Db := do
  let csrf := if client = .web then config.csrf drawn.token else drawn.csrf
  let sessions ← Lib.require
    (db.sessions.insert
      { id := drawn.sessionId, userId, token := drawn.token, csrf, client, createdAt := now,
        expiresAt := now + 604800000 }) .duplicate
  return { db with sessions }

/-- `nativeSession`: the session just issued must be current, and its account have a profile. -/
def SessionService.nativeSession (db : Db) (now : Time) (client : ClientId) (token : Secret) :
    Except AuthError Unit := do
  let session ← SessionService.require db now client (some token) none
  ensure (db.users.Has fun u => u.id = session.userId ∧ u.profile = true) .authUnavailable

/-! ## The exchange -/

/-- `AppleExchangeDto`. -/
structure AppleExchangeDto where
  transactionId : Uuid
  clientId : ClientId
  code : Secret
  codeVerifier : Secret
  deriving DecidableEq, Repr

/-- `principal`. -/
def AppleService.principal (db : Db) (now : Time) (client : ClientId) :
    SessionCredentials → Except AuthError AuthSession
  | .web token csrf => do
    ensure (csrf ≠ none) .invalidRequest
    ensure (client = .web) .invalidRequest
    SessionService.require db now .web token csrf
  | .native token clientId => do
    ensure (clientId ≠ .web) .invalidRequest
    ensure (client ≠ .web ∧ clientId = client) .invalidRequest
    SessionService.require db now clientId (some token) none

/-- The possession that a link must prove: the session that started it. -/
def AppleService.possession (db : Db) (now : Time) (row : AppleTransaction) (userId sessionId : Uuid)
    (credentials : Option SessionCredentials) : Except AuthError Unit := do
  let credentials ← require credentials .linkSessionChanged
  let actor ← AppleService.principal db now row.clientId credentials
  ensure (actor.userId = userId ∧ actor.id = sessionId) .linkSessionChanged

/-- `binding`, with `requirePossession`. -/
def AppleService.binding (db : Db) (now : Time) (row : AppleTransaction)
    (credentials : Option SessionCredentials) : Except AuthError Unit :=
  match row.intent with
  | .login =>
    ensure (row.userId = none ∧ row.sessionId = none ∧ row.boundGeneration = none ∧
      credentials.bind SessionCredentials.token = none) .authFailed
  | .link => do
    let userId ← require row.userId .linkSessionChanged
    let sessionId ← require row.sessionId .linkSessionChanged
    let generation ← require row.boundGeneration .linkSessionChanged
    AppleService.possession db now row userId sessionId credentials
    let bound ← require
      (db.sessions.find? fun s => s.id = sessionId ∧ Current db now row.clientId s)
      .linkSessionChanged
    ensure (bound.userId = userId ∧
      db.users.Has fun u => u.id = userId ∧ u.membershipGeneration = generation)
      .linkSessionChanged
    ensure (now - bound.createdAt ≤ 900000) .recentAuthRequired

/-- `event`: the fence row is created where there is none. -/
def AppleRepository.event (db : Db) (scope subject : String) : Db :=
  { db with events := (db.events.insert { scope, subject, revokedAt := 0 }).getD db.events }

/-- The recorded event time of a subject; a row that is not there yet starts at the epoch. -/
def recordedEvent (db : Db) (scope subject : String) : Time :=
  ((db.events.find? fun e => e.scope = scope ∧ e.subject = subject).map
    AppleIdentityEvent.revokedAt).getD 0

/-- `identity`. -/
def AppleRepository.identity (db : Db) (scope subject : String) : Option AuthIdentity :=
  db.identities.find? fun i => i.scope = scope ∧ i.subject = subject

/-- `connect`: the identity is verified at the proof's issue time. -/
def AppleRepository.connect (db : Db) (existing : Option AuthIdentity) (userId : Uuid)
    (scope subject : String) (issuedAt : Time) (drawn : Drawn) : Except AuthError (Db × Uuid) := do
  ensure (existing ≠ none ∨ (db.identities.select fun i => i.userId = userId).length < 7)
    .appleLinkConflict
  let identities ←
    match existing with
    | some identity =>
      pure (db.identities.update (fun i => i.id = identity.id) fun i =>
        { i with status := .verified, verifiedAt := some issuedAt, revokedAt := none })
    | none =>
      require (db.identities.insert
        { id := drawn.identityId, userId, scope, subject, verifiedAt := some issuedAt }) .duplicate
  let users :=
    if existing.any fun identity => identity.status = .verified then db.users
    else db.users.update (fun u => u.id = userId) fun u =>
      { u with membershipGeneration := u.membershipGeneration + 1 }
  return ({ db with identities, users }, (existing.map AuthIdentity.id).getD drawn.identityId)

/-- `activateCredential`. -/
def AppleRepository.activateCredential (db : Db) (transactionId identityId userId : Uuid) :
    Except AuthError Db := do
  ensure (db.credentials.Has fun c => c.id = transactionId ∧ c.status = .pending)
    .appleCredentialNotPending
  return { db with
    credentials := db.credentials.update (fun c => c.id = transactionId ∧ c.status = .pending)
      fun c => { c with status := .active, identityId := some identityId, userId := some userId } }

/-- The account the exchange is for: the identity's, the linking one, or a new one. -/
def AppleService.account (db : Db) (existing : Option AuthIdentity) (row : AppleTransaction)
    (drawn : Drawn) : Except AuthError (Db × Uuid) :=
  match (existing.map AuthIdentity.userId).or row.userId with
  | some userId => do
    ensure (db.users.Has fun u => u.id = userId ∧ u.status = .active) .authFailed
    return (db, userId)
  | none => do
    IdentityGuardService.requireRegistration db
    let users ← require (db.users.insert { id := drawn.userId }) .duplicate
    return ({ db with users }, drawn.userId)

/-- `revokeSession`, of the session that started a link. -/
def LoginRepository.revokeSession (db : Db) (now : Time) : Option Uuid → Db
  | none => db
  | some id =>
    { db with
      sessions := db.sessions.update (fun s => s.id = id) fun s => { s with revokedAt := some now } }

/-- The proof of the transaction an exchange names. -/
def presented (db : Db) (input : AppleExchangeDto) : Option AppleProof :=
  (db.transactions.find? fun r => r.id = input.transactionId).bind AppleTransaction.proof

/-- What the exchange asks of its transaction row. -/
def AppleService.admitted (config : Config) (now : Time) (input : AppleExchangeDto)
    (row : AppleTransaction) : Prop :=
  now < row.expiresAt ∧ row.clientId = input.clientId ∧ row.status = .processing ∧
    row.completion = some input.code ∧ (∃ t ∈ row.completionExpires, now < t) ∧
    config.challenge input.codeVerifier = row.codeChallenge

instance (config : Config) (now : Time) (input : AppleExchangeDto) :
    DecidablePred (AppleService.admitted config now input) := fun row =>
  inferInstanceAs (Decidable (now < row.expiresAt ∧ row.clientId = input.clientId ∧
    row.status = .processing ∧ row.completion = some input.code ∧
    (∃ t ∈ row.completionExpires, now < t) ∧
    config.challenge input.codeVerifier = row.codeChallenge))

/-- The exchange once its proof is known to be fresh. -/
def AppleService.connectAndIssue (config : Config) (db : Db) (now : Time) (input : AppleExchangeDto)
    (credentials : Option SessionCredentials) (drawn : Drawn) (row : AppleTransaction)
    (proof : AppleProof) : Except AuthError Db := do
  let existing := AppleRepository.identity db proof.scope proof.subject
  AppleService.binding db now row credentials
  ensure (row.intent = .login ∨ ∀ identity ∈ existing, some identity.userId = row.userId)
    .appleLinkConflict
  let (db, userId) ← AppleService.account db existing row drawn
  let (db, identityId) ← AppleRepository.connect db existing userId proof.scope proof.subject
    (proof.issuedAt * 1000) drawn
  let db ← AppleRepository.activateCredential db row.id identityId userId
  let db := LoginRepository.revokeSession db now row.sessionId
  let db := { db with
    transactions := db.transactions.update (fun r => r.id = row.id) fun r =>
      { r with status := .succeeded, userId := some userId, proof := none, completion := none } }
  let db ← SessionService.issue config db now userId input.clientId drawn
  if input.clientId = .web then return db
  else do
    SessionService.nativeSession db now input.clientId drawn.token
    return db

/-- `AppleService.exchange`. -/
def AppleService.exchange (config : Config) (db : Db) (now : Time) (input : AppleExchangeDto)
    (credentials : Option SessionCredentials) (drawn : Drawn) : Except AuthError Db := do
  let row ← require (db.transactions.find? fun r => r.id = input.transactionId) .authFailed
  ensure (AppleService.admitted config now input row) .authFailed
  let proof ← require row.proof .authFailed
  let client := config.client input.clientId
  ensure (proof.audience = client.audience ∧ proof.scope = client.scope) .authFailed
  let db ← IdentityGuardService.checkApple config db proof.scope proof.subject
  let db := AppleRepository.event db proof.scope proof.subject
  ensure (recordedEvent db proof.scope proof.subject < proof.issuedAt * 1000) .authFailed
  AppleService.connectAndIssue config db now input credentials drawn row proof

/-! ## Notifications -/

inductive EventType
  | emailEnabled | emailDisabled | consentRevoked | accountDeleted
  deriving DecidableEq, Repr

/-- A verified notification. -/
structure AppleEvent where
  id : Digest
  scope : String
  subject : String
  type : EventType
  eventTime : Time
  deriving DecidableEq, Repr

/-- The event says nothing of the identity. -/
def AppleEvent.Email (event : AppleEvent) : Prop :=
  event.type = .emailEnabled ∨ event.type = .emailDisabled

instance (event : AppleEvent) : Decidable event.Email :=
  inferInstanceAs (Decidable (_ ∨ _))

/-- `recordEvent`. -/
def AppleLifecycleRepository.recordEvent (db : Db) (scope subject : String) (eventTime : Time) :
    Db :=
  { db with
    events := db.events.update
      (fun e => e.scope = scope ∧ e.subject = subject ∧ e.revokedAt < eventTime)
      fun e => { e with revokedAt := eventTime } }

/-- `invalidate`: the identity, every session of its account, and its credentials. -/
def AppleLifecycleRepository.invalidate (db : Db) (now : Time) (identityId userId : Uuid)
    (eventTime : Time) : Db :=
  { db with
    identities := db.identities.update
      (fun i => i.id = identityId ∧ ∀ t ∈ i.verifiedAt, t ≤ eventTime)
      fun i => { i with status := .revoked, revokedAt := some eventTime }
    users := db.users.update (fun u => u.id = userId) fun u =>
      { u with membershipGeneration := u.membershipGeneration + 1 }
    sessions := db.sessions.update (fun s => s.userId = userId ∧ s.revokedAt = none) fun s =>
      { s with revokedAt := some now }
    credentials := db.credentials.update
      (fun c => c.identityId = some identityId ∧ (c.status = .active ∨ c.status = .pending))
      fun c => { c with status := .revokePending, availableAt := now } }

/-- The event once it is past the guard: recorded if it is newer, and enforced on an identity
that was not verified after it. -/
def AppleLifecycleService.enforce (db : Db) (now : Time) (event : AppleEvent) : Db :=
  let db := AppleRepository.event db event.scope event.subject
  if recordedEvent db event.scope event.subject ≥ event.eventTime then db
  else
    let db :=
      AppleLifecycleRepository.recordEvent db event.scope event.subject event.eventTime
    match AppleRepository.identity db event.scope event.subject with
    | none => db
    | some identity =>
      if ∃ t ∈ identity.verifiedAt, event.eventTime < t then db
      else AppleLifecycleRepository.invalidate db now identity.id identity.userId event.eventTime

/-- `AppleLifecycleService.notification`. A guarded subject's event is acknowledged and no
more; a guard that cannot be checked rolls the receipt back. -/
def AppleLifecycleService.notification (config : Config) (db : Db) (now : Time)
    (event : AppleEvent) : Except AuthError Db :=
  match db.receipts.insert { digest := event.id } with
  | none => return db
  | some receipts =>
    let db := { db with receipts }
    if event.Email then return db
    else
      match IdentityGuardService.checkApple config db event.scope event.subject with
      | .ok db => return AppleLifecycleService.enforce db now event
      | .error .authFailed => return db
      | .error e => .error e

end Rogichat.Identity
