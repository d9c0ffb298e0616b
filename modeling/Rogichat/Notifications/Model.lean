import Rogichat.Basic
import Rogichat.Lib.Bytes
import Rogichat.Lib.Outcome
import Rogichat.Lib.Table
import Rogichat.Lib.Trace

/-!
# Push subscriptions

`register`, `remove`, `revokeSession` and `invalidateSubscription` of
`notifications-core.service.ts`, over the statements of `notifications.repository.ts`, and the
revocation of all subscriptions of an account that goes with a new password.

A transaction reads `byEndpoint` from its snapshot and locks the row afterwards; between the
two other transactions may commit. A registration is therefore two steps. The locks on the
session and the account are left out: every order of steps they allow is one here.
SHA-256 is a parameter.
-/

namespace Rogichat.Notifications

open Lib

/-- The errors of the operations; the last is the database's, for a counter that does not fit
its column. -/
inductive ApiError
  | unauthenticated | notFound | conflict | outOfRange
  deriving DecidableEq, Repr

inductive Transport
  | web | native
  deriving DecidableEq, Repr

/-- Whom a subscription is served by. -/
inductive PushProvider
  | web | apns | fcm
  deriving DecidableEq, Repr

inductive UserStatus
  | active | suspended | deleting | deleted
  deriving DecidableEq, Repr

inductive LinkStatus
  | verified | revoked
  deriving DecidableEq, Repr

/-- A row of `auth_sessions`. -/
structure Session where
  id : Uuid
  userId : Uuid
  audience : String
  transport : Transport
  clientId : Option String
  revokedAt : Option Time
  expiresAt : Time
  deriving DecidableEq, Repr

/-- A row of `users` with its `platform_soop` row, and whether it has a verified Apple
identity. -/
structure User where
  id : Uuid
  status : UserStatus
  membershipGeneration : Nat
  soopStatus : Option LinkStatus
  reviewerExpiresAt : Option Time
  appleVerified : Bool
  deriving DecidableEq, Repr

/-- A row of `push_subscriptions`. -/
structure Subscription where
  id : Uuid
  userId : Uuid
  sessionId : Uuid
  audience : String
  provider : PushProvider := .web
  endpoint : Option String
  endpointDigest : Digest
  p256dh : Option String
  authSecret : Option String
  generation : Nat := 1
  accountGeneration : Nat
  revokedAt : Option Time := none
  deriving DecidableEq, Repr

instance : Row Session where
  Key := Uuid
  decEq := inferInstance
  keys r := [r.id]
  keyed _ := List.cons_ne_nil _ _

instance : Row User where
  Key := Uuid
  decEq := inferInstance
  keys r := [r.id]
  keyed _ := List.cons_ne_nil _ _

/-- The primary key, and the digest of the endpoint. -/
instance : Row Subscription where
  Key := Uuid ⊕ Digest
  decEq := inferInstance
  keys r := [.inl r.id, .inr r.endpointDigest]
  keyed _ := List.cons_ne_nil _ _

/-- What the operations read and do not write. -/
structure Accounts where
  sessions : Table Session
  users : Table User

/-- Whom a request is made by. -/
structure Principal where
  userId : Uuid
  sessionId : Uuid
  deriving DecidableEq, Repr

structure PushSubscriptionInput where
  endpoint : String
  p256dh : String
  auth : String
  generation : Option Nat := none
  deriving DecidableEq, Repr

structure PushSubscriptionDto where
  id : Uuid
  generation : Nat
  deriving DecidableEq, Repr

/-- A row of the `binding` query. -/
structure Binding where
  audience : String
  membershipGeneration : Nat
  chatAllowed : Bool
  deriving DecidableEq, Repr

/-- `MAX_GENERATION` is the largest value of the column. -/
def next (value : Nat) : Except ApiError Nat := do
  ensure (value < maxUnsignedBigInt) .conflict
  return value + 1

/-! ## `notifications.repository.ts` -/

/-- `chatAccountSql`. -/
def User.chatAllowed (u : User) (now : Time) : Bool :=
  decide (u.soopStatus = some .verified) || decide (∃ t ∈ u.reviewerExpiresAt, now < t) ||
    u.appleVerified

/-- The transport and client a session must have. -/
def Session.serves (s : Session) : Option String → Prop
  | some client => s.transport = .native ∧ s.clientId = some client
  | none => s.transport = .web ∧ s.clientId = none

instance (s : Session) (client : Option String) : Decidable (s.serves client) := by
  cases client
  · exact inferInstanceAs (Decidable (_ ∧ _))
  · exact inferInstanceAs (Decidable (_ ∧ _))

/-- The live session of an active account, with what a registration needs of both. -/
def binding (a : Accounts) (now : Time) (userId sessionId : Uuid) (client : Option String) :
    Option Binding := do
  let s ← a.sessions.find? fun s => s.id = sessionId ∧ s.userId = userId ∧ s.serves client ∧
    s.revokedAt = none ∧ now < s.expiresAt
  let u ← a.users.find? fun u => u.id = s.userId ∧ u.status = .active
  return { audience := s.audience, membershipGeneration := u.membershipGeneration,
           chatAllowed := u.chatAllowed now }

/-- The id of the row of an endpoint, without a lock. -/
def byEndpoint (subscriptions : Table Subscription) (endpointDigest : Digest) : Option Uuid :=
  (subscriptions.find? fun r => r.endpointDigest = endpointDigest).map Subscription.id

def lockSubscription (subscriptions : Table Subscription) (id : Uuid) : Option Subscription :=
  subscriptions.find? fun r => r.id = id

/-- `replace`, and the check that it found its one row. -/
def replace (subscriptions : Table Subscription) (id userId : Uuid) (generation : Nat)
    (data : Subscription → Subscription)
    (k : Table.Keeps data := by exact ⟨fun _ => rfl⟩) : Except ApiError (Table Subscription) := do
  let count := (subscriptions.select fun r =>
    r.id = id ∧ r.userId = userId ∧ r.generation = generation).length
  ensure (count = 1) .conflict
  return subscriptions.update
    (fun r => r.id = id ∧ r.userId = userId ∧ r.generation = generation) data k

/-- The statement of every revocation: it refuses a generation that has no successor. -/
def revokeWhere (subscriptions : Table Subscription) (now : Time) (p : Subscription → Prop)
    [DecidablePred p] : Except ApiError (Table Subscription) := do
  ensure (∀ r ∈ subscriptions.select p, r.generation < maxUnsignedBigInt) .outOfRange
  return subscriptions.update p fun r =>
    { r with revokedAt := some now, generation := r.generation + 1 }

/-- A session that ends takes its subscriptions along. -/
def revokeSession (subscriptions : Table Subscription) (now : Time) (sessionId : Uuid) :
    Except ApiError (Table Subscription) :=
  revokeWhere subscriptions now fun r => r.sessionId = sessionId ∧ r.revokedAt = none

/-- The provider refused the subscription at this generation. -/
def invalidate (subscriptions : Table Subscription) (now : Time) (id : Uuid) (generation : Nat) :
    Except ApiError (Table Subscription) :=
  revokeWhere subscriptions now fun r =>
    r.id = id ∧ r.generation = generation ∧ r.revokedAt = none

/-- The subscriptions in `replace` of `password.repository.ts`. -/
def revokeUser (subscriptions : Table Subscription) (now : Time) (userId : Uuid) :
    Except ApiError (Table Subscription) :=
  revokeWhere subscriptions now fun r => r.userId = userId ∧ r.revokedAt = none

/-! ## `register` -/

/-- A `register` that has read `byEndpoint` and not locked its row yet. -/
structure Registration where
  actor : Principal
  audience : String
  input : PushSubscriptionInput
  binding : Binding
  endpointDigest : Digest
  hint : Option Uuid
  deriving DecidableEq, Repr

/-- `register` up to the lock. -/
def startRegister (sha256 : String → Digest) (a : Accounts) (subscriptions : Table Subscription)
    (now : Time) (actor : Principal) (audience : String) (input : PushSubscriptionInput) :
    Except ApiError Registration := do
  let binding ← require (binding a now actor.userId actor.sessionId none) .unauthenticated
  ensure (binding.audience = audience) .unauthenticated
  let endpointDigest := sha256 input.endpoint
  return { actor := actor, audience := audience, input := input, binding := binding,
           endpointDigest := endpointDigest, hint := byEndpoint subscriptions endpointDigest }

/-- The row is the exact active current binding of the request. -/
def Registration.Observes (r : Registration) (prior : Subscription) : Prop :=
  r.input.generation = none ∧ prior.sessionId = r.actor.sessionId ∧ prior.revokedAt = none ∧
    prior.endpoint = some r.input.endpoint ∧ prior.p256dh = some r.input.p256dh ∧
    prior.authSecret = some r.input.auth ∧
    prior.accountGeneration = r.binding.membershipGeneration

instance (r : Registration) (prior : Subscription) : Decidable (r.Observes prior) :=
  inferInstanceAs (Decidable (_ ∧ _))

/-- `register` where the row is found. -/
def Registration.rebind (r : Registration) (subscriptions : Table Subscription)
    (prior : Subscription) : Except ApiError (PushSubscriptionDto × Table Subscription) := do
  ensure (prior.userId = r.actor.userId ∧ prior.audience = r.audience ∧ prior.provider = .web)
    .notFound
  if r.Observes prior then
    .ok ({ id := prior.id, generation := prior.generation }, subscriptions)
  else do
    ensure (r.input.generation = some prior.generation) .conflict
    let generation ← next prior.generation
    let subscriptions ← replace subscriptions prior.id r.actor.userId prior.generation fun row =>
      { row with sessionId := r.actor.sessionId, endpoint := some r.input.endpoint,
                 p256dh := some r.input.p256dh, authSecret := some r.input.auth,
                 accountGeneration := r.binding.membershipGeneration,
                 generation := generation, revokedAt := none }
    return ({ id := prior.id, generation := generation }, subscriptions)

/-- The row `register` creates. -/
def Registration.row (r : Registration) (id : Uuid) : Subscription :=
  { id := id, userId := r.actor.userId, sessionId := r.actor.sessionId, audience := r.audience,
    endpoint := some r.input.endpoint, endpointDigest := r.endpointDigest,
    p256dh := some r.input.p256dh, authSecret := some r.input.auth,
    accountGeneration := r.binding.membershipGeneration }

/-- `register` from the lock on, with the id `randomUUID` answers. -/
def finishRegister (subscriptions : Table Subscription) (randomUUID : Uuid) (r : Registration) :
    Except ApiError (PushSubscriptionDto × Table Subscription) :=
  match r.hint.bind (lockSubscription subscriptions) with
  | some prior => r.rebind subscriptions prior
  | none => do
    ensure (r.input.generation = none) .conflict
    let row := r.row randomUUID
    let subscriptions ← require (subscriptions.insert row) .conflict
    return ({ id := row.id, generation := row.generation }, subscriptions)

/-! ## `remove` -/

/-- A removal names the generation it saw; its repetition is answered alike. -/
def remove (subscriptions : Table Subscription) (now : Time) (actor : Principal)
    (audience : String) (id : Uuid) (generation : Nat) : Except ApiError (Table Subscription) := do
  let prior ← require (lockSubscription subscriptions id) .notFound
  ensure (prior.userId = actor.userId ∧ prior.sessionId = actor.sessionId ∧
    prior.audience = audience ∧ prior.provider = .web) .notFound
  if prior.revokedAt ≠ none ∧ prior.generation = generation + 1 then .ok subscriptions
  else do
    ensure (prior.generation = generation) .conflict
    if prior.revokedAt ≠ none then .ok subscriptions
    else do
      let following ← next generation
      replace subscriptions id actor.userId generation fun row =>
        { row with generation := following, revokedAt := some now }

/-! ## The system -/

/-- The tables and the registrations under way. -/
structure World where
  accounts : Accounts
  subscriptions : Table Subscription
  /-- The registrations that have not locked their row yet. -/
  pending : List Registration

inductive Command
  /-- `register` up to the lock. -/
  | start (now : Time) (actor : Principal) (audience : String) (input : PushSubscriptionInput)
  /-- `register` from the lock on. -/
  | finish (r : Registration) (randomUUID : Uuid)
  /-- A registration that failed. -/
  | abort (r : Registration)
  | remove (now : Time) (actor : Principal) (audience : String) (id : Uuid) (generation : Nat)
  | revokeSession (now : Time) (sessionId : Uuid)
  | revokeUser (now : Time) (userId : Uuid)
  | invalidate (now : Time) (id : Uuid) (generation : Nat)
  /-- Any change of sessions and accounts. -/
  | accounts (a : Accounts)

/-- A committed step. -/
inductive Step (sha256 : String → Digest) : Command → World → World → Prop
  | start {s : World} {now : Time} {actor : Principal} {audience : String}
      {input : PushSubscriptionInput} {r : Registration} :
      startRegister sha256 s.accounts s.subscriptions now actor audience input = .ok r →
      Step sha256 (.start now actor audience input) s { s with pending := r :: s.pending }
  | finish {s : World} {r : Registration} {randomUUID : Uuid} {dto : PushSubscriptionDto}
      {rows : Table Subscription} : r ∈ s.pending →
      finishRegister s.subscriptions randomUUID r = .ok (dto, rows) →
      Step sha256 (.finish r randomUUID) s
        { s with subscriptions := rows, pending := s.pending.erase r }
  | abort {s : World} {r : Registration} : r ∈ s.pending →
      Step sha256 (.abort r) s { s with pending := s.pending.erase r }
  | remove {s : World} {now : Time} {actor : Principal} {audience : String} {id : Uuid}
      {generation : Nat} {rows : Table Subscription} :
      Notifications.remove s.subscriptions now actor audience id generation = .ok rows →
      Step sha256 (.remove now actor audience id generation) s { s with subscriptions := rows }
  | revokeSession {s : World} {now : Time} {sessionId : Uuid} {rows : Table Subscription} :
      Notifications.revokeSession s.subscriptions now sessionId = .ok rows →
      Step sha256 (.revokeSession now sessionId) s { s with subscriptions := rows }
  | revokeUser {s : World} {now : Time} {userId : Uuid} {rows : Table Subscription} :
      Notifications.revokeUser s.subscriptions now userId = .ok rows →
      Step sha256 (.revokeUser now userId) s { s with subscriptions := rows }
  | invalidate {s : World} {now : Time} {id : Uuid} {generation : Nat}
      {rows : Table Subscription} :
      Notifications.invalidate s.subscriptions now id generation = .ok rows →
      Step sha256 (.invalidate now id generation) s { s with subscriptions := rows }
  | accounts {s : World} {a : Accounts} : Step sha256 (.accounts a) s { s with accounts := a }

/-- Any tables, and no registration under way. -/
def notifications (sha256 : String → Digest) : System World Command where
  init s := s.pending = []
  step := Step sha256

end Rogichat.Notifications
