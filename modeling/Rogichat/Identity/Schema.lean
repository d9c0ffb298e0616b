import Rogichat.Basic
import Rogichat.Lib.Outcome
import Rogichat.Lib.Table

/-!
# Accounts and their Apple identities: the tables

The rows an Apple exchange and an Apple notification read and write. One audience is
configured, so no row carries it; a digest or a sealed payload is stored as what it was made
from. Rows of `auth_identities` are those of the provider `apple`.
-/

namespace Rogichat.Identity

open Lib

/-- What `secret()` draws, a code of the provider, or a PKCE verifier. -/
abbrev Secret := Nat

/-- The dedicated 32-byte key of the identity guards. -/
abbrev GuardKey := Nat

inductive ClientId
  | web | ios | android
  deriving DecidableEq, Repr

inductive AuthIntent
  | login | link
  deriving DecidableEq, Repr

inductive UserStatus
  | active | suspended | deleting | deleted
  deriving DecidableEq, Repr

inductive LinkStatus
  | verified | revoked
  deriving DecidableEq, Repr

inductive CredentialStatus
  | exchangePending | exchangeUnknown | pending | active | revokePending | revoking | revoked
  deriving DecidableEq, Repr

/-! ## Rows -/

structure User where
  id : Uuid
  status : UserStatus := .active
  membershipGeneration : Nat := 0
  profile : Bool := true
  deriving DecidableEq, Repr

/-- A row of `auth_identities`. -/
structure AuthIdentity where
  id : Uuid
  userId : Uuid
  scope : String
  subject : String
  status : LinkStatus := .verified
  verifiedAt : Option Time
  revokedAt : Option Time := none
  deriving DecidableEq, Repr

/-- A row of `auth_sessions`; the transport is native for every client but `web`. -/
structure AuthSession where
  id : Uuid
  userId : Uuid
  token : Secret
  csrf : Secret
  client : ClientId
  createdAt : Time
  expiresAt : Time
  revokedAt : Option Time := none
  deriving DecidableEq, Repr

/-- `AppleProof`, without the refresh token; `issuedAt` counts seconds. -/
structure AppleProof where
  subject : String
  scope : String
  audience : String
  issuedAt : Nat
  deriving DecidableEq, Repr

/-- A row of `apple_auth_transactions`. -/
structure AppleTransaction where
  id : Uuid
  clientId : ClientId
  intent : AuthIntent
  codeChallenge : Secret
  userId : Option Uuid := none
  sessionId : Option Uuid := none
  boundGeneration : Option Nat := none
  status : LoginStatus := .pending
  expiresAt : Time
  completion : Option Secret := none
  completionExpires : Option Time := none
  proof : Option AppleProof := none
  deriving DecidableEq, Repr

/-- A row of `apple_provider_credentials`; its `transaction_id` is its `id`. -/
structure AppleCredential where
  id : Uuid
  identityId : Option Uuid := none
  userId : Option Uuid
  status : CredentialStatus
  availableAt : Time
  deriving DecidableEq, Repr

/-- A row of `apple_identity_events`. -/
structure AppleIdentityEvent where
  scope : String
  subject : String
  revokedAt : Time
  deriving DecidableEq, Repr

/-- A row of `apple_notification_receipts`. -/
structure NotificationReceipt where
  digest : Digest
  deriving DecidableEq, Repr

/-- A row of `identity_subject_guards`; without a request it is a serialization sentinel. -/
structure SubjectGuard where
  subjectHmac : Digest
  keyFingerprint : Digest
  requestId : Option Uuid := none
  deriving DecidableEq, Repr

/-- A row of `account_deletion_obligations`. -/
structure Obligation where
  userId : Uuid
  guardCoverage : Bool := false
  deriving DecidableEq, Repr

instance : Row User where
  Key := Uuid
  decEq := inferInstance
  keys u := [u.id]
  keyed _ := List.cons_ne_nil _ _

instance : Row AuthIdentity where
  Key := Uuid ⊕ String × String
  decEq := inferInstance
  keys i := [.inl i.id, .inr (i.scope, i.subject)]
  keyed _ := List.cons_ne_nil _ _

instance : Row AuthSession where
  Key := Uuid ⊕ Secret
  decEq := inferInstance
  keys s := [.inl s.id, .inr s.token]
  keyed _ := List.cons_ne_nil _ _

instance : Row AppleTransaction where
  Key := Uuid
  decEq := inferInstance
  keys r := [r.id]
  keyed _ := List.cons_ne_nil _ _

instance : Row AppleCredential where
  Key := Uuid
  decEq := inferInstance
  keys c := [c.id]
  keyed _ := List.cons_ne_nil _ _

instance : Row AppleIdentityEvent where
  Key := String × String
  decEq := inferInstance
  keys e := [(e.scope, e.subject)]
  keyed _ := List.cons_ne_nil _ _

instance : Row NotificationReceipt where
  Key := Digest
  decEq := inferInstance
  keys r := [r.digest]
  keyed _ := List.cons_ne_nil _ _

instance : Row SubjectGuard where
  Key := Digest
  decEq := inferInstance
  keys g := [g.subjectHmac]
  keyed _ := List.cons_ne_nil _ _

instance : Row Obligation where
  Key := Uuid
  decEq := inferInstance
  keys o := [o.userId]
  keyed _ := List.cons_ne_nil _ _

structure Db where
  users : Table User := .empty
  identities : Table AuthIdentity := .empty
  sessions : Table AuthSession := .empty
  transactions : Table AppleTransaction := .empty
  credentials : Table AppleCredential := .empty
  events : Table AppleIdentityEvent := .empty
  receipts : Table NotificationReceipt := .empty
  /-- The fingerprint of version 1 in `identity_guard_keys`. -/
  guardKey : Option Digest := none
  guards : Table SubjectGuard := .empty
  obligations : Table Obligation := .empty

inductive AuthError
  | unauthenticated | forbidden | invalidRequest | authFailed | authUnavailable
  | recentAuthRequired | linkSessionChanged | appleLinkConflict | appleCredentialNotPending
  /-- `P2002`: a unique index refused a row. -/
  | duplicate
  deriving DecidableEq, Repr

/-- The Apple client of a platform. -/
structure AppleClient where
  audience : String
  scope : String

/-- What is configured, and the keyed digests under it. -/
structure Config where
  identityGuardKey : Option GuardKey
  client : ClientId → AppleClient
  /-- `SessionService.csrf`. -/
  csrf : Secret → Secret
  /-- The challenge of a verifier. -/
  challenge : Secret → Secret
  fingerprint : GuardKey → Digest
  /-- The digest of `appleGuardSubject(scope, subject)`. -/
  appleHmac : GuardKey → String → String → Digest

/-- What a transaction draws from `randomUUID` and `secret`. -/
structure Drawn where
  userId : Uuid
  identityId : Uuid
  sessionId : Uuid
  token : Secret
  csrf : Secret

theorem eq_of_identity {identities : Table AuthIdentity} {i j : AuthIdentity}
    (hi : i ∈ identities) (hj : j ∈ identities) (h : i.id = j.id) : i = j :=
  Table.eq_of_key hi hj (k := .inl i.id) List.mem_cons_self (h ▸ List.mem_cons_self)

end Rogichat.Identity
