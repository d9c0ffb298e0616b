import Rogichat.Ledger.Intent
import Rogichat.Lib.Canonical
import Rogichat.Lib.Outcome
import Rogichat.Lib.Text

/-!
# Signed proofs of a restore

`restore-proof.ts`: the scope of a restore run, the boundary and release proofs of its
issuers, and their verification. A proof's bytes are the canonical text of its payload, so
an envelope is given by its payload; one whose bytes are no such text, or are over the size
bounds, is refused, and has no value here. Numbers are the safe integers.

SHA-256 is an injective function on texts, and `hash` says of a text that it is a digest.
-/

namespace Rogichat.Restore

open Lib Ledger

/-- Every rejection is `restore_gate_rejected`. -/
inductive Rejected
  | restoreGateRejected
  deriving DecidableEq, Repr

/-- `restoreRejected()` unless the condition holds. -/
def check (p : Prop) [Decidable p] : Except Rejected Unit := ensure p .restoreGateRejected

/-- A check that is passed holds. -/
@[simp] theorem check_ok {p : Prop} [Decidable p] {u : Unit} : check p = .ok u ↔ p := ensure_ok

/-- SHA-256, taken to be ideal, and the verification of a signature over a text. -/
structure Crypto where
  sha256 : String → String
  hash : String → Bool
  verify : (key bytes signature : String) → Bool
  ideal : Function.Injective sha256

/-- What a proof is made out for. -/
structure RestoreScope where
  environment : LedgerEnvironment
  sourceCommit : String
  schemaSha256 : String
  restoreRunId : String
  snapshotSha256 : String
  targetId : String
  ledgerSourceId : String
  deriving DecidableEq, Repr

/-- An object of the receipt ledger and its digest. -/
structure InventoryItem where
  key : String
  sha256 : String
  deriving DecidableEq, Repr

/-- What a boundary proof says: up to where the ledger reaches. -/
structure BoundaryPayload extends RestoreScope where
  issuedAt : Int
  expiresAt : Int
  ledgerBoundaryId : String
  admissionFenceId : String
  inventory : List InventoryItem
  deriving DecidableEq, Repr

/-- What a release proof says: which measurement is released. -/
structure ReleasePayload extends RestoreScope where
  issuedAt : Int
  expiresAt : Int
  boundarySha256 : String
  observationSha256 : String
  nonce : String
  deriving DecidableEq, Repr

/-- A payload whose signature was verified. -/
structure VerifiedProof (α : Type) where
  payload : α
  sha256 : String
  issuer : String

/-! ## Payloads as JSON -/

def RestoreScope.fields (s : RestoreScope) : List (String × Json) :=
  [("environment", .str s.environment.text), ("sourceCommit", .str s.sourceCommit),
    ("schemaSha256", .str s.schemaSha256), ("restoreRunId", .str s.restoreRunId),
    ("snapshotSha256", .str s.snapshotSha256), ("targetId", .str s.targetId),
    ("ledgerSourceId", .str s.ledgerSourceId)]

def RestoreScope.toJson (s : RestoreScope) : Json := .obj s.fields

def InventoryItem.toJson (i : InventoryItem) : Json :=
  .obj [("key", .str i.key), ("sha256", .str i.sha256)]

def inventoryJson (items : List InventoryItem) : Json := .arr (items.map InventoryItem.toJson)

def BoundaryPayload.toJson (p : BoundaryPayload) : Json :=
  .obj (p.toRestoreScope.fields ++
    [("version", .num 1), ("purpose", .str "restore-ledger-boundary"),
      ("issuedAt", .num p.issuedAt), ("expiresAt", .num p.expiresAt),
      ("ledgerBoundaryId", .str p.ledgerBoundaryId),
      ("admissionFenceId", .str p.admissionFenceId), ("pendingAdmissionsResolved", .bool true),
      ("inventory", inventoryJson p.inventory)])

def ReleasePayload.toJson (p : ReleasePayload) : Json :=
  .obj (p.toRestoreScope.fields ++
    [("version", .num 1), ("purpose", .str "restore-release"), ("issuedAt", .num p.issuedAt),
      ("expiresAt", .num p.expiresAt), ("boundarySha256", .str p.boundarySha256),
      ("observationSha256", .str p.observationSha256), ("nonce", .str p.nonce)])

/-! ## Verification -/

def isIdentifierChar (c : Char) : Bool :=
  c.isAlphanum || c = '_' || c = '.' || c = '/' || c = ':' || c = '-'

/-- `[A-Za-z0-9_./:-]{1,256}`. -/
def identifier (s : String) : Bool :=
  s.toList.all isIdentifierChar && 1 ≤ s.length && s.length ≤ 256

def checkedScope (c : Crypto) (s : RestoreScope) : Except Rejected Unit :=
  check (Text.fits (List.replicate 40 Text.lowerHex) s.sourceCommit.toList = true ∧
    c.hash s.schemaSha256 = true ∧ c.hash s.snapshotSha256 = true ∧
    c.hash s.ledgerSourceId = true ∧ identifier s.restoreRunId = true ∧
    identifier s.targetId = true)

/-- The payloads an issuer signs. -/
inductive Payload
  | boundary (payload : BoundaryPayload)
  | release (payload : ReleasePayload)

def Payload.toJson : Payload → Json
  | .boundary p => p.toJson
  | .release p => p.toJson

/-- A payload with its signature and the key's name. -/
structure Envelope where
  keyId : String
  signature : String
  payload : Payload

/-- The configured issuer keys, as their DER texts. -/
structure RestoreProofVerifier where
  boundaryKey : String
  releaseKey : String

/-- The digest a key is pinned by. -/
def fingerprint (c : Crypto) (key : String) : String := c.sha256 key

/-- `check`: what both purposes share. -/
def checkProof (c : Crypto) (key : String) (envelope : Envelope) (expected scope : RestoreScope)
    (issuedAt expiresAt lifetime now : Int) : Except Rejected Unit := do
  checkedScope c expected
  check (envelope.keyId = fingerprint c key)
  check (c.verify key (Json.canonical envelope.payload.toJson) envelope.signature = true)
  check (scope = expected ∧ issuedAt ≤ now ∧ now < expiresAt ∧ issuedAt < expiresAt ∧
    expiresAt - issuedAt ≤ lifetime)

/-- `row.key.split('/')[1] ?? ''`. -/
def requestIdOf (key : String) : String :=
  String.ofList (((key.toList.splitOn '/')[1]?).getD [])

/-- The inventory's rows: their keys ascend, and are those of intents. -/
def checkInventory (c : Crypto) (environment : LedgerEnvironment) :
    (previous : String) → List InventoryItem → Except Rejected Unit
  | _, [] => return ()
  | previous, row :: rows => do
    check (previous < row.key ∧ c.hash row.sha256 = true)
    check (deletionIntentKey environment (requestIdOf row.key) = .ok row.key)
    checkInventory c environment row.key rows

/-- A boundary proof is verified for a scope, at a time. -/
def RestoreProofVerifier.boundary (v : RestoreProofVerifier) (c : Crypto) (envelope : Envelope)
    (expected : RestoreScope) (now : Int) : Except Rejected (VerifiedProof BoundaryPayload) :=
  match envelope.payload with
  | .boundary p => do
    checkProof c v.boundaryKey envelope expected p.toRestoreScope p.issuedAt p.expiresAt 3600 now
    check (identifier p.ledgerBoundaryId = true ∧ identifier p.admissionFenceId = true ∧
      p.inventory.length ≤ 10000)
    checkInventory c expected.environment "" p.inventory
    return { payload := p, sha256 := c.sha256 (Json.canonical p.toJson),
             issuer := fingerprint c v.boundaryKey }
  | .release _ => .error .restoreGateRejected

/-- A release proof is verified for a scope, at a time. -/
def RestoreProofVerifier.release (v : RestoreProofVerifier) (c : Crypto) (envelope : Envelope)
    (expected : RestoreScope) (now : Int) : Except Rejected (VerifiedProof ReleasePayload) :=
  match envelope.payload with
  | .boundary _ => .error .restoreGateRejected
  | .release p => do
    checkProof c v.releaseKey envelope expected p.toRestoreScope p.issuedAt p.expiresAt 300 now
    check (c.hash p.boundarySha256 = true ∧ c.hash p.observationSha256 = true ∧
      Text.fits (List.replicate 32 Text.lowerHex) p.nonce.toList = true)
    return { payload := p, sha256 := c.sha256 (Json.canonical p.toJson),
             issuer := fingerprint c v.releaseKey }

/-- A verified release is of the configured scope, and signed with the release key. -/
theorem release_ok {v : RestoreProofVerifier} {c : Crypto} {envelope : Envelope}
    {expected : RestoreScope} {now : Int} {proof : VerifiedProof ReleasePayload}
    (h : v.release c envelope expected now = .ok proof) :
    proof.payload.toRestoreScope = expected ∧
      c.verify v.releaseKey (Json.canonical proof.payload.toJson) envelope.signature = true := by
  unfold RestoreProofVerifier.release at h
  split at h
  · cases h
  · rename_i p hp
    simp only [checkProof, bind_ok, check_ok] at h
    obtain ⟨-, ⟨-, -, -, -, -, hverify, hscope, -⟩, -, -, hproof⟩ := h
    rw [pure_ok] at hproof
    subst hproof
    rw [hp] at hverify
    exact ⟨hscope, hverify⟩

/-! ## One text, one inventory -/

/-- An inventory repeats no key. -/
theorem distinct_inventory (items : List InventoryItem) : (inventoryJson items).Distinct := by
  rw [inventoryJson, Json.Distinct, Json.distinctItems_iff]
  intro v hv
  obtain ⟨i, -, rfl⟩ := List.mem_map.mp hv
  simp [InventoryItem.toJson, Json.Distinct, Json.DistinctFields]

/-- An object is read off its JSON. -/
theorem InventoryItem.sorted_inj {i j : InventoryItem}
    (h : i.toJson.sorted = j.toJson.sorted) : i = j := by
  have hvalues := Json.values_of_sorted ["key", "sha256"]
    [.str i.key, .str i.sha256] [.str j.key, .str j.sha256]
    (by decide) rfl rfl h
  simp only [List.map_cons, List.map_nil, Json.sorted_str, List.cons.injEq, Json.str.injEq,
    and_true] at hvalues
  cases i
  cases j
  obtain ⟨rfl, rfl⟩ := hvalues
  rfl

/-- An inventory is read off its canonical text. -/
theorem inventory_inj {items others : List InventoryItem}
    (h : Json.canonical (inventoryJson items) = Json.canonical (inventoryJson others)) :
    items = others := by
  have hsorted := Json.sorted_of_canonical (distinct_inventory items) (distinct_inventory others) h
  rw [inventoryJson, inventoryJson, Json.sorted_arr, Json.sorted_arr, Json.arr.injEq,
    List.map_map, List.map_map] at hsorted
  exact List.map_injective_iff.mpr (fun i j hij => InventoryItem.sorted_inj hij) hsorted

end Rogichat.Restore
