import Mathlib
import Rogichat.Basic
import Rogichat.Lib.Json
import Rogichat.Lib.Outcome
import Rogichat.Lib.Text

/-!
# Deletion intents and their bytes

`checkedDeletionIntent`, `deletionIntentKey`, `encodeDeletionIntent` and
`decodeDeletionIntent` of `deletion-ledger.ts`. An intent is checked as the JSON
value a caller passes or a stored object parses to; its bytes are the JSON text of
the checked record, in the property order the check rebuilds it in.

* **`checked_toJson`** — a checked intent passes its own check unchanged.
* **`decode_ok`** — decoded bytes are the text of the record they decode to.
* **`text_inj`** — checked records with one text are one record.
-/

namespace Rogichat.Ledger

open Lib

inductive LedgerEnvironment
  | qa | production
  deriving DecidableEq, Repr

def LedgerEnvironment.text : LedgerEnvironment → String
  | .qa => "qa"
  | .production => "production"

inductive DeletionScope
  | message | account
  deriving DecidableEq, Repr

def DeletionScope.text : DeletionScope → String
  | .message => "MESSAGE"
  | .account => "ACCOUNT"

/-- The fingerprint of a subject that may not come back. -/
structure AccountSubjectGuard where
  keyFingerprint : String
  subjectHmac : String
  identityId : String
  deriving DecidableEq, Repr

/-- The providers a guard may name. -/
def guardProviders : List String := ["soop", "apple"]

/-- The provider is the value the check let through, which need not be a string. -/
structure ScopedAccountSubjectGuard extends AccountSubjectGuard where
  provider : Json
  deriving DecidableEq, Repr

/-- What the three schema versions add to the common fields. -/
inductive SubjectGuards
  | v1
  | v2 (subjectGuard : Option AccountSubjectGuard)
  | v3 (subjectGuards : List ScopedAccountSubjectGuard)
  deriving DecidableEq, Repr

structure DeletionIntent where
  environment : LedgerEnvironment
  requestId : String
  actorUserId : String
  scope : DeletionScope
  targetId : String
  roomId : Option String
  requestedAt : String
  guards : SubjectGuards
  deriving DecidableEq, Repr

/-- What the ledger throws: the codes of its own errors, and the `TypeError` of a value that
`String` cannot convert. -/
inductive DeletionLedgerError
  | ledgerUnavailable | ledgerConflict | invalidLedgerIntent
  | typeError
  deriving DecidableEq, Repr

def ledgerMaxBytes : Nat := 4096

/-- A UUID of any version up to eight. -/
def isUuid (s : String) : Bool :=
  Text.fits (Text.uuidPattern fun c => '1' ≤ c && c ≤ '8') s.toList

/-! ## The check -/

/-- A value that has to be a string. -/
def asString : Json → Except DeletionLedgerError String
  | .str s => .ok s
  | _ => .error .invalidLedgerIntent

/-- A value that has to be an object. -/
def asObject : Json → Except DeletionLedgerError (List (String × Json))
  | .obj fields => .ok fields
  | _ => .error .invalidLedgerIntent

/-- A field that has to be a string passing a test. -/
def checkedString (fields : List (String × Json)) (key : String) (test : String → Bool) :
    Except DeletionLedgerError String := do
  let value ← require (Json.field? fields key) .invalidLedgerIntent
  let s ← asString value
  ensure (test s = true) .invalidLedgerIntent
  return s

/-- A field that has to be the number. -/
def isNumber (fields : List (String × Json)) (key : String) (n : Int) : Bool :=
  match Json.field? fields key with
  | some (.num m) => m = n
  | _ => false

/-- The keys of the object are the expected ones. -/
def hasKeys (fields : List (String × Json)) (expected : List String) : Prop :=
  (fields.map Prod.fst).Perm expected

instance (fields : List (String × Json)) (expected : List String) :
    Decidable (hasKeys fields expected) :=
  inferInstanceAs (Decidable (List.Perm _ _))

def baseKeys : List String :=
  ["actorUserId", "environment", "requestId", "requestedAt", "roomId", "schemaVersion", "scope",
    "targetId"]

def checkedScope (s : String) : Except DeletionLedgerError DeletionScope :=
  if s = "MESSAGE" then .ok .message
  else if s = "ACCOUNT" then .ok .account
  else .error .invalidLedgerIntent

/-- The common fields of a guard. -/
def checkedGuard (fields : List (String × Json)) :
    Except DeletionLedgerError AccountSubjectGuard := do
  ensure (isNumber fields "version" 1 = true) .invalidLedgerIntent
  let identityId ← checkedString fields "identityId" isUuid
  let keyFingerprint ← checkedString fields "keyFingerprint" Text.isSha256Hex
  let subjectHmac ← checkedString fields "subjectHmac" Text.isSha256Hex
  return { keyFingerprint := keyFingerprint, subjectHmac := subjectHmac, identityId := identityId }

/-- A guard of schema version 2. -/
def checkedSubjectGuard (value : Json) :
    Except DeletionLedgerError (Option AccountSubjectGuard) :=
  match value with
  | .null => return none
  | value => do
    let fields ← asObject value
    ensure (hasKeys fields ["identityId", "keyFingerprint", "subjectHmac", "version"])
      .invalidLedgerIntent
    return some (← checkedGuard fields)

/-- A guard of schema version 3. -/
def checkedScopedGuard (value : Json) :
    Except DeletionLedgerError ScopedAccountSubjectGuard := do
  let fields ← asObject value
  ensure (hasKeys fields ["identityId", "keyFingerprint", "provider", "subjectHmac", "version"])
    .invalidLedgerIntent
  ensure (isNumber fields "version" 1 = true) .invalidLedgerIntent
  let provider ← require (Json.field? fields "provider") .invalidLedgerIntent
  -- unlike the other fields, it is only compared as a string, and it need not have one
  ensure (Json.hasText provider = true) .typeError
  ensure (Json.toText provider ∈ guardProviders) .invalidLedgerIntent
  let guard ← checkedGuard fields
  return { toAccountSubjectGuard := guard, provider := provider }

/-- The guards of schema version 3: at most eight, of distinct identities, in
strictly ascending order of their digests. -/
def checkedSubjectGuards (value : Json) :
    Except DeletionLedgerError (List ScopedAccountSubjectGuard) :=
  match value with
  | .arr items => do
    ensure (items.length ≤ 8) .invalidLedgerIntent
    let guards ← items.mapM checkedScopedGuard
    ensure ((guards.map fun g => g.identityId).Nodup ∧
      (guards.map fun g => g.subjectHmac).Pairwise (· < ·)) .invalidLedgerIntent
    return guards
  | _ => .error .invalidLedgerIntent

/-- What the schema version asks of the keys and of the guards. -/
def checkedGuards (fields : List (String × Json)) (scope : DeletionScope) :
    Except DeletionLedgerError SubjectGuards :=
  if isNumber fields "schemaVersion" 3 then do
    ensure (hasKeys fields ("subjectGuards" :: baseKeys) ∧ scope = .account) .invalidLedgerIntent
    return .v3 (← checkedSubjectGuards
      (← require (Json.field? fields "subjectGuards") .invalidLedgerIntent))
  else if isNumber fields "schemaVersion" 2 then do
    ensure (hasKeys fields ("subjectGuard" :: baseKeys) ∧ scope = .account) .invalidLedgerIntent
    return .v2 (← checkedSubjectGuard
      (← require (Json.field? fields "subjectGuard") .invalidLedgerIntent))
  else do
    ensure (hasKeys fields baseKeys ∧ isNumber fields "schemaVersion" 1 = true)
      .invalidLedgerIntent
    return .v1

/-- The room of a message intent; an account intent has none and targets its actor. -/
def checkedRoom (fields : List (String × Json)) (scope : DeletionScope)
    (actorUserId targetId : String) : Except DeletionLedgerError (Option String) :=
  match scope with
  | .account =>
    match Json.field? fields "roomId" with
    | some .null => do
      ensure (targetId = actorUserId) .invalidLedgerIntent
      return none
    | _ => .error .invalidLedgerIntent
  | .message => return some (← checkedString fields "roomId" isUuid)

/-- `checkedDeletionIntent`. -/
def checkedDeletionIntent (value : Json) (environment : LedgerEnvironment) :
    Except DeletionLedgerError DeletionIntent := do
  let fields ← asObject value
  let _ ← checkedString fields "environment" fun s => s = environment.text
  let requestId ← checkedString fields "requestId" isUuid
  let actorUserId ← checkedString fields "actorUserId" isUuid
  let targetId ← checkedString fields "targetId" isUuid
  let scope ← checkedScope (← checkedString fields "scope" fun _ => true)
  let requestedAt ← checkedString fields "requestedAt" Text.isTimestamp
  let roomId ← checkedRoom fields scope actorUserId targetId
  let guards ← checkedGuards fields scope
  return { environment := environment, requestId := requestId, actorUserId := actorUserId,
           scope := scope, targetId := targetId, roomId := roomId, requestedAt := requestedAt,
           guards := guards }

/-! ## The record as the check rebuilds it -/

def AccountSubjectGuard.fields (g : AccountSubjectGuard) : List (String × Json) :=
  [("version", .num 1), ("keyFingerprint", .str g.keyFingerprint),
    ("subjectHmac", .str g.subjectHmac), ("identityId", .str g.identityId)]

def ScopedAccountSubjectGuard.toJson (g : ScopedAccountSubjectGuard) : Json :=
  .obj (g.fields ++ [("provider", g.provider)])

def SubjectGuards.schemaVersion : SubjectGuards → Int
  | .v1 => 1
  | .v2 _ => 2
  | .v3 _ => 3

def SubjectGuards.fields : SubjectGuards → List (String × Json)
  | .v1 => []
  | .v2 none => [("subjectGuard", .null)]
  | .v2 (some g) => [("subjectGuard", .obj g.fields)]
  | .v3 gs => [("subjectGuards", .arr (gs.map ScopedAccountSubjectGuard.toJson))]

/-- The frozen record, in its property order. -/
def DeletionIntent.toJson (i : DeletionIntent) : Json :=
  .obj ([("schemaVersion", .num i.guards.schemaVersion), ("environment", .str i.environment.text),
    ("requestId", .str i.requestId), ("actorUserId", .str i.actorUserId),
    ("scope", .str i.scope.text), ("targetId", .str i.targetId),
    ("roomId", i.roomId.elim .null Json.str), ("requestedAt", .str i.requestedAt)] ++
    i.guards.fields)

/-! ## Keys and bytes -/

/-- `deletionIntentKey`. -/
def deletionIntentKey (environment : LedgerEnvironment) (requestId : String) :
    Except DeletionLedgerError String := do
  ensure (isUuid requestId = true) .invalidLedgerIntent
  return environment.text ++ "/" ++ requestId ++ "/intent.json"

/-- `encodeDeletionIntent`. -/
def encodeDeletionIntent (intent : DeletionIntent) : Except DeletionLedgerError ByteArray := do
  let checked ← checkedDeletionIntent intent.toJson intent.environment
  return checked.toJson.stringify.toUTF8

/-- A strict UTF-8 `TextDecoder`, which drops a leading byte order mark. -/
def decodeText (bytes : ByteArray) : Option String :=
  (String.fromUTF8? bytes).map fun text =>
    match text.toList with
    | '\uFEFF' :: cs => String.ofList cs
    | _ => text

/-- `decodeDeletionIntent`: the bytes have to be those the record encodes to. Whatever is
thrown after the size check is caught. -/
def decodeDeletionIntent (bytes : ByteArray) (environment : LedgerEnvironment) :
    Except DeletionLedgerError DeletionIntent := do
  ensure (1 ≤ bytes.size ∧ bytes.size ≤ ledgerMaxBytes) .invalidLedgerIntent
  let record : Except DeletionLedgerError DeletionIntent := do
    let text ← require (decodeText bytes) .invalidLedgerIntent
    let value ← require (Json.parse text) .invalidLedgerIntent
    let record ← checkedDeletionIntent value environment
    let canonical ← encodeDeletionIntent record
    ensure (canonical = bytes) .invalidLedgerIntent
    return record
  record.mapError fun _ => .invalidLedgerIntent

/-! ## What the check establishes -/

theorem checkedString_ok {fields : List (String × Json)} {key s : String}
    {test : String → Bool} :
    checkedString fields key test = .ok s ↔
      Json.field? fields key = some (.str s) ∧ test s = true := by
  simp only [checkedString, bind_ok, require_ok, ensure_ok, pure_ok]
  constructor
  · rintro ⟨v, hv, t, ht, -, htest, rfl⟩
    cases v <;> cases ht
    exact ⟨hv, htest⟩
  · rintro ⟨hv, htest⟩
    exact ⟨_, hv, _, rfl, (), htest, rfl⟩

structure AccountSubjectGuard.Valid (g : AccountSubjectGuard) : Prop where
  identityId : isUuid g.identityId = true
  keyFingerprint : Text.isSha256Hex g.keyFingerprint = true
  subjectHmac : Text.isSha256Hex g.subjectHmac = true

/-- A guard with a provider the ledger accepts. -/
structure ScopedAccountSubjectGuard.Valid (g : ScopedAccountSubjectGuard) : Prop extends
    g.toAccountSubjectGuard.Valid where
  provider : Json.toText g.provider ∈ guardProviders

/-- What the guards of a schema version have to satisfy. -/
def SubjectGuards.Valid : SubjectGuards → Prop
  | .v1 => True
  | .v2 subjectGuard => ∀ g ∈ subjectGuard, g.Valid
  | .v3 subjectGuards => subjectGuards.length ≤ 8 ∧
      (∀ g ∈ subjectGuards, g.Valid) ∧
      (subjectGuards.map fun g => g.identityId).Nodup ∧
      (subjectGuards.map fun g => g.subjectHmac).Pairwise (· < ·)

/-- An intent as the check returns it. -/
structure DeletionIntent.Valid (i : DeletionIntent) : Prop where
  requestId : isUuid i.requestId = true
  actorUserId : isUuid i.actorUserId = true
  targetId : isUuid i.targetId = true
  requestedAt : Text.isTimestamp i.requestedAt = true
  account : i.scope = .account → i.roomId = none ∧ i.targetId = i.actorUserId
  message : i.scope = .message → i.guards = .v1 ∧ ∃ room ∈ i.roomId, isUuid room = true
  guards : i.guards.Valid

theorem checkedGuard_valid {fields : List (String × Json)} {g : AccountSubjectGuard}
    (h : checkedGuard fields = .ok g) : g.Valid := by
  simp only [checkedGuard, bind_ok, ensure_ok, checkedString_ok, pure_ok] at h
  obtain ⟨-, -, _, ⟨-, hid⟩, _, ⟨-, hkey⟩, _, ⟨-, hmac⟩, rfl⟩ := h
  exact ⟨hid, hkey, hmac⟩

theorem checkedScopedGuards_valid {items : List Json} {gs : List ScopedAccountSubjectGuard}
    (h : items.mapM checkedScopedGuard = .ok gs) :
    gs.length = items.length ∧ ∀ g ∈ gs, g.Valid := by
  induction items generalizing gs with
  | nil =>
    simp only [List.mapM_nil, pure_ok] at h
    subst h
    exact ⟨rfl, fun g hg => absurd hg List.not_mem_nil⟩
  | cons v items ih =>
    simp only [List.mapM_cons, bind_ok, pure_ok] at h
    obtain ⟨g, hg, gs', hgs, rfl⟩ := h
    obtain ⟨hlen, hvalid⟩ := ih hgs
    refine ⟨congrArg Nat.succ hlen, ?_⟩
    intro g' hg'
    rcases List.mem_cons.mp hg' with rfl | hg'
    · simp only [checkedScopedGuard, bind_ok, ensure_ok, pure_ok] at hg
      obtain ⟨_, -, -, -, -, -, provider, -, -, -, -, hprovider, guard, hguard, rfl⟩ := hg
      exact ⟨checkedGuard_valid hguard, hprovider⟩
    · exact hvalid g' hg'

theorem checkedGuards_valid {fields : List (String × Json)} {scope : DeletionScope}
    {guards : SubjectGuards} (h : checkedGuards fields scope = .ok guards) :
    guards.Valid ∧ (scope = .message → guards = .v1) := by
  unfold checkedGuards at h
  split_ifs at h
  · simp only [bind_ok, ensure_ok, require_ok, pure_ok] at h
    obtain ⟨-, ⟨-, rfl⟩, value, -, gs, hgs, rfl⟩ := h
    refine ⟨?_, fun hscope => absurd hscope (by decide)⟩
    unfold checkedSubjectGuards at hgs
    split at hgs
    · simp only [bind_ok, ensure_ok, pure_ok] at hgs
      obtain ⟨-, hlen, _, hitems, -, ⟨hids, hmacs⟩, rfl⟩ := hgs
      obtain ⟨hlength, hvalid⟩ := checkedScopedGuards_valid hitems
      exact ⟨hlength ▸ hlen, hvalid, hids, hmacs⟩
    · cases hgs
  · simp only [bind_ok, ensure_ok, require_ok, pure_ok] at h
    obtain ⟨-, ⟨-, rfl⟩, value, -, guard, hguard, rfl⟩ := h
    refine ⟨?_, fun hscope => absurd hscope (by decide)⟩
    intro g hg
    cases hg
    unfold checkedSubjectGuard at hguard
    split at hguard
    · cases hguard
    · simp only [bind_ok, pure_ok, Option.some.injEq] at hguard
      obtain ⟨_, -, -, -, _, hvalid, rfl⟩ := hguard
      exact checkedGuard_valid hvalid
  · simp only [bind_ok, pure_ok] at h
    obtain ⟨-, -, rfl⟩ := h
    exact ⟨trivial, fun _ => rfl⟩

theorem checked_valid {value : Json} {environment : LedgerEnvironment} {i : DeletionIntent}
    (h : checkedDeletionIntent value environment = .ok i) :
    i.Valid ∧ i.environment = environment := by
  simp only [checkedDeletionIntent, bind_ok, checkedString_ok, pure_ok] at h
  obtain ⟨fields, -, _, -, requestId, ⟨-, hrequest⟩, actor, ⟨-, hactor⟩, target, ⟨-, htarget⟩,
    _, -, scope, -, at', ⟨-, hat⟩, room, hroom, guards, hguards, rfl⟩ := h
  obtain ⟨hvalid, hv1⟩ := checkedGuards_valid hguards
  refine ⟨⟨hrequest, hactor, htarget, hat, ?_, ?_, hvalid⟩, rfl⟩
  · rintro rfl
    simp only [checkedRoom] at hroom
    split at hroom
    · simp only [bind_ok, ensure_ok, pure_ok] at hroom
      obtain ⟨-, hsame, rfl⟩ := hroom
      exact ⟨rfl, hsame⟩
    · cases hroom
  · rintro rfl
    simp only [checkedRoom, bind_ok, checkedString_ok, pure_ok] at hroom
    obtain ⟨r, ⟨-, hr⟩, rfl⟩ := hroom
    exact ⟨hv1 rfl, r, rfl, hr⟩

theorem word_provider {s : String} (h : s ∈ guardProviders) : Json.Word s := by
  simp only [guardProviders, List.mem_cons, List.not_mem_nil, or_false] at h
  rcases h with rfl | rfl
  · exact ⟨by simp, ⟨'s', by simp, rfl⟩, by simp⟩
  · exact ⟨by simp, ⟨'a', by simp, rfl⟩, by simp⟩

/-- What the check lets through as a provider: its name, or arrays of one item around it. -/
theorem ScopedAccountSubjectGuard.Valid.nested {g : ScopedAccountSubjectGuard} (h : g.Valid) :
    g.provider = Json.nest (Json.wraps g.provider) (.str (Json.toText g.provider)) := by
  obtain ⟨n, hn⟩ := Json.exists_nest (word_provider h.provider) g.provider rfl
  rw [hn, Json.toText_nest, Json.wraps_nest]

theorem ScopedAccountSubjectGuard.Valid.hasText {g : ScopedAccountSubjectGuard} (h : g.Valid) :
    Json.hasText g.provider = true := by
  rw [h.nested]
  exact Json.hasText_nest _ _

/-! ## A checked record passes its own check -/

theorem checkedScope_text (scope : DeletionScope) : checkedScope scope.text = .ok scope := by
  cases scope <;> rfl

theorem checkedGuard_fields {g : AccountSubjectGuard} (h : g.Valid)
    (rest : List (String × Json)) : checkedGuard (g.fields ++ rest) = .ok g := by
  simp only [checkedGuard, bind_ok, ensure_ok, checkedString_ok, pure_ok]
  refine ⟨(), rfl, g.identityId, ⟨rfl, h.identityId⟩, g.keyFingerprint, ⟨rfl, h.keyFingerprint⟩,
    g.subjectHmac, ⟨rfl, h.subjectHmac⟩, rfl⟩

theorem checkedScopedGuard_toJson {g : ScopedAccountSubjectGuard} (h : g.Valid) :
    checkedScopedGuard g.toJson = .ok g := by
  simp only [checkedScopedGuard, bind_ok, ensure_ok, require_ok, pure_ok]
  refine ⟨_, rfl, (), ?_, (), rfl, g.provider, rfl, (), h.hasText, (), h.provider,
    g.toAccountSubjectGuard, checkedGuard_fields h.toValid _, rfl⟩
  show List.Perm ["version", "keyFingerprint", "subjectHmac", "identityId", "provider"] _
  decide

theorem checkedScopedGuards_map {gs : List ScopedAccountSubjectGuard} (h : ∀ g ∈ gs, g.Valid) :
    (gs.map ScopedAccountSubjectGuard.toJson).mapM checkedScopedGuard = .ok gs := by
  induction gs with
  | nil => rfl
  | cons g gs ih =>
    rw [List.map_cons, List.mapM_cons, checkedScopedGuard_toJson (h g List.mem_cons_self), ok_bind,
      ih fun g' hg' => h g' (List.mem_cons_of_mem _ hg')]
    rfl

theorem checkedSubjectGuard_fields {g : AccountSubjectGuard} (h : g.Valid) :
    checkedSubjectGuard (.obj g.fields) = .ok (some g) := by
  have hguard := checkedGuard_fields h []
  rw [List.append_nil] at hguard
  simp only [checkedSubjectGuard, bind_ok, ensure_ok, pure_ok]
  refine ⟨_, rfl, (), ?_, g, hguard, rfl⟩
  show List.Perm ["version", "keyFingerprint", "subjectHmac", "identityId"] _
  decide

/-- The fields a record has in every schema version. -/
def DeletionIntent.base (i : DeletionIntent) : List (String × Json) :=
  [("schemaVersion", .num i.guards.schemaVersion), ("environment", .str i.environment.text),
    ("requestId", .str i.requestId), ("actorUserId", .str i.actorUserId),
    ("scope", .str i.scope.text), ("targetId", .str i.targetId),
    ("roomId", i.roomId.elim .null Json.str), ("requestedAt", .str i.requestedAt)]

theorem DeletionIntent.toJson_eq (i : DeletionIntent) :
    i.toJson = .obj (i.base ++ i.guards.fields) := rfl

theorem checkedGuards_fields {i : DeletionIntent} (h : i.Valid) :
    checkedGuards (i.base ++ i.guards.fields) i.scope = .ok i.guards := by
  -- guards of a person go with the deletion of an account only
  have haccount : i.guards ≠ .v1 → i.scope = .account := by
    intro hne
    cases hscope : i.scope with
    | account => rfl
    | message => exact absurd (h.message hscope).1 hne
  have hversion : ∀ n, isNumber (i.base ++ i.guards.fields) "schemaVersion" n =
      decide (i.guards.schemaVersion = n) := fun n => rfl
  have hvalid := h.guards
  have hbase : i.base.map Prod.fst = ["schemaVersion", "environment", "requestId", "actorUserId",
    "scope", "targetId", "roomId", "requestedAt"] := rfl
  unfold checkedGuards
  cases hguards : i.guards with
  | v1 =>
    rw [hguards] at hversion
    rw [if_neg (by simp [hversion, SubjectGuards.schemaVersion]),
      if_neg (by simp [hversion, SubjectGuards.schemaVersion])]
    simp only [bind_ok, ensure_ok, pure_ok]
    refine ⟨(), ⟨?_, by simp [hversion, SubjectGuards.schemaVersion]⟩, trivial⟩
    rw [hasKeys, List.map_append, hbase]
    decide
  | v2 g =>
    have hscope := haccount (by simp [hguards])
    rw [hguards] at hversion hvalid
    rw [if_neg (by simp [hversion, SubjectGuards.schemaVersion]),
      if_pos (by simp [hversion, SubjectGuards.schemaVersion])]
    simp only [bind_ok, ensure_ok, pure_ok, require_ok]
    cases g with
    | none => exact ⟨(), ⟨by rw [hasKeys, List.map_append, hbase]; decide, hscope⟩, _, rfl, none,
        rfl, rfl⟩
    | some g =>
      refine ⟨(), ⟨?_, hscope⟩, _, rfl, some g, checkedSubjectGuard_fields (hvalid g rfl), rfl⟩
      rw [hasKeys, List.map_append, hbase]
      show List.Perm (_ ++ ["subjectGuard"]) _
      decide
  | v3 gs =>
    have hscope := haccount (by simp [hguards])
    rw [hguards] at hversion hvalid
    obtain ⟨hlen, hall, hids, hmacs⟩ := hvalid
    rw [if_pos (by simp [hversion, SubjectGuards.schemaVersion])]
    simp only [bind_ok, ensure_ok, pure_ok, require_ok]
    refine ⟨(), ⟨?_, hscope⟩, _, rfl, gs, ?_, rfl⟩
    · rw [hasKeys, List.map_append, hbase]
      show List.Perm (_ ++ ["subjectGuards"]) _
      decide
    · simp only [checkedSubjectGuards, bind_ok, ensure_ok, pure_ok, List.length_map]
      exact ⟨(), hlen, gs, checkedScopedGuards_map hall, (), ⟨hids, hmacs⟩, rfl⟩

/-- A checked intent passes its own check unchanged. -/
theorem checked_toJson {i : DeletionIntent} (h : i.Valid) :
    checkedDeletionIntent i.toJson i.environment = .ok i := by
  rw [DeletionIntent.toJson_eq]
  simp only [checkedDeletionIntent, bind_ok, checkedString_ok, pure_ok]
  refine ⟨_, rfl, i.environment.text, ⟨rfl, decide_eq_true rfl⟩, i.requestId, ⟨rfl, h.requestId⟩,
    i.actorUserId, ⟨rfl, h.actorUserId⟩, i.targetId, ⟨rfl, h.targetId⟩, i.scope.text,
    ⟨rfl, trivial⟩, i.scope, checkedScope_text _, i.requestedAt, ⟨rfl, h.requestedAt⟩, i.roomId, ?_, i.guards,
    checkedGuards_fields h, rfl⟩
  cases hscope : i.scope with
  | account =>
    obtain ⟨hroom, hsame⟩ := h.account hscope
    have hfield : Json.field? (i.base ++ i.guards.fields) "roomId" = some .null := by
      show some (i.roomId.elim .null Json.str) = _
      rw [hroom]
      rfl
    simp only [checkedRoom, hfield, hsame, hroom, bind_ok, ensure_ok, pure_ok]
    exact ⟨(), trivial, trivial⟩
  | message =>
    obtain ⟨-, room, hroom, hr⟩ := h.message hscope
    rw [Option.mem_def] at hroom
    have hfield : Json.field? (i.base ++ i.guards.fields) "roomId" = some (.str room) := by
      show some (i.roomId.elim .null Json.str) = _
      rw [hroom]
      rfl
    simp only [checkedRoom, bind_ok, checkedString_ok, pure_ok]
    exact ⟨room, ⟨hfield, hr⟩, hroom.symm⟩

/-! ## Bytes -/

theorem distinct_guards {gs : List ScopedAccountSubjectGuard} (h : ∀ g ∈ gs, g.Valid) :
    Json.DistinctItems (gs.map ScopedAccountSubjectGuard.toJson) := by
  induction gs with
  | nil => trivial
  | cons g gs ih =>
    have hprovider : g.provider.Distinct := by
      rw [(h g List.mem_cons_self).nested]
      exact Json.distinct_nest _ trivial
    refine ⟨⟨?_, trivial, trivial, trivial, trivial, hprovider, trivial⟩,
      ih fun g' hg' => h g' (List.mem_cons_of_mem _ hg')⟩
    show ["version", "keyFingerprint", "subjectHmac", "identityId", "provider"].Nodup
    decide

theorem distinct_toJson {i : DeletionIntent} (h : i.Valid) : i.toJson.Distinct := by
  have hroom : (i.roomId.elim Json.null Json.str).Distinct := by cases i.roomId <;> trivial
  have hbase : ∀ rest, Json.DistinctFields rest → Json.DistinctFields (i.base ++ rest) := by
    intro rest hrest
    exact ⟨trivial, trivial, trivial, trivial, trivial, trivial, hroom, trivial, hrest⟩
  have hkeys : ∀ rest : List (String × Json), rest.map Prod.fst ∈ [[], ["subjectGuard"],
      ["subjectGuards"]] → ((i.base ++ rest).map Prod.fst).Nodup := by
    intro rest hrest
    rw [List.map_append, show i.base.map Prod.fst = ["schemaVersion", "environment", "requestId",
      "actorUserId", "scope", "targetId", "roomId", "requestedAt"] from rfl]
    revert hrest
    generalize rest.map Prod.fst = keys
    intro hkeys
    fin_cases hkeys <;> decide
  rw [DeletionIntent.toJson_eq]
  have hvalid := h.guards
  cases hguards : i.guards with
  | v1 => exact ⟨hkeys _ (by decide), hbase _ trivial⟩
  | v2 g =>
    cases g with
    | none => exact ⟨hkeys _ (by decide), hbase _ ⟨trivial, trivial⟩⟩
    | some g =>
      refine ⟨hkeys _ (.tail _ (.head _)), hbase _ ⟨⟨?_, trivial, trivial, trivial, trivial,
        trivial⟩, trivial⟩⟩
      show ["version", "keyFingerprint", "subjectHmac", "identityId"].Nodup
      decide
  | v3 gs =>
    rw [hguards] at hvalid
    exact ⟨hkeys _ (.tail _ (.tail _ (.head _))), hbase _ ⟨distinct_guards hvalid.2.1, trivial⟩⟩

theorem decodeText_toUTF8 {s : String} (h : s.toList.head? ≠ some '\uFEFF') :
    decodeText s.toUTF8 = some s := by
  have hvalid : String.fromUTF8? s.toUTF8 = some s := by
    rw [String.fromUTF8?, String.toUTF8_eq_toByteArray, dif_pos s.isValidUTF8]
    rfl
  rw [decodeText, hvalid, Option.map_some]
  split
  · rename_i hs
    rw [hs] at h
    exact absurd rfl h
  · rfl

theorem LedgerEnvironment.text_inj {e e' : LedgerEnvironment} (h : e.text = e'.text) : e = e' := by
  cases e <;> cases e' <;> first | rfl | simp [LedgerEnvironment.text] at h

/-- The text of the record. -/
def DeletionIntent.text (i : DeletionIntent) : ByteArray := i.toJson.stringify.toUTF8

/-- Checked records with one text are one record. -/
theorem text_inj {i j : DeletionIntent} (hi : i.Valid) (hj : j.Valid) (h : i.text = j.text) :
    i = j := by
  have hstring : i.toJson.stringify = j.toJson.stringify := by
    rw [← String.toByteArray_inj]
    exact h
  have hsame : i.toJson = j.toJson :=
    Json.stringify_inj (distinct_toJson hi) (distinct_toJson hj) hstring
  have henvironment : i.environment = j.environment := by
    rw [DeletionIntent.toJson_eq, DeletionIntent.toJson_eq, Json.obj.injEq] at hsame
    have hfield : Json.field? (i.base ++ i.guards.fields) "environment" =
        some (.str i.environment.text) := rfl
    rw [hsame, show Json.field? (j.base ++ j.guards.fields) "environment" =
      some (.str j.environment.text) from rfl, Option.some.injEq, Json.str.injEq] at hfield
    exact (LedgerEnvironment.text_inj hfield).symm
  -- the check rebuilds each of them from the one value
  have hone := checked_toJson hi
  rw [hsame, henvironment, checked_toJson hj] at hone
  exact (Except.ok.inj hone).symm

/-- What encodes at all encodes to the text of the record it was checked to be. -/
theorem encode_ok {i : DeletionIntent} {bytes : ByteArray} :
    i.Valid → (encodeDeletionIntent i = .ok bytes ↔ bytes = i.text) := by
  intro h
  rw [encodeDeletionIntent, checked_toJson h]
  constructor
  · rintro ⟨⟩
    rfl
  · rintro rfl
    rfl

/-- Decoded bytes are the encoding of the valid record they decode to. -/
theorem decode_ok {bytes : ByteArray} {environment : LedgerEnvironment} {i : DeletionIntent}
    (h : decodeDeletionIntent bytes environment = .ok i) :
    i.Valid ∧ i.environment = environment ∧ bytes = i.text := by
  simp only [decodeDeletionIntent, bind_ok, mapError_ok, ensure_ok, require_ok, pure_ok] at h
  obtain ⟨-, -, text, -, value, -, record, hrecord, canonical, hcanonical, -, rfl, rfl⟩ := h
  obtain ⟨hvalid, henv⟩ := checked_valid hrecord
  exact ⟨hvalid, henv, (encode_ok hvalid).mp hcanonical⟩

end Rogichat.Ledger
