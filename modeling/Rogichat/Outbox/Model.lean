import Mathlib.Logic.Function.Basic
import Rogichat.Outbox.Payload
import Rogichat.Lib.Trace

/-!
# The durable outbox

`DurableOutbox` of any number of tabs over one IndexedDB state. An operation is
called, its transaction runs, and its completion is handled: three steps, between
which other tabs, and other operations of the tab, take theirs. Read-write
transactions exclude one another, and a tab handles the completion of one before the
next one runs. A transaction may fail after its work was done: then the state is kept
and the changes the work made to the tab stay.

The log records what the tabs were told: it is only read by the properties.
-/

namespace Rogichat.Outbox

open Lib

/-! ## The stored state -/

structure OutboxRecord where
  clientMessageId : String
  roomId : String
  accountPartition : String
  sessionKey : String
  membershipScope : String
  authorizationRevision : String
  createdAt : Time
  payloadExpiresAt : Time
  expiresAt : Time
  attempted : Bool := false
  payload : Option OutboxPayload
  result : Option Receipt := none
  deriving DecidableEq, Repr

/-- `OutboxState`, less the fields no operation reads any more. -/
structure OutboxState where
  authorityEpoch : Nat := 0
  authority : Option OutboxAuthority := none
  records : List OutboxRecord := []

/-- `OUTBOX_LIMITS`. -/
def maxRecords : Nat := 256
/-- How many bytes the records may take. -/
def maxBytes : Nat := 2 * 1024 * 1024
def payloadMs : Nat := 15 * 60000
def identityMs : Nat := 24 * 60 * 60000

/-- `Number.MAX_SAFE_INTEGER`. -/
def maxSafeInteger : Nat := 9007199254740991

/-- Erase the payload of a record. -/
def OutboxRecord.erase (r : OutboxRecord) : OutboxRecord := { r with payload := none }

/-- Erase the payload, and the result unless it is a deletion. -/
def OutboxRecord.scrub (r : OutboxRecord) : OutboxRecord :=
  { r with payload := none, result := r.result.filter Receipt.isDeleted }

/-- Old payloads are scrubbed and old records dropped. -/
def expire (state : OutboxState) (now : Time) : OutboxState :=
  { state with
    records := (state.records.filter fun r => now < r.expiresAt).map fun r =>
      if r.payloadExpiresAt ≤ now then r.erase else r }

/-- The record belongs to the authority, and its room is one of the authority's. -/
def Permitted (r : OutboxRecord) (authority : OutboxAuthority) : Prop :=
  r.accountPartition = authority.accountPartition ∧ r.sessionKey = authority.sessionKey ∧
    ∃ room ∈ authority.rooms, room.roomId = r.roomId ∧
      room.membershipScope = r.membershipScope ∧
      room.authorizationRevision = r.authorizationRevision

instance (r : OutboxRecord) (authority : OutboxAuthority) : Decidable (Permitted r authority) :=
  inferInstanceAs (Decidable (_ ∧ _ ∧ ∃ room ∈ authority.rooms, _ ∧ _ ∧ _))

/-- Records of another authority lose their payload. -/
def applyAuthority (state : OutboxState) (authority : OutboxAuthority) (now : Time) :
    OutboxState :=
  { expire state now with
    records := (expire state now).records.map fun r =>
      if Permitted r authority then r else r.scrub
    authority := some authority }

def OutboxRecord.toJson (r : OutboxRecord) : Json :=
  .obj ([("clientMessageId", .str r.clientMessageId), ("roomId", .str r.roomId),
      ("accountPartition", .str r.accountPartition), ("sessionKey", .str r.sessionKey),
      ("membershipScope", .str r.membershipScope),
      ("authorizationRevision", .str r.authorizationRevision), ("createdAt", .num r.createdAt),
      ("payloadExpiresAt", .num r.payloadExpiresAt), ("expiresAt", .num r.expiresAt),
      ("attempted", .bool r.attempted)] ++
    (r.payload.map fun p => ("payload", p.toJson)).toList ++
    (r.result.map fun value => ("result", value.toJson)).toList)

/-- The records with another one exceed the limits. -/
def Full (records : List OutboxRecord) (record : OutboxRecord) : Prop :=
  maxRecords ≤ records.length ∨
    maxBytes < Json.byteSize (Json.arr ((records ++ [record]).map OutboxRecord.toJson)).render

instance (records : List OutboxRecord) (record : OutboxRecord) : Decidable (Full records record) :=
  inferInstanceAs (Decidable (_ ∨ _))

/-- Evict settled records, oldest first, until another one fits. The fuel is the
number of records: without any the loop could not evict either. -/
def makeRoom (record : OutboxRecord) :
    (fuel : Nat) → List OutboxRecord → Except OutboxError (List OutboxRecord)
  | 0, records => if Full records record then .error .capacity else .ok records
  | fuel + 1, records =>
    if Full records record then
      if ∃ r ∈ records, r.result.isSome = true then
        makeRoom record fuel (records.eraseP fun r => r.result.isSome)
      else .error .capacity
    else .ok records

/-- The record of an id. -/
def OutboxState.find? (state : OutboxState) (id : String) : Option OutboxRecord :=
  state.records.find? fun r => r.clientMessageId = id

/-- A new record, where there is room. -/
def insert (state : OutboxState) (roomId : String) (payload : OutboxPayload) (now : Time) :
    Except OutboxError OutboxState := do
  let authority ← require state.authority .locked
  let room ← require (authority.rooms.find? fun room => room.roomId = roomId) .locked
  ensure (room.membershipScope = payload.membershipScope) .locked
  match state.find? payload.clientMessageId with
  | some prior => do
    let stored ← require prior.payload .readOnly
    ensure (Permitted prior authority ∧ prior.roomId = roomId ∧
      stored.toJson.stringify = payload.toJson.stringify) .readOnly
    return state
  | none => do
    let state := expire state now
    let record : OutboxRecord :=
      { clientMessageId := payload.clientMessageId, roomId := roomId,
        accountPartition := authority.accountPartition, sessionKey := authority.sessionKey,
        membershipScope := room.membershipScope,
        authorizationRevision := room.authorizationRevision, createdAt := now,
        payloadExpiresAt := now + payloadMs, expiresAt := now + identityMs,
        payload := some payload }
    let records ← makeRoom record state.records.length state.records
    return { state with records := records ++ [record] }

/-- A receipt settles its record. -/
def applyReceipt (r : OutboxRecord) (value : Receipt) : Except OutboxError OutboxRecord := do
  let result ← receipt value r.clientMessageId
  if ∃ prior ∈ r.result, prior.isDeleted = true then return r
  else return { r with result := some result, payload := none }

/-- Change the record of an id; ids do not repeat. -/
def OutboxState.update (state : OutboxState) (id : String) (f : OutboxRecord → OutboxRecord) :
    OutboxState :=
  { state with
    records := state.records.map fun r => if r.clientMessageId = id then f r else r }

/-! ## A tab -/

/-- A grant remembered by a tab, told apart by the generation it was made in. -/
structure Grant where
  authority : OutboxAuthority
  epoch : Nat
  generation : Nat
  deriving DecidableEq

/-- What one tab keeps in memory. -/
structure Tab where
  authority : Option OutboxAuthority := none
  authorityEpoch : Option Nat := none
  generation : Nat := 0
  stopped : Bool := false
  locallySuspended : Bool := false
  lastGrant : Option Grant := none
  preparedHere : List String := []
  lookup404 : List String := []
  /-- The operation whose transaction has committed and whose completion is due. -/
  completing : Option Nat := none

/-- The authority and every permission are dropped. -/
def Tab.drop (t : Tab) : Tab :=
  { t with authority := none, authorityEpoch := none, preparedHere := [], lookup404 := [] }

/-- The tab starts no operation. -/
def Tab.Suspended (t : Tab) : Prop := t.locallySuspended = true ∨ t.stopped = true

instance (t : Tab) : Decidable t.Suspended := inferInstanceAs (Decidable (_ ∨ _))

/-- The tab stops; operations under way are stale from here on. -/
def Tab.suspend (t : Tab) : Tab :=
  if t.Suspended then t
  else { t.drop with locallySuspended := true, generation := t.generation + 1 }

/-- What `authorize` does before its granting transaction. -/
def Tab.regenerate (t : Tab) : Tab := { t.drop with generation := t.generation + 1 }

/-- The operations whose transactions run, with the arguments they were called with.
`refresh` and `grant` are the two transactions of `authorize`. -/
inductive Op
  | assertCurrent
  | refresh (authority : OutboxAuthority)
  | grant (authority : OutboxAuthority)
  | prepare (roomId : String) (given payload : OutboxPayload)
  | recover (roomId : String)
  | beforeLookup (id : String)
  | lookupNotFound (id : String)
  | beforeSend (id : String) (explicitRetry : Bool)
  | settle (value : Receipt)
  | quarantine (ids : Option (List String))
  | revoke (grant : Option Grant)

/-- What a transaction resolves with. -/
inductive Result
  | done
  | granted (epoch : Nat)
  | prepared (created : Bool)
  | recovered (records : List OutboxRecord)
  | payload (payload : OutboxPayload)

/-- `guard`, then the rest of a transaction's work. -/
def guarded (t : Tab) (state : OutboxState) (now : Time)
    (rest : OutboxAuthority → OutboxState → Except OutboxError (OutboxState × Result)) :
    Tab × Except OutboxError (OutboxState × Result) :=
  match t.authority, t.authorityEpoch with
  | some authority, some epoch =>
    if state.authorityEpoch ≠ epoch ∨ ¬SameAuthority state.authority (some authority) then
      (t.drop, .error .authorityChanged)
    else (t, rest authority (expire state now))
  | _, _ => (t, .error .locked)

/-- `record`: the record of an id, within the authority. -/
def recordOf (authority : OutboxAuthority) (state : OutboxState) (id : String) :
    Except OutboxError OutboxRecord := do
  let r ← require (state.find? id) .readOnly
  ensure (r.accountPartition = authority.accountPartition ∧
    ∃ room ∈ authority.rooms, room.roomId = r.roomId) .readOnly
  return r

/-- The work of `beforeSend`, after its guard. -/
def releaseWork (t : Tab) (id : String) (explicitRetry : Bool) (authority : OutboxAuthority)
    (state : OutboxState) : Except OutboxError (OutboxState × Result) := do
  let r ← recordOf authority state id
  let payload ← require r.payload .readOnly
  ensure (r.result = none ∧ Permitted r authority) .readOnly
  ensure (id ∈ t.preparedHere ∨ explicitRetry = true ∧ id ∈ t.lookup404) .receiptFirst
  return (state.update id fun r => { r with attempted := true }, .payload payload)

/-- A record as `recover` shows it. -/
def OutboxRecord.safe (authority : OutboxAuthority) (r : OutboxRecord) : OutboxRecord :=
  if Permitted r authority then r else r.scrub

/-- The granting transaction of `authorize`. -/
def grantWork (authority : OutboxAuthority) (state : OutboxState) (now : Time) :
    Except OutboxError (OutboxState × Result) := do
  let changed := ¬SameAuthority state.authority (some authority)
  ensure (changed → state.authorityEpoch < maxSafeInteger) .updateRequired
  let epoch := if changed then state.authorityEpoch + 1 else state.authorityEpoch
  return (applyAuthority { state with authorityEpoch := epoch } authority now, .granted epoch)

/-- The transaction of `revoke`: it may only end the grant it was called under. -/
def revokeWork (grant : Option Grant) (state : OutboxState) :
    Except OutboxError (OutboxState × Result) :=
  match grant with
  | none => return (state, .done)
  | some grant =>
    if state.authorityEpoch ≠ grant.epoch ∨ ¬SameAuthority state.authority (some grant.authority)
    then return (state, .done)
    else do
      ensure (state.authorityEpoch < maxSafeInteger) .updateRequired
      return ({ authorityEpoch := state.authorityEpoch + 1, authority := none,
                records := state.records.map OutboxRecord.scrub }, .done)

/-- The work of an operation's transaction. `now` is the clock of its guard, `later`
the one it reads after. -/
def Op.work (op : Op) (t : Tab) (state : OutboxState) (now later : Time) :
    Tab × Except OutboxError (OutboxState × Result) :=
  match op with
  | .assertCurrent | .refresh _ => guarded t state now fun _ state => return (state, .done)
  | .grant authority => (t, grantWork authority state now)
  | .prepare roomId _ payload =>
    guarded t state now fun _ state => do
      let created := (state.find? payload.clientMessageId).isNone
      return (← insert state roomId payload later, .prepared created)
  | .recover roomId =>
    guarded t state now fun authority state => do
      ensure (∃ room ∈ authority.rooms, room.roomId = roomId) .locked
      let records := state.records.filter fun r =>
        r.roomId = roomId ∧ r.accountPartition = authority.accountPartition
      return (state, .recovered (records.map (OutboxRecord.safe authority)))
  | .beforeLookup id | .lookupNotFound id =>
    guarded t state now fun authority state => do
      let _ ← recordOf authority state id
      return (state, .done)
  | .beforeSend id explicitRetry =>
    match guarded t state now (releaseWork t id explicitRetry) with
    | (t, .ok result) => ({ t with lookup404 := t.lookup404.filter (· ≠ id) }, .ok result)
    | (t, .error e) => (t, .error e)
  | .settle value =>
    guarded t state now fun authority state => do
      let r ← recordOf authority state value.clientMessageId
      let settled ← applyReceipt r value
      return (state.update value.clientMessageId fun _ => settled, .done)
  | .quarantine ids =>
    guarded t state now fun _ state =>
      return ({ state with
        records := state.records.map fun r =>
          if ∀ named ∈ ids, r.clientMessageId ∈ named then r.scrub else r }, .done)
  | .revoke held => (t, revokeWork held state)

/-- What follows in the tab once a transaction has completed. -/
def Tab.resolve (t : Tab) (op : Op) (result : Result) : Tab :=
  match op, result with
  | .grant authority, .granted epoch =>
    { t with
      authority := some authority, authorityEpoch := some epoch
      lastGrant := some ⟨authority, epoch, t.generation⟩ }
  | .prepare _ _ payload, .prepared true =>
    { t with preparedHere := payload.clientMessageId :: t.preparedHere }
  | .lookupNotFound id, _ => { t with lookup404 := id :: t.lookup404 }
  | .beforeSend id _, _ => { t with preparedHere := t.preparedHere.filter (· ≠ id) }
  | .settle value, _ =>
    { t with
      preparedHere := t.preparedHere.filter (· ≠ value.clientMessageId)
      lookup404 := t.lookup404.filter (· ≠ value.clientMessageId) }
  | .quarantine none, _ => { t with preparedHere := [] }
  | .quarantine (some ids), _ => { t with preparedHere := t.preparedHere.filter (· ∉ ids) }
  | .revoke grant, _ => { t with lastGrant := if t.lastGrant = grant then none else t.lastGrant }
  | _, _ => t

/-! ## The system -/

abbrev TabId := Nat

/-- What has happened, for the statements about whole runs. -/
inductive Event
  /-- The tab's `prepare` created the record of the id, given a payload. -/
  | created (tab : TabId) (id : String) (given : OutboxPayload)
  /-- A `beforeSend` of the tab committed, with the payload it releases. -/
  | released (tab : TabId) (id : String) (payload : OutboxPayload)
  /-- The tab recorded that the server does not know the id. -/
  | notFound (tab : TabId) (id : String)
  /-- The tab dropped its authority. -/
  | changed (tab : TabId)
  deriving DecidableEq

/-- How far an operation has come. -/
inductive Stage
  | started
  | committed (result : Result)
  | aborted (e : OutboxError)

/-- A called operation, with the generation of the tab it was called in. -/
structure Pending where
  tab : TabId
  op : Op
  generation : Nat
  stage : Stage

/-- The stored state, the tabs, the operations under way and the log. -/
structure Sys where
  state : OutboxState := {}
  tabs : TabId → Option Tab := fun _ => none
  pending : Nat → Option Pending := fun _ => none
  log : List Event := []

/-- The calls of the outbox's users. -/
inductive Call
  | authorize (value : OutboxAuthority)
  | assertCurrent
  | prepare (roomId : String) (value : OutboxPayload)
  | recover (roomId : String)
  | beforeLookup (id : String)
  | lookupNotFound (id : String)
  | beforeSend (id : String) (explicitRetry : Bool)
  | settle (value : Receipt)
  | quarantine (ids : Option (List String))
  | revoke

/-- What tabs do, and when their transactions commit. -/
inductive Command
  /-- A tab opens the outbox. -/
  | openTab (tab : TabId) (now : Time)
  /-- A tab that was opening it is gone before it could. -/
  | openLost (now : Time)
  | call (tab : TabId) (k : Nat) (call : Call)
  /-- The transaction of an operation runs, and commits or not. -/
  | run (k : Nat) (now later : Time) (commits : Bool)
  /-- The end of an operation's transaction is handled. -/
  | complete (k : Nat)
  | suspend (tab : TabId)
  | close (tab : TabId)

def Sys.setTab (s : Sys) (tab : TabId) (t : Tab) : Sys :=
  { s with tabs := Function.update s.tabs tab (some t) }

/-- An operation begins, goes on or ends. -/
def Sys.setPending (s : Sys) (k : Nat) (p : Option Pending) : Sys :=
  { s with pending := Function.update s.pending k p }

/-- Ask for a transaction; a stopped tab is refused. -/
def Sys.begin (s : Sys) (tab : TabId) (t : Tab) (k : Nat) (op : Op) : Sys :=
  if t.stopped = true then s.setTab tab t
  else (s.setTab tab t).setPending k (some ⟨tab, op, t.generation, .started⟩)

/-- `authorize`, from the new generation on. -/
def Sys.beginGrant (s : Sys) (tab : TabId) (t : Tab) (k : Nat) (authority : OutboxAuthority) :
    Sys :=
  { s with log := .changed tab :: s.log }.begin tab t.regenerate k (.grant authority)

/-- `suspend`, unless the tab is already. -/
def Sys.suspended (s : Sys) (tab : TabId) (t : Tab) : Sys :=
  if t.Suspended then s else { s with log := .changed tab :: s.log }.setTab tab t.suspend

/-- The operation a call asks a transaction for. -/
def Call.op (nfc : Nfc) (t : Tab) : Call → Except OutboxError Op
  | .authorize value => .refresh <$> normalizeAuthority value
  | .assertCurrent => .ok .assertCurrent
  | .prepare roomId value => .prepare roomId value <$> normalizePayload nfc value
  | .recover roomId => .ok (.recover roomId)
  | .beforeLookup id => .ok (.beforeLookup id)
  | .lookupNotFound id => .ok (.lookupNotFound id)
  | .beforeSend id explicitRetry => .ok (.beforeSend id explicitRetry)
  | .settle value => .ok (.settle value)
  | .quarantine ids => .ok (.quarantine ids)
  | .revoke => .ok (.revoke t.lastGrant)

/-- Start the operation of a call. A routine refresh of the tab's own authority only
checks it; any other `authorize` begins a generation; `revoke` suspends first. -/
def Sys.start (s : Sys) (tab : TabId) (t : Tab) (k : Nat) : Op → Sys
  | .refresh authority =>
    if t.authorityEpoch ≠ none ∧ t.authority ≠ none ∧
        SameAuthority t.authority (some authority) then
      s.begin tab { t with locallySuspended := false } k (.refresh authority)
    else s.beginGrant tab { t with locallySuspended := false } k authority
  | .revoke grant => (s.suspended tab t).begin tab t.suspend k (.revoke grant)
  | op => s.begin tab t k op

/-- What the log records of a transaction that committed. -/
def commitEvents (tab : TabId) : Op → Result → List Event
  | .prepare _ given payload, .prepared true => [.created tab payload.clientMessageId given]
  | .beforeSend id _, .payload payload => [.released tab id payload]
  | _, _ => []

/-- What the log records of a completion. -/
def resolveEvents (tab : TabId) : Op → List Event
  | .lookupNotFound id => [.notFound tab id]
  | _ => []

/-- A transaction runs under its tab's generation. -/
def Sys.ran (s : Sys) (k : Nat) (p : Pending) (t : Tab) (now later : Time) (commits : Bool) :
    Sys :=
  match p.op.work t s.state now later with
  | (t', .error e) =>
    -- a guard that fails drops the tab's authority
    let events := if t'.authority = t.authority then [] else [.changed p.tab]
    ({ s with log := events ++ s.log }.setTab p.tab t').setPending k
      (some { p with stage := .aborted e })
  | (t', .ok (state, result)) =>
    if commits = true then
      ({ s with state := state, log := commitEvents p.tab p.op result ++ s.log }.setTab p.tab
        { t' with completing := some k }).setPending k (some { p with stage := .committed result })
    else (s.setTab p.tab t').setPending k (some { p with stage := .aborted .storageFailed })

/-- An operation called in an earlier generation, or in a tab that has stopped. -/
def Pending.Stale (p : Pending) (t : Tab) : Prop := t.stopped = true ∨ p.generation ≠ t.generation

instance (p : Pending) (t : Tab) : Decidable (p.Stale t) := inferInstanceAs (Decidable (_ ∨ _))

/-- The operation's promise settles in its tab. -/
def Sys.completed (s : Sys) (k : Nat) (p : Pending) (t : Tab) : Sys :=
  match p.stage with
  | .started => s
  | .committed result =>
    if p.Stale t then (s.setTab p.tab { t with completing := none }).setPending k none
    else
      ({ s with log := resolveEvents p.tab p.op ++ s.log }.setTab p.tab
        { t.resolve p.op result with completing := none }).setPending k none
  | .aborted e =>
    match p.op, e with
    | .refresh authority, .authorityChanged => (s.setPending k none).beginGrant p.tab t k authority
    | _, _ => s.setPending k none

/-- A command in a state, when it is possible there. -/
def exec (nfc : Nfc) (c : Command) (s : Sys) : Option Sys :=
  match c with
  | .openTab tab now =>
    match s.tabs tab with
    | some _ => none
    | none =>
      let state := expire s.state now
      let grant := state.authority.map fun authority => ⟨authority, state.authorityEpoch, 0⟩
      some ({ s with state := state }.setTab tab { lastGrant := grant })
  | .openLost now => some { s with state := expire s.state now }
  | .call tab k call =>
    match s.tabs tab, s.pending k with
    | some t, none =>
      match call.op nfc t with
      | .ok op => some (s.start tab t k op)
      | .error _ => none
    | _, _ => none
  | .run k now later commits =>
    match s.pending k with
    | some p =>
      match s.tabs p.tab, p.stage with
      | some t, .started =>
        if p.Stale t then some (s.setPending k (some { p with stage := .aborted .locked }))
        else if t.completing = none then some (s.ran k p t now later commits)
        else none
      | _, _ => none
    | none => none
  | .complete k =>
    match s.pending k with
    | some p =>
      match s.tabs p.tab with
      | some t => some (s.completed k p t)
      | none => none
    | none => none
  | .suspend tab => (s.tabs tab).map (s.suspended tab)
  | .close tab =>
    (s.tabs tab).map fun t =>
      if t.stopped = true then s
      else (s.suspended tab t).setTab tab { t.suspend with stopped := true }

/-- The outbox of one environment, when its database has just been created. -/
def system (nfc : Nfc) : System Sys Command where
  init s := s = {}
  step c s t := exec nfc c s = some t

end Rogichat.Outbox
