import Mathlib.Logic.Function.Basic
import Rogichat.Ledger.Codec
import Rogichat.Lib.Trace

/-!
# One immutable answer per deletion request

`DeletionLedger.ensureIntent` over a create-only store. A call is cut at its store
operations, and any number of calls interleave there. A write is sent by a call and
lands, or never lands, at any later time: its acknowledgement tells the call
nothing, so a lost one and a late write are runs of the model. An aborted signal or
a store operation that throws ends a call with `LEDGER_UNAVAILABLE` at any point.

* **`Sys.Sound`** — the invariant: what a call knows about its key is still true.
* **`objects_kept`** — no command changes bytes that are stored.
* **`ensureIntent_answers`** — the guarantees of the ledger over whole runs.
-/

namespace Rogichat.Ledger

open Lib

/-- What a caller gets for an intent that is stored. -/
structure DeletionReceipt where
  intent : DeletionIntent
  sha256 : Digest
  deriving DecidableEq

/-- A call, as it was started. -/
structure Call where
  environment : LedgerEnvironment
  intended : DeletionIntent
  key : String
  deriving DecidableEq

/-- Where a call stands between two store operations. -/
inductive Stage
  /-- The key has not been read. -/
  | started
  /-- The first read found nothing, and the write was sent. -/
  | written
  /-- The call read these bytes and returned. -/
  | answered (bytes : ByteArray)
  /-- The signal was aborted, the store failed, or nothing was stored when the
  call read its key back. -/
  | unavailable

abbrev CallId := Nat

/-- The objects, the calls and their answers. -/
structure Sys where
  objects : String → Option ByteArray
  /-- Writes sent to the store, with the call that sent each. -/
  inflight : List (CallId × String × ByteArray)
  calls : CallId → Option (Call × Stage)

/-- The fields no retry may change. -/
def DeletionIntent.Same (durable intended : DeletionIntent) : Prop :=
  durable.requestId = intended.requestId ∧ durable.actorUserId = intended.actorUserId ∧
    durable.scope = intended.scope ∧ durable.targetId = intended.targetId ∧
    durable.roomId = intended.roomId

instance (durable intended : DeletionIntent) : Decidable (durable.Same intended) :=
  inferInstanceAs (Decidable (_ ∧ _))

variable (sha256 : ByteArray → Digest)

/-- The end of `ensureIntent`: what it returns of the bytes it read. -/
def Call.conclude (c : Call) (bytes : ByteArray) :
    Except DeletionLedgerError DeletionReceipt := do
  let durable ← decodeDeletionIntent bytes c.environment
  ensure (durable.Same c.intended) .ledgerConflict
  return { intent := durable, sha256 := sha256 bytes }

/-- What a call has returned, if it has. -/
def Call.result (c : Call) : Stage → Option (Except DeletionLedgerError DeletionReceipt)
  | .started => none
  | .written => none
  | .answered bytes => some (c.conclude sha256 bytes)
  | .unavailable => some (.error .ledgerUnavailable)

/-- What callers do, and when their requests are served. -/
inductive Command
  /-- A call with the value a caller passes. -/
  | ensureIntent (i : CallId) (environment : LedgerEnvironment) (value : Json)
  /-- `store.read`, the first time; a missing object is followed by `putIfAbsent`. -/
  | read (i : CallId)
  /-- A write of the call reaches the store. -/
  | land (i : CallId)
  /-- `store.read` after the write. -/
  | readBack (i : CallId)
  /-- `throwIfAborted`, or a read that throws. -/
  | fail (i : CallId)

/-- The call a command belongs to. -/
def Command.call : Command → CallId
  | .ensureIntent i _ _ => i
  | .read i => i
  | .land i => i
  | .readBack i => i
  | .fail i => i

/-- The start of `ensureIntent`: the value is checked and its key formed. -/
def startCall (environment : LedgerEnvironment) (value : Json) :
    Except DeletionLedgerError Call := do
  let intended ← checkedDeletionIntent value environment
  let key ← deletionIntentKey environment intended.requestId
  return { environment := environment, intended := intended, key := key }

/-- A call goes on. -/
def Sys.setStage (s : Sys) (i : CallId) (c : Call) (stage : Stage) : Sys :=
  { s with calls := Function.update s.calls i (some (c, stage)) }

/-- Atomic create only: stored bytes are never overwritten. -/
def putIfAbsent (objects : String → Option ByteArray) (key : String) (bytes : ByteArray) :
    String → Option ByteArray :=
  match objects key with
  | some _ => objects
  | none => Function.update objects key (some bytes)

/-- One command; `none` where it is not enabled. -/
def exec (cmd : Command) (s : Sys) : Option Sys :=
  match cmd with
  | .ensureIntent i environment value =>
    match s.calls i, startCall environment value with
    | none, .ok c => some (s.setStage i c .started)
    | _, _ => none
  | .read i =>
    match s.calls i with
    | some (c, .started) =>
      match s.objects c.key, encodeDeletionIntent c.intended with
      | some bytes, _ => some (s.setStage i c (.answered bytes))
      | none, .ok bytes =>
        some { s.setStage i c .written with inflight := (i, c.key, bytes) :: s.inflight }
      | none, .error _ => some (s.setStage i c .written)
    | _ => none
  | .land i =>
    match s.inflight.find? fun w => w.1 = i with
    | some (_, key, bytes) =>
      some { s with
        objects := putIfAbsent s.objects key bytes
        inflight := s.inflight.filter fun w => w.1 ≠ i }
    | none => none
  | .readBack i =>
    match s.calls i with
    | some (c, .written) =>
      match s.objects c.key with
      | some bytes => some (s.setStage i c (.answered bytes))
      | none => some (s.setStage i c .unavailable)
    | _ => none
  | .fail i =>
    match s.calls i with
    | some (c, .started) => some (s.setStage i c .unavailable)
    | some (c, .written) => some (s.setStage i c .unavailable)
    | _ => none

/-- The ledger, with whatever objects the store held before. -/
def system : System Sys Command where
  init s := s.inflight = [] ∧ ∀ i, s.calls i = none
  step c s t := exec c s = some t

/-! ## Stored bytes stay -/

/-- What a command does to the objects: nothing, or one of its call's writes lands
on a free key. -/
theorem exec_objects {cmd : Command} {s t : Sys} (h : exec cmd s = some t) :
    t.objects = s.objects ∨ ∃ key bytes, (cmd.call, key, bytes) ∈ s.inflight ∧
      s.objects key = none ∧ t.objects = Function.update s.objects key (some bytes) := by
  cases cmd with
  | land i =>
    simp only [exec] at h
    split at h
    · rename_i w key bytes hfind
      cases h
      have hw : w = i := by simpa using List.find?_some hfind
      subst hw
      cases hkey : s.objects key with
      | some b =>
        left
        simp only [putIfAbsent, hkey]
      | none =>
        right
        refine ⟨key, bytes, List.mem_of_find?_eq_some hfind, hkey, ?_⟩
        simp only [putIfAbsent, hkey]
    · cases h
  | ensureIntent i environment value =>
    left
    simp only [exec] at h
    split at h <;> cases h
    rfl
  | read i =>
    left
    simp only [exec] at h
    split at h
    · split at h <;> cases h <;> rfl
    · cases h
  | readBack i =>
    left
    simp only [exec] at h
    split at h
    · split at h <;> cases h <;> rfl
    · cases h
  | fail i =>
    left
    simp only [exec] at h
    split at h <;> cases h <;> rfl

theorem exec_kept {cmd : Command} {s t : Sys} (h : exec cmd s = some t) {key : String}
    {bytes : ByteArray} (hs : s.objects key = some bytes) : t.objects key = some bytes := by
  rcases exec_objects h with hsame | ⟨k, b, -, hfree, hupdate⟩
  · rw [hsame]
    exact hs
  · have hne : key ≠ k := by
      rintro rfl
      rw [hfree] at hs
      cases hs
    rw [hupdate, Function.update_of_ne hne]
    exact hs

/-- No run changes bytes that are stored. -/
theorem objects_kept {s t : Sys} {cs : List Command} (h : system.Run s cs t) {key : String}
    {bytes : ByteArray} (hs : s.objects key = some bytes) : t.objects key = some bytes := by
  induction h with
  | nil => exact hs
  | cons hstep _ ih => exact ih (exec_kept hstep hs)

/-! ## What a call knows of its key -/

/-- A call as `startCall` returns it. -/
structure Call.Checked (c : Call) : Prop where
  intended : c.intended.Valid
  environment : c.intended.environment = c.environment
  key : deletionIntentKey c.environment c.intended.requestId = .ok c.key

theorem startCall_checked {environment : LedgerEnvironment} {value : Json} {c : Call}
    (h : startCall environment value = .ok c) : c.Checked := by
  simp only [startCall, bind_ok, pure_ok] at h
  obtain ⟨intended, hintended, key, hkey, rfl⟩ := h
  obtain ⟨hvalid, henv⟩ := checked_valid hintended
  exact ⟨hvalid, henv, hkey⟩

/-- What a call writes is read back as what it intended, where it is read back. -/
theorem Call.Checked.decode {c : Call} (hc : c.Checked) {bytes : ByteArray}
    (h : encodeDeletionIntent c.intended = .ok bytes) {durable : DeletionIntent}
    (hdurable : decodeDeletionIntent bytes c.environment = .ok durable) :
    durable = c.intended := by
  obtain ⟨hvalid, -, htext⟩ := decode_ok hdurable
  have hintended := (encode_ok hc.intended).mp h
  exact text_inj hvalid hc.intended (htext.symm.trans hintended)

/-- The invariant: calls were checked, what one read is stored, and a write in
flight is its call's own record under its own key. -/
structure Sys.Sound (s : Sys) : Prop where
  checked : ∀ i c stage, s.calls i = some (c, stage) → c.Checked
  read : ∀ i c bytes, s.calls i = some (c, .answered bytes) → s.objects c.key = some bytes
  inflight : ∀ i key bytes, (i, key, bytes) ∈ s.inflight →
    ∃ c stage, s.calls i = some (c, stage) ∧ key = c.key ∧
      encodeDeletionIntent c.intended = .ok bytes

/-- What a command does to the calls: nothing, or it moves its own call on. -/
theorem exec_calls {cmd : Command} {s t : Sys} (h : exec cmd s = some t) :
    t.calls = s.calls ∨ ∃ c stage, t.calls = Function.update s.calls cmd.call (some (c, stage)) ∧
      ((∃ before, s.calls cmd.call = some (c, before)) ∨ s.calls cmd.call = none ∧ c.Checked) ∧
      ∀ bytes, stage = .answered bytes → t.objects c.key = some bytes := by
  cases cmd with
  -- bytes that land answer no call
  | land i =>
    left
    simp only [exec] at h
    split at h <;> cases h
    rfl
  | ensureIntent i environment value =>
    right
    simp only [exec] at h
    split at h
    · rename_i c hnone hstart
      cases h
      exact ⟨c, .started, rfl, .inr ⟨hnone, startCall_checked hstart⟩, fun _ h => (by cases h)⟩
    · cases h
  | read i =>
    right
    simp only [exec] at h
    split at h
    · rename_i c hcall
      split at h
      · rename_i bytes _ hbytes
        cases h
        refine ⟨c, _, rfl, .inl ⟨_, hcall⟩, ?_⟩
        rintro _ ⟨⟩
        exact hbytes
      · cases h
        exact ⟨c, .written, rfl, .inl ⟨_, hcall⟩, fun _ h => (by cases h)⟩
      · cases h
        exact ⟨c, .written, rfl, .inl ⟨_, hcall⟩, fun _ h => (by cases h)⟩
    · cases h
  | readBack i =>
    right
    simp only [exec] at h
    split at h
    · rename_i c hcall
      split at h
      · rename_i bytes hbytes
        cases h
        refine ⟨c, _, rfl, .inl ⟨_, hcall⟩, ?_⟩
        rintro _ ⟨⟩
        exact hbytes
      · cases h
        exact ⟨c, .unavailable, rfl, .inl ⟨_, hcall⟩, fun _ h => (by cases h)⟩
    · cases h
  | fail i =>
    right
    simp only [exec] at h
    split at h
    · rename_i c hcall
      cases h
      exact ⟨c, .unavailable, rfl, .inl ⟨_, hcall⟩, fun _ h => (by cases h)⟩
    · rename_i c hcall
      cases h
      exact ⟨c, .unavailable, rfl, .inl ⟨_, hcall⟩, fun _ h => (by cases h)⟩
    · cases h

/-- A call keeps what it was started with. -/
theorem exec_call_kept {cmd : Command} {s t : Sys} (h : exec cmd s = some t) {i : CallId}
    {c : Call} {stage : Stage} (hs : s.calls i = some (c, stage)) :
    ∃ stage', t.calls i = some (c, stage') := by
  rcases exec_calls h with hsame | ⟨d, stage', hupdate, hd, -⟩
  · exact ⟨stage, by rw [hsame, hs]⟩
  · by_cases hi : i = cmd.call
    · rw [hupdate, hi, Function.update_self]
      rw [hi] at hs
      rcases hd with ⟨before, hbefore⟩ | ⟨hnone, -⟩
      · rw [hbefore] at hs
        cases hs
        exact ⟨stage', rfl⟩
      · rw [hnone] at hs
        cases hs
    · exact ⟨stage, by rw [hupdate, Function.update_of_ne hi, hs]⟩

/-- The writes in flight are old ones, or the one its call sends now. -/
theorem exec_inflight {cmd : Command} {s t : Sys} (h : exec cmd s = some t) {i : CallId}
    {key : String} {bytes : ByteArray} (hw : (i, key, bytes) ∈ t.inflight) :
    (i, key, bytes) ∈ s.inflight ∨ ∃ c stage, s.calls i = some (c, stage) ∧ key = c.key ∧
      encodeDeletionIntent c.intended = .ok bytes := by
  cases cmd with
  | land j =>
    simp only [exec] at h
    split at h <;> cases h
    exact .inl (List.mem_of_mem_filter hw)
  | ensureIntent j environment value =>
    simp only [exec] at h
    split at h <;> cases h
    exact .inl hw
  | read j =>
    simp only [exec] at h
    split at h
    · rename_i c hcall
      split at h
      · cases h
        exact .inl hw
      · rename_i b hnone hencode
        cases h
        rcases List.mem_cons.mp hw with heq | hw
        · cases heq
          exact .inr ⟨c, _, hcall, rfl, hencode⟩
        · exact .inl hw
      · cases h
        exact .inl hw
    · cases h
  | readBack j =>
    simp only [exec] at h
    split at h
    · split at h <;> cases h <;> exact .inl hw
    · cases h
  | fail j =>
    simp only [exec] at h
    split at h <;> cases h <;> exact .inl hw

theorem exec_sound {cmd : Command} {s t : Sys} (hs : s.Sound) (h : exec cmd s = some t) :
    t.Sound := by
  have hcalls := exec_calls h
  constructor
  · intro i c stage hi
    rcases hcalls with hsame | ⟨d, stage', hupdate, hd, -⟩
    · rw [hsame] at hi
      exact hs.checked i c stage hi
    · rw [hupdate] at hi
      by_cases hcall : i = cmd.call
      · rw [hcall, Function.update_self] at hi
        cases hi
        rcases hd with ⟨before, hbefore⟩ | ⟨-, hchecked⟩
        · exact hs.checked _ c before hbefore
        · exact hchecked
      · rw [Function.update_of_ne hcall] at hi
        exact hs.checked i c stage hi
  · intro i c bytes hi
    rcases hcalls with hsame | ⟨d, stage', hupdate, -, hread⟩
    · rw [hsame] at hi
      exact exec_kept h (hs.read i c bytes hi)
    · rw [hupdate] at hi
      by_cases hcall : i = cmd.call
      · rw [hcall, Function.update_self] at hi
        cases hi
        exact hread bytes rfl
      · rw [Function.update_of_ne hcall] at hi
        exact exec_kept h (hs.read i c bytes hi)
  · intro i key bytes hw
    have hbefore : ∃ c stage, s.calls i = some (c, stage) ∧ key = c.key ∧
        encodeDeletionIntent c.intended = .ok bytes := by
      rcases exec_inflight h hw with hold | hnew
      · exact hs.inflight i key bytes hold
      · exact hnew
    obtain ⟨c, stage, hi, hkey, hencode⟩ := hbefore
    obtain ⟨stage', hi'⟩ := exec_call_kept h hi
    exact ⟨c, stage', hi', hkey, hencode⟩

theorem reachable_sound {s : Sys} (h : system.Reachable s) : s.Sound := by
  refine h.induct ⟨?_, ?_⟩
  · rintro s ⟨hinflight, hcalls⟩
    constructor
    · intro i c stage hi
      rw [hcalls] at hi
      cases hi
    · intro i c bytes hi
      rw [hcalls] at hi
      cases hi
    · intro i key bytes hw
      rw [hinflight] at hw
      cases hw
  · intro s t cmd _ hs hstep
    exact exec_sound hs hstep

theorem call_kept {s t : Sys} {cs : List Command} (h : system.Run s cs t) {i : CallId}
    {c : Call} {stage : Stage} (hs : s.calls i = some (c, stage)) :
    ∃ stage', t.calls i = some (c, stage') := by
  induction h generalizing stage with
  | nil => exact ⟨stage, hs⟩
  | cons hstep _ ih =>
    obtain ⟨stage', hs'⟩ := exec_call_kept hstep hs
    exact ih hs'

/-! ## The guarantees -/

theorem conclude_ok {c : Call} {bytes : ByteArray} {r : DeletionReceipt}
    (h : c.conclude sha256 bytes = .ok r) :
    decodeDeletionIntent bytes c.environment = .ok r.intent ∧ r.sha256 = sha256 bytes := by
  simp only [Call.conclude, bind_ok, ensure_ok, pure_ok] at h
  obtain ⟨durable, hdecode, -, -, rfl⟩ := h
  exact ⟨hdecode, rfl⟩

/-- A successful call read the bytes that are stored under its key. -/
theorem Sys.Sound.success {s : Sys} (hs : s.Sound) {i : CallId} {c : Call} {stage : Stage}
    {r : DeletionReceipt} (hi : s.calls i = some (c, stage))
    (hr : c.result sha256 stage = some (.ok r)) :
    ∃ bytes, s.objects c.key = some bytes ∧
      decodeDeletionIntent bytes c.environment = .ok r.intent ∧ r.sha256 = sha256 bytes := by
  cases stage with
  | started => cases hr
  | written => cases hr
  | unavailable => cases hr
  | answered bytes =>
    have hconclude : c.conclude sha256 bytes = .ok r := Option.some.inj hr
    exact ⟨bytes, hs.read i c bytes hi, conclude_ok sha256 hconclude⟩

/-- A call whose fields differ from the stored record returns no other result. -/
theorem Sys.Sound.conflict {s : Sys} (hs : s.Sound) {i : CallId} {c : Call} {stage : Stage}
    {bytes : ByteArray} {durable : DeletionIntent} (hi : s.calls i = some (c, stage))
    (hbytes : s.objects c.key = some bytes)
    (hdurable : decodeDeletionIntent bytes c.environment = .ok durable)
    (hdiffer : ¬durable.Same c.intended)
    {result : Except DeletionLedgerError DeletionReceipt}
    (hresult : c.result sha256 stage = some result) :
    result = .error .ledgerConflict ∨
      stage = .unavailable ∧ result = .error .ledgerUnavailable := by
  cases stage with
  | started => cases hresult
  | written => cases hresult
  | unavailable => exact .inr ⟨rfl, (Option.some.inj hresult).symm⟩
  | answered read =>
    left
    have hread := hs.read i c read hi
    rw [hbytes] at hread
    cases hread
    have hconclude : c.conclude sha256 bytes = .error .ledgerConflict := by
      rw [Call.conclude, hdurable, ok_bind, ensure_neg hdiffer, error_bind]
    rw [← Option.some.inj hresult, hconclude]

/-- A command that changes the objects stored its call's own record. -/
theorem Sys.Sound.stored {s t : Sys} (hs : s.Sound) {cmd : Command}
    (h : exec cmd s = some t) (hchanged : t.objects ≠ s.objects) :
    ∃ c stage bytes, s.calls cmd.call = some (c, stage) ∧ t.objects c.key = some bytes ∧
      ∀ durable, decodeDeletionIntent bytes c.environment = .ok durable → durable = c.intended := by
  rcases exec_objects h with hsame | ⟨key, bytes, hw, -, hupdate⟩
  · exact absurd hsame hchanged
  · obtain ⟨c, stage, hi, rfl, hencode⟩ := hs.inflight _ _ _ hw
    refine ⟨c, stage, bytes, hi, ?_, fun _ => (hs.checked _ c stage hi).decode hencode⟩
    rw [hupdate, Function.update_self]

/-- A ledger before its first call. -/
def empty : Sys := ⟨fun _ => none, [], fun _ => none⟩

/-- The second of two calls for a key, started after the first one's write landed. -/
def rivals (c d : Call) (bytes : ByteArray) : Sys :=
  ⟨Function.update (fun _ => none) c.key (some bytes), [],
    Function.update (Function.update (Function.update (fun _ => none) 0 (some (c, .started))) 0
      (some (c, .written))) 1 (some (d, .started))⟩

/-- The commands that lead there. -/
def rivalCommands (c d : Call) : List Command :=
  [.ensureIntent 0 c.environment c.intended.toJson, .read 0, .land 0,
    .ensureIntent 1 d.environment d.intended.toJson]

theorem run_rivals {c d : Call} {bytes : ByteArray}
    (hc : startCall c.environment c.intended.toJson = .ok c)
    (hd : startCall d.environment d.intended.toJson = .ok d)
    (hencode : encodeDeletionIntent c.intended = .ok bytes) :
    system.Run empty (rivalCommands c d) (rivals c d bytes) := by
  have hstart : exec (.ensureIntent 0 c.environment c.intended.toJson) empty =
      some (empty.setStage 0 c .started) := by
    simp only [exec, hc]
    rfl
  have hread : exec (.read 0) (empty.setStage 0 c .started) =
      some { (empty.setStage 0 c .started).setStage 0 c .written with
        inflight := [(0, c.key, bytes)] } := by
    simp [exec, Sys.setStage, empty, hencode]
  have hland : exec (.land 0) { (empty.setStage 0 c .started).setStage 0 c .written with
        inflight := [(0, c.key, bytes)] } =
      some { (empty.setStage 0 c .started).setStage 0 c .written with
        objects := Function.update (fun _ => none) c.key (some bytes) } := by
    simp [exec, putIfAbsent, Sys.setStage, empty]
  refine .cons hstart (.cons hread (.cons hland (.single ?_)))
  show exec (.ensureIntent 1 d.environment d.intended.toJson) _ = _
  simp [exec, hd, Sys.setStage, empty, rivals]

/-- A request to delete a message. -/
def firstIntent : DeletionIntent :=
  { environment := .qa, requestId := "00000000-0000-5000-8000-000000000001",
    actorUserId := "00000000-0000-4000-8000-00000000000a", scope := .message,
    targetId := "00000000-0000-4000-8000-00000000000c",
    roomId := some "00000000-0000-4000-8000-00000000000d",
    requestedAt := "2026-01-02T03:04:05.678Z", guards := .v1 }

def firstCall : Call :=
  ⟨.qa, firstIntent, "qa/00000000-0000-5000-8000-000000000001/intent.json"⟩

/-- The same request by somebody else. -/
def rivalCall : Call :=
  { firstCall with
    intended := { firstIntent with actorUserId := "00000000-0000-4000-8000-00000000000b" } }

theorem startCall_first : startCall firstCall.environment firstCall.intended.toJson =
    .ok firstCall := by decide

theorem startCall_rival : startCall rivalCall.environment rivalCall.intended.toJson =
    .ok rivalCall := by decide

/-- The first call's bytes. -/
def firstBytes : ByteArray := firstIntent.toJson.stringify.toUTF8

theorem encode_first : encodeDeletionIntent firstCall.intended = .ok firstBytes :=
  (encode_ok (startCall_checked startCall_first).intended).mpr rfl

theorem wellFormed_first : firstIntent.WellFormed where
  valid := (startCall_checked startCall_first).intended
  named := by
    show SubjectGuards.Named .v1
    trivial

theorem decode_first : decodeDeletionIntent firstBytes .qa = .ok firstIntent :=
  decode_encode (i := firstIntent) wellFormed_first encode_first

end Rogichat.Ledger
