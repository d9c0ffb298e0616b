import Mathlib.Data.List.Sort
import Rogichat.Basic
import Rogichat.Lib.Json
import Rogichat.Lib.Outcome
import Rogichat.Lib.Text

/-!
# What the outbox stores

The payloads, receipts and authorities of the browser's outbox, with the checks that
rebuild each from what it is given. `String.prototype.normalize` is a parameter: of
NFC only its idempotence is used.

* **`normalizePayload_normal`** — a rebuilt payload is rebuilt as itself.
* **`sameAuthority_iff`** — two authorities with one JSON text are one authority.
-/

namespace Rogichat.Outbox

open Lib

/-- The codes of `OutboxError`, and the contract's `INVALID_RESPONSE`. -/
inductive OutboxError
  | locked | authorityChanged | storageFailed | updateRequired | capacity | invalidCommand
  | receiptFirst | readOnly | invalidResponse
  deriving DecidableEq, Repr

/-- `text.normalize('NFC')`. -/
structure Nfc where
  normalize : String → String
  normalize_normalize : ∀ s, normalize (normalize s) = normalize s

/-! ## Checked texts -/

/-- `uuid`: a random UUID in lower case. -/
def uuid (value : String) : Except OutboxError String := do
  ensure (Text.fits (Text.uuidPattern (Text.lit '4')) value.toList = true) .invalidResponse
  return value

/-- `[A-Za-z0-9_-]`. -/
def base64Url (c : Char) : Bool := c.isAlphanum || c = '_' || c = '-'

/-- `/^[A-Za-z0-9_-]{42}[AEIMQUYcgkosw048]$/`. -/
def tokenPattern : Text.Pattern :=
  List.replicate 42 base64Url ++ [fun c => "AEIMQUYcgkosw048".toList.contains c]

/-- `token`: the URL-safe text of 32 bytes. -/
def token (value : String) : Except OutboxError String := do
  ensure (Text.fits tokenPattern value.toList = true) .invalidResponse
  return value

/-- `/^(0|[1-9][0-9]{0,19})$/`, and a 64-bit value. -/
def isVersion (cs : List Char) : Bool :=
  cs.all Char.isDigit && decide (1 ≤ cs.length ∧ cs.length ≤ 20) &&
    (cs.head? != some '0' || cs == ['0']) &&
    decide (Nat.ofDigitChars 10 cs 0 ≤ maxUnsignedBigInt)

/-- `version`. -/
def version (value : String) : Except OutboxError String := do
  ensure (isVersion value.toList = true) .invalidResponse
  return value

/-- The white space `trim` removes. -/
def isWhite (c : Char) : Bool :=
  (9 ≤ c.toNat && c.toNat ≤ 13) || c.toNat = 0x20 || c.toNat = 0xA0 || c.toNat = 0x1680 ||
    (0x2000 ≤ c.toNat && c.toNat ≤ 0x200A) || c.toNat = 0x2028 || c.toNat = 0x2029 ||
    c.toNat = 0x202F || c.toNat = 0x205F || c.toNat = 0x3000 || c.toNat = 0xFEFF

/-- A text the chat accepts: not blank, without NUL, and within its limits. -/
def Acceptable (text : String) : Prop :=
  text.toList.all isWhite = false ∧ Char.ofNat 0 ∉ text.toList ∧ text.toList.length ≤ 4000 ∧
    Json.byteSize text.toList ≤ 16384

instance : DecidablePred Acceptable := fun text =>
  inferInstanceAs (Decidable (text.toList.all isWhite = false ∧ Char.ofNat 0 ∉ text.toList ∧
    text.toList.length ≤ 4000 ∧ Json.byteSize text.toList ≤ 16384))

/-! ## Payloads -/

inductive MediaType
  | photo | video
  deriving DecidableEq, Repr

/-- How many assets of a kind a payload may attach. -/
def MediaType.maxAssets : MediaType → Nat
  | .photo => 4
  | .video => 1

/-- The audience a message is sent to. -/
inductive Intent
  | shared | private_ | roomOwner
  deriving DecidableEq, Repr

inductive OutboxContent
  | text (text : String)
  | media (type : MediaType) (assetIds : List String) (caption : Option String)
  | sticker (stickerId : String)
  deriving DecidableEq, Repr

structure OutboxPayload where
  clientMessageId : String
  membershipScope : String
  intent : Intent
  recipientActorId : Option String := none
  quoteId : Option String := none
  content : OutboxContent
  deriving DecidableEq, Repr

/-- An optional text, with the check it has where it is given. -/
def optional (check : String → Except OutboxError String) :
    Option String → Except OutboxError (Option String)
  | none => .ok none
  | some value => some <$> check value

/-- A caption, normalised. -/
def caption (nfc : Nfc) (value : String) : Except OutboxError String := do
  ensure (Acceptable (nfc.normalize value)) .invalidCommand
  return nfc.normalize value

/-- The content, rebuilt from its allowlisted fields. -/
def normalizeContent (nfc : Nfc) : OutboxContent → Except OutboxError OutboxContent
  | .text value => .text <$> caption nfc value
  | .media type assetIds value => do
    let assetIds ← assetIds.mapM uuid
    ensure (1 ≤ assetIds.length ∧ assetIds.length ≤ type.maxAssets ∧ assetIds.Nodup)
      .invalidCommand
    return .media type assetIds (← optional (caption nfc) value)
  | .sticker stickerId => .sticker <$> uuid stickerId

/-- `quoteId ? …`: an empty id counts as none. -/
def quoted : Option String → Option String
  | some "" => none
  | value => value

/-- `recipientActorId`, which a private payload must have and others must not. -/
def recipient (intent : Intent) (value : Option String) : Except OutboxError (Option String) :=
  match intent, value with
  | .private_, some actorId => some <$> uuid actorId
  | .private_, none => .error .invalidResponse
  | _, _ => .ok none

/-- A payload in normal form, or the error of its first invalid field. -/
def normalizePayload (nfc : Nfc) (value : OutboxPayload) : Except OutboxError OutboxPayload := do
  let content ← normalizeContent nfc value.content
  ensure (value.intent ≠ .private_ → value.recipientActorId = none) .invalidCommand
  ensure (value.intent = .roomOwner → value.quoteId = none) .invalidCommand
  let clientMessageId ← uuid value.clientMessageId
  let membershipScope ← token value.membershipScope
  let recipientActorId ← recipient value.intent value.recipientActorId
  let quoteId ← optional uuid (quoted value.quoteId)
  return { clientMessageId := clientMessageId, membershipScope := membershipScope,
           intent := value.intent, recipientActorId := recipientActorId, quoteId := quoteId,
           content := content }

/-! ## Receipts and authorities -/

inductive Receipt
  | committed (clientMessageId messageId version : String)
  | deleted (clientMessageId : String)
  deriving DecidableEq, Repr

def Receipt.clientMessageId : Receipt → String
  | .committed clientMessageId _ _ | .deleted clientMessageId => clientMessageId

/-- The receipt says that the message was deleted. -/
def Receipt.isDeleted : Receipt → Bool
  | .committed .. => false
  | .deleted _ => true

/-- `receipt`, of a value that already has the fields of one. -/
def receipt (value : Receipt) (expected : String) : Except OutboxError Receipt := do
  ensure (value.clientMessageId = expected) .invalidResponse
  let _ ← uuid expected
  match value with
  | .deleted _ => return .deleted expected
  | .committed _ messageId number =>
    return .committed expected (← uuid messageId) (← version number)

/-- A room an authority may send to. -/
structure OutboxRoom where
  roomId : String
  membershipScope : String
  authorizationRevision : String
  deriving DecidableEq, Repr

/-- What an account may send, for as long as its session lasts. -/
structure OutboxAuthority where
  accountPartition : String
  sessionKey : String
  rooms : List OutboxRoom
  deriving DecidableEq, Repr

def normalizeRoom (room : OutboxRoom) : Except OutboxError OutboxRoom := do
  return { roomId := ← uuid room.roomId, membershipScope := ← token room.membershipScope,
           authorizationRevision := ← token room.authorizationRevision }

def normalizeAuthority (value : OutboxAuthority) : Except OutboxError OutboxAuthority := do
  ensure (Text.isSha256Hex value.sessionKey = true ∧ value.rooms.length ≤ 10000) .invalidCommand
  let rooms ← value.rooms.mapM normalizeRoom
  let rooms := rooms.insertionSort fun a b => a.roomId ≤ b.roomId
  ensure ((rooms.map OutboxRoom.roomId).Nodup) .invalidCommand
  return { accountPartition := ← token value.accountPartition, sessionKey := value.sessionKey,
           rooms := rooms }

/-! ## JSON -/

/-- An optional field, left out where there is no value. -/
def optionalField (name : String) : Option String → List (String × Json)
  | none => []
  | some value => [(name, .str value)]

def MediaType.name : MediaType → String
  | .photo => "PHOTO"
  | .video => "VIDEO"

def Intent.name : Intent → String
  | .shared => "SHARED"
  | .private_ => "PRIVATE"
  | .roomOwner => "ROOM_OWNER"

def OutboxContent.toJson : OutboxContent → Json
  | .text value => .obj [("type", .str "TEXT"), ("text", .str value)]
  | .media type assetIds value =>
    .obj ([("type", .str type.name), ("assetIds", .arr (assetIds.map .str))] ++
      optionalField "caption" value)
  | .sticker stickerId => .obj [("type", .str "STICKER"), ("stickerId", .str stickerId)]

def OutboxPayload.toJson (p : OutboxPayload) : Json :=
  .obj ([("clientMessageId", .str p.clientMessageId),
      ("membershipScope", .str p.membershipScope), ("intent", .str p.intent.name)] ++
    optionalField "recipientActorId" p.recipientActorId ++ optionalField "quoteId" p.quoteId ++
    [("content", p.content.toJson)])

def Receipt.toJson : Receipt → Json
  | .committed clientMessageId messageId number =>
    .obj [("clientMessageId", .str clientMessageId), ("status", .str "committed"),
      ("messageId", .str messageId), ("version", .str number)]
  | .deleted clientMessageId =>
    .obj [("clientMessageId", .str clientMessageId), ("status", .str "deleted")]

def OutboxRoom.toJson (room : OutboxRoom) : Json :=
  .obj [("roomId", .str room.roomId), ("membershipScope", .str room.membershipScope),
    ("authorizationRevision", .str room.authorizationRevision)]

def OutboxAuthority.toJson (authority : OutboxAuthority) : Json :=
  .obj [("accountPartition", .str authority.accountPartition),
    ("sessionKey", .str authority.sessionKey),
    ("rooms", .arr (authority.rooms.map OutboxRoom.toJson))]

/-- The authorities have one JSON text. -/
def SameAuthority (a b : Option OutboxAuthority) : Prop :=
  ((a.map OutboxAuthority.toJson).getD .null).stringify =
    ((b.map OutboxAuthority.toJson).getD .null).stringify

theorem distinct_rooms (rooms : List OutboxRoom) :
    Json.DistinctItems (rooms.map OutboxRoom.toJson) := by
  induction rooms with
  | nil => trivial
  | cons room rooms ih =>
    refine ⟨?_, ih⟩
    simp [OutboxRoom.toJson, Json.Distinct, Json.DistinctFields]

/-- An authority's JSON repeats no key. -/
theorem distinct_authority (a : Option OutboxAuthority) :
    ((a.map OutboxAuthority.toJson).getD .null).Distinct := by
  cases a with
  | none => trivial
  | some authority =>
    have hrooms := distinct_rooms authority.rooms
    simpa [OutboxAuthority.toJson, Json.Distinct, Json.DistinctFields] using hrooms

/-- A room is read off its JSON. -/
theorem OutboxRoom.toJson_inj {a b : OutboxRoom} (h : a.toJson = b.toJson) : a = b := by
  cases a
  cases b
  simpa [OutboxRoom.toJson] using h

theorem OutboxAuthority.toJson_inj {a b : OutboxAuthority} (h : a.toJson = b.toJson) : a = b := by
  obtain ⟨accountPartition, sessionKey, rooms⟩ := a
  obtain ⟨accountPartition', sessionKey', rooms'⟩ := b
  simp only [OutboxAuthority.toJson, Json.obj.injEq, List.cons.injEq, Prod.mk.injEq,
    Json.str.injEq, Json.arr.injEq, true_and, and_true] at h
  obtain ⟨rfl, rfl, hrooms⟩ := h
  rw [List.map_injective_iff.mpr (fun _ _ => OutboxRoom.toJson_inj) hrooms]

/-- Comparing texts compares authorities. -/
theorem sameAuthority_iff {a b : Option OutboxAuthority} : SameAuthority a b ↔ a = b := by
  constructor
  · intro h
    have hjson := Json.stringify_inj (distinct_authority a) (distinct_authority b) h
    cases a with
    | none =>
      cases b with
      | none => rfl
      | some b => cases hjson
    | some a =>
      cases b with
      | none => cases hjson
      | some b => exact congrArg some (OutboxAuthority.toJson_inj hjson)
  · rintro rfl
    rfl

instance (a b : Option OutboxAuthority) : Decidable (SameAuthority a b) :=
  decidable_of_iff _ sameAuthority_iff.symm

/-! ## Rebuilding again -/

/-- A valid id is in normal form. -/
theorem uuid_ok {value id : String} (h : uuid value = .ok id) : id = value ∧ uuid id = .ok id := by
  have hcheck := h
  rw [uuid, bind_ok] at h
  obtain ⟨-, -, hvalue⟩ := h
  cases hvalue
  exact ⟨rfl, hcheck⟩

theorem token_ok {value id : String} (h : token value = .ok id) :
    id = value ∧ token id = .ok id := by
  have hcheck := h
  rw [token, bind_ok] at h
  obtain ⟨-, -, hvalue⟩ := h
  cases hvalue
  exact ⟨rfl, hcheck⟩

/-- Normalizing a caption once more changes nothing. -/
theorem caption_ok {nfc : Nfc} {value text : String} (h : caption nfc value = .ok text) :
    caption nfc text = .ok text := by
  simp only [caption, bind_ok, ensure_ok, pure_ok] at h ⊢
  obtain ⟨-, haccept, rfl⟩ := h
  rw [nfc.normalize_normalize]
  exact ⟨(), haccept, rfl⟩

theorem optional_ok {check : String → Except OutboxError String}
    (hcheck : ∀ value text, check value = .ok text → check text = .ok text)
    {value text : Option String} (h : optional check value = .ok text) :
    optional check text = .ok text := by
  cases value with
  | none =>
    cases h
    rfl
  | some value =>
    rw [optional] at h
    cases hvalue : check value with
    | error e =>
      rw [hvalue] at h
      cases h
    | ok found =>
      rw [hvalue] at h
      cases h
      show some <$> check found = _
      rw [hcheck _ _ hvalue]
      rfl

/-- Valid ids are in normal form. -/
theorem mapM_uuid {ids out : List String} (h : ids.mapM uuid = .ok out) :
    out = ids ∧ out.mapM uuid = .ok out := by
  induction ids generalizing out with
  | nil =>
    cases h
    exact ⟨rfl, rfl⟩
  | cons id ids ih =>
    simp only [List.mapM_cons, bind_ok, pure_ok] at h
    obtain ⟨id', hid, ids', hids, rfl⟩ := h
    obtain ⟨rfl, hid'⟩ := uuid_ok hid
    obtain ⟨rfl, hids'⟩ := ih hids
    refine ⟨rfl, ?_⟩
    simp only [List.mapM_cons, bind_ok, pure_ok]
    exact ⟨_, hid', _, hids', rfl⟩

/-- Normalizing a message's content once more changes nothing. -/
theorem normalizeContent_ok {nfc : Nfc} {value content : OutboxContent}
    (h : normalizeContent nfc value = .ok content) :
    normalizeContent nfc content = .ok content := by
  cases value with
  | text value =>
    cases hvalue : caption nfc value with
    | error e =>
      rw [normalizeContent, hvalue] at h
      cases h
    | ok text =>
      rw [normalizeContent, hvalue] at h
      cases h
      rw [normalizeContent, caption_ok hvalue]
      rfl
  | media type assetIds value =>
    simp only [normalizeContent, bind_ok, ensure_ok, pure_ok] at h
    obtain ⟨ids, hids, -, hcount, text, htext, rfl⟩ := h
    obtain ⟨rfl, hids'⟩ := mapM_uuid hids
    simp only [normalizeContent, bind_ok, ensure_ok, pure_ok]
    exact ⟨_, hids', (), hcount, _, optional_ok (fun _ _ => caption_ok) htext, rfl⟩
  | sticker stickerId =>
    cases hid : uuid stickerId with
    | error e =>
      rw [normalizeContent, hid] at h
      cases h
    | ok id =>
      rw [normalizeContent, hid] at h
      cases h
      rw [normalizeContent, (uuid_ok hid).2]
      rfl

theorem quoted_ne_empty (value : Option String) : quoted value ≠ some "" := by
  unfold quoted
  split
  · intro h
    cases h
  · assumption

theorem quoted_of_ne {value : Option String} (h : value ≠ some "") : quoted value = value := by
  unfold quoted
  split
  · exact absurd rfl h
  · rfl

/-- Normalizing a recipient once more changes nothing. -/
theorem recipient_ok {intent : Intent} {value actorId : Option String}
    (h : recipient intent value = .ok actorId) :
    recipient intent actorId = .ok actorId ∧ (intent ≠ .private_ → actorId = none) := by
  cases intent with
  | private_ =>
    refine ⟨?_, fun hne => absurd rfl hne⟩
    cases value with
    | none => cases h
    | some value =>
      cases hid : uuid value with
      | error e =>
        rw [recipient, hid] at h
        cases h
      | ok id =>
        rw [recipient, hid] at h
        cases h
        show some <$> uuid id = _
        rw [(uuid_ok hid).2]
        rfl
  | shared =>
    cases h
    exact ⟨rfl, fun _ => rfl⟩
  | roomOwner =>
    cases h
    exact ⟨rfl, fun _ => rfl⟩

theorem optional_uuid_ok {value id : Option String} (h : optional uuid value = .ok id) :
    id = value := by
  cases value with
  | none =>
    cases h
    rfl
  | some value =>
    rw [optional] at h
    cases hvalue : uuid value with
    | error e =>
      rw [hvalue] at h
      cases h
    | ok found =>
      rw [hvalue] at h
      cases h
      rw [(uuid_ok hvalue).1]

/-- What was rebuilt is rebuilt as itself. -/
theorem normalizePayload_normal {nfc : Nfc} {value payload : OutboxPayload}
    (h : normalizePayload nfc value = .ok payload) : normalizePayload nfc payload = .ok payload := by
  simp only [normalizePayload, bind_ok, ensure_ok, pure_ok] at h
  obtain ⟨content, hcontent, -, -, -, hquoteless, id, hid, scope, hscope, actorId, hactor, quoteId,
    hquote, rfl⟩ := h
  obtain ⟨hactor', hpublic⟩ := recipient_ok hactor
  have hquoteId := optional_uuid_ok hquote
  have hnonempty : quoteId ≠ some "" := hquoteId ▸ quoted_ne_empty value.quoteId
  simp only [normalizePayload, bind_ok, ensure_ok, pure_ok]
  refine ⟨_, normalizeContent_ok hcontent, (), hpublic, (), ?_, _, (uuid_ok hid).2, _,
    (token_ok hscope).2, _, hactor', _, ?_, rfl⟩
  · intro howner
    rw [hquoteId, hquoteless howner]
    rfl
  · rw [quoted_of_ne hnonempty]
    exact optional_ok (fun _ _ h => (uuid_ok h).2) hquote

end Rogichat.Outbox
