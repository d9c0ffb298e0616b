import Rogichat.Lib.Base64
import Rogichat.Lib.Outcome
import Rogichat.Lib.Text
import Rogichat.Lib.Trace

/-!
# Sync cursors

`CursorCodec` of `cursor.ts`, and the server that hands its tokens out. HMAC-SHA-256 and
AES-256-GCM are a parameter. What was sealed under a key is kept in a log, and a cipher text
opens exactly where the log has it: that is authenticated encryption taken as ideal.

Bindings and positions arrive as JavaScript values, with their properties in any order; a
`Date` is the number `getTime` answers, or none where it is invalid.
-/

namespace Rogichat.Sync

open Lib

/-- A `CursorError` has one code. -/
inductive CursorError
  | invalidCursor
  deriving DecidableEq, Repr

inductive CursorPurpose
  | manifest | snapshot | events | history | profile
  deriving DecidableEq, Repr

def CursorPurpose.text : CursorPurpose → String
  | .manifest => "manifest"
  | .snapshot => "snapshot"
  | .events => "events"
  | .history => "history"
  | .profile => "profile"

def purposes : List CursorPurpose := [.manifest, .snapshot, .events, .history, .profile]

/-- Whom and what a cursor is bound to. -/
structure CursorBinding where
  purpose : CursorPurpose
  userId : String
  sessionId : String
  deviceId : String
  cacheId : String
  roomId : Option String
  periodId : Option String
  acl : String
  deriving DecidableEq, Repr

structure CursorPosition where
  from_ : String
  upper : Option String
  lastId : Option String
  deriving DecidableEq, Repr

structure CursorOptions where
  now : Option Int
  ttlSeconds : Option Int := none

def bindingKeys : List String :=
  ["purpose", "userId", "sessionId", "deviceId", "cacheId", "roomId", "periodId", "acl"]

def positionKeys : List String := ["from", "upper", "lastId"]

def documentKeys : List String := ["version", "binding", "position", "issued", "expires"]

def clearBytes : Nat := 1536
def tokenBytes : Nat := 1 + 12 + 16 + clearBytes

/-- `Math.ceil(tokenBytes * 4 / 3)`. -/
def tokenLength : Nat := (tokenBytes * 4 + 2) / 3

def maxTtlMs : Int := 7 * 86400000
def uint64Max : Nat := 18446744073709551615

/-- `Number.MAX_SAFE_INTEGER`. -/
def maxSafeInteger : Int := 9007199254740991

/-- `Number.isSafeInteger`, of an integer. -/
def SafeInteger (n : Int) : Prop := -maxSafeInteger ≤ n ∧ n ≤ maxSafeInteger

instance (n : Int) : Decidable (SafeInteger n) := inferInstanceAs (Decidable (_ ∧ _))

/-! ## Checks -/

/-- An object with these keys and no others. -/
def exact (value : Json) (keys : List String) : Except CursorError (List (String × Json)) :=
  match value with
  | .obj fields => do
    ensure (fields.length = keys.length ∧ ∀ key ∈ keys, key ∈ fields.map Prod.fst) .invalidCursor
    return fields
  | _ => .error .invalidCursor

/-- `typeof value === 'string'`. -/
def text : Option Json → Except CursorError String
  | some (.str s) => .ok s
  | _ => .error .invalidCursor

/-- `uuid` of `identifier.ts`, of a value that must be a string. -/
def uuid (value : Option Json) : Except CursorError String := do
  let s ← text value
  ensure (Text.fits (Text.uuidPattern (Text.lit '4')) s.toList = true) .invalidCursor
  return s

/-- `/^(0|[1-9][0-9]{0,19})$/`, and at most `uint64Max`. -/
def isOrder (cs : List Char) : Bool :=
  cs.all Char.isDigit && decide (1 ≤ cs.length ∧ cs.length ≤ 20) &&
    (cs.head? != some '0' || cs == ['0']) && decide (Nat.ofDigitChars 10 cs 0 ≤ uint64Max)

/-- An order, or `INVALID_CURSOR`. -/
def order (value : Option Json) : Except CursorError String := do
  let s ← text value
  ensure (isOrder s.toList = true) .invalidCursor
  return s

/-- A field that may be `null`. -/
def nullable (check : Option Json → Except CursorError String) :
    Option Json → Except CursorError (Option String)
  | some .null => .ok none
  | value => some <$> check value

/-- A field that must be `null`. -/
def isNull (value : Option Json) : Except CursorError (Option String) := do
  ensure (value = some .null) .invalidCursor
  return none

/-- The URL-safe text of 32 bytes. -/
def isAcl (cs : List Char) : Bool :=
  decide (cs.length = 43) && cs.all Base64.isUrl && Base64.encode (Base64.decode cs) == cs

/-- A binding, or `INVALID_CURSOR`. -/
def binding (value : Json) : Except CursorError CursorBinding := do
  let fields ← exact value bindingKeys
  let name ← text (fields.lookup "purpose")
  let purpose ← require (purposes.find? fun purpose => purpose.text = name) .invalidCursor
  let acl ← text (fields.lookup "acl")
  ensure (isAcl acl.toList = true) .invalidCursor
  let userId ← uuid (fields.lookup "userId")
  let sessionId ← uuid (fields.lookup "sessionId")
  let deviceId ← uuid (fields.lookup "deviceId")
  let cacheId ← uuid (fields.lookup "cacheId")
  let place := if purpose = .manifest then isNull else fun value => some <$> uuid value
  let roomId ← place (fields.lookup "roomId")
  let periodId ← place (fields.lookup "periodId")
  return { purpose := purpose, userId := userId, sessionId := sessionId, deviceId := deviceId,
           cacheId := cacheId, roomId := roomId, periodId := periodId, acl := acl }

/-- A position, or `INVALID_CURSOR`. -/
def position (value : Json) : Except CursorError CursorPosition := do
  let fields ← exact value positionKeys
  return { from_ := ← order (fields.lookup "from")
           upper := ← nullable order (fields.lookup "upper")
           lastId := ← nullable uuid (fields.lookup "lastId") }

/-- A time, or `INVALID_CURSOR`. -/
def clock (value : Option Int) : Except CursorError Int := do
  let time ← require value .invalidCursor
  ensure (SafeInteger time ∧ 0 ≤ time) .invalidCursor
  return time

/-! ## The clear text -/

/-- A text or `null`. -/
def nullableJson (value : Option String) : Json := (value.map Json.str).getD .null

/-- `normalizeBinding`: the properties in their own order. -/
def CursorBinding.toJson (b : CursorBinding) : Json :=
  .obj [("purpose", .str b.purpose.text), ("userId", .str b.userId),
    ("sessionId", .str b.sessionId), ("deviceId", .str b.deviceId), ("cacheId", .str b.cacheId),
    ("roomId", nullableJson b.roomId), ("periodId", nullableJson b.periodId), ("acl", .str b.acl)]

def CursorPosition.toJson (p : CursorPosition) : Json :=
  .obj [("from", .str p.from_), ("upper", nullableJson p.upper),
    ("lastId", nullableJson p.lastId)]

def document (b : CursorBinding) (p : CursorPosition) (issued expires : Int) : Json :=
  .obj [("version", .num 1), ("binding", b.toJson), ("position", p.toJson),
    ("issued", .num issued), ("expires", .num expires)]

/-- The length, the text and zeros up to the end of the block. -/
def block (encoded : Bytes) : Bytes :=
  Bytes.bytesBE 2 encoded.length ++ encoded ++
    List.replicate (clearBytes - 2 - encoded.length) 0

/-! ## Ciphers -/

/-- HMAC-SHA-256 and AES-256-GCM: keys of 32 bytes with one digest are one key, the cipher
text is as long as the clear text and has a tag of 16 bytes, and no two clear texts have one
cipher text. -/
structure Ciphers where
  hmac : (key : Bytes) → (text : String) → Bytes
  /-- The cipher text and the tag. -/
  encrypt : (key iv aad clear : Bytes) → Bytes × Bytes
  hmac_inj : ∀ {key key' : Bytes} {text : String}, key.length = 32 → key'.length = 32 →
    hmac key text = hmac key' text → key = key'
  length_encrypted : ∀ key iv aad clear, (encrypt key iv aad clear).1.length = clear.length
  length_tag : ∀ key iv aad clear, (encrypt key iv aad clear).2.length = 16
  encrypt_inj : ∀ {key iv aad clear clear' : Bytes},
    encrypt key iv aad clear = encrypt key iv aad clear' → clear = clear'

/-- A clear text that was sealed. -/
structure Sealed where
  key : Bytes
  iv : Bytes
  aad : Bytes
  clear : Bytes
  deriving DecidableEq

/-- Decryption, where the log is everything that was ever sealed. -/
def Ciphers.decrypt (c : Ciphers) (log : List Sealed) (key iv aad tag encrypted : Bytes) :
    Option Bytes :=
  (log.find? fun e => e.key = key ∧ e.iv = iv ∧ e.aad = aad ∧
    c.encrypt key iv aad e.clear = (encrypted, tag)).map Sealed.clear

/-! ## The codec -/

structure CursorCodec where
  key : Bytes
  aad : Bytes

/-- `/^[a-zA-Z0-9:_-]{1,64}$/`. -/
def isAudience (cs : List Char) : Bool :=
  decide (1 ≤ cs.length ∧ cs.length ≤ 64) && cs.all fun c => Base64.isUrl c || c = ':'

/-- The constructor. -/
def CursorCodec.new (c : Ciphers) (key : Bytes) (audience : String) :
    Except CursorError CursorCodec := do
  ensure (key.length = 32 ∧ isAudience audience.toList = true) .invalidCursor
  return { key := c.hmac key ("rogichat:cursor:key:v1:" ++ audience)
           aad := Bytes.utf8 ("rogichat:cursor:v1:" ++ audience) }

/-- `encode`, with the bytes `randomBytes` answers; what it seals is the second result. -/
def CursorCodec.encode (codec : CursorCodec) (c : Ciphers) (scope progress : Json)
    (options : CursorOptions) (iv : Bytes) : Except CursorError (String × Sealed) := do
  let scope ← binding scope
  let progress ← position progress
  let issued ← clock options.now
  let ttl := options.ttlSeconds.getD 86400
  ensure (SafeInteger ttl ∧ 1 ≤ ttl ∧ ttl ≤ maxTtlMs / 1000) .invalidCursor
  let expires := issued + ttl * 1000
  ensure (SafeInteger expires) .invalidCursor
  let encoded := Bytes.utf8 (document scope progress issued expires).stringify
  ensure (encoded.length ≤ clearBytes - 2) .invalidCursor
  let clear := block encoded
  let (encrypted, tag) := c.encrypt codec.key iv codec.aad clear
  return (String.ofList (Base64.encode ([1] ++ iv ++ tag ++ encrypted)),
    { key := codec.key, iv := iv, aad := codec.aad, clear := clear })

/-- The checks `decode` makes of the document it finds. -/
def checkDocument (value : Json) (expected : CursorBinding) (current : Int) :
    Except CursorError CursorPosition := do
  let fields ← exact value documentKeys
  let scope ← binding ((fields.lookup "binding").getD .null)
  let progress ← position ((fields.lookup "position").getD .null)
  ensure (fields.lookup "version" = some (.num 1)) .invalidCursor
  match fields.lookup "issued", fields.lookup "expires" with
  | some (.num issued), some (.num expires) => do
    ensure (SafeInteger issued ∧ SafeInteger expires ∧ 0 ≤ issued ∧ issued < expires ∧
      expires - issued ≤ maxTtlMs ∧ issued ≤ current ∧ current < expires) .invalidCursor
    ensure (scope.toJson.stringify = expected.toJson.stringify) .invalidCursor
    return progress
  | _, _ => .error .invalidCursor

/-- The document in a block. -/
def openBlock (clear : Bytes) : Except CursorError Json := do
  ensure (2 ≤ clear.length) .invalidCursor
  let size := Bytes.readBE (Bytes.slice clear 0 2)
  ensure (2 ≤ size ∧ size ≤ clearBytes - 2 ∧
    (clear.drop (size + 2)).all (fun byte => byte = 0) = true) .invalidCursor
  require (Json.parse (Bytes.ofUtf8 (Bytes.slice clear 2 (size + 2)))) .invalidCursor

/-- The position of a token, or `INVALID_CURSOR`. -/
def CursorCodec.decode (codec : CursorCodec) (c : Ciphers) (log : List Sealed) (token : String)
    (expected : Json) (now : Option Int) : Except CursorError CursorPosition := do
  let expected ← binding expected
  let current ← clock now
  ensure (token.toList.length = tokenLength ∧ token.toList.all Base64.isUrl = true) .invalidCursor
  let bytes := Base64.decode token.toList
  ensure (bytes.length = tokenBytes ∧ bytes.head? = some 1 ∧
    Base64.encode bytes = token.toList) .invalidCursor
  let clear ← require (c.decrypt log codec.key (Bytes.slice bytes 1 13) codec.aad
    (Bytes.slice bytes 13 29) (bytes.drop 29)) .invalidCursor
  let decoded ← openBlock clear
  checkDocument decoded expected current

/-! ## The server -/

/-- A call of `encode`, under a codec of the key and audience. -/
structure Issue where
  key : Bytes
  audience : String
  scope : Json
  progress : Json
  options : CursorOptions
  iv : Bytes

def Issue.run (i : Issue) (c : Ciphers) : Except CursorError (String × Sealed) := do
  let codec ← CursorCodec.new c i.key i.audience
  codec.encode c i.scope i.progress i.options i.iv

/-- Tokens are handed out one after the other, from an empty log; `randomBytes(12)` answers
12 bytes. -/
def issuing (c : Ciphers) : System (List Sealed) Issue where
  init log := log = []
  step i log log' := i.iv.length = 12 ∧ ∃ token sealed, i.run c = .ok (token, sealed) ∧
    log' = sealed :: log

end Rogichat.Sync
