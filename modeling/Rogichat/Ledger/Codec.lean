import Rogichat.Ledger.Intent

/-!
# The bytes of an intent are canonical

What `encodeDeletionIntent` writes against what `decodeDeletionIntent` reads. The
check compares a guard's provider as a string only, so an array around the name of a
provider passes it, and keeps its brackets in the record and in the bytes.

* **`decode_iff`** — the bytes that decode: the texts of checked records that fit.
* **`size_text`** — a record's text is that of its named form and two bytes for every
  array around a provider; named forms fit.
* **`deletionIntent_canonical`** — where the bytes are those of a well formed intent.
-/

namespace Rogichat.Ledger

open Lib

/-! ## Sizes of the checked texts -/

theorem byteSize_uuid {s : String} (h : isUuid s = true) :
    Json.byteSize (Json.quote s) = 38 := by
  refine Text.byteSize_uuid ?_ h
  intro c hc
  refine Text.plain_of_isDigit ?_
  simp only [Bool.and_eq_true, decide_eq_true_eq] at hc
  simp only [Char.isDigit, Bool.and_eq_true, decide_eq_true_eq]
  exact ⟨Nat.le_trans (by decide) hc.1, Nat.le_trans hc.2 (by decide)⟩

theorem byteSize_sha256 {s : String} (h : Text.isSha256Hex s = true) :
    Json.byteSize (Json.quote s) = 66 := by
  refine Text.byteSize_fits h ?_
  intro p hp c hc
  rw [(List.mem_replicate.mp hp).2] at hc
  exact Text.plain_of_lowerHex hc

theorem byteSize_timestamp {s : String} (h : Text.isTimestamp s = true) :
    Json.byteSize (Json.quote s) = 26 := by
  rw [Text.isTimestamp, Bool.and_eq_true] at h
  refine Text.byteSize_fits h.1 ?_
  intro p hp c hc
  simp only [Text.timestampPattern, List.mem_append, List.mem_replicate, List.mem_singleton] at hp
  rcases hp with ((((((((((((⟨-, rfl⟩ | rfl) | ⟨-, rfl⟩) | rfl) | ⟨-, rfl⟩) | rfl) | ⟨-, rfl⟩) |
    rfl) | ⟨-, rfl⟩) | rfl) | ⟨-, rfl⟩) | rfl) | ⟨-, rfl⟩) | rfl
  all_goals first
    | exact Text.plain_of_isDigit hc
    | exact Text.plain_of_lit (by decide) hc

/-- The sizes of the fixed parts of a record. -/
theorem byteSize_fixed :
    ('{'.utf8Size = 1 ∧ '}'.utf8Size = 1 ∧ '['.utf8Size = 1 ∧ ']'.utf8Size = 1 ∧
      ','.utf8Size = 1 ∧ ':'.utf8Size = 1 ∧ Json.byteSize (Json.decimal 1) = 1) ∧
    (Json.byteSize (Json.quote "version") = 9 ∧ Json.byteSize (Json.quote "keyFingerprint") = 16 ∧
      Json.byteSize (Json.quote "subjectHmac") = 13 ∧
      Json.byteSize (Json.quote "identityId") = 12 ∧ Json.byteSize (Json.quote "provider") = 10) ∧
    (Json.byteSize (Json.quote "schemaVersion") = 15 ∧
      Json.byteSize (Json.quote "environment") = 13 ∧ Json.byteSize (Json.quote "requestId") = 11 ∧
      Json.byteSize (Json.quote "actorUserId") = 13 ∧ Json.byteSize (Json.quote "scope") = 7 ∧
      Json.byteSize (Json.quote "targetId") = 10 ∧ Json.byteSize (Json.quote "roomId") = 8 ∧
      Json.byteSize (Json.quote "requestedAt") = 13) ∧
    Json.byteSize (Json.quote "subjectGuard") = 14 ∧
      Json.byteSize (Json.quote "subjectGuards") = 15 := by
  decide

theorem byteSize_guard {g : AccountSubjectGuard} (h : g.Valid) :
    Json.byteSize (Json.obj g.fields).render = 230 := by
  have hkey := byteSize_sha256 h.keyFingerprint
  have hmac := byteSize_sha256 h.subjectHmac
  have hid := byteSize_uuid h.identityId
  simp only [AccountSubjectGuard.fields, Json.render, Json.renderFields, Json.byteSize_cons,
    Json.byteSize_append, hkey, hmac, hid]
  decide

/-! ## Providers in arrays -/

/-- The provider is the name itself. -/
def ScopedAccountSubjectGuard.Named (g : ScopedAccountSubjectGuard) : Prop :=
  g.provider = .str "soop" ∨ g.provider = .str "apple"

/-- The guard with its provider's name in place of the arrays around it. -/
def ScopedAccountSubjectGuard.named (g : ScopedAccountSubjectGuard) : ScopedAccountSubjectGuard :=
  { g with provider := .str (Json.toText g.provider) }

/-- Every guard has the name of a provider. -/
def SubjectGuards.Named : SubjectGuards → Prop
  | .v1 => True
  | .v2 _ => True
  | .v3 subjectGuards => ∀ g ∈ subjectGuards, g.Named

/-- The guards with their providers as texts. -/
def SubjectGuards.named : SubjectGuards → SubjectGuards
  | .v1 => .v1
  | .v2 subjectGuard => .v2 subjectGuard
  | .v3 subjectGuards => .v3 (subjectGuards.map ScopedAccountSubjectGuard.named)

/-- The arrays around the providers. -/
def SubjectGuards.wraps : SubjectGuards → Nat
  | .v1 => 0
  | .v2 _ => 0
  | .v3 subjectGuards => (subjectGuards.map fun g => Json.wraps g.provider).sum

/-- A well formed intent: one the check accepts, whose providers are strings. -/
structure DeletionIntent.WellFormed (i : DeletionIntent) : Prop where
  valid : i.Valid
  named : i.guards.Named

/-- An intent with its providers as texts. -/
def DeletionIntent.named (i : DeletionIntent) : DeletionIntent :=
  { i with guards := i.guards.named }

def DeletionIntent.size (i : DeletionIntent) : Nat := i.toJson.stringify.utf8ByteSize

theorem ScopedAccountSubjectGuard.Named.valid {g : ScopedAccountSubjectGuard} (h : g.Named) :
    Json.toText g.provider ∈ guardProviders ∧ Json.wraps g.provider = 0 := by
  rcases h with h | h <;> rw [h] <;> exact ⟨by decide, rfl⟩

/-- A provider with no array around it is a name. -/
theorem ScopedAccountSubjectGuard.Valid.named_iff {g : ScopedAccountSubjectGuard} (h : g.Valid) :
    g.Named ↔ Json.wraps g.provider = 0 := by
  refine ⟨fun hnamed => hnamed.valid.2, fun hwraps => ?_⟩
  have hname := h.provider
  have hnested := h.nested
  rw [hwraps, Json.nest_zero] at hnested
  simp only [guardProviders, List.mem_cons, List.not_mem_nil, or_false] at hname
  rw [ScopedAccountSubjectGuard.Named, hnested]
  simpa using hname

/-- An accepted record is well formed if no provider has an array around it. -/
theorem DeletionIntent.Valid.wellFormed_iff {i : DeletionIntent} (h : i.Valid) :
    i.WellFormed ↔ i.guards.wraps = 0 := by
  have hvalid := h.guards
  have hguards : i.guards.Named ↔ i.guards.wraps = 0 := by
    cases hg : i.guards with
    | v1 => simp [SubjectGuards.Named, SubjectGuards.wraps]
    | v2 g => simp [SubjectGuards.Named, SubjectGuards.wraps]
    | v3 gs =>
      rw [hg] at hvalid
      simp only [SubjectGuards.Named, SubjectGuards.wraps, List.sum_eq_zero_iff, List.mem_map,
        forall_exists_index, and_imp, forall_apply_eq_imp_iff₂]
      exact forall₂_congr fun g hmem => (hvalid.2.1 g hmem).named_iff
  exact ⟨fun hw => hguards.mp hw.named, fun hw => ⟨h, hguards.mpr hw⟩⟩

theorem SubjectGuards.Valid.named {guards : SubjectGuards} (h : guards.Valid) :
    guards.named.Valid := by
  cases guards with
  | v1 => trivial
  | v2 g => exact h
  | v3 gs =>
    obtain ⟨hlen, hall, hids, hmacs⟩ := h
    refine ⟨by rwa [List.length_map], ?_, by rwa [List.map_map], by rwa [List.map_map]⟩
    intro g hg
    obtain ⟨g', hg', rfl⟩ := List.mem_map.mp hg
    exact ⟨(hall g' hg').toValid, (hall g' hg').provider⟩

theorem SubjectGuards.named_named (guards : SubjectGuards) : guards.named.wraps = 0 := by
  cases guards with
  | v1 => rfl
  | v2 g => rfl
  | v3 gs =>
    simp only [SubjectGuards.named, SubjectGuards.wraps, List.map_map, List.sum_eq_zero_iff]
    intro n hn
    obtain ⟨g, -, rfl⟩ := List.mem_map.mp hn
    rfl

/-- The named form of an accepted record is well formed. -/
theorem DeletionIntent.Valid.named {i : DeletionIntent} (h : i.Valid) : i.named.WellFormed := by
  have hvalid : i.named.Valid :=
    { requestId := h.requestId
      actorUserId := h.actorUserId
      targetId := h.targetId
      requestedAt := h.requestedAt
      account := h.account
      message := fun hscope => by
        obtain ⟨hv1, hroom⟩ := h.message hscope
        refine ⟨?_, hroom⟩
        show i.guards.named = .v1
        rw [hv1]
        rfl
      guards := h.guards.named }
  exact hvalid.wellFormed_iff.mpr i.guards.named_named

/-! ## Sizes of records -/

theorem byteSize_named {g : ScopedAccountSubjectGuard} (h : g.Valid) :
    Json.byteSize g.toJson.render =
      Json.byteSize g.named.toJson.render + 2 * Json.wraps g.provider := by
  have hprovider : Json.byteSize g.provider.render =
      Json.byteSize (Json.str (Json.toText g.provider)).render + 2 * Json.wraps g.provider := by
    conv => lhs; rw [h.nested]
    exact Json.byteSize_nest _ _
  simp only [ScopedAccountSubjectGuard.toJson, ScopedAccountSubjectGuard.named,
    AccountSubjectGuard.fields, List.cons_append, List.nil_append, Json.render, Json.renderFields,
    Json.byteSize_cons, Json.byteSize_append, hprovider]
  ring

theorem byteSize_namedItems {gs : List ScopedAccountSubjectGuard} (h : ∀ g ∈ gs, g.Valid) :
    Json.byteSize (Json.renderItems (gs.map ScopedAccountSubjectGuard.toJson)) =
      Json.byteSize (Json.renderItems ((gs.map ScopedAccountSubjectGuard.named).map
        ScopedAccountSubjectGuard.toJson)) + 2 * (gs.map fun g => Json.wraps g.provider).sum := by
  induction gs with
  | nil => rfl
  | cons g gs ih =>
    have hg := byteSize_named (h g List.mem_cons_self)
    have hrest := ih fun g' hg' => h g' (List.mem_cons_of_mem _ hg')
    simp only [List.map_cons, Json.renderItems, Json.byteSize_cons, Json.byteSize_append,
      List.sum_cons, hg, hrest]
    omega

theorem byteSize_namedGuards {guards : SubjectGuards} (h : guards.Valid) :
    Json.byteSize (Json.renderFields guards.fields) =
      Json.byteSize (Json.renderFields guards.named.fields) + 2 * guards.wraps := by
  cases guards with
  | v1 => rfl
  | v2 g => rfl
  | v3 gs =>
    obtain ⟨-, hall, -⟩ := h
    cases gs with
    | nil => rfl
    | cons g gs =>
      have hg := byteSize_named (hall g List.mem_cons_self)
      have hgs := byteSize_namedItems fun g' hg' => hall g' (List.mem_cons_of_mem _ hg')
      simp only [SubjectGuards.fields, SubjectGuards.named, SubjectGuards.wraps, List.map_cons,
        Json.renderFields, Json.render, Json.byteSize_cons, Json.byteSize_append, List.sum_cons,
        hg, hgs]
      omega

/-- An accepted record takes two bytes for every array around a provider. -/
theorem size_text {i : DeletionIntent} (h : i.Valid) :
    i.size = i.named.size + 2 * i.guards.wraps := by
  have hguards := byteSize_namedGuards h.guards
  have hbase : i.named.base = i.base := by
    rw [DeletionIntent.base, DeletionIntent.base]
    cases hg : i.guards <;> simp [DeletionIntent.named, SubjectGuards.named,
      SubjectGuards.schemaVersion, hg]
  rw [DeletionIntent.size, DeletionIntent.size, Json.size_stringify, Json.size_stringify,
    DeletionIntent.toJson_eq, DeletionIntent.toJson_eq, hbase]
  simp only [DeletionIntent.base, DeletionIntent.named, List.cons_append, List.nil_append,
    Json.render, Json.renderFields, Json.byteSize_cons, Json.byteSize_append, hguards]
  ring

theorem byteSize_scopedGuard {g : ScopedAccountSubjectGuard} (h : g.Valid) (hn : g.Named) :
    Json.byteSize g.toJson.render ≤ 260 := by
  have hsum : Json.byteSize g.toJson.render = 242 + Json.byteSize g.provider.render := by
    have hkey := byteSize_sha256 h.keyFingerprint
    have hmac := byteSize_sha256 h.subjectHmac
    have hid := byteSize_uuid h.identityId
    obtain ⟨⟨h1, h2, -, -, h3, h4, h5⟩, ⟨h6, h7, h8, h9, h10⟩, -⟩ := byteSize_fixed
    simp only [ScopedAccountSubjectGuard.toJson, AccountSubjectGuard.fields, List.cons_append,
      List.nil_append, Json.render, Json.renderFields, Json.byteSize_cons, Json.byteSize_append,
      Json.byteSize_nil, hkey, hmac, hid, h1, h2, h3, h4, h5, h6, h7, h8, h9, h10]
    ring
  have hp : Json.byteSize g.provider.render ≤ 7 := by
    rcases hn with hn | hn <;> rw [hn] <;> decide
  omega

theorem byteSize_scopedGuards {gs : List ScopedAccountSubjectGuard}
    (h : ∀ g ∈ gs, g.Valid ∧ g.Named) :
    Json.byteSize (Json.renderItems (gs.map ScopedAccountSubjectGuard.toJson)) ≤
      261 * gs.length + 1 := by
  induction gs with
  | nil => decide
  | cons g gs ih =>
    obtain ⟨hvalid, hnamed⟩ := h g List.mem_cons_self
    have hg := byteSize_scopedGuard hvalid hnamed
    have hrest := ih fun g' hg' => h g' (List.mem_cons_of_mem _ hg')
    obtain ⟨⟨-, -, -, -, hcomma, -⟩, -⟩ := byteSize_fixed
    simp only [List.map_cons, Json.renderItems, Json.byteSize_cons, Json.byteSize_append, hcomma,
      List.length_cons]
    omega

theorem byteSize_guards {guards : SubjectGuards} (h : guards.Valid) (hn : guards.Named) :
    Json.byteSize (Json.renderFields guards.fields) ≤ 2200 := by
  obtain ⟨⟨h1, h2, h3, h4, h5, h6, -⟩, -, -, h7, h8⟩ := byteSize_fixed
  cases guards with
  | v1 => decide
  | v2 g =>
    cases g with
    | none => decide
    | some g =>
      have hg := byteSize_guard (h g rfl)
      simp only [SubjectGuards.fields, Json.renderFields, Json.byteSize_cons,
        Json.byteSize_append, Json.byteSize_nil, hg, h2, h5, h6, h7]
      decide
  | v3 gs =>
    obtain ⟨hlen, hall, -⟩ := h
    cases gs with
    | nil => decide
    | cons g gs =>
      have hg := byteSize_scopedGuard (hall g List.mem_cons_self) (hn g List.mem_cons_self)
      have hgs := byteSize_scopedGuards fun g' hg' =>
        ⟨hall g' (List.mem_cons_of_mem _ hg'), hn g' (List.mem_cons_of_mem _ hg')⟩
      simp only [SubjectGuards.fields, List.map_cons, Json.renderFields, Json.render,
        Json.byteSize_cons, Json.byteSize_append, Json.byteSize_nil, h2, h3, h5, h6, h8]
      rw [List.length_cons] at hlen
      omega

/-- Every well formed record fits the bound its bytes are read with, and leaves room. -/
theorem size_wellFormed {i : DeletionIntent} (hw : i.WellFormed) : i.size ≤ 2506 := by
  have h := hw.valid
  have hversion : Json.byteSize (Json.decimal i.guards.schemaVersion) = 1 := by
    cases i.guards <;> rfl
  have hsum : i.size =
      247 + Json.byteSize (Json.quote i.environment.text) +
        Json.byteSize (Json.quote i.scope.text) +
        Json.byteSize (i.roomId.elim Json.null Json.str).render +
        Json.byteSize (Json.renderFields i.guards.fields) := by
    obtain ⟨⟨h1, -, -, -, h2, h3, -⟩, -, ⟨k1, k2, k3, k4, k5, k6, k7, k8⟩, -⟩ := byteSize_fixed
    rw [DeletionIntent.size, Json.size_stringify, DeletionIntent.toJson_eq]
    simp only [DeletionIntent.base, List.cons_append, List.nil_append, Json.render,
      Json.renderFields, Json.byteSize_cons, Json.byteSize_append, hversion,
      byteSize_uuid h.requestId, byteSize_uuid h.actorUserId, byteSize_uuid h.targetId,
      byteSize_timestamp h.requestedAt, h1, h2, h3, k1, k2, k3, k4, k5, k6, k7, k8]
    ring
  have henvironment : Json.byteSize (Json.quote i.environment.text) ≤ 12 := by
    cases i.environment <;> decide
  have hscope : Json.byteSize (Json.quote i.scope.text) ≤ 9 := by cases i.scope <;> decide
  have hroom : Json.byteSize (i.roomId.elim Json.null Json.str).render ≤ 38 := by
    cases hs : i.scope with
    | account =>
      rw [(h.account hs).1]
      decide
    | message =>
      obtain ⟨-, room, hroom, hr⟩ := h.message hs
      rw [Option.mem_def.mp hroom]
      exact Nat.le_of_eq (byteSize_uuid hr)
  have hguards := byteSize_guards h.guards hw.named
  omega

/-! ## Decoding -/

theorem text_size (i : DeletionIntent) : i.text.size = i.size := String.size_toByteArray

/-- A record's text opens with a brace. -/
theorem text_head (i : DeletionIntent) : i.toJson.stringify.toList.head? = some '{' := by
  rw [Json.stringify, String.toList_ofList, DeletionIntent.toJson_eq]
  rfl

theorem size_pos (i : DeletionIntent) : 0 < i.size := by
  apply Nat.pos_of_ne_zero
  intro hempty
  have hhead := text_head i
  rw [DeletionIntent.size, String.utf8ByteSize_eq_zero_iff] at hempty
  rw [hempty] at hhead
  cases hhead

/-- The bytes that decode: the texts of the accepted records that fit. -/
theorem decode_iff {bytes : ByteArray} {environment : LedgerEnvironment} {i : DeletionIntent} :
    decodeDeletionIntent bytes environment = .ok i ↔
      i.Valid ∧ i.environment = environment ∧ bytes = i.text ∧ i.size ≤ ledgerMaxBytes := by
  constructor
  · intro h
    obtain ⟨hvalid, henvironment, rfl⟩ := decode_ok h
    refine ⟨hvalid, henvironment, rfl, ?_⟩
    simp only [decodeDeletionIntent, bind_ok, ensure_ok] at h
    obtain ⟨_, ⟨-, hsize⟩, -⟩ := h
    rwa [text_size] at hsize
  · rintro ⟨hvalid, rfl, rfl, hsize⟩
    simp only [decodeDeletionIntent, bind_ok, mapError_ok, ensure_ok, require_ok, pure_ok]
    rw [text_size]
    exact ⟨(), ⟨size_pos i, hsize⟩, _, decodeText_toUTF8 (by rw [text_head]; decide), _,
      Json.parse_stringify (distinct_toJson hvalid), i, checked_toJson hvalid, _,
      (encode_ok hvalid).mpr rfl, (), rfl, rfl⟩

/-- Bytes a well formed intent was encoded to decode to that intent. -/
theorem decode_encode {i : DeletionIntent} {bytes : ByteArray} (h : i.WellFormed)
    (hencode : encodeDeletionIntent i = .ok bytes) :
    decodeDeletionIntent bytes i.environment = .ok i :=
  decode_iff.mpr ⟨h.valid, rfl, (encode_ok h.valid).mp hencode,
    Nat.le_trans (size_wellFormed h) (by decide)⟩

/-! ## Encoding what a caller passes -/

/-- `intent.environment`, of the two the ledger knows. -/
def environmentOf (fields : List (String × Json)) :
    Except DeletionLedgerError LedgerEnvironment := do
  let s ← checkedString fields "environment" fun _ => true
  if s = "qa" then return .qa
  else if s = "production" then return .production
  else .error .invalidLedgerIntent

/-- `encodeDeletionIntent` of the value a caller passes, with its keys in any order. -/
def encodeValue (value : Json) : Except DeletionLedgerError ByteArray := do
  let fields ← asObject value
  let environment ← environmentOf fields
  let checked ← checkedDeletionIntent value environment
  return checked.text

/-- What is accepted is encoded as the record it is checked to be. -/
theorem encodeValue_ok {value : Json} {environment : LedgerEnvironment} {i : DeletionIntent}
    (h : checkedDeletionIntent value environment = .ok i) : encodeValue value = .ok i.text := by
  have hfields := h
  simp only [checkedDeletionIntent, bind_ok, checkedString_ok] at hfields
  obtain ⟨fields, hobject, s, ⟨henvironment, hs⟩, -⟩ := hfields
  have hof : environmentOf fields = .ok environment := by
    have hread : checkedString fields "environment" (fun _ => true) = .ok s :=
      checkedString_ok.mpr ⟨henvironment, rfl⟩
    rw [environmentOf, hread, ok_bind, of_decide_eq_true hs]
    cases environment <;> rfl
  rw [encodeValue, hobject, ok_bind, hof, ok_bind, h]
  rfl

/-! ## The claim of the codec -/

/-- The bytes decode just if they are those of a well formed intent of the environment,
and then they are those of the intent they decode to. -/
def Canonical (bytes : ByteArray) (environment : LedgerEnvironment) : Prop :=
  ((∃ i, decodeDeletionIntent bytes environment = .ok i) ↔
    ∃ i : DeletionIntent, i.WellFormed ∧ i.environment = environment ∧
      encodeDeletionIntent i = .ok bytes) ∧
  ∀ i, decodeDeletionIntent bytes environment = .ok i → encodeDeletionIntent i = .ok bytes

/-- The text, within the bound, of a record whose provider has arrays around it. -/
def Boxed (bytes : ByteArray) (environment : LedgerEnvironment) : Prop :=
  ∃ i : DeletionIntent, i.Valid ∧ i.environment = environment ∧ bytes = i.text ∧
    0 < i.guards.wraps ∧ i.named.size + 2 * i.guards.wraps ≤ ledgerMaxBytes

theorem canonical_iff (bytes : ByteArray) (environment : LedgerEnvironment) :
    Canonical bytes environment ↔ ¬Boxed bytes environment := by
  constructor
  · rintro ⟨hiff, -⟩ ⟨i, hvalid, henvironment, hbytes, hwraps, hsize⟩
    rw [← size_text hvalid] at hsize
    obtain ⟨j, hj, -, hencode⟩ :=
      hiff.mp ⟨i, decode_iff.mpr ⟨hvalid, henvironment, hbytes, hsize⟩⟩
    -- the well formed intent has the same text, so it is the same intent
    have htext : j.text = i.text := ((encode_ok hj.valid).mp hencode).symm.trans hbytes
    have hsame : j = i := text_inj hj.valid hvalid htext
    rw [hsame, hvalid.wellFormed_iff] at hj
    omega
  · intro hboxed
    refine ⟨⟨?_, ?_⟩, ?_⟩
    · rintro ⟨i, hdecode⟩
      obtain ⟨hvalid, henvironment, hbytes, hsize⟩ := decode_iff.mp hdecode
      refine ⟨i, hvalid.wellFormed_iff.mpr ?_, henvironment, (encode_ok hvalid).mpr hbytes⟩
      by_contra hwraps
      rw [size_text hvalid] at hsize
      exact hboxed ⟨i, hvalid, henvironment, hbytes, Nat.pos_of_ne_zero hwraps, hsize⟩
    · rintro ⟨i, hwell, rfl, hencode⟩
      exact ⟨i, decode_encode hwell hencode⟩
    · intro i hdecode
      obtain ⟨hvalid, -, hbytes, -⟩ := decode_iff.mp hdecode
      exact (encode_ok hvalid).mpr hbytes

/-- **The codec is canonical but for providers in arrays.** Bytes that are not the text
of an accepted record with an array around a provider decode just if they are those of a
well formed intent, and are its encoding then; bytes that are do decode, to an intent
that is not well formed. An accepted value encodes to its record's text, and that
decodes to the record just if two bytes for every array around a provider still fit.
Two accepted records never share their bytes, nor a digest without collisions. -/
theorem deletionIntent_canonical (sha256 : ByteArray → Digest) :
    (∀ bytes environment, Canonical bytes environment ↔ ¬Boxed bytes environment) ∧
    (∀ value environment i, checkedDeletionIntent value environment = .ok i →
      i.named.size ≤ 2506 ∧
      ((∃ bytes, encodeValue value = .ok bytes ∧ bytes.size ≤ ledgerMaxBytes ∧
        decodeDeletionIntent bytes environment = .ok i) ↔
        i.named.size + 2 * i.guards.wraps ≤ ledgerMaxBytes)) ∧
    ∀ value value' environment environment' i j bytes bytes',
      checkedDeletionIntent value environment = .ok i →
      checkedDeletionIntent value' environment' = .ok j →
      encodeValue value = .ok bytes → encodeValue value' = .ok bytes' → i ≠ j →
      bytes ≠ bytes' ∧ (Function.Injective sha256 → sha256 bytes ≠ sha256 bytes') := by
  refine ⟨canonical_iff, ?_, ?_⟩
  · intro value environment i hchecked
    obtain ⟨hvalid, henvironment⟩ := checked_valid hchecked
    refine ⟨size_wellFormed hvalid.named, ?_⟩
    rw [encodeValue_ok hchecked, ← size_text hvalid]
    constructor
    · rintro ⟨bytes, -, -, hdecode⟩
      exact (decode_iff.mp hdecode).2.2.2
    · intro hsize
      refine ⟨i.text, rfl, ?_, decode_iff.mpr ⟨hvalid, henvironment, rfl, hsize⟩⟩
      rwa [text_size]
  · intro value value' environment environment' i j bytes bytes' hi hj hbytes hbytes' hne
    rw [encodeValue_ok hi] at hbytes
    rw [encodeValue_ok hj] at hbytes'
    cases hbytes
    cases hbytes'
    have hdiffer : i.text ≠ j.text := fun h =>
      hne (text_inj (checked_valid hi).1 (checked_valid hj).1 h)
    exact ⟨hdiffer, fun hinjective h => hdiffer (hinjective h)⟩

/-! ## A provider in an array -/

/-- The guard of an account. -/
def accountGuard : AccountSubjectGuard :=
  { keyFingerprint := "00000000000000000000000000000000000000000000000000000000000000ab",
    subjectHmac := "00000000000000000000000000000000000000000000000000000000000000cd",
    identityId := "00000000-0000-4000-8000-00000000000b" }

/-- The account's deletion, with so many arrays around the provider of its guard. -/
def boxedIntent (n : Nat) : DeletionIntent :=
  { environment := .qa, requestId := "00000000-0000-5000-8000-000000000001",
    actorUserId := "00000000-0000-4000-8000-00000000000a", scope := .account,
    targetId := "00000000-0000-4000-8000-00000000000a", roomId := none,
    requestedAt := "2026-01-02T03:04:05.678Z",
    guards := .v3 [{ accountGuard with provider := Json.nest n (.str "soop") }] }

theorem boxedIntent_valid (n : Nat) : (boxedIntent n).Valid := by
  have hactor : isUuid "00000000-0000-4000-8000-00000000000a" = true := by decide
  refine ⟨?_, hactor, hactor, ?_, fun _ => ⟨rfl, rfl⟩, DeletionScope.noConfusion, ?_⟩
  · show isUuid "00000000-0000-5000-8000-000000000001" = true
    decide
  · show Text.isTimestamp "2026-01-02T03:04:05.678Z" = true
    decide
  · refine ⟨Nat.one_le_ofNat, ?_, List.nodup_singleton _, List.pairwise_singleton _ _⟩
    intro g hg
    obtain rfl := List.mem_singleton.mp hg
    have hguard : accountGuard.Valid := ⟨by decide, by decide, by decide⟩
    refine ⟨hguard, ?_⟩
    show Json.toText (Json.nest n (.str "soop")) ∈ guardProviders
    rw [Json.toText_nest]
    decide

theorem boxedIntent_wraps (n : Nat) : (boxedIntent n).guards.wraps = n := by
  show Json.wraps (Json.nest n (.str "soop")) + 0 = n
  rw [Json.wraps_nest, Nat.add_zero]

/-- An intent that fits, whose bytes decode to it: the one with a named provider. -/
theorem deletionIntent_canonical_named :
    ∃ bytes, encodeValue (boxedIntent 0).toJson = .ok bytes ∧ bytes.size ≤ ledgerMaxBytes ∧
      decodeDeletionIntent bytes .qa = .ok (boxedIntent 0) := by
  obtain ⟨-, hvalues, -⟩ := deletionIntent_canonical ByteArray.size
  obtain ⟨hnamed, hiff⟩ := hvalues _ _ _ (checked_toJson (boxedIntent_valid 0))
  refine hiff.mpr ?_
  rw [boxedIntent_wraps, Nat.mul_zero, Nat.add_zero]
  exact Nat.le_trans hnamed (by decide)

/-- One array around the provider: the bytes decode, and are those of no well formed
intent. With 2048 of them the intent is accepted, and its bytes do not decode. -/
theorem deletionIntent_boxed :
    (¬∀ bytes environment, (∃ i, decodeDeletionIntent bytes environment = .ok i) ↔
      ∃ i : DeletionIntent, i.WellFormed ∧ i.environment = environment ∧
        encodeDeletionIntent i = .ok bytes) ∧
    ¬∀ value environment i, checkedDeletionIntent value environment = .ok i →
      ∃ bytes, encodeValue value = .ok bytes ∧ bytes.size ≤ ledgerMaxBytes ∧
        decodeDeletionIntent bytes environment = .ok i := by
  constructor
  · intro hclaim
    have hvalid := boxedIntent_valid 1
    have hfits : (boxedIntent 1).size ≤ ledgerMaxBytes := by
      have hnamed := size_wellFormed hvalid.named
      rw [size_text hvalid, boxedIntent_wraps, ledgerMaxBytes]
      generalize (boxedIntent 1).named.size = n at hnamed ⊢
      omega
    obtain ⟨i, hwell, -, hencode⟩ :=
      (hclaim (boxedIntent 1).text .qa).mp ⟨_, decode_iff.mpr ⟨hvalid, rfl, rfl, hfits⟩⟩
    have htext : i.text = (boxedIntent 1).text := ((encode_ok hwell.valid).mp hencode).symm
    rw [text_inj hwell.valid hvalid htext, hvalid.wellFormed_iff, boxedIntent_wraps] at hwell
    cases hwell
  · intro hclaim
    have hvalid := boxedIntent_valid 2048
    obtain ⟨bytes, -, -, hdecode⟩ := hclaim _ _ _ (checked_toJson hvalid)
    have hsize := (decode_iff.mp hdecode).2.2.2
    -- the brackets alone take all of the bound
    have hpos := size_pos (boxedIntent 2048).named
    rw [size_text hvalid, boxedIntent_wraps, ledgerMaxBytes] at hsize
    generalize (boxedIntent 2048).named.size = n at hpos hsize
    omega

end Rogichat.Ledger
