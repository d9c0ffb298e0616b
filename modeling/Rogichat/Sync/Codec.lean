import Mathlib
import Rogichat.Sync.Cursor

/-!
# The tokens of a cursor codec

* **`document_size`** — the document of every valid binding and position fits the block.
* **`encode_iff`** — what `encode` accepts, and the token it answers with.
* **`decode_sealed`** — `decode` reads a token that was sealed, and no other.
* **`log_iff`** — the log is what the calls of a run sealed.
* **`cursor_codec`** — over every run: a token decodes if and only if it was handed out for
  the binding and is in its time, to the position it was handed out with.
-/

namespace Rogichat.Sync

open Lib

/-! ## Checked values -/

/-- A UUID of version 4. -/
def IsUuid (s : String) : Prop := Text.fits (Text.uuidPattern (Text.lit '4')) s.toList = true

def IsOrder (s : String) : Prop := isOrder s.toList = true

instance (s : String) : Decidable (IsUuid s) := inferInstanceAs (Decidable (_ = true))

instance (s : String) : Decidable (IsOrder s) := inferInstanceAs (Decidable (_ = true))

theorem text_ok {value : Option Json} {s : String} :
    text value = .ok s ↔ value = some (.str s) := by
  cases value with
  | none => exact iff_of_false (by simp [text]) (by simp)
  | some v =>
    cases v with
    | str t => simp [text]
    | _ => exact iff_of_false (by simp [text]) (by simp)

theorem uuid_ok {value : Option Json} {s : String} :
    uuid value = .ok s ↔ value = some (.str s) ∧ IsUuid s := by
  simp only [uuid, bind_ok, text_ok, ensure_ok, pure_ok]
  constructor
  · rintro ⟨t, rfl, _, hfits, rfl⟩
    exact ⟨rfl, hfits⟩
  · rintro ⟨rfl, hfits⟩
    exact ⟨s, rfl, (), hfits, rfl⟩

theorem order_ok {value : Option Json} {s : String} :
    order value = .ok s ↔ value = some (.str s) ∧ IsOrder s := by
  simp only [order, bind_ok, text_ok, ensure_ok, pure_ok]
  constructor
  · rintro ⟨t, rfl, _, horder, rfl⟩
    exact ⟨rfl, horder⟩
  · rintro ⟨rfl, horder⟩
    exact ⟨s, rfl, (), horder, rfl⟩

theorem isNull_ok {value : Option Json} {o : Option String} :
    isNull value = .ok o ↔ value = some .null ∧ o = none := by
  simp only [isNull, bind_ok, ensure_ok, pure_ok]
  constructor
  · rintro ⟨_, hvalue, ho⟩
    exact ⟨hvalue, ho.symm⟩
  · rintro ⟨hvalue, ho⟩
    exact ⟨(), hvalue, ho.symm⟩

theorem some_ok {x : Except CursorError String} {o : Option String} :
    some <$> x = .ok o ↔ ∃ s, x = .ok s ∧ o = some s := by
  cases x with
  | error e => simp [Functor.map, Except.map]
  | ok s => simp [Functor.map, Except.map, eq_comm]

theorem nullable_ok {check : Option Json → Except CursorError String} {P : String → Prop}
    (hcheck : ∀ value s, check value = .ok s ↔ value = some (.str s) ∧ P s)
    {value : Option Json} {o : Option String} :
    nullable check value = .ok o ↔ value = some (nullableJson o) ∧ ∀ s ∈ o, P s := by
  by_cases hnull : value = some .null
  · subst hnull
    cases o with
    | none => simp [nullable, nullableJson]
    | some s => simp [nullable, nullableJson]
  · have hsome : nullable check value = some <$> check value := by
      unfold nullable
      split
      · exact absurd rfl hnull
      · rfl
    rw [hsome, some_ok]
    cases o with
    | none => simp [nullableJson, hnull]
    | some s => simp [nullableJson, hcheck]

theorem exact_ok {value : Json} {keys : List String} {fields : List (String × Json)} :
    exact value keys = .ok fields ↔ value = .obj fields ∧ fields.length = keys.length ∧
      ∀ key ∈ keys, key ∈ fields.map Prod.fst := by
  cases value with
  | obj fs =>
    simp only [exact, bind_ok, ensure_ok, pure_ok, Json.obj.injEq]
    constructor
    · rintro ⟨_, hkeys, rfl⟩
      exact ⟨rfl, hkeys⟩
    · rintro ⟨rfl, hkeys⟩
      exact ⟨(), hkeys, rfl⟩
  | _ => exact iff_of_false (by simp [exact]) (by simp)

/-! ## Bindings and positions -/

/-- What `binding` lets through. -/
structure CursorBinding.Valid (b : CursorBinding) : Prop where
  userId : IsUuid b.userId
  sessionId : IsUuid b.sessionId
  deviceId : IsUuid b.deviceId
  cacheId : IsUuid b.cacheId
  roomId : ∀ id ∈ b.roomId, IsUuid id
  periodId : ∀ id ∈ b.periodId, IsUuid id
  place : b.purpose = .manifest ∧ b.roomId = none ∧ b.periodId = none ∨
    b.purpose ≠ .manifest ∧ b.roomId ≠ none ∧ b.periodId ≠ none
  acl : isAcl b.acl.toList = true

/-- What `position` lets through. -/
structure CursorPosition.Valid (p : CursorPosition) : Prop where
  from_ : IsOrder p.from_
  upper : ∀ s ∈ p.upper, IsOrder s
  lastId : ∀ id ∈ p.lastId, IsUuid id

theorem purpose_find (purpose : CursorPurpose) :
    purposes.find? (fun p => p.text = purpose.text) = some purpose := by
  cases purpose <;> decide

theorem binding_valid {value : Json} {b : CursorBinding} (h : binding value = .ok b) :
    b.Valid := by
  simp only [binding, bind_ok, exact_ok, text_ok, require_ok, ensure_ok, uuid_ok, pure_ok] at h
  obtain ⟨fields, -, name, -, purpose, -, acl, -, _, hacl, userId, ⟨-, huser⟩, sessionId,
    ⟨-, hsession⟩, deviceId, ⟨-, hdevice⟩, cacheId, ⟨-, hcache⟩, roomId, hroom, periodId, hperiod,
    rfl⟩ := h
  by_cases hmanifest : purpose = .manifest
  · rw [if_pos hmanifest, isNull_ok] at hroom hperiod
    obtain ⟨-, rfl⟩ := hroom
    obtain ⟨-, rfl⟩ := hperiod
    exact ⟨huser, hsession, hdevice, hcache, by simp, by simp, .inl ⟨hmanifest, rfl, rfl⟩, hacl⟩
  · rw [if_neg hmanifest, some_ok] at hroom hperiod
    obtain ⟨room, hroom, rfl⟩ := hroom
    obtain ⟨period, hperiod, rfl⟩ := hperiod
    refine ⟨huser, hsession, hdevice, hcache, ?_, ?_, .inr ⟨hmanifest, by simp, by simp⟩, hacl⟩
    · rintro id ⟨⟩
      exact (uuid_ok.mp hroom).2
    · rintro id ⟨⟩
      exact (uuid_ok.mp hperiod).2

theorem binding_toJson {b : CursorBinding} (h : b.Valid) : binding b.toJson = .ok b := by
  have hplace : ∀ o, (∀ id ∈ o, IsUuid id) →
      (b.purpose = .manifest ∧ o = none ∨ b.purpose ≠ .manifest ∧ o ≠ none) →
      (if b.purpose = .manifest then isNull else fun value => some <$> uuid value)
        (some (nullableJson o)) = .ok o := by
    intro o ho hcase
    rcases hcase with ⟨hmanifest, rfl⟩ | ⟨hmanifest, hne⟩
    · rw [if_pos hmanifest]
      exact isNull_ok.mpr ⟨rfl, rfl⟩
    · obtain ⟨id, rfl⟩ := Option.ne_none_iff_exists'.mp hne
      rw [if_neg hmanifest]
      exact some_ok.mpr ⟨id, uuid_ok.mpr ⟨rfl, ho id rfl⟩, rfl⟩
  simp only [binding, bind_ok, exact_ok, text_ok, require_ok, ensure_ok, uuid_ok, pure_ok]
  refine ⟨_, ⟨rfl, rfl, fun key hkey => hkey⟩, b.purpose.text, rfl, b.purpose,
    purpose_find b.purpose, b.acl, rfl, (), h.acl, b.userId, ⟨rfl, h.userId⟩, b.sessionId,
    ⟨rfl, h.sessionId⟩, b.deviceId, ⟨rfl, h.deviceId⟩, b.cacheId, ⟨rfl, h.cacheId⟩, b.roomId,
    hplace b.roomId h.roomId ?_, b.periodId, hplace b.periodId h.periodId ?_, rfl⟩
  · exact h.place.imp (fun h => ⟨h.1, h.2.1⟩) fun h => ⟨h.1, h.2.1⟩
  · exact h.place.imp (fun h => ⟨h.1, h.2.2⟩) fun h => ⟨h.1, h.2.2⟩

theorem position_valid {value : Json} {p : CursorPosition} (h : position value = .ok p) :
    p.Valid := by
  simp only [position, bind_ok, exact_ok, order_ok, nullable_ok (fun _ _ => order_ok),
    nullable_ok (fun _ _ => uuid_ok), pure_ok] at h
  obtain ⟨fields, -, a, ⟨-, ha⟩, upper, ⟨-, hupper⟩, lastId, ⟨-, hlast⟩, rfl⟩ := h
  exact ⟨ha, hupper, hlast⟩

theorem position_toJson {p : CursorPosition} (h : p.Valid) : position p.toJson = .ok p := by
  simp only [position, bind_ok, exact_ok, order_ok, nullable_ok (fun _ _ => order_ok),
    nullable_ok (fun _ _ => uuid_ok), pure_ok]
  exact ⟨_, ⟨rfl, rfl, fun key hkey => hkey⟩, p.from_, ⟨rfl, h.from_⟩, p.upper, ⟨rfl, h.upper⟩,
    p.lastId, ⟨rfl, h.lastId⟩, rfl⟩

/-! ## The document -/

theorem distinct_nullable (o : Option String) : (nullableJson o).Distinct := by
  cases o with
  | none => exact trivial
  | some s => exact trivial

theorem CursorBinding.distinct (b : CursorBinding) : b.toJson.Distinct := by
  refine ⟨show bindingKeys.Nodup by decide, ?_⟩
  simp only [Json.DistinctFields, Json.Distinct, distinct_nullable, and_true]

theorem CursorPosition.distinct (p : CursorPosition) : p.toJson.Distinct := by
  refine ⟨show positionKeys.Nodup by decide, ?_⟩
  simp only [Json.DistinctFields, Json.Distinct, distinct_nullable, and_true]

theorem document_distinct (b : CursorBinding) (p : CursorPosition) (issued expires : Int) :
    (document b p issued expires).Distinct := by
  refine ⟨show documentKeys.Nodup by decide, ?_⟩
  simp only [Json.DistinctFields, b.distinct, p.distinct, Json.Distinct, and_true]

/-- The text of a binding says all of it. -/
theorem toJson_inj {b b' : CursorBinding} (hb : b.Valid) (hb' : b'.Valid)
    (h : b.toJson.stringify = b'.toJson.stringify) : b = b' := by
  have hjson := Json.stringify_inj b.distinct b'.distinct h
  have hread := binding_toJson hb
  rw [hjson, binding_toJson hb'] at hread
  exact (Except.ok.inj hread).symm

/-! ## The size of the document -/

theorem plain_of_isUrl {c : Char} (h : Base64.isUrl c = true) : Json.Plain c := by
  simp only [Base64.isUrl, Char.isAlphanum, Char.isAlpha, Bool.or_eq_true, decide_eq_true_eq] at h
  rcases h with (((hupper | hlower) | hdigit) | rfl) | rfl
  · simp only [Char.isUpper, ge_iff_le, decide_eq_true_eq, UInt32.le_iff_toNat_le] at hupper
    refine Json.plain_of_toNat (Nat.le_trans (by decide) hupper.1)
      (Nat.le_trans hupper.2 (by decide)) ?_
    rintro rfl
    exact absurd hupper.2 (by decide)
  · simp only [Char.isLower, ge_iff_le, Bool.and_eq_true, decide_eq_true_eq,
      UInt32.le_iff_toNat_le] at hlower
    refine Json.plain_of_toNat (Nat.le_trans (by decide) hlower.1)
      (Nat.le_trans hlower.2 (by decide)) ?_
    rintro rfl
    exact absurd hlower.1 (by decide)
  · exact Text.plain_of_isDigit hdigit
  · decide
  · decide

theorem size_uuid {s : String} (h : IsUuid s) : Json.byteSize (Json.quote s) = 38 :=
  Text.byteSize_uuid (fun _ hc => Text.plain_of_lit (by decide) hc) h

theorem size_order {s : String} (h : IsOrder s) : Json.byteSize (Json.quote s) ≤ 22 := by
  simp only [IsOrder, isOrder, Bool.and_eq_true, decide_eq_true_eq] at h
  obtain ⟨⟨⟨hdigits, -, hlength⟩, -⟩, -⟩ := h
  rw [Json.byteSize_quote fun c hc => Text.plain_of_isDigit (List.all_eq_true.mp hdigits c hc)]
  omega

theorem size_acl {s : String} (h : isAcl s.toList = true) : Json.byteSize (Json.quote s) = 45 := by
  simp only [isAcl, Bool.and_eq_true, decide_eq_true_eq] at h
  obtain ⟨⟨hlength, hdigits⟩, -⟩ := h
  rw [Json.byteSize_quote fun c hc => plain_of_isUrl (List.all_eq_true.mp hdigits c hc), hlength]

theorem size_nullable {o : Option String} {n : Nat} (hn : 4 ≤ n)
    (h : ∀ s ∈ o, Json.byteSize (Json.quote s) ≤ n) :
    Json.byteSize (nullableJson o).render ≤ n := by
  cases o with
  | none => exact hn
  | some s => exact h s rfl

theorem size_purpose (purpose : CursorPurpose) :
    Json.byteSize (Json.quote purpose.text) ≤ 10 := by
  cases purpose <;> decide

/-- A safe integer that is not negative has at most sixteen digits. -/
theorem size_time {n : Int} (hn : 0 ≤ n) (hsafe : SafeInteger n) :
    Json.byteSize (Json.decimal n) ≤ 16 := by
  obtain ⟨m, rfl⟩ := Int.eq_ofNat_of_zero_le hn
  have hlength : (Nat.toDigits 10 m).length ≤ 16 := by
    refine (Nat.length_toDigits_le_iff (by decide) (by decide)).mpr ?_
    have hmax : (m : Int) ≤ maxSafeInteger := hsafe.2
    rw [maxSafeInteger] at hmax
    omega
  have hsize : ∀ cs : List Char, (∀ c ∈ cs, c.isDigit = true) → Json.byteSize cs = cs.length := by
    intro cs hcs
    induction cs with
    | nil => rfl
    | cons c cs ih =>
      have hplain := Text.plain_of_isDigit (hcs c List.mem_cons_self)
      rw [Json.byteSize_cons, ih fun d hd => hcs d (List.mem_cons_of_mem _ hd), hplain.2,
        List.length_cons, Nat.add_comm]
  show Json.byteSize (Nat.toDigits 10 m) ≤ 16
  rw [hsize _ fun c hc => Nat.isDigit_of_mem_toDigits (by decide) (by decide) hc]
  exact hlength

/-- The sizes of the names, and of what stands around them. -/
theorem size_names :
    ('{'.utf8Size = 1 ∧ '}'.utf8Size = 1 ∧ ','.utf8Size = 1 ∧ ':'.utf8Size = 1 ∧
      Json.byteSize (Json.decimal 1) = 1) ∧
    (Json.byteSize (Json.quote "purpose") = 9 ∧ Json.byteSize (Json.quote "userId") = 8 ∧
      Json.byteSize (Json.quote "sessionId") = 11 ∧ Json.byteSize (Json.quote "deviceId") = 10 ∧
      Json.byteSize (Json.quote "cacheId") = 9 ∧ Json.byteSize (Json.quote "roomId") = 8 ∧
      Json.byteSize (Json.quote "periodId") = 10 ∧ Json.byteSize (Json.quote "acl") = 5) ∧
    (Json.byteSize (Json.quote "from") = 6 ∧ Json.byteSize (Json.quote "upper") = 7 ∧
      Json.byteSize (Json.quote "lastId") = 8) ∧
    Json.byteSize (Json.quote "version") = 9 ∧ Json.byteSize (Json.quote "binding") = 9 ∧
      Json.byteSize (Json.quote "position") = 10 ∧ Json.byteSize (Json.quote "issued") = 8 ∧
      Json.byteSize (Json.quote "expires") = 9 := by
  decide

theorem CursorBinding.size {b : CursorBinding} (h : b.Valid) :
    Json.byteSize b.toJson.render ≤ 400 := by
  have hpurpose := size_purpose b.purpose
  have hroom := size_nullable (by decide) fun id hid => (size_uuid (h.roomId id hid)).le
  have hperiod := size_nullable (by decide) fun id hid => (size_uuid (h.periodId id hid)).le
  obtain ⟨⟨hopen, hclose, hcomma, hcolon, -⟩, ⟨h₁, h₂, h₃, h₄, h₅, h₆, h₇, h₈⟩, -, -⟩ := size_names
  simp only [toJson, Json.render, Json.renderFields, Json.byteSize_cons, Json.byteSize_append,
    Json.byteSize_nil, size_uuid h.userId, size_uuid h.sessionId, size_uuid h.deviceId,
    size_uuid h.cacheId, size_acl h.acl, hopen, hclose, hcomma, hcolon, h₁, h₂, h₃, h₄, h₅, h₆, h₇,
    h₈]
  linarith only [hpurpose, hroom, hperiod]

theorem CursorPosition.size {p : CursorPosition} (h : p.Valid) :
    Json.byteSize p.toJson.render ≤ 120 := by
  have hfrom := size_order h.from_
  have hupper := size_nullable (by decide) fun s hs => size_order (h.upper s hs)
  have hlast := size_nullable (by decide) fun id hid => (size_uuid (h.lastId id hid)).le
  obtain ⟨⟨hopen, hclose, hcomma, hcolon, -⟩, -, ⟨h₁, h₂, h₃⟩, -⟩ := size_names
  simp only [toJson, Json.render, Json.renderFields, Json.byteSize_cons, Json.byteSize_append,
    Json.byteSize_nil, hopen, hclose, hcomma, hcolon, h₁, h₂, h₃]
  linarith only [hfrom, hupper, hlast]

/-- The document of every valid binding and position fits the block. -/
theorem document_size {b : CursorBinding} {p : CursorPosition} {issued expires : Int}
    (hb : b.Valid) (hp : p.Valid) (hissued : 0 ≤ issued ∧ SafeInteger issued)
    (hexpires : 0 ≤ expires ∧ SafeInteger expires) :
    2 ≤ (Bytes.utf8 (document b p issued expires).stringify).length ∧
      (Bytes.utf8 (document b p issued expires).stringify).length ≤ clearBytes - 2 := by
  have hlength : (Bytes.utf8 (document b p issued expires).stringify).length =
      Json.byteSize (document b p issued expires).render := by
    rw [Bytes.length_utf8, Json.stringify, String.toList_ofList]
    rfl
  have hbinding := CursorBinding.size hb
  have hposition := CursorPosition.size hp
  have h₁ := size_time hissued.1 hissued.2
  have h₂ := size_time hexpires.1 hexpires.2
  obtain ⟨⟨hopen, hclose, hcomma, hcolon, hone⟩, -, -, h₃, h₄, h₅, h₆, h₇⟩ := size_names
  rw [hlength]
  simp only [document, Json.render, Json.renderFields, Json.byteSize_cons, Json.byteSize_append,
    Json.byteSize_nil, hopen, hclose, hcomma, hcolon, hone, h₃, h₄, h₅, h₆, h₇, clearBytes]
  constructor
  · linarith only
  · linarith only [hbinding, hposition, h₁, h₂]

/-! ## Blocks -/

theorem length_block {encoded : Bytes} (h : encoded.length ≤ clearBytes - 2) :
    (block encoded).length = clearBytes := by
  rw [block, List.length_append, List.length_append, Bytes.length_bytesBE, List.length_replicate]
  rw [clearBytes] at *
  omega

/-- A block is opened to the document it was made of. -/
theorem openBlock_block {v : Json} (hv : v.Distinct)
    (hleast : 2 ≤ (Bytes.utf8 v.stringify).length)
    (hmost : (Bytes.utf8 v.stringify).length ≤ clearBytes - 2) :
    openBlock (block (Bytes.utf8 v.stringify)) = .ok v := by
  have hparse : Json.parse (Bytes.ofUtf8 (Bytes.utf8 v.stringify)) = some v := by
    rw [Bytes.ofUtf8_utf8]
    exact Json.parse_stringify hv
  have hlength := length_block hmost
  generalize Bytes.utf8 v.stringify = encoded at *
  have hsize : Bytes.readBE (Bytes.slice (block encoded) 0 2) = encoded.length := by
    have hhead : Bytes.slice (block encoded) 0 2 = Bytes.bytesBE 2 encoded.length := by
      rw [Bytes.slice, block, List.append_assoc]
      exact List.take_left' (Bytes.length_bytesBE 2 _)
    rw [hhead]
    refine Bytes.readBE_bytesBE (Nat.lt_of_le_of_lt hmost ?_)
    decide
  have hrest : (block encoded).drop 2 =
      encoded ++ List.replicate (clearBytes - 2 - encoded.length) 0 := by
    rw [block, List.append_assoc]
    exact List.drop_left' (Bytes.length_bytesBE 2 _)
  have htext : Bytes.slice (block encoded) 2 (encoded.length + 2) = encoded := by
    rw [Bytes.slice, hrest]
    exact List.take_left' (by omega)
  have hpad : ((block encoded).drop (encoded.length + 2)).all (fun byte => byte = 0) = true := by
    have hdrop : (block encoded).drop (encoded.length + 2) =
        List.replicate (clearBytes - 2 - encoded.length) 0 := by
      rw [Nat.add_comm, ← List.drop_drop, hrest]
      exact List.drop_left' rfl
    rw [hdrop, List.all_eq_true]
    intro byte hbyte
    exact decide_eq_true (List.eq_of_mem_replicate hbyte)
  have hfits : 2 ≤ (block encoded).length := by
    rw [hlength]
    decide
  simp only [openBlock, hsize, htext, hparse, ensure_pos hfits, ok_bind, require_some]
  exact bind_ok.mpr ⟨(), ensure_ok.mpr ⟨hleast, hmost, hpad⟩, rfl⟩

/-! ## Tokens -/

/-- The token of what was sealed. -/
def Sealed.token (e : Sealed) (c : Ciphers) : String :=
  String.ofList (Base64.encode ([1] ++ e.iv ++ (c.encrypt e.key e.iv e.aad e.clear).2 ++
    (c.encrypt e.key e.iv e.aad e.clear).1))

/-- The lengths `encode` seals with. -/
structure Sealed.Framed (e : Sealed) : Prop where
  iv : e.iv.length = 12
  clear : e.clear.length = clearBytes

/-- The seconds a token lasts. -/
def CursorOptions.ttl (o : CursorOptions) : Int := o.ttlSeconds.getD 86400

/-- What a codec seals for a binding and a position. -/
def CursorCodec.seal_ (codec : CursorCodec) (iv : Bytes) (b : CursorBinding) (p : CursorPosition)
    (issued expires : Int) : Sealed :=
  { key := codec.key, iv := iv, aad := codec.aad,
    clear := block (Bytes.utf8 (document b p issued expires).stringify) }

theorem clock_ok {value : Option Int} {n : Int} :
    clock value = .ok n ↔ value = some n ∧ SafeInteger n ∧ 0 ≤ n := by
  simp only [clock, bind_ok, require_ok, ensure_ok, pure_ok]
  constructor
  · rintro ⟨m, rfl, _, hm, rfl⟩
    exact ⟨rfl, hm⟩
  · rintro ⟨rfl, hn⟩
    exact ⟨n, rfl, (), hn, rfl⟩

/-- What `encode` accepts, and what it answers with. -/
theorem encode_iff {codec : CursorCodec} {c : Ciphers} {scope progress : Json}
    {options : CursorOptions} {iv : Bytes} {token : String} {e : Sealed} :
    codec.encode c scope progress options iv = .ok (token, e) ↔
      ∃ b p issued, binding scope = .ok b ∧ position progress = .ok p ∧
        clock options.now = .ok issued ∧ 1 ≤ options.ttl ∧ options.ttl ≤ maxTtlMs / 1000 ∧
        SafeInteger (issued + options.ttl * 1000) ∧
        e = codec.seal_ iv b p issued (issued + options.ttl * 1000) ∧ token = e.token c := by
  simp only [CursorCodec.encode, bind_ok, ensure_ok, pure_ok, Prod.mk.injEq]
  constructor
  · rintro ⟨b, hb, p, hp, issued, hissued, _, ⟨-, hleast, hmost⟩, _, hexpires, _, -, rfl, rfl⟩
    exact ⟨b, p, issued, hb, hp, hissued, hleast, hmost, hexpires, rfl, rfl⟩
  · rintro ⟨b, p, issued, hb, hp, hissued, hleast, hmost, hexpires, rfl, rfl⟩
    have hclock := (clock_ok.mp hissued).2
    have hlater : 0 ≤ issued + options.ttl * 1000 := by omega
    have hsize := document_size (binding_valid hb) (position_valid hp) ⟨hclock.2, hclock.1⟩
      ⟨hlater, hexpires⟩
    refine ⟨b, hb, p, hp, issued, hissued, (), ⟨?_, hleast, hmost⟩, (), hexpires, (), hsize.2, rfl,
      rfl⟩
    show -maxSafeInteger ≤ options.ttl ∧ options.ttl ≤ maxSafeInteger
    rw [maxTtlMs] at hmost
    rw [maxSafeInteger]
    omega

theorem framed_seal {codec : CursorCodec} {iv : Bytes} {b : CursorBinding} {p : CursorPosition}
    {issued expires : Int} (hiv : iv.length = 12) (hb : b.Valid) (hp : p.Valid)
    (hissued : 0 ≤ issued ∧ SafeInteger issued) (hexpires : 0 ≤ expires ∧ SafeInteger expires) :
    (codec.seal_ iv b p issued expires).Framed :=
  ⟨hiv, length_block (document_size hb hp hissued hexpires).2⟩

/-- Every token has the one length. -/
theorem length_token {e : Sealed} {c : Ciphers} (h : e.Framed) :
    (e.token c).toList.length = tokenLength := by
  rw [Sealed.token, String.toList_ofList, Base64.length_encode]
  simp only [List.length_append, c.length_encrypted, c.length_tag, h.iv, h.clear]
  rfl

/-! ## Reading tokens -/

/-- The parts of a token's bytes. -/
theorem split_bytes {iv tag encrypted : Bytes} (hiv : iv.length = 12) (htag : tag.length = 16) :
    Bytes.slice ([1] ++ iv ++ tag ++ encrypted) 1 13 = iv ∧
      Bytes.slice ([1] ++ iv ++ tag ++ encrypted) 13 29 = tag ∧
      ([1] ++ iv ++ tag ++ encrypted).drop 29 = encrypted := by
  have hfront : ([1] ++ iv : Bytes).length = 13 := by
    rw [List.length_append, hiv]
    rfl
  refine ⟨?_, ?_, ?_⟩
  · rw [Bytes.slice, List.append_assoc, List.append_assoc]
    exact List.take_left' hiv
  · rw [Bytes.slice, List.append_assoc, List.drop_left' hfront]
    exact List.take_left' htag
  · refine List.drop_left' ?_
    rw [List.length_append, hfront, htag]

theorem join_bytes {bytes : Bytes} (h : bytes.head? = some 1) :
    [1] ++ Bytes.slice bytes 1 13 ++ Bytes.slice bytes 13 29 ++ bytes.drop 29 = bytes := by
  cases bytes with
  | nil => cases h
  | cons byte rest =>
    obtain rfl := Option.some.inj h
    have hlast := Bytes.field_append (1 :: rest) 13 16
    have hfirst := Bytes.field_append (1 :: rest) 1 12
    rw [List.append_assoc, List.append_assoc]
    show 1 :: (((1 :: rest).drop 1).take 12 ++
      (((1 :: rest).drop 13).take 16 ++ (1 :: rest).drop 29)) = 1 :: rest
    rw [hlast, hfirst]
    rfl

/-- A cipher text opens to what the log says was sealed with it. -/
theorem decrypt_some {c : Ciphers} {log : List Sealed} {key iv aad tag encrypted clear : Bytes} :
    c.decrypt log key iv aad tag encrypted = some clear ↔
      ∃ e ∈ log, e.key = key ∧ e.iv = iv ∧ e.aad = aad ∧
        c.encrypt key iv aad e.clear = (encrypted, tag) ∧ e.clear = clear := by
  rw [Ciphers.decrypt, Option.map_eq_some_iff]
  constructor
  · rintro ⟨e, hfind, rfl⟩
    have he := List.find?_some hfind
    simp only [decide_eq_true_eq] at he
    exact ⟨e, List.mem_of_find?_eq_some hfind, he.1, he.2.1, he.2.2.1, he.2.2.2, rfl⟩
  · rintro ⟨e, hmem, hkey, hiv, haad, hcipher, rfl⟩
    cases hfind : log.find? fun e => e.key = key ∧ e.iv = iv ∧ e.aad = aad ∧
        c.encrypt key iv aad e.clear = (encrypted, tag) with
    | none =>
      have hnone := List.find?_eq_none.mp hfind e hmem
      exact absurd (decide_eq_true ⟨hkey, hiv, haad, hcipher⟩) hnone
    | some found =>
      have hfound := List.find?_some hfind
      simp only [decide_eq_true_eq] at hfound
      exact ⟨found, rfl, c.encrypt_inj (hfound.2.2.2.trans hcipher.symm)⟩

/-- What `decode` makes of a token: it must be one that was sealed under the codec's key and
audience. -/
theorem decode_sealed {codec : CursorCodec} {c : Ciphers} {log : List Sealed}
    (hlog : ∀ e ∈ log, e.Framed) {token : String} {expected : Json} {now : Option Int}
    {p : CursorPosition} :
    codec.decode c log token expected now = .ok p ↔
      ∃ b current, binding expected = .ok b ∧ clock now = .ok current ∧
        ∃ e ∈ log, e.key = codec.key ∧ e.aad = codec.aad ∧ e.token c = token ∧
          ∃ v, openBlock e.clear = .ok v ∧ checkDocument v b current = .ok p := by
  simp only [CursorCodec.decode, bind_ok, ensure_ok, require_ok, decrypt_some]
  constructor
  · rintro ⟨b, hb, current, hnow, _, -, _, ⟨-, hhead, hcanonical⟩, _,
      ⟨e, hmem, hkey, hiv, haad, hcipher, rfl⟩, v, hv, hcheck⟩
    refine ⟨b, current, hb, hnow, e, hmem, hkey, haad, ?_, v, hv, hcheck⟩
    have hjoin := join_bytes hhead
    rw [Sealed.token, hkey, haad, hiv, hcipher, hjoin, hcanonical]
    exact String.ofList_toList
  · rintro ⟨b, current, hb, hnow, e, hmem, hkey, haad, rfl, v, hv, hcheck⟩
    have hframed := hlog e hmem
    have hlength := length_token (c := c) hframed
    have htag := c.length_tag e.key e.iv e.aad e.clear
    have htoken : (e.token c).toList = Base64.encode ([1] ++ e.iv ++
        (c.encrypt e.key e.iv e.aad e.clear).2 ++ (c.encrypt e.key e.iv e.aad e.clear).1) := by
      rw [Sealed.token, String.toList_ofList]
    obtain ⟨hslice, hslicetag, hdrop⟩ :=
      @split_bytes _ _ (c.encrypt e.key e.iv e.aad e.clear).1 hframed.iv htag
    refine ⟨b, hb, current, hnow, (), ⟨hlength, ?_⟩, (), ?_, e.clear, ⟨e, hmem, hkey, ?_, haad, ?_,
      rfl⟩, v, hv, hcheck⟩
    · rw [htoken, List.all_eq_true]
      exact Base64.encode_url _
    · rw [htoken, Base64.decode_encode]
      refine ⟨?_, rfl, rfl⟩
      simp only [List.length_append, c.length_encrypted, c.length_tag, hframed.iv, hframed.clear]
      rfl
    · rw [htoken, Base64.decode_encode, hslice]
    · rw [htoken, Base64.decode_encode, hslice, hslicetag, hdrop, ← hkey, ← haad]

/-- What `decode` makes of a document that `encode` wrote. -/
theorem checkDocument_document {b expected : CursorBinding} {p q : CursorPosition}
    {issued expires current : Int} (hb : b.Valid) (hexpected : expected.Valid) (hp : p.Valid)
    (hissued : 0 ≤ issued ∧ SafeInteger issued) (hexpires : SafeInteger expires)
    (hlater : issued < expires) (hmost : expires - issued ≤ maxTtlMs) :
    checkDocument (document b p issued expires) expected current = .ok q ↔
      b = expected ∧ p = q ∧ issued ≤ current ∧ current < expires := by
  have hexact : exact (document b p issued expires) documentKeys =
      .ok [("version", .num 1), ("binding", b.toJson), ("position", p.toJson),
        ("issued", .num issued), ("expires", .num expires)] :=
    exact_ok.mpr ⟨rfl, rfl, fun key hkey => hkey⟩
  simp only [checkDocument, hexact, ok_bind]
  show (do
    let scope ← binding b.toJson
    let progress ← position p.toJson
    ensure (some (Json.num 1) = some (.num 1)) .invalidCursor
    ensure (SafeInteger issued ∧ SafeInteger expires ∧ 0 ≤ issued ∧ issued < expires ∧
      expires - issued ≤ maxTtlMs ∧ issued ≤ current ∧ current < expires) .invalidCursor
    ensure (scope.toJson.stringify = expected.toJson.stringify) .invalidCursor
    return progress : Except CursorError CursorPosition) = .ok q ↔ _
  simp only [binding_toJson hb, position_toJson hp, ok_bind, bind_ok, ensure_ok, pure_ok]
  constructor
  · rintro ⟨_, -, _, ⟨-, -, -, -, -, hstart, hend⟩, _, hsame, rfl⟩
    exact ⟨toJson_inj hb hexpected hsame, rfl, hstart, hend⟩
  · rintro ⟨rfl, rfl, hstart, hend⟩
    exact ⟨(), trivial, (), ⟨hissued.2, hexpires, hissued.1, hlater, hmost, hstart, hend⟩, (), rfl,
      rfl⟩

/-! ## The log of a run -/

theorem new_ok {c : Ciphers} {key : Bytes} {audience : String} {codec : CursorCodec} :
    CursorCodec.new c key audience = .ok codec ↔
      (key.length = 32 ∧ isAudience audience.toList = true) ∧
        { key := c.hmac key ("rogichat:cursor:key:v1:" ++ audience)
          aad := Bytes.utf8 ("rogichat:cursor:v1:" ++ audience) } = codec := by
  simp only [CursorCodec.new, bind_ok, ensure_ok, pure_ok]
  constructor
  · rintro ⟨_, hchecks, heq⟩
    exact ⟨hchecks, heq⟩
  · rintro ⟨hchecks, heq⟩
    exact ⟨(), hchecks, heq⟩

/-- A codec tells its key and its audience. -/
theorem new_inj {c : Ciphers} {key key' : Bytes} {audience audience' : String}
    {codec codec' : CursorCodec} (h : CursorCodec.new c key audience = .ok codec)
    (h' : CursorCodec.new c key' audience' = .ok codec') (hkey : codec.key = codec'.key)
    (haad : codec.aad = codec'.aad) : key = key' ∧ audience = audience' := by
  obtain ⟨⟨hlength, -⟩, rfl⟩ := new_ok.mp h
  obtain ⟨⟨hlength', -⟩, rfl⟩ := new_ok.mp h'
  have htext := congrArg Bytes.ofUtf8 haad
  rw [Bytes.ofUtf8_utf8, Bytes.ofUtf8_utf8] at htext
  have haudience : audience = audience' := by
    refine String.toList_injective ?_
    have hlist := congrArg String.toList htext
    rw [String.toList_append, String.toList_append] at hlist
    exact List.append_cancel_left hlist
  subst haudience
  exact ⟨c.hmac_inj hlength hlength' hkey, rfl⟩

/-- What a call of `encode` seals, if it does. -/
def Issue.Seals (i : Issue) (c : Ciphers) (token : String) (e : Sealed) : Prop :=
  i.iv.length = 12 ∧ i.run c = .ok (token, e)

/-- The log is what the calls of the run sealed. -/
theorem log_iff {c : Ciphers} {issues : List Issue} {log : List Sealed}
    (h : (issuing c).Run [] issues log) (e : Sealed) :
    e ∈ log ↔ ∃ i ∈ issues, ∃ token, i.Seals c token e := by
  refine h.snoc_induct (P := fun issues log =>
    e ∈ log ↔ ∃ i ∈ issues, ∃ token, i.Seals c token e) ?_ ?_
  · refine iff_of_false List.not_mem_nil ?_
    rintro ⟨i, hi, -⟩
    exact List.not_mem_nil hi
  · rintro issues i log log' - ih ⟨hiv, token, made, hrun, rfl⟩
    rw [List.mem_cons, ih]
    constructor
    · rintro (rfl | ⟨j, hj, hseals⟩)
      · exact ⟨i, List.mem_append_right _ (List.mem_singleton.mpr rfl), token, hiv, hrun⟩
      · exact ⟨j, List.mem_append_left _ hj, hseals⟩
    · rintro ⟨j, hj, token', hseals⟩
      rcases List.mem_append.mp hj with hj | hj
      · exact .inr ⟨j, hj, token', hseals⟩
      · obtain rfl := List.mem_singleton.mp hj
        obtain ⟨-, rfl⟩ := Prod.mk.inj (Except.ok.inj (hseals.2.symm.trans hrun))
        exact .inl rfl

/-- What a call of `encode` seals, taken apart. -/
theorem Issue.Seals.spec {i : Issue} {c : Ciphers} {token : String} {e : Sealed}
    (h : i.Seals c token e) :
    ∃ codec b p issued, CursorCodec.new c i.key i.audience = .ok codec ∧
      binding i.scope = .ok b ∧ position i.progress = .ok p ∧
      clock i.options.now = .ok issued ∧ (1 ≤ i.options.ttl ∧ i.options.ttl ≤ maxTtlMs / 1000) ∧
      SafeInteger (issued + i.options.ttl * 1000) ∧
      e = codec.seal_ i.iv b p issued (issued + i.options.ttl * 1000) ∧ token = e.token c := by
  obtain ⟨-, hrun⟩ := h
  rw [Issue.run, bind_ok] at hrun
  obtain ⟨codec, hnew, hencode⟩ := hrun
  obtain ⟨b, p, issued, hb, hp, hissued, hleast, hmost, hexpires, he, htoken⟩ :=
    encode_iff.mp hencode
  exact ⟨codec, b, p, issued, hnew, hb, hp, hissued, ⟨hleast, hmost⟩, hexpires, he, htoken⟩

/-- What `decode` makes of what a call of `encode` sealed. -/
theorem check_seal {codec : CursorCodec} {iv : Bytes} {b expected : CursorBinding}
    {p q : CursorPosition} {issued ttl current : Int} (hb : b.Valid) (hexpected : expected.Valid)
    (hp : p.Valid) (hissued : 0 ≤ issued ∧ SafeInteger issued)
    (httl : 1 ≤ ttl ∧ ttl ≤ maxTtlMs / 1000) (hexpires : SafeInteger (issued + ttl * 1000)) :
    (∃ v, openBlock (codec.seal_ iv b p issued (issued + ttl * 1000)).clear = .ok v ∧
        checkDocument v expected current = .ok q) ↔
      b = expected ∧ p = q ∧ issued ≤ current ∧ current < issued + ttl * 1000 := by
  have hmost : ttl * 1000 ≤ maxTtlMs := by
    rw [maxTtlMs] at *
    omega
  have hsize := document_size hb hp hissued ⟨by omega, hexpires⟩
  have hopen := openBlock_block (document_distinct b p issued (issued + ttl * 1000)) hsize.1 hsize.2
  have hcheck := @checkDocument_document b expected p q issued (issued + ttl * 1000) current
    hb hexpected hp hissued hexpires (by omega) (by omega)
  rw [← hcheck]
  constructor
  · rintro ⟨v, hv, hdone⟩
    obtain rfl := Except.ok.inj (hopen.symm.trans hv)
    exact hdone
  · exact fun hdone => ⟨_, hopen, hdone⟩

theorem log_framed {c : Ciphers} {issues : List Issue} {log : List Sealed}
    (h : (issuing c).Run [] issues log) : ∀ e ∈ log, e.Framed := by
  intro e he
  obtain ⟨i, -, token, hseals⟩ := (log_iff h e).mp he
  obtain ⟨codec, b, p, issued, -, hb, hp, hissued, httl, hexpires, rfl, -⟩ := hseals.spec
  have hclock := (clock_ok.mp hissued).2
  exact framed_seal hseals.1 (binding_valid hb) (position_valid hp) ⟨hclock.2, hclock.1⟩
    ⟨by omega, hexpires⟩

/-- `encode` accepts every binding, position, time and lifetime that pass their checks, and
its tokens have one length. A token decodes for a binding and a time if and only if a call of
`encode` under the same key and audience made it for this binding and the time lies in its
lifetime, and then to the position of the call; everything else is a `CursorError`. -/
theorem cursor_codec (c : Ciphers) :
    (∀ (codec : CursorCodec) scope progress options iv b p issued, binding scope = .ok b →
      position progress = .ok p → clock options.now = .ok issued →
      1 ≤ options.ttl → options.ttl ≤ maxTtlMs / 1000 →
      SafeInteger (issued + options.ttl * 1000) → iv.length = 12 →
      ∃ token e, codec.encode c scope progress options iv = .ok (token, e) ∧
        token.toList.length = tokenLength) ∧
    ∀ issues log, (issuing c).Run [] issues log →
      ∀ key audience codec, CursorCodec.new c key audience = .ok codec →
      ∀ token expected now,
        (∀ q, codec.decode c log token expected now = .ok q ↔
          ∃ b current, binding expected = .ok b ∧ clock now = .ok current ∧
            ∃ i ∈ issues, i.key = key ∧ i.audience = audience ∧
              (∃ e, i.Seals c token e) ∧ binding i.scope = .ok b ∧
              position i.progress = .ok q ∧
              ∃ issued, clock i.options.now = .ok issued ∧ issued ≤ current ∧
                current < issued + i.options.ttl * 1000) ∧
        ((∀ q, codec.decode c log token expected now ≠ .ok q) →
          codec.decode c log token expected now = .error .invalidCursor) := by
  constructor
  · intro codec scope progress options iv b p issued hb hp hissued hleast hmost hexpires hiv
    have hclock := (clock_ok.mp hissued).2
    have hframed := @framed_seal codec _ _ _ _ _ hiv (binding_valid hb) (position_valid hp)
      ⟨hclock.2, hclock.1⟩ ⟨by omega, hexpires⟩
    exact ⟨_, _, encode_iff.mpr ⟨b, p, issued, hb, hp, hissued, hleast, hmost, hexpires, rfl, rfl⟩,
      length_token hframed⟩
  intro issues log hrun key audience codec hnew token expected now
  constructor
  · intro q
    -- a token decrypts only to what was sealed under this key and audience
    rw [decode_sealed (log_framed hrun)]
    constructor
    · rintro ⟨b, current, hb, hnow, e, he, hkey, haad, rfl, hread⟩
      obtain ⟨i, hi, made, hseals⟩ := (log_iff hrun e).mp he
      obtain ⟨codec', b', p, issued, hnew', hb', hp, hissued, httl, hexpires, rfl, rfl⟩ :=
        hseals.spec
      have hclock := (clock_ok.mp hissued).2
      have hfit := (check_seal (binding_valid hb') (binding_valid hb) (position_valid hp)
        ⟨hclock.2, hclock.1⟩ httl hexpires).mp hread
      obtain ⟨rfl, rfl, hstart, hend⟩ := hfit
      -- equal derived keys and data come from the same key and audience
      obtain ⟨rfl, rfl⟩ := new_inj hnew' hnew hkey haad
      exact ⟨b', current, hb, hnow, i, hi, rfl, rfl, ⟨_, hseals⟩, hb', hp, issued, hissued, hstart,
        hend⟩
    · rintro ⟨b, current, hb, hnow, i, hi, rfl, rfl, ⟨e, hseals⟩, hscope, hprogress, issued,
        hissued, hstart, hend⟩
      have he := (log_iff hrun e).mpr ⟨i, hi, token, hseals⟩
      obtain ⟨codec', b', p, issued', hnew', hb', hp, hissued', httl, hexpires, rfl, rfl⟩ :=
        hseals.spec
      obtain rfl := Except.ok.inj (hnew.symm.trans hnew')
      obtain rfl := Except.ok.inj (hscope.symm.trans hb')
      obtain rfl := Except.ok.inj (hprogress.symm.trans hp)
      obtain rfl := Except.ok.inj (hissued.symm.trans hissued')
      have hclock := (clock_ok.mp hissued).2
      have hread := (@check_seal codec i.iv _ _ _ _ _ _ _ (binding_valid hb)
        (binding_valid hb) (position_valid hp) ⟨hclock.2, hclock.1⟩ httl hexpires).mpr ⟨rfl, rfl, hstart, hend⟩
      exact ⟨b, current, hb, hnow, _, he, rfl, rfl, rfl, hread⟩
  · intro hnone
    cases hdecode : codec.decode c log token expected now with
    | error e =>
      cases e
      rfl
    | ok q => exact absurd hdecode (hnone q)

/-- A stand-in with the lengths of the real one: a key is its own digest, and the clear text
is its own cipher text. -/
def clearCiphers : Ciphers where
  hmac key _ := key
  encrypt _ _ _ clear := (clear, List.replicate 16 0)
  hmac_inj _ _ h := h
  length_encrypted _ _ _ _ := rfl
  length_tag _ _ _ _ := rfl
  encrypt_inj h := (Prod.mk.inj h).1

/-- The manifest of a user. -/
def manifestBinding : CursorBinding :=
  { purpose := .manifest
    userId := "00000000-0000-4000-8000-00000000000a"
    sessionId := "00000000-0000-4000-8000-00000000000b"
    deviceId := "00000000-0000-4000-8000-00000000000c"
    cacheId := "00000000-0000-4000-8000-00000000000d"
    roomId := none
    periodId := none
    acl := "AAAAAAAAAAAAAAAAAAAAAAAAAAAAAAAAAAAAAAAAAAA" }

/-- The position of a first page. -/
def firstPosition : CursorPosition := { from_ := "0", upper := none, lastId := none }

def manifestIssue : Issue :=
  { key := List.replicate 32 7
    audience := "rogichat"
    scope := manifestBinding.toJson
    progress := firstPosition.toJson
    options := { now := some 1000, ttlSeconds := some 60 }
    iv := List.replicate 12 9 }

/-- A token for one minute: it is one of the fixed length, decodes at its last millisecond
and not after it. -/
theorem cursor_codec_minute :
    ∃ token e log, (issuing clearCiphers).Run [] [manifestIssue] log ∧
      manifestIssue.Seals clearCiphers token e ∧ token.toList.length = tokenLength ∧
      ∃ codec, CursorCodec.new clearCiphers manifestIssue.key manifestIssue.audience = .ok codec ∧
        codec.decode clearCiphers log token manifestBinding.toJson (some 60999) =
          .ok firstPosition ∧
        codec.decode clearCiphers log token manifestBinding.toJson (some 61000) =
          .error .invalidCursor := by
  obtain ⟨hencode, hdecode⟩ := cursor_codec clearCiphers
  have hbinding : binding manifestIssue.scope = .ok manifestBinding :=
    binding_toJson { userId := by decide, sessionId := by decide, deviceId := by decide,
                     cacheId := by decide, roomId := by simp [manifestBinding],
                     periodId := by simp [manifestBinding], place := .inl ⟨rfl, rfl, rfl⟩,
                     acl := by decide }
  have hposition : position manifestIssue.progress = .ok firstPosition :=
    position_toJson ⟨by decide, by simp [firstPosition], by simp [firstPosition]⟩
  have hclock : clock manifestIssue.options.now = .ok 1000 := clock_ok.mpr ⟨rfl, by decide⟩
  obtain ⟨codec, hnew⟩ : ∃ codec,
      CursorCodec.new clearCiphers manifestIssue.key manifestIssue.audience = .ok codec :=
    ⟨_, new_ok.mpr ⟨⟨by decide, by decide⟩, rfl⟩⟩
  obtain ⟨token, e, hsealed, hlength⟩ := hencode codec _ _ manifestIssue.options
    manifestIssue.iv _ _ _ hbinding hposition hclock (by decide) (by decide) (by decide) (by decide)
  have hrun : manifestIssue.run clearCiphers = .ok (token, e) := bind_ok.mpr ⟨codec, hnew, hsealed⟩
  have hlog : (issuing clearCiphers).Run [] [manifestIssue] [e] :=
    .single ⟨by decide, token, e, hrun, rfl⟩
  have htoken := hdecode _ _ hlog _ _ codec hnew token manifestBinding.toJson
  refine ⟨token, e, [e], hlog, ⟨by decide, hrun⟩, hlength, codec, hnew, ?_, ?_⟩
  · exact ((htoken (some 60999)).1 _).mpr ⟨manifestBinding, 60999, hbinding,
      clock_ok.mpr ⟨rfl, by decide⟩, manifestIssue, List.mem_singleton.mpr rfl, rfl, rfl,
      ⟨e, by decide, hrun⟩, hbinding, hposition, 1000, hclock, by decide, by decide⟩
  · refine (htoken (some 61000)).2 fun q hq => ?_
    obtain ⟨b, current, -, hnow, i, hi, -, -, -, -, -, issued, hissued, -, hend⟩ :=
      ((htoken (some 61000)).1 q).mp hq
    obtain rfl := List.mem_singleton.mp hi
    obtain rfl := Option.some.inj (clock_ok.mp hnow).1
    obtain rfl := Except.ok.inj (hclock.symm.trans hissued)
    exact absurd hend (by decide)

end Rogichat.Sync
