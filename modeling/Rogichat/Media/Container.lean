import Mathlib
import Rogichat.Media.Policy

/-!
# Static image containers

`assertStaticContainer` of `media-image-decoder.ts`: the walk over the chunks of a PNG
or WebP file that keeps animated images out of the photo pipeline. A file is its bytes;
a read that runs past its end is told apart here from the other refusals, though the
source reports both as `INVALID_IMAGE`. The recursion is on the chunks the walk may
still count, so that it ends on every input.

* **`png_walk`**, **`webp_walk`** — from any offset on, the walk accepts exactly the
  chunk sequences that tile the rest of the file.
* **`walk_within`** — the walk never reads outside the file.
* **`assertStaticContainer_iff`** — the check of a file that has passed its signature.
-/

namespace Rogichat.Media

open Lib

attribute [local instance] Bytes.decidableMem

/-- Why a container is refused. -/
inductive ContainerError
  | invalidImage
  /-- `bytesAt` got fewer bytes than it asked for. -/
  | shortRead
  deriving DecidableEq, Repr

/-- `bytesAt`. -/
def bytesAt (file : Bytes) (position count : Nat) : Except ContainerError Bytes :=
  let bytes := (file.drop position).take count
  if bytes.length = count then .ok bytes else .error .shortRead

/-- The most chunks a walk counts. -/
def maxChunks : Nat := 100000

/-- The kinds that make an image an animation. -/
def animationKinds (png : Bool) : List Bytes :=
  if png then [Bytes.ascii "acTL", Bytes.ascii "fcTL", Bytes.ascii "fdAT"]
  else [Bytes.ascii "ANIM", Bytes.ascii "ANMF"]

/-- The length and the kind in a chunk's header. -/
def chunkHeader (png : Bool) (header : Bytes) : Nat × Bytes :=
  if png then (Bytes.readBE (header.take 4), header.drop 4)
  else (Bytes.readLE (header.drop 4), header.take 4)

/-- The flags of a `VP8X` chunk: long enough to have them, and not animated. -/
def checkExtended (file : Bytes) (offset length : Nat) : Except ContainerError Unit := do
  ensure (10 ≤ length) .invalidImage
  let flags ← bytesAt file (offset + 8) 1
  ensure (∀ b ∈ flags.head?, b &&& 2 = 0) .invalidImage

/-- The loop of `assertStaticContainer`; `left` is how many chunks it may still count. -/
def walk (file : Bytes) (png : Bool) (byteLength : Nat) :
    (left offset : Nat) → Except ContainerError Unit
  | 0, offset =>
    if offset < byteLength then .error .invalidImage
    else ensure (png = false ∧ offset = byteLength) .invalidImage
  | left + 1, offset =>
    if offset < byteLength then do
      ensure ((if png then 12 else 8) ≤ byteLength - offset) .invalidImage
      let header ← bytesAt file offset 8
      let (length, kind) := chunkHeader png header
      let stop := offset + 8 + length + (if png then 4 else length % 2)
      ensure (stop ≤ byteLength) .invalidImage
      ensure (kind ∉ animationKinds png) .invalidImage
      if png = false ∧ kind = Bytes.ascii "VP8X" then do
        checkExtended file offset length
        walk file png byteLength left stop
      else if png = true ∧ kind = Bytes.ascii "IEND" then
        ensure (length = 0 ∧ stop = byteLength) .invalidImage
      else walk file png byteLength left stop
    else ensure (png = false ∧ offset = byteLength) .invalidImage

/-- `assertStaticContainer`. -/
def assertStaticContainer (file : Bytes) (intent : MediaIntent) : Except ContainerError Unit :=
  match intent.contentType with
  | .png => walk file true intent.byteLength maxChunks 8
  | .webp => walk file false intent.byteLength maxChunks 12
  | _ => .ok ()

/-! ## Chunks -/

/-- A PNG chunk: a length, a kind, as many bytes as the length says, and a checksum. -/
structure PngChunk where
  kind : Bytes
  data : Bytes
  checksum : Bytes
  kind_length : kind.length = 4
  data_length : data.length < 256 ^ 4
  checksum_length : checksum.length = 4

def PngChunk.encode (c : PngChunk) : Bytes :=
  Bytes.bytesBE 4 c.data.length ++ (c.kind ++ (c.data ++ c.checksum))

/-- A WebP chunk: a kind, a length, as many bytes as the length says, and a byte that
makes their number even. -/
structure WebpChunk where
  kind : Bytes
  data : Bytes
  padding : Bytes
  kind_length : kind.length = 4
  data_length : data.length < 256 ^ 4
  padding_length : padding.length = data.length % 2

def WebpChunk.encode (c : WebpChunk) : Bytes :=
  c.kind ++ (Bytes.bytesLE 4 c.data.length ++ (c.data ++ c.padding))

/-- The chunks of a PNG with a single image: an empty `IEND` at the end and nowhere
else, and no chunk of an animation. -/
def StaticPng (chunks : List PngChunk) : Prop :=
  ∃ body last, chunks = body ++ [last] ∧ last.kind = Bytes.ascii "IEND" ∧ last.data = [] ∧
    ∀ c ∈ body, c.kind ≠ Bytes.ascii "IEND" ∧ c.kind ∉ animationKinds true

/-- The flags of an extended header, if the chunk is one, say that nothing moves. -/
def WebpChunk.Still (c : WebpChunk) : Prop :=
  c.kind = Bytes.ascii "VP8X" → 10 ≤ c.data.length ∧ ∀ b ∈ c.data.head?, b &&& 2 = 0

instance (c : WebpChunk) : Decidable c.Still :=
  inferInstanceAs (Decidable (_ → _))

/-- The chunks of a WebP with a single image. -/
def StaticWebp (chunks : List WebpChunk) : Prop :=
  ∀ c ∈ chunks, c.kind ∉ animationKinds false ∧ c.Still

/-! ### Chunks in a file -/

theorem PngChunk.length_encode (c : PngChunk) : c.encode.length = 12 + c.data.length := by
  simp only [encode, List.length_append, Bytes.length_bytesBE, c.kind_length, c.checksum_length]
  omega

theorem WebpChunk.length_encode (c : WebpChunk) :
    c.encode.length = 8 + c.data.length + c.data.length % 2 := by
  simp only [encode, List.length_append, Bytes.length_bytesLE, c.kind_length, c.padding_length]
  omega

/-- The fields of the chunk at the front of a byte string. -/
theorem PngChunk.fields (c : PngChunk) {bs rest : Bytes} (h : bs = c.encode ++ rest) :
    Bytes.readBE (bs.take 4) = c.data.length ∧ (bs.drop 4).take 4 = c.kind ∧
      (bs.drop 8).take c.data.length = c.data ∧
      (bs.drop (8 + c.data.length)).take 4 = c.checksum ∧
      bs.drop (12 + c.data.length) = rest := by
  have hbs : bs = Bytes.bytesBE 4 c.data.length ++ (c.kind ++ (c.data ++ (c.checksum ++ rest))) := by
    simp only [h, encode, List.append_assoc]
  have h4 : bs.drop 4 = c.kind ++ (c.data ++ (c.checksum ++ rest)) := by
    rw [hbs, List.drop_left' (Bytes.length_bytesBE 4 _)]
  have h8 : bs.drop 8 = c.data ++ (c.checksum ++ rest) := by
    rw [show 8 = 4 + 4 from rfl, ← List.drop_drop, h4, List.drop_left' c.kind_length]
  have hdata : bs.drop (8 + c.data.length) = c.checksum ++ rest := by
    rw [← List.drop_drop, h8, List.drop_left' rfl]
  refine ⟨?_, ?_, ?_, ?_, ?_⟩
  · rw [hbs, List.take_left' (Bytes.length_bytesBE 4 _), Bytes.readBE_bytesBE c.data_length]
  · rw [h4, List.take_left' c.kind_length]
  · rw [h8, List.take_left' rfl]
  · rw [hdata, List.take_left' c.checksum_length]
  · rw [show 12 + c.data.length = 8 + c.data.length + 4 by omega, ← List.drop_drop, hdata,
      List.drop_left' c.checksum_length]

/-- The fields of the chunk at the front of a byte string. -/
theorem WebpChunk.fields (c : WebpChunk) {bs rest : Bytes} (h : bs = c.encode ++ rest) :
    bs.take 4 = c.kind ∧ Bytes.readLE ((bs.drop 4).take 4) = c.data.length ∧
      (bs.drop 8).take c.data.length = c.data ∧
      (bs.drop (8 + c.data.length)).take (c.data.length % 2) = c.padding ∧
      bs.drop (8 + c.data.length + c.data.length % 2) = rest := by
  have hbs : bs = c.kind ++ (Bytes.bytesLE 4 c.data.length ++ (c.data ++ (c.padding ++ rest))) := by
    simp only [h, encode, List.append_assoc]
  have h4 : bs.drop 4 = Bytes.bytesLE 4 c.data.length ++ (c.data ++ (c.padding ++ rest)) := by
    rw [hbs, List.drop_left' c.kind_length]
  have h8 : bs.drop 8 = c.data ++ (c.padding ++ rest) := by
    rw [show 8 = 4 + 4 from rfl, ← List.drop_drop, h4, List.drop_left' (Bytes.length_bytesLE 4 _)]
  have hdata : bs.drop (8 + c.data.length) = c.padding ++ rest := by
    rw [← List.drop_drop, h8, List.drop_left' rfl]
  refine ⟨?_, ?_, ?_, ?_, ?_⟩
  · rw [hbs, List.take_left' c.kind_length]
  · rw [h4, List.take_left' (Bytes.length_bytesLE 4 _), Bytes.readLE_bytesLE c.data_length]
  · rw [h8, List.take_left' rfl]
  · rw [hdata, List.take_left' c.padding_length]
  · rw [← List.drop_drop, hdata, List.drop_left' c.padding_length]

/-- A byte string long enough for what its first length says opens with a chunk. -/
theorem PngChunk.exists_of_fits (bs : Bytes) (h : 12 + Bytes.readBE (bs.take 4) ≤ bs.length) :
    ∃ (c : PngChunk) (rest : Bytes), bs = c.encode ++ rest := by
  have hlength : (bs.take 4).length = 4 := by
    rw [List.length_take]
    omega
  obtain ⟨hlt, htext⟩ := Bytes.bytesBE_readBE (bs.take 4)
  rw [hlength] at hlt htext
  generalize Bytes.readBE (bs.take 4) = n at h hlt htext
  have hkind : ((bs.drop 4).take 4).length = 4 := Bytes.length_field (by omega)
  have hdata : ((bs.drop 8).take n).length = n := Bytes.length_field (by omega)
  have hchecksum : ((bs.drop (8 + n)).take 4).length = 4 := Bytes.length_field (by omega)
  refine ⟨⟨_, _, _, hkind, hdata.symm ▸ hlt, hchecksum⟩, bs.drop (8 + n + 4), ?_⟩
  have hheader : (bs.drop 4).take 4 ++ bs.drop 8 = bs.drop 4 := Bytes.field_append bs 4 4
  simp only [encode, hdata, htext, List.append_assoc, Bytes.field_append, hheader,
    List.take_append_drop]

/-- A byte string long enough for what its first length says opens with a chunk. -/
theorem WebpChunk.exists_of_fits (bs : Bytes) {n : Nat}
    (hn : n = Bytes.readLE ((bs.drop 4).take 4)) (h : 8 + n + n % 2 ≤ bs.length) :
    ∃ (c : WebpChunk) (rest : Bytes), bs = c.encode ++ rest := by
  have hlength : ((bs.drop 4).take 4).length = 4 := Bytes.length_field (by omega)
  obtain ⟨hlt, htext⟩ := Bytes.bytesLE_readLE ((bs.drop 4).take 4)
  rw [hlength, ← hn] at hlt htext
  have hkind : (bs.take 4).length = 4 := by
    rw [List.length_take]
    omega
  have hdata : ((bs.drop 8).take n).length = n := Bytes.length_field (by omega)
  have hpadding : ((bs.drop (8 + n)).take (n % 2)).length = n % 2 := Bytes.length_field (by omega)
  refine ⟨⟨_, _, _, hkind, hdata.symm ▸ hlt, hdata.symm ▸ hpadding⟩,
    bs.drop (8 + n + n % 2), ?_⟩
  have hheader : (bs.drop 4).take 4 ++ bs.drop 8 = bs.drop 4 := Bytes.field_append bs 4 4
  simp only [encode, hdata, htext, List.append_assoc, Bytes.field_append, hheader,
    List.take_append_drop]

/-! ## One step of the walk -/

theorem bytesAt_ok {file : Bytes} {position count : Nat} (h : position + count ≤ file.length) :
    bytesAt file position count = .ok ((file.drop position).take count) := by
  have hlength : ((file.drop position).take count).length = count := Bytes.length_field h
  simp only [bytesAt, hlength, if_true]

/-- The header of what stands at an offset. -/
theorem header_png (bs : Bytes) :
    chunkHeader true (bs.take 8) = (Bytes.readBE (bs.take 4), (bs.drop 4).take 4) := by
  simp only [chunkHeader, if_true, List.take_take, List.drop_take]
  rfl

theorem header_webp (bs : Bytes) :
    chunkHeader false (bs.take 8) = (Bytes.readLE ((bs.drop 4).take 4), bs.take 4) := by
  simp only [chunkHeader, List.take_take, List.drop_take]
  rfl

/-- The walk past a chunk of a PNG. -/
theorem walk_png_chunk {file rest : Bytes} {left offset : Nat} (c : PngChunk)
    (h : file.drop offset = c.encode ++ rest) :
    walk file true file.length (left + 1) offset =
      if c.kind ∈ animationKinds true then .error .invalidImage
      else if c.kind = Bytes.ascii "IEND" then ensure (c.data = [] ∧ rest = []) .invalidImage
      else walk file true file.length left (offset + c.encode.length) := by
  have hsize := congrArg List.length h
  have hchunk := c.length_encode
  rw [List.length_drop, List.length_append, hchunk] at hsize
  obtain ⟨hlength, hkind, -, -, -⟩ := c.fields h
  have hstop : offset + 8 + c.data.length + 4 = offset + c.encode.length := by omega
  rw [walk, if_pos (by omega), ensure_pos (by simp only [if_true]; omega), ok_bind,
    bytesAt_ok (by omega), ok_bind, header_png, hlength, hkind]
  simp only [if_true, Bool.true_eq_false, false_and, if_false, true_and, hstop]
  rw [ensure_pos (by omega), ok_bind]
  by_cases hanimated : c.kind ∈ animationKinds true
  · rw [ensure_neg (not_not.mpr hanimated), if_pos hanimated]
    rfl
  · rw [ensure_pos hanimated, ok_bind, if_neg hanimated]
    -- the last byte of the chunk is the last of the file exactly when nothing follows
    have hend : (c.data.length = 0 ∧ offset + c.encode.length = file.length) ↔
        (c.data = [] ∧ rest = []) := by
      refine and_congr List.length_eq_zero_iff ?_
      rw [← List.length_eq_zero_iff]
      omega
    simp only [hend]

/-- The flags of an extended header are the first byte of its data. -/
theorem checkExtended_chunk {file : Bytes} {offset : Nat} {data : Bytes}
    (hsize : offset + 8 + data.length ≤ file.length)
    (hdata : (file.drop (offset + 8)).take data.length = data) :
    checkExtended file offset data.length =
      if 10 ≤ data.length ∧ ∀ b ∈ data.head?, b &&& 2 = 0 then .ok () else .error .invalidImage := by
  unfold checkExtended
  by_cases hlong : 10 ≤ data.length
  · have hflags : ((file.drop (offset + 8)).take 1).head? = data.head? := by
      rw [← hdata, List.head?_take, List.head?_take, if_neg (by decide), if_neg (by omega)]
    rw [ensure_pos hlong, ok_bind, bytesAt_ok (by omega), ok_bind, hflags]
    simp only [ensure, hlong, true_and]
  · rw [ensure_neg hlong, if_neg (fun h => hlong h.1)]
    rfl

/-- The walk past a chunk of a WebP. -/
theorem walk_webp_chunk {file rest : Bytes} {left offset : Nat} (c : WebpChunk)
    (h : file.drop offset = c.encode ++ rest) :
    walk file false file.length (left + 1) offset =
      if c.kind ∈ animationKinds false ∨ ¬c.Still then .error .invalidImage
      else walk file false file.length left (offset + c.encode.length) := by
  have hsize := congrArg List.length h
  have hchunk := c.length_encode
  rw [List.length_drop, List.length_append, hchunk] at hsize
  obtain ⟨hkind, hlength, hdata, -, -⟩ := c.fields h
  have hstop : offset + 8 + c.data.length + c.data.length % 2 = offset + c.encode.length := by omega
  rw [walk, if_pos (by omega), ensure_pos (by simp only [Bool.false_eq_true, if_false]; omega),
    ok_bind, bytesAt_ok (by omega), ok_bind, header_webp, hlength, hkind]
  simp only [Bool.false_eq_true, if_false, true_and, false_and, hstop]
  rw [ensure_pos (by omega), ok_bind]
  by_cases hanimated : c.kind ∈ animationKinds false
  · have hrefused : c.kind ∈ animationKinds false ∨ ¬c.Still := .inl hanimated
    rw [ensure_neg (not_not.mpr hanimated), if_pos hrefused]
    rfl
  rw [ensure_pos hanimated, ok_bind]
  by_cases hextended : c.kind = Bytes.ascii "VP8X"
  · rw [if_pos hextended]
    have hfield : (file.drop (offset + 8)).take c.data.length = c.data := by
      rw [← List.drop_drop, hdata]
    rw [checkExtended_chunk (by omega) hfield]
    by_cases hstill : c.Still
    · rw [if_pos (hstill hextended), ok_bind, if_neg (not_or.mpr ⟨hanimated, not_not.mpr hstill⟩)]
    · have hrefused : c.kind ∈ animationKinds false ∨ ¬c.Still := .inr hstill
      rw [if_neg (fun h => hstill fun _ => h), if_pos hrefused]
      rfl
  · have hstill : c.Still := fun h => absurd h hextended
    rw [if_neg hextended, if_neg (not_or.mpr ⟨hanimated, not_not.mpr hstill⟩)]

/-- The walk stops where no chunk fits. -/
theorem walk_png_ragged {file : Bytes} {left offset : Nat} (hoffset : offset < file.length)
    (h : ∀ (c : PngChunk) rest, file.drop offset ≠ c.encode ++ rest) :
    walk file true file.length (left + 1) offset = .error .invalidImage := by
  rw [walk, if_pos hoffset]
  by_cases hheader : 12 ≤ file.length - offset
  · rw [ensure_pos (by simpa using hheader), ok_bind, bytesAt_ok (by omega), ok_bind, header_png]
    have hshort : ¬offset + 8 + Bytes.readBE ((file.drop offset).take 4) + 4 ≤ file.length := by
      intro hfits
      obtain ⟨c, rest, hc⟩ := PngChunk.exists_of_fits (file.drop offset) (by
        rw [List.length_drop]
        omega)
      exact h c rest hc
    simp only [if_true]
    rw [ensure_neg hshort]
    rfl
  · rw [ensure_neg (by simpa using hheader)]
    rfl

/-- The walk stops where no chunk fits. -/
theorem walk_webp_ragged {file : Bytes} {left offset : Nat} (hoffset : offset < file.length)
    (h : ∀ (c : WebpChunk) rest, file.drop offset ≠ c.encode ++ rest) :
    walk file false file.length (left + 1) offset = .error .invalidImage := by
  rw [walk, if_pos hoffset]
  by_cases hheader : 8 ≤ file.length - offset
  · rw [ensure_pos (by simpa using hheader), ok_bind, bytesAt_ok (by omega), ok_bind, header_webp]
    have hshort : ¬offset + 8 + Bytes.readLE (((file.drop offset).drop 4).take 4) +
        Bytes.readLE (((file.drop offset).drop 4).take 4) % 2 ≤ file.length := by
      intro hfits
      obtain ⟨c, rest, hc⟩ := WebpChunk.exists_of_fits (file.drop offset) rfl (by
        rw [List.length_drop]
        omega)
      exact h c rest hc
    simp only [Bool.false_eq_true, if_false]
    rw [ensure_neg hshort]
    rfl
  · rw [ensure_neg (by simpa using hheader)]
    rfl

/-- At the end of the file a WebP is accepted and a PNG, without its `IEND`, is not. -/
theorem walk_end {file : Bytes} {png : Bool} {byteLength left offset : Nat}
    (h : ¬offset < byteLength) :
    walk file png byteLength left offset =
      ensure (png = false ∧ offset = byteLength) .invalidImage := by
  cases left with
  | zero => rw [walk, if_neg h]
  | succ left => rw [walk, if_neg h]

/-! ## What the walk accepts -/

theorem staticPng_cons {c : PngChunk} {cs : List PngChunk} :
    StaticPng (c :: cs) ↔ (c.kind = Bytes.ascii "IEND" ∧ c.data = [] ∧ cs = []) ∨
      (c.kind ≠ Bytes.ascii "IEND" ∧ c.kind ∉ animationKinds true ∧ StaticPng cs) := by
  constructor
  · rintro ⟨body, last, hsplit, hkind, hdata, hbody⟩
    cases body with
    | nil =>
      obtain ⟨rfl, rfl⟩ := List.cons.inj hsplit
      exact .inl ⟨hkind, hdata, rfl⟩
    | cons d body =>
      obtain ⟨rfl, rfl⟩ := List.cons.inj hsplit
      obtain ⟨hfirst, hrest⟩ := List.forall_mem_cons.mp hbody
      exact .inr ⟨hfirst.1, hfirst.2, body, last, rfl, hkind, hdata, hrest⟩
  · rintro (⟨hkind, hdata, rfl⟩ | ⟨hkind, hanimated, body, last, rfl, hlast, hdata, hbody⟩)
    · exact ⟨[], c, rfl, hkind, hdata, fun d hd => absurd hd List.not_mem_nil⟩
    · exact ⟨c :: body, last, rfl, hlast, hdata, List.forall_mem_cons.mpr ⟨⟨hkind, hanimated⟩, hbody⟩⟩

theorem not_staticPng_nil : ¬StaticPng [] := by
  rintro ⟨body, last, h, -⟩
  exact List.append_ne_nil_of_right_ne_nil body (List.cons_ne_nil last []) h.symm

theorem PngChunk.encode_ne_nil (c : PngChunk) : c.encode ≠ [] := by
  intro h
  have hlength := c.length_encode
  rw [h, List.length_nil] at hlength
  omega

theorem WebpChunk.encode_ne_nil (c : WebpChunk) : c.encode ≠ [] := by
  intro h
  have hlength := c.length_encode
  rw [h, List.length_nil] at hlength
  omega

/-- What stands behind the chunk at an offset. -/
theorem drop_chunk {file chunk rest : Bytes} {offset : Nat} (h : file.drop offset = chunk ++ rest) :
    file.drop (offset + chunk.length) = rest := by
  rw [← List.drop_drop, h, List.drop_left' rfl]

/-- From any offset on, the PNG walk accepts exactly the static chunk sequences, no
longer than the chunks it may still count, that tile the rest of the file. -/
theorem png_walk {file : Bytes} (left offset : Nat) :
    walk file true file.length left offset = .ok () ↔
      ∃ chunks : List PngChunk, chunks.length ≤ left ∧
        file.drop offset = chunks.flatMap PngChunk.encode ∧ StaticPng chunks := by
  induction left generalizing offset with
  | zero =>
    constructor
    · intro h
      rw [walk] at h
      split at h
      · cases h
      · cases (ensure_ok.mp h).1
    · rintro ⟨chunks, hlength, -, hstatic⟩
      obtain rfl := List.eq_nil_of_length_eq_zero (Nat.le_zero.mp hlength)
      exact absurd hstatic not_staticPng_nil
  | succ left ih =>
    -- at the end of the file no IEND was seen, and no list of chunks is left to be one
    by_cases hoffset : offset < file.length
    · constructor
      · intro h
        -- the walk goes over whole chunks, and stops at anything else
        by_cases hchunk : ∃ (c : PngChunk) (rest : Bytes), file.drop offset = c.encode ++ rest
        · obtain ⟨c, rest, hc⟩ := hchunk
          rw [walk_png_chunk c hc] at h
          split at h
          · cases h
          · rename_i hanimated
            split at h
            · rename_i hend
              obtain ⟨hdata, rfl⟩ := ensure_ok.mp h
              refine ⟨[c], by simp, by simpa using hc, staticPng_cons.mpr (.inl ⟨hend, hdata, rfl⟩)⟩
            · rename_i hend
              obtain ⟨chunks, hlength, htile, hstatic⟩ := (ih _).mp h
              rw [drop_chunk hc] at htile
              refine ⟨c :: chunks, Nat.succ_le_succ hlength, ?_,
                staticPng_cons.mpr (.inr ⟨hend, hanimated, hstatic⟩)⟩
              rw [hc, htile, List.flatMap_cons]
        · rw [walk_png_ragged hoffset fun c rest hc => hchunk ⟨c, rest, hc⟩] at h
          cases h
      · rintro ⟨chunks, hlength, htile, hstatic⟩
        cases chunks with
        | nil => exact absurd hstatic not_staticPng_nil
        | cons c chunks =>
          rw [List.flatMap_cons] at htile
          rw [walk_png_chunk c htile]
          rcases staticPng_cons.mp hstatic with ⟨hend, hdata, rfl⟩ | ⟨hend, hanimated, hstatic⟩
          · rw [if_neg (by rw [hend]; decide), if_pos hend]
            exact ensure_pos ⟨hdata, rfl⟩ _
          · rw [if_neg hanimated, if_neg hend]
            exact (ih _).mpr ⟨chunks, Nat.le_of_succ_le_succ hlength, drop_chunk htile, hstatic⟩
    · rw [walk_end hoffset, ensure_neg (fun h => absurd h.1 (by decide))]
      constructor
      · intro h
        cases h
      · rintro ⟨chunks, -, htile, hstatic⟩
        rw [List.drop_eq_nil_of_le (by omega)] at htile
        cases chunks with
        | nil => exact absurd hstatic not_staticPng_nil
        | cons c chunks =>
          exact absurd htile.symm (List.append_ne_nil_of_left_ne_nil c.encode_ne_nil _)

/-- The chunk at an offset ends in the file. -/
theorem stop_le {file chunk rest : Bytes} {offset : Nat} (hoffset : offset < file.length)
    (h : file.drop offset = chunk ++ rest) : offset + chunk.length ≤ file.length := by
  have hsize := congrArg List.length h
  rw [List.length_drop, List.length_append] at hsize
  omega

/-- At the end of its file a WebP has no chunk left. -/
theorem webp_walk_end {file : Bytes} {left offset : Nat} (hfile : offset ≤ file.length)
    (hoffset : ¬offset < file.length) :
    walk file false file.length left offset = .ok () ↔
      ∃ chunks : List WebpChunk, chunks.length ≤ left ∧
        file.drop offset = chunks.flatMap WebpChunk.encode ∧ StaticWebp chunks := by
  rw [walk_end hoffset, ensure_pos ⟨rfl, by omega⟩]
  refine ⟨fun _ => ⟨[], Nat.zero_le _, ?_, fun c hc => absurd hc List.not_mem_nil⟩, fun _ => rfl⟩
  rw [List.drop_eq_nil_of_le (by omega), List.flatMap_nil]

/-- From any offset in the file on, the WebP walk accepts exactly the static chunk
sequences, no longer than the chunks it may still count, that tile the rest of the file. -/
theorem webp_walk {file : Bytes} (left offset : Nat) (hfile : offset ≤ file.length) :
    walk file false file.length left offset = .ok () ↔
      ∃ chunks : List WebpChunk, chunks.length ≤ left ∧
        file.drop offset = chunks.flatMap WebpChunk.encode ∧ StaticWebp chunks := by
  induction left generalizing offset with
  | zero =>
    by_cases hoffset : offset < file.length
    · rw [walk, if_pos hoffset]
      constructor
      · intro h
        cases h
      · rintro ⟨chunks, hlength, htile, -⟩
        obtain rfl := List.eq_nil_of_length_eq_zero (Nat.le_zero.mp hlength)
        rw [List.flatMap_nil, List.drop_eq_nil_iff] at htile
        omega
    · exact webp_walk_end hfile hoffset
  | succ left ih =>
    by_cases hoffset : offset < file.length
    · constructor
      · intro h
        by_cases hchunk : ∃ (c : WebpChunk) (rest : Bytes), file.drop offset = c.encode ++ rest
        · obtain ⟨c, rest, hc⟩ := hchunk
          rw [walk_webp_chunk c hc] at h
          split at h
          · cases h
          · rename_i haccepted
            obtain ⟨hanimated, hstill⟩ := not_or.mp haccepted
            obtain ⟨chunks, hlength, htile, hstatic⟩ := (ih _ (stop_le hoffset hc)).mp h
            rw [drop_chunk hc] at htile
            refine ⟨c :: chunks, Nat.succ_le_succ hlength, ?_,
              List.forall_mem_cons.mpr ⟨⟨hanimated, not_not.mp hstill⟩, hstatic⟩⟩
            rw [hc, htile, List.flatMap_cons]
        · rw [walk_webp_ragged hoffset fun c rest hc => hchunk ⟨c, rest, hc⟩] at h
          cases h
      · rintro ⟨chunks, hlength, htile, hstatic⟩
        cases chunks with
        | nil =>
          rw [List.flatMap_nil, List.drop_eq_nil_iff] at htile
          omega
        | cons c chunks =>
          rw [List.flatMap_cons] at htile
          obtain ⟨⟨hanimated, hstill⟩, hstatic⟩ := List.forall_mem_cons.mp hstatic
          rw [walk_webp_chunk c htile, if_neg (not_or.mpr ⟨hanimated, not_not.mpr hstill⟩)]
          exact (ih _ (stop_le hoffset htile)).mpr
            ⟨chunks, Nat.le_of_succ_le_succ hlength, drop_chunk htile, hstatic⟩
    · exact webp_walk_end hfile hoffset

/-! ## Reads -/

/-- The walk never reads outside the file. -/
theorem walk_within {file : Bytes} {png : Bool} (left offset : Nat) :
    walk file png file.length left offset ≠ .error .shortRead := by
  induction left generalizing offset with
  | zero =>
    rw [walk]
    split
    · intro h
      cases h
    · intro h
      cases (ensure_error.mp h).2
  | succ left ih =>
    by_cases hoffset : offset < file.length
    · cases png with
      | true =>
        by_cases hchunk : ∃ (c : PngChunk) (rest : Bytes), file.drop offset = c.encode ++ rest
        · obtain ⟨c, rest, hc⟩ := hchunk
          rw [walk_png_chunk c hc]
          split
          · intro h
            cases h
          · split
            · intro h
              cases (ensure_error.mp h).2
            · exact ih _
        · rw [walk_png_ragged hoffset fun c rest hc => hchunk ⟨c, rest, hc⟩]
          intro h
          cases h
      | false =>
        by_cases hchunk : ∃ (c : WebpChunk) (rest : Bytes), file.drop offset = c.encode ++ rest
        · obtain ⟨c, rest, hc⟩ := hchunk
          rw [walk_webp_chunk c hc]
          split
          · intro h
            cases h
          · exact ih _
        · rw [walk_webp_ragged hoffset fun c rest hc => hchunk ⟨c, rest, hc⟩]
          intro h
          cases h
    · rw [walk_end hoffset]
      intro h
      cases (ensure_error.mp h).2

/-! ## The check -/

/-- **Static containers.** For a file of the declared length that has passed its
signature, the check accepts a PNG exactly when the bytes behind its signature are at
most 100000 chunks, an empty `IEND` at the end and nowhere else and none of an
animation, and a WebP exactly when the bytes behind its RIFF header are at most 100000
chunks that hold no animation and whose extended headers announce none. It never reads
outside the file. -/
theorem assertStaticContainer_iff {file : Bytes} {intent : MediaIntent}
    (hlength : file.length = intent.byteLength)
    (hsignature : assertMediaSignature intent (file.take signaturePrefixBytes) = .ok ()) :
    (intent.contentType = .png → (assertStaticContainer file intent = .ok () ↔
      ∃ chunks : List PngChunk, chunks.length ≤ 100000 ∧
        file.drop 8 = chunks.flatMap PngChunk.encode ∧ StaticPng chunks)) ∧
    (intent.contentType = .webp → (assertStaticContainer file intent = .ok () ↔
      ∃ chunks : List WebpChunk, chunks.length ≤ 100000 ∧
        file.drop 12 = chunks.flatMap WebpChunk.encode ∧ StaticWebp chunks)) ∧
    assertStaticContainer file intent ≠ .error .shortRead := by
  refine ⟨?_, ?_, ?_⟩
  · intro hpng
    rw [assertStaticContainer, hpng, ← hlength]
    exact png_walk maxChunks 8
  · intro hwebp
    -- the signature of a WebP takes twenty bytes, so the walk starts inside the file
    have hprefix := (signature_ok hsignature).2
    rw [matchesSignature, hwebp] at hprefix
    have hlong : 12 ≤ file.length := by
      have htwenty := hprefix.1
      rw [List.length_take] at htwenty
      omega
    rw [assertStaticContainer, hwebp, ← hlength]
    exact webp_walk maxChunks 12 hlong
  · rw [assertStaticContainer, ← hlength]
    split
    · exact walk_within maxChunks 8
    · exact walk_within maxChunks 12
    · intro h
      cases h

/-- The chunk a PNG of one pixel opens with. -/
def headerChunk : PngChunk :=
  ⟨Bytes.ascii "IHDR", [0, 0, 0, 1, 0, 0, 0, 1, 8, 2, 0, 0, 0], [0x90, 0x77, 0x53, 0xde], rfl,
    by decide, rfl⟩

/-- The chunk a PNG ends with. -/
def endChunk : PngChunk :=
  ⟨Bytes.ascii "IEND", [], [0xae, 0x42, 0x60, 0x82], rfl, by decide, rfl⟩

/-- The header of a WebP file of `size` bytes from its kind on. -/
def riffHeader (size : Nat) : Bytes :=
  Bytes.ascii "RIFF" ++ (Bytes.bytesLE 4 size ++ Bytes.ascii "WEBP")

theorem length_riffHeader (size : Nat) : (riffHeader size).length = 12 := rfl

/-- An extended header that announces nothing. -/
def extendedChunk : WebpChunk :=
  ⟨Bytes.ascii "VP8X", [0, 0, 0, 0, 0, 0, 0, 0, 0, 0], [], rfl, by decide, rfl⟩

/-- An image of one byte, padded. -/
def imageChunk : WebpChunk :=
  ⟨Bytes.ascii "VP8 ", [1], [0], rfl, by decide, rfl⟩

/-- A PNG with a header before its end is accepted, and so is a WebP with an extended header
before its image. -/
theorem assertStaticContainer_end :
    assertStaticContainer (pngMagic ++ [headerChunk, endChunk].flatMap PngChunk.encode)
      ⟨.photo, .png, 45⟩ = .ok () ∧
    assertStaticContainer (riffHeader 32 ++ [extendedChunk, imageChunk].flatMap WebpChunk.encode)
      ⟨.photo, .webp, 40⟩ = .ok () := by
  have hpng := @assertStaticContainer_iff
    (pngMagic ++ [headerChunk, endChunk].flatMap PngChunk.encode) ⟨.photo, .png, 45⟩
    (by decide) (by decide)
  have hwebp := @assertStaticContainer_iff
    (riffHeader 32 ++ [extendedChunk, imageChunk].flatMap WebpChunk.encode) ⟨.photo, .webp, 40⟩
    (by decide) (by decide)
  constructor
  · refine (hpng.1 rfl).mpr ⟨[headerChunk, endChunk], by decide, by decide, ?_⟩
    exact staticPng_cons.mpr (.inr ⟨by decide, by decide, staticPng_cons.mpr (.inl ⟨rfl, rfl, rfl⟩)⟩)
  · have hstill : extendedChunk.Still := by
      intro _
      refine ⟨le_rfl, fun b hb => ?_⟩
      obtain rfl := Option.some.inj hb
      rfl
    refine (hwebp.2.1 rfl).mpr ⟨[extendedChunk, imageChunk], by decide,
      List.drop_left' (length_riffHeader 32), ?_⟩
    exact List.forall_mem_cons.mpr ⟨⟨by decide, hstill⟩,
      List.forall_mem_singleton.mpr ⟨by decide, by decide⟩⟩

/-! ## Too many chunks -/

/-- A WebP of more chunks than the walk may still count is refused. -/
theorem walk_webp_many {file : Bytes} {chunks : List WebpChunk} {left offset : Nat}
    (htile : file.drop offset = chunks.flatMap WebpChunk.encode) (hmany : left < chunks.length) :
    walk file false file.length left offset ≠ .ok () := by
  induction left generalizing offset chunks with
  | zero =>
    have hoffset : offset < file.length := by
      by_contra hend
      rw [List.drop_eq_nil_of_le (Nat.le_of_not_lt hend)] at htile
      cases chunks with
      | nil => exact absurd hmany (Nat.lt_irrefl 0)
      | cons c chunks =>
        rw [List.flatMap_cons] at htile
        exact List.append_ne_nil_of_left_ne_nil c.encode_ne_nil _ htile.symm
    rw [walk, if_pos hoffset]
    intro h
    cases h
  | succ left ih =>
    cases chunks with
    | nil => exact absurd hmany (Nat.not_lt_zero _)
    | cons c chunks =>
      rw [List.flatMap_cons] at htile
      rw [walk_webp_chunk c htile]
      split
      · intro h
        cases h
      · exact ih (drop_chunk htile) (Nat.lt_of_succ_lt_succ hmany)

/-- An image without a byte. -/
def emptyChunk : WebpChunk :=
  ⟨Bytes.ascii "VP8 ", [], [], rfl, by decide, rfl⟩

/-- A WebP of `n` empty images behind a first one. -/
def longWebp (n : Nat) : Bytes :=
  riffHeader (8 * n + 12) ++ (emptyChunk :: List.replicate n emptyChunk).flatMap WebpChunk.encode

theorem length_replicate_chunks (n : Nat) :
    ((List.replicate n emptyChunk).flatMap WebpChunk.encode).length = 8 * n := by
  induction n with
  | zero => rfl
  | succ n ih =>
    have hchunk : emptyChunk.encode.length = 8 := by decide
    rw [List.replicate_succ, List.flatMap_cons, List.length_append, ih, hchunk]
    omega

theorem drop_longWebp (n : Nat) :
    (longWebp n).drop 12 =
      (emptyChunk :: List.replicate n emptyChunk).flatMap WebpChunk.encode :=
  List.drop_left' (length_riffHeader _)

theorem length_longWebp (n : Nat) : (longWebp n).length = 8 * n + 20 := by
  have hchunk : emptyChunk.encode.length = 8 := by decide
  rw [longWebp, List.length_append, List.flatMap_cons, List.length_append,
    length_replicate_chunks, hchunk, length_riffHeader]
  omega

/-- The file passes its signature, which reads twenty bytes of it. -/
theorem signature_longWebp :
    assertMediaSignature ⟨.photo, .webp, 800020⟩ ((longWebp 100000).take signaturePrefixBytes) =
      .ok () := by
  have hbytes : (longWebp 100000).take signaturePrefixBytes =
      (riffHeader 800012 ++ emptyChunk.encode) ++
        ((List.replicate 100000 emptyChunk).flatMap WebpChunk.encode).take 4076 := by
    rw [longWebp, List.flatMap_cons, ← List.append_assoc, List.take_append]
    congr 1
  have hlong := length_replicate_chunks 100000
  generalize (List.replicate 100000 emptyChunk).flatMap WebpChunk.encode = rest at hbytes hlong
  have hlength : ((riffHeader 800012 ++ emptyChunk.encode) ++ rest.take 4076).length = 4096 := by
    have hfront : (riffHeader 800012 ++ emptyChunk.encode).length = 20 := by decide
    rw [List.length_append, List.length_take, hfront]
    omega
  have hfront : 20 ≤ (riffHeader 800012 ++ emptyChunk.encode).length := by decide
  have hparsed : parseMediaIntent ⟨.photo, .webp, 800020⟩ true =
      .ok ⟨.photo, .webp, 800020⟩ := by decide
  rw [hbytes, assertMediaSignature, hparsed, ok_bind]
  generalize hfile : (riffHeader 800012 ++ emptyChunk.encode) ++ rest.take 4076 = bytes at hlength
  have hsize : bytes ≠ [] ∧ bytes.length ≤ signaturePrefixBytes ∧ bytes.length ≤ 800020 := by
    rw [hlength]
    exact ⟨List.ne_nil_of_length_pos (by omega), by decide, by decide⟩
  rw [ensure_pos hsize, ok_bind]
  refine ensure_pos ?_ _
  rw [matchesSignature, hlength, ← hfile]
  refine ⟨by decide, ?_, ?_, ?_, by decide, ?_, ?_⟩
  all_goals rw [Bytes.slice_append (le_trans (by decide) hfront)]
  all_goals decide

/-- A second end is refused, although the chunks tile the file and end with an empty `IEND`; and
so is a WebP of 100001 chunks, although none of them moves. -/
theorem assertStaticContainer_two_ends :
    (¬∀ (file : Bytes) (intent : MediaIntent), file.length = intent.byteLength →
      assertMediaSignature intent (file.take signaturePrefixBytes) = .ok () →
      intent.contentType = .png → (assertStaticContainer file intent = .ok () ↔
        ∃ chunks : List PngChunk, chunks.length ≤ 100000 ∧
          file.drop 8 = chunks.flatMap PngChunk.encode ∧
          (∃ last ∈ chunks.getLast?, last.kind = Bytes.ascii "IEND" ∧ last.data = []) ∧
          ∀ c ∈ chunks, c.kind ∉ animationKinds true)) ∧
    ¬∀ (file : Bytes) (intent : MediaIntent), file.length = intent.byteLength →
      assertMediaSignature intent (file.take signaturePrefixBytes) = .ok () →
      intent.contentType = .webp → (assertStaticContainer file intent = .ok () ↔
        ∃ chunks : List WebpChunk,
          file.drop 12 = chunks.flatMap WebpChunk.encode ∧ StaticWebp chunks) := by
  constructor
  · intro hclaim
    have hfile := hclaim (pngMagic ++ (endChunk.encode ++ endChunk.encode)) ⟨.photo, .png, 32⟩
      (by decide) (by decide) rfl
    have hrefused : assertStaticContainer (pngMagic ++ (endChunk.encode ++ endChunk.encode))
        ⟨.photo, .png, 32⟩ = .error .invalidImage := by decide
    rw [hrefused] at hfile
    have haccepted := hfile.mpr ⟨[endChunk, endChunk], by decide, by decide,
      ⟨endChunk, rfl, rfl, rfl⟩, by decide⟩
    cases haccepted
  · intro hclaim
    have hlength : (longWebp 100000).length = 800020 := length_longWebp 100000
    have hfile := hclaim (longWebp 100000) ⟨.photo, .webp, 800020⟩ hlength signature_longWebp rfl
    have hstill : StaticWebp (emptyChunk :: List.replicate 100000 emptyChunk) := by
      intro c hc
      have hempty : c = emptyChunk := (List.mem_cons.mp hc).elim id List.eq_of_mem_replicate
      subst hempty
      decide
    have haccepted := hfile.mpr ⟨_, drop_longWebp 100000, hstill⟩
    have hwalk : walk (longWebp 100000) false 800020 maxChunks 12 = .ok () := haccepted
    rw [← hlength] at hwalk
    refine walk_webp_many (drop_longWebp 100000) ?_ hwalk
    rw [List.length_cons, List.length_replicate]
    exact Nat.lt_succ_self _

end Rogichat.Media
