import Rogichat.Lib.Bytes
import Rogichat.Lib.Outcome

/-!
# Media intents and their signatures

`parseMediaIntent` and `assertMediaSignature` of `media-policy.ts`, on intents whose
kind and content type are already of their enumerations.
-/

namespace Rogichat.Media

open Lib

attribute [local instance] Bytes.decidableMem

inductive MediaKind
  | photo | avatar | sticker | video
  deriving DecidableEq, Repr

inductive MediaContentType
  | jpeg | png | webp | mp4 | quicktime
  deriving DecidableEq, Repr

structure MediaIntent where
  kind : MediaKind
  contentType : MediaContentType
  byteLength : Nat
  deriving DecidableEq, Repr

inductive MediaPolicyCode
  | invalidMediaIntent | mediaForbidden | mediaSignatureMismatch
  deriving DecidableEq, Repr

/-- How many bytes a signature is looked for in. -/
def signaturePrefixBytes : Nat := 4096

/-- `MEDIA_CONTENT_TYPES`. -/
def MediaKind.contentTypes : MediaKind → List MediaContentType
  | .photo => [.jpeg, .png, .webp]
  | .avatar => [.jpeg, .png, .webp]
  | .sticker => [.png, .webp]
  | .video => [.mp4, .quicktime]

/-- `caps`. -/
def MediaKind.cap : MediaKind → Nat
  | .photo => 10 * 1024 * 1024
  | .avatar => 10 * 1024 * 1024
  | .sticker => 1024 * 1024
  | .video => 50 * 1024 * 1024

/-- `parseMediaIntent`. -/
def parseMediaIntent (intent : MediaIntent) (canRegisterStickers : Bool) :
    Except MediaPolicyCode MediaIntent := do
  ensure (0 < intent.byteLength) .invalidMediaIntent
  ensure (intent.contentType ∈ intent.kind.contentTypes ∧ intent.byteLength ≤ intent.kind.cap)
    .invalidMediaIntent
  ensure (intent.kind = .sticker → canRegisterStickers = true) .mediaForbidden
  return intent

/-! ## Signatures -/

def jpegMagic : Bytes := [0xff, 0xd8, 0xff]

def pngMagic : Bytes := [0x89, 0x50, 0x4e, 0x47, 0x0d, 0x0a, 0x1a, 0x0a]

/-- The brands an MP4 may begin with. -/
def mp4MajorBrands : List Bytes :=
  ["isom", "iso2", "iso3", "iso4", "iso5", "iso6", "iso7", "iso8", "iso9", "mp41", "mp42",
    "avc1", "M4V "].map Bytes.ascii

/-- The brands that make a file an MP4. -/
def mp4SpecificBrands : List Bytes := ["mp41", "mp42", "avc1", "M4V "].map Bytes.ascii

/-- The size of the `ftyp` box and of its header. -/
def fileTypeHeader (bytes : Bytes) : Option (Nat × Nat) :=
  let size := Bytes.readBE (bytes.slice 0 4)
  if size = 1 then
    let wide := Bytes.readBE (bytes.slice 8 16)
    if bytes.length < 24 ∨ signaturePrefixBytes < wide then none else some (wide, 16)
  else some (size, 8)

/-- `fileTypeBrands`: the major brand, then the compatible ones; the minor version
between them is no brand. -/
def fileTypeBrands (bytes : Bytes) (byteLength : Nat) : Option (List Bytes) :=
  if bytes.length < 16 ∨ bytes.slice 4 8 ≠ Bytes.ascii "ftyp" then none
  else
    match fileTypeHeader bytes with
    | none => none
    | some (size, header) =>
      if size < header + 8 ∨ bytes.length < size ∨ byteLength < size ∨ (size - header) % 4 ≠ 0 then
        none
      else
        some (bytes.slice header (header + 4) ::
          (List.range ((size - (header + 8)) / 4)).map fun k =>
            bytes.slice (header + 8 + 4 * k) (header + 12 + 4 * k))

/-- The branches of `assertMediaSignature`. -/
def matchesSignature (checked : MediaIntent) (bytes : Bytes) : Prop :=
  match checked.contentType with
  | .jpeg => bytes.slice 0 3 = jpegMagic
  | .png => bytes.slice 0 8 = pngMagic
  | .webp => 20 ≤ bytes.length ∧ bytes.slice 0 4 = Bytes.ascii "RIFF" ∧
      bytes.slice 8 12 = Bytes.ascii "WEBP" ∧
      Bytes.readLE (bytes.slice 4 8) + 8 = checked.byteLength ∧ checked.byteLength % 2 = 0 ∧
      bytes.slice 12 16 ∈ ["VP8 ", "VP8L", "VP8X"].map Bytes.ascii ∧
      Bytes.readLE (bytes.slice 16 20) ≤ checked.byteLength - 20
  | .mp4 => ∃ brands ∈ fileTypeBrands bytes checked.byteLength,
      (∃ major ∈ brands.head?, major ∈ mp4MajorBrands) ∧ ∃ b ∈ brands, b ∈ mp4SpecificBrands
  | .quicktime => ∃ brands ∈ fileTypeBrands bytes checked.byteLength,
      brands.head? = some (Bytes.ascii "qt  ")

instance (checked : MediaIntent) (bytes : Bytes) : Decidable (matchesSignature checked bytes) := by
  unfold matchesSignature
  cases checked.contentType <;> infer_instance

/-- `assertMediaSignature`. -/
def assertMediaSignature (intent : MediaIntent) (bytes : Bytes) : Except MediaPolicyCode Unit := do
  let checked ← parseMediaIntent intent true
  ensure (bytes ≠ [] ∧ bytes.length ≤ signaturePrefixBytes ∧ bytes.length ≤ checked.byteLength)
    .mediaSignatureMismatch
  ensure (matchesSignature checked bytes) .mediaSignatureMismatch

theorem signature_ok {intent : MediaIntent} {bytes : Bytes} {u : Unit}
    (h : assertMediaSignature intent bytes = .ok u) :
    bytes.length ≤ intent.byteLength ∧ matchesSignature intent bytes := by
  obtain ⟨checked, hchecked, h⟩ := bind_ok.mp h
  obtain ⟨_, hlength, h⟩ := bind_ok.mp h
  have hmatches := ensure_ok.mp h
  have hsame : checked = intent := by
    simp only [parseMediaIntent, bind_ok, ensure_ok, pure_ok] at hchecked
    obtain ⟨_, -, _, -, _, -, rfl⟩ := hchecked
    rfl
  subst hsame
  exact ⟨(ensure_ok.mp hlength).2.2, hmatches⟩

end Rogichat.Media
