import Mathlib.Tactic

/-!
# Byte strings

Fields of fixed width in byte strings, and the numbers they spell.

* **`readBE_bytesBE`**, **`bytesBE_readBE`** — numbers below `256 ^ w` and strings of
  `w` bytes are the same thing, most significant byte first; `readLE` reads the other
  order.
* **`ofUtf8_utf8`** — a text is read back from its UTF-8 bytes.
* **`field_append`** — a field and what follows it make up what stands from there on.
-/

namespace Lib

/-- A byte string. -/
abbrev Bytes := List UInt8

namespace Bytes

/-- Whether a byte string is among some. -/
@[reducible]
def decidableMem (a : Bytes) (l : List Bytes) : Decidable (a ∈ l) := inferInstance

/-- The characters of an ASCII text. -/
def ascii (s : String) : Bytes := s.toList.map fun c => UInt8.ofNat c.toNat

/-- `buffer.subarray(start, stop)`. -/
def slice (bs : Bytes) (start stop : Nat) : Bytes := (bs.drop start).take (stop - start)

/-- What follows a byte string is in none of its slices. -/
theorem slice_append {bs : Bytes} {start stop : Nat} (h : stop ≤ bs.length) (rest : Bytes) :
    slice (bs ++ rest) start stop = slice bs start stop := by
  rcases Nat.lt_or_ge stop start with hempty | hstart
  · rw [slice, slice, Nat.sub_eq_zero_of_le hempty.le, List.take_zero, List.take_zero]
  · rw [slice, slice, List.drop_append_of_le_length (by omega), List.take_append_of_le_length]
    rw [List.length_drop]
    omega

/-- A field, and what follows it. -/
theorem field_append (bs : Bytes) (start width : Nat) :
    (bs.drop start).take width ++ bs.drop (start + width) = bs.drop start := by
  rw [← List.drop_drop, List.take_append_drop]

theorem length_field {bs : Bytes} {start width : Nat} (h : start + width ≤ bs.length) :
    ((bs.drop start).take width).length = width := by
  rw [List.length_take, List.length_drop]
  omega

/-! ## Numbers -/

/-- The number a byte string spells, most significant byte first. -/
def readBE (bs : Bytes) : Nat := bs.foldl (fun n b => n * 256 + b.toNat) 0

/-- The number a byte string spells, least significant byte first. -/
def readLE (bs : Bytes) : Nat := readBE bs.reverse

/-- The last `width` base-256 digits of a number, most significant first. -/
def bytesBE : (width : Nat) → Nat → Bytes
  | 0, _ => []
  | width + 1, n => bytesBE width (n / 256) ++ [UInt8.ofNat n]

/-- A number in bytes, the least significant first. -/
def bytesLE (width n : Nat) : Bytes := (bytesBE width n).reverse

@[simp] theorem length_bytesBE (width n : Nat) : (bytesBE width n).length = width := by
  induction width generalizing n with
  | zero => rfl
  | succ width ih => rw [bytesBE, List.length_append, ih, List.length_singleton]

@[simp] theorem length_bytesLE (width n : Nat) : (bytesLE width n).length = width := by
  rw [bytesLE, List.length_reverse, length_bytesBE]

theorem readBE_snoc (bs : Bytes) (b : UInt8) : readBE (bs ++ [b]) = readBE bs * 256 + b.toNat := by
  rw [readBE, List.foldl_append]
  rfl

theorem readBE_bytesBE {width n : Nat} (h : n < 256 ^ width) : readBE (bytesBE width n) = n := by
  induction width generalizing n with
  | zero =>
    rw [pow_zero] at h
    show 0 = n
    omega
  | succ width ih =>
    have hquot : n / 256 < 256 ^ width := by
      rw [pow_succ] at h
      omega
    have hdigit : (UInt8.ofNat n).toNat = n % 256 := UInt8.toNat_ofNat'
    rw [bytesBE, readBE_snoc, ih hquot, hdigit]
    omega

/-- A string of `width` bytes spells a number below `256 ^ width`, of which it is the text. -/
theorem bytesBE_readBE (bs : Bytes) :
    readBE bs < 256 ^ bs.length ∧ bytesBE bs.length (readBE bs) = bs := by
  induction bs using List.reverseRecOn with
  | nil => exact ⟨Nat.one_pos, rfl⟩
  | append_singleton bs b ih =>
    obtain ⟨hlt, htext⟩ := ih
    have hb : b.toNat < 256 := UInt8.toNat_lt b
    have hquot : (readBE bs * 256 + b.toNat) / 256 = readBE bs := by omega
    have hdigit : UInt8.ofNat (readBE bs * 256 + b.toNat) = b := by
      apply UInt8.toNat_inj.mp
      rw [UInt8.toNat_ofNat']
      omega
    rw [List.length_append, List.length_singleton, readBE_snoc]
    refine ⟨?_, ?_⟩
    · rw [pow_succ]
      omega
    · rw [bytesBE, hquot, hdigit, htext]

theorem readLE_bytesLE {width n : Nat} (h : n < 256 ^ width) : readLE (bytesLE width n) = n := by
  rw [readLE, bytesLE, List.reverse_reverse, readBE_bytesBE h]

theorem bytesLE_readLE (bs : Bytes) :
    readLE bs < 256 ^ bs.length ∧ bytesLE bs.length (readLE bs) = bs := by
  have h := bytesBE_readBE bs.reverse
  rw [List.length_reverse] at h
  refine ⟨h.1, ?_⟩
  rw [bytesLE, readLE, h.2, List.reverse_reverse]

/-! ## UTF-8 -/

/-- `Buffer.from(text, 'utf8')`. -/
def utf8 (s : String) : Bytes := s.toList.flatMap String.utf8EncodeChar

/-- Six bits more, of a continuation byte. -/
def more (n : Nat) (b : UInt8) : Nat := n * 64 + (b.toNat - 0x80)

/-- The characters of bytes that need not be UTF-8: each longest part of a character that does
not go on is read as U+FFFD. -/
def lossy : Bytes → List Char
  | [] => []
  | a :: as =>
    if a < 0x80 then Char.ofNat a.toNat :: lossy as
    else if 0xC2 ≤ a ∧ a ≤ 0xDF then
      match as with
      | b :: bs =>
        if 0x80 ≤ b ∧ b ≤ 0xBF then
          Char.ofNat (more (a.toNat - 0xC0) b) :: lossy bs
        else Char.ofNat 0xFFFD :: lossy (b :: bs)
      | [] => [Char.ofNat 0xFFFD]
    else if 0xE0 ≤ a ∧ a ≤ 0xEF then
      match as with
      | b :: bs =>
        if (if a = 0xE0 then 0xA0 else 0x80) ≤ b ∧ b ≤ (if a = 0xED then 0x9F else 0xBF) then
          match bs with
          | c :: cs =>
            if 0x80 ≤ c ∧ c ≤ 0xBF then
              Char.ofNat (more (more (a.toNat - 0xE0) b) c) :: lossy cs
            else Char.ofNat 0xFFFD :: lossy (c :: cs)
          | [] => [Char.ofNat 0xFFFD]
        else Char.ofNat 0xFFFD :: lossy (b :: bs)
      | [] => [Char.ofNat 0xFFFD]
    else if 0xF0 ≤ a ∧ a ≤ 0xF4 then
      match as with
      | b :: bs =>
        if (if a = 0xF0 then 0x90 else 0x80) ≤ b ∧ b ≤ (if a = 0xF4 then 0x8F else 0xBF) then
          match bs with
          | c :: cs =>
            if 0x80 ≤ c ∧ c ≤ 0xBF then
              match cs with
              | d :: ds =>
                if 0x80 ≤ d ∧ d ≤ 0xBF then
                  Char.ofNat (more (more (more (a.toNat - 0xF0) b) c) d) :: lossy ds
                else Char.ofNat 0xFFFD :: lossy (d :: ds)
              | [] => [Char.ofNat 0xFFFD]
            else Char.ofNat 0xFFFD :: lossy (c :: cs)
          | [] => [Char.ofNat 0xFFFD]
        else Char.ofNat 0xFFFD :: lossy (b :: bs)
      | [] => [Char.ofNat 0xFFFD]
    else Char.ofNat 0xFFFD :: lossy as

/-- `buffer.toString('utf8')`. -/
def ofUtf8 (bs : Bytes) : String :=
  match bs.toByteArray.utf8Decode? with
  | some cs => String.ofList cs.toList
  | none => String.ofList (lossy bs)

theorem length_utf8 (s : String) : (utf8 s).length = (s.toList.map Char.utf8Size).sum := by
  rw [utf8, List.length_flatMap]
  simp only [String.length_utf8EncodeChar]

theorem ofUtf8_utf8 (s : String) : ofUtf8 (utf8 s) = s := by
  have hread : (utf8 s).toByteArray.utf8Decode? = some s.toList.toArray :=
    List.utf8Decode?_utf8Encode
  rw [ofUtf8, hread]
  exact String.ofList_toList

end Bytes

end Lib
