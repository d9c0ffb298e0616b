import Rogichat.Lib.Bytes

/-!
# Base64url

The URL-safe text of a byte string, without padding: three bytes in four digits, and one or
two bytes left over in two or three digits, whose last bits are zero.

* **`decode_encode`** — a byte string is read back from its text.
* **`length_encode`** — the length of the text follows from the number of bytes.
-/

namespace Lib.Base64

/-! ## Digits -/

/-- The digit of six bits. -/
def digit (n : Nat) : Char :=
  if n < 26 then Char.ofNat (n + 65)
  else if n < 52 then Char.ofNat (n + 71)
  else if n < 62 then Char.ofNat (n - 4)
  else if n = 62 then '-'
  else '_'

/-- The six bits of a digit. -/
def value (c : Char) : Nat :=
  if 'A' ≤ c ∧ c ≤ 'Z' then c.toNat - 65
  else if 'a' ≤ c ∧ c ≤ 'z' then c.toNat - 71
  else if '0' ≤ c ∧ c ≤ '9' then c.toNat + 4
  else if c = '-' then 62
  else 63

/-- `[A-Za-z0-9_-]`. -/
def isUrl (c : Char) : Bool := c.isAlphanum || c = '_' || c = '-'

theorem digit_spec {n : Nat} (h : n < 64) : value (digit n) = n ∧ isUrl (digit n) = true := by
  have hall : ∀ n < 64, value (digit n) = n ∧ isUrl (digit n) = true := by decide
  exact hall n h

/-! ## Texts -/

/-- `buffer.toString('base64url')`. -/
def encode : Bytes → List Char
  | a :: b :: c :: rest =>
    digit (a.toNat / 4) :: digit (a.toNat % 4 * 16 + b.toNat / 16) ::
      digit (b.toNat % 16 * 4 + c.toNat / 64) :: digit (c.toNat % 64) :: encode rest
  | [a, b] =>
    [digit (a.toNat / 4), digit (a.toNat % 4 * 16 + b.toNat / 16), digit (b.toNat % 16 * 4)]
  | [a] => [digit (a.toNat / 4), digit (a.toNat % 4 * 16)]
  | [] => []

/-- `Buffer.from(text, 'base64url')`, of a text that consists of digits. The bits left over
are dropped. -/
def decode : List Char → Bytes
  | w :: x :: y :: z :: rest =>
    UInt8.ofNat (value w * 4 + value x / 16) ::
      UInt8.ofNat (value x % 16 * 16 + value y / 4) ::
      UInt8.ofNat (value y % 4 * 64 + value z) :: decode rest
  | [w, x, y] =>
    [UInt8.ofNat (value w * 4 + value x / 16), UInt8.ofNat (value x % 16 * 16 + value y / 4)]
  | [w, x] => [UInt8.ofNat (value w * 4 + value x / 16)]
  | _ => []

theorem ofNat_toNat {b : UInt8} {n : Nat} (h : n = b.toNat) : UInt8.ofNat n = b := by
  rw [h]
  exact UInt8.ofNat_toNat

theorem decode_encode (bs : Bytes) : decode (encode bs) = bs := by
  induction bs using encode.induct with
  | case1 a b c rest ih =>
    have ha := a.toNat_lt
    have hb := b.toNat_lt
    have hc := c.toNat_lt
    rw [encode, decode, ih, (digit_spec (by omega)).1, (digit_spec (by omega)).1,
      (digit_spec (by omega)).1, (digit_spec (by omega)).1]
    rw [ofNat_toNat (b := a) (by omega), ofNat_toNat (b := b) (by omega),
      ofNat_toNat (b := c) (by omega)]
  | case2 a b =>
    have ha := a.toNat_lt
    have hb := b.toNat_lt
    rw [encode, decode, (digit_spec (by omega)).1, (digit_spec (by omega)).1,
      (digit_spec (by omega)).1]
    rw [ofNat_toNat (b := a) (by omega), ofNat_toNat (b := b) (by omega)]
  | case3 a =>
    have ha := a.toNat_lt
    rw [encode, decode, (digit_spec (by omega)).1, (digit_spec (by omega)).1]
    rw [ofNat_toNat (b := a) (by omega)]
  | case4 => rfl

theorem length_encode (bs : Bytes) : (encode bs).length = (4 * bs.length + 2) / 3 := by
  induction bs using encode.induct with
  | case1 a b c rest ih =>
    simp only [encode, List.length_cons, ih]
    omega
  | case2 a b => simp [encode]
  | case3 a => simp [encode]
  | case4 => rfl

theorem encode_url (bs : Bytes) : ∀ c ∈ encode bs, isUrl c = true := by
  induction bs using encode.induct with
  | case1 a b c rest ih =>
    have ha := a.toNat_lt
    have hb := b.toNat_lt
    have hc := c.toNat_lt
    rw [encode]
    intro d hd
    simp only [List.mem_cons] at hd
    rcases hd with rfl | rfl | rfl | rfl | hd
    · exact (digit_spec (by omega)).2
    · exact (digit_spec (by omega)).2
    · exact (digit_spec (by omega)).2
    · exact (digit_spec (by omega)).2
    · exact ih d hd
  | case2 a b =>
    have ha := a.toNat_lt
    have hb := b.toNat_lt
    rw [encode]
    intro d hd
    simp only [List.mem_cons, List.not_mem_nil, or_false] at hd
    rcases hd with rfl | rfl | rfl
    · exact (digit_spec (by omega)).2
    · exact (digit_spec (by omega)).2
    · exact (digit_spec (by omega)).2
  | case3 a =>
    have ha := a.toNat_lt
    rw [encode]
    intro d hd
    simp only [List.mem_cons, List.not_mem_nil, or_false] at hd
    rcases hd with rfl | rfl
    · exact (digit_spec (by omega)).2
    · exact (digit_spec (by omega)).2
  | case4 => exact fun d hd => absurd hd List.not_mem_nil

end Lib.Base64
