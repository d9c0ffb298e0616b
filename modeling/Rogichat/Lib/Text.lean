import Rogichat.Lib.Json

/-!
# Checked texts

The fixed-length regular expressions and the timestamps that identifiers are
checked with. A pattern is one character class for each position.
-/

namespace Lib.Text

/-- A class for each character of the text. -/
abbrev Pattern := List (Char → Bool)

/-- The whole text fits the pattern. -/
def fits : Pattern → List Char → Bool
  | [], [] => true
  | p :: ps, c :: cs => p c && fits ps cs
  | _, _ => false

/-- What fits has the length of the pattern, and every character is in one of the
classes. -/
theorem fits_spec {ps : Pattern} {cs : List Char} (h : fits ps cs = true) :
    cs.length = ps.length ∧ ∀ c ∈ cs, ∃ p ∈ ps, p c = true := by
  induction ps generalizing cs with
  | nil =>
    cases cs with
    | nil => exact ⟨rfl, fun c hc => absurd hc List.not_mem_nil⟩
    | cons c cs => cases h
  | cons p ps ih =>
    cases cs with
    | nil => cases h
    | cons c cs =>
      rw [fits, Bool.and_eq_true] at h
      obtain ⟨hlen, hclass⟩ := ih h.2
      refine ⟨congrArg Nat.succ hlen, ?_⟩
      intro d hd
      rcases List.mem_cons.mp hd with rfl | hd
      · exact ⟨p, List.mem_cons_self, h.1⟩
      · obtain ⟨q, hq, hqd⟩ := hclass d hd
        exact ⟨q, List.mem_cons_of_mem _ hq, hqd⟩

/-- One fixed character. -/
def lit (c : Char) : Char → Bool := fun d => d = c

/-- `[a-f0-9]`. -/
def lowerHex (c : Char) : Bool := ('0' ≤ c && c ≤ '9') || ('a' ≤ c && c ≤ 'f')

/-- `[89ab]`. -/
def variantDigit (c : Char) : Bool := c = '8' || c = '9' || c = 'a' || c = 'b'

/-- A lower-case UUID whose version digit is of the given class. -/
def uuidPattern (version : Char → Bool) : Pattern :=
  List.replicate 8 lowerHex ++ [lit '-'] ++ List.replicate 4 lowerHex ++ [lit '-'] ++
    [version] ++ List.replicate 3 lowerHex ++ [lit '-'] ++
    [variantDigit] ++ List.replicate 3 lowerHex ++ [lit '-'] ++ List.replicate 12 lowerHex

/-- `/^[a-f0-9]{64}$/`. -/
def isSha256Hex (s : String) : Bool := fits (List.replicate 64 lowerHex) s.toList

/-- `/^\d{4}-\d{2}-\d{2}T\d{2}:\d{2}:\d{2}\.\d{3}Z$/`. -/
def timestampPattern : Pattern :=
  List.replicate 4 Char.isDigit ++ [lit '-'] ++ List.replicate 2 Char.isDigit ++ [lit '-'] ++
    List.replicate 2 Char.isDigit ++ [lit 'T'] ++ List.replicate 2 Char.isDigit ++ [lit ':'] ++
    List.replicate 2 Char.isDigit ++ [lit ':'] ++ List.replicate 2 Char.isDigit ++ [lit '.'] ++
    List.replicate 3 Char.isDigit ++ [lit 'Z']

/-- The number written at a position. -/
def numberAt (cs : List Char) (start length : Nat) : Nat :=
  Nat.ofDigitChars 10 ((cs.drop start).take length) 0

/-- The days of a month. -/
def daysInMonth (year month : Nat) : Nat :=
  if month = 2 then
    if year % 4 = 0 ∧ (year % 100 ≠ 0 ∨ year % 400 = 0) then 29 else 28
  else if month = 4 ∨ month = 6 ∨ month = 9 ∨ month = 11 then 30 else 31

/-- A text that `Date.parse` reads and `toISOString` writes back unchanged: it has
the form of a timestamp and names a day of the calendar and a time of day. -/
def isTimestamp (s : String) : Bool :=
  let cs := s.toList
  let year := numberAt cs 0 4
  let month := numberAt cs 5 2
  let day := numberAt cs 8 2
  fits timestampPattern cs && decide (1 ≤ month ∧ month ≤ 12 ∧ 1 ≤ day ∧
    day ≤ daysInMonth year month ∧ numberAt cs 11 2 ≤ 23 ∧ numberAt cs 14 2 ≤ 59 ∧
    numberAt cs 17 2 ≤ 59)

example : isTimestamp "2024-02-29T23:59:59.999Z" = true ∧
    isTimestamp "2023-02-29T00:00:00.000Z" = false := by decide

/-! ## Checked texts in JSON -/

theorem plain_of_lowerHex {c : Char} (h : lowerHex c = true) : Json.Plain c := by
  simp only [lowerHex, Bool.or_eq_true, Bool.and_eq_true, decide_eq_true_eq,
    Char.le_def, UInt32.le_iff_toNat_le] at h
  refine Json.plain_of_toNat ?_ ?_ ?_
  · show 35 ≤ c.val.toNat
    rcases h with ⟨h, -⟩ | ⟨h, -⟩ <;> exact Nat.le_trans (by decide) h
  · show c.val.toNat ≤ 127
    rcases h with ⟨-, h⟩ | ⟨-, h⟩ <;> exact Nat.le_trans h (by decide)
  · rintro rfl
    revert h
    decide

theorem plain_of_isDigit {c : Char} (h : c.isDigit = true) : Json.Plain c := by
  refine plain_of_lowerHex ?_
  simp only [Char.isDigit, Bool.and_eq_true, decide_eq_true_eq] at h
  simp only [lowerHex, Bool.or_eq_true, Bool.and_eq_true, decide_eq_true_eq]
  exact .inl h

theorem plain_of_lit {d c : Char} (hd : Json.Plain d) (h : lit d c = true) : Json.Plain c := by
  rw [lit, decide_eq_true_eq] at h
  exact h ▸ hd

theorem plain_of_variantDigit {c : Char} (h : variantDigit c = true) : Json.Plain c := by
  simp only [variantDigit, Bool.or_eq_true, decide_eq_true_eq] at h
  rcases h with ((rfl | rfl) | rfl) | rfl <;> decide

/-- A text that fits a pattern of plain classes is written as itself. -/
theorem byteSize_fits {ps : Pattern} {s : String} (h : fits ps s.toList = true)
    (hps : ∀ p ∈ ps, ∀ c, p c = true → Json.Plain c) :
    Json.byteSize (Json.quote s) = ps.length + 2 := by
  obtain ⟨hlen, hclass⟩ := fits_spec h
  rw [Json.byteSize_quote, hlen]
  intro c hc
  obtain ⟨p, hp, hpc⟩ := hclass c hc
  exact hps p hp c hpc

theorem byteSize_uuid {version : Char → Bool} (hversion : ∀ c, version c = true → Json.Plain c)
    {s : String} (h : fits (uuidPattern version) s.toList = true) :
    Json.byteSize (Json.quote s) = 38 := by
  refine byteSize_fits h ?_
  intro p hp c hc
  simp only [uuidPattern, List.mem_append, List.mem_replicate, List.mem_singleton] at hp
  rcases hp with (((((((((⟨-, rfl⟩ | rfl) | ⟨-, rfl⟩) | rfl) | rfl) | ⟨-, rfl⟩) | rfl) | rfl) |
    ⟨-, rfl⟩) | rfl) | ⟨-, rfl⟩
  all_goals first
    | exact plain_of_lowerHex hc
    | exact plain_of_lit (by decide) hc
    | exact plain_of_variantDigit hc
    | exact hversion c hc

end Lib.Text
