import Mathlib.Tactic

/-!
# JSON texts

JSON values, the text `JSON.stringify` writes for one and the value `JSON.parse`
reads from a text. Numbers are integers: a literal with a fraction or an exponent
is refused, and so is an escaped surrogate, which no Lean string can hold. Both
only matter to a reader that accepts texts `JSON.stringify` would not write.

* **`parse_stringify`** — a value whose objects have no repeated key is read back
  from its own text.
* **`stringify_inj`** — two such values with one text are one value.
-/

namespace Lib

/-- A JSON value; the fields of an object in insertion order. -/
inductive Json
  | null
  | bool (b : Bool)
  | num (n : Int)
  | str (s : String)
  | arr (items : List Json)
  | obj (fields : List (String × Json))
  deriving Repr

namespace Json

mutual
/-- Whether two values are the same can be decided. -/
def decEq : (v w : Json) → Decidable (v = w)
  | .null, .null => .isTrue rfl
  | .bool b, .bool c => decidable_of_iff (b = c) (by simp)
  | .num m, .num n => decidable_of_iff (m = n) (by simp)
  | .str s, .str t => decidable_of_iff (s = t) (by simp)
  | .arr vs, .arr ws =>
    have := decEqItems vs ws
    decidable_of_iff (vs = ws) (by simp)
  | .obj fs, .obj gs =>
    have := decEqFields fs gs
    decidable_of_iff (fs = gs) (by simp)
  | .null, .bool _ | .null, .num _ | .null, .str _ | .null, .arr _ | .null, .obj _ =>
    .isFalse nofun
  | .bool _, .null | .bool _, .num _ | .bool _, .str _ | .bool _, .arr _ | .bool _, .obj _ =>
    .isFalse nofun
  | .num _, .null | .num _, .bool _ | .num _, .str _ | .num _, .arr _ | .num _, .obj _ =>
    .isFalse nofun
  | .str _, .null | .str _, .bool _ | .str _, .num _ | .str _, .arr _ | .str _, .obj _ =>
    .isFalse nofun
  | .arr _, .null | .arr _, .bool _ | .arr _, .num _ | .arr _, .str _ | .arr _, .obj _ =>
    .isFalse nofun
  | .obj _, .null | .obj _, .bool _ | .obj _, .num _ | .obj _, .str _ | .obj _, .arr _ =>
    .isFalse nofun
def decEqItems : (vs ws : List Json) → Decidable (vs = ws)
  | [], [] => .isTrue rfl
  | [], _ :: _ => .isFalse nofun
  | _ :: _, [] => .isFalse nofun
  | v :: vs, w :: ws =>
    have := decEq v w
    have := decEqItems vs ws
    decidable_of_iff (v = w ∧ vs = ws) (by simp)
def decEqFields : (fs gs : List (String × Json)) → Decidable (fs = gs)
  | [], [] => .isTrue rfl
  | [], _ :: _ => .isFalse nofun
  | _ :: _, [] => .isFalse nofun
  | (k, v) :: fs, (l, w) :: gs =>
    have := decEq v w
    have := decEqFields fs gs
    decidable_of_iff ((k = l ∧ v = w) ∧ fs = gs) (by simp)
end

instance : DecidableEq Json := decEq

/-! ## Writing -/

/-- The four hexadecimal digits of a code unit. -/
def hex4 (n : Nat) : List Char :=
  [(n / 4096 % 16).digitChar, (n / 256 % 16).digitChar, (n / 16 % 16).digitChar,
    (n % 16).digitChar]

/-- The characters a string literal writes for one character. -/
def escape (c : Char) : List Char :=
  if c = '"' then ['\\', '"']
  else if c = '\\' then ['\\', '\\']
  else if c.toNat = 8 then ['\\', 'b']
  else if c.toNat = 9 then ['\\', 't']
  else if c.toNat = 10 then ['\\', 'n']
  else if c.toNat = 12 then ['\\', 'f']
  else if c.toNat = 13 then ['\\', 'r']
  else if c.toNat < 32 then '\\' :: 'u' :: hex4 c.toNat
  else [c]

/-- A string literal. -/
def quote (s : String) : List Char := '"' :: (s.toList.flatMap escape ++ ['"'])

/-- The decimal text of a number. -/
def decimal : Int → List Char
  | .ofNat n => Nat.toDigits 10 n
  | .negSucc n => '-' :: Nat.toDigits 10 (n + 1)

mutual
/-- The text of a value. -/
def render : Json → List Char
  | .null => ['n', 'u', 'l', 'l']
  | .bool true => ['t', 'r', 'u', 'e']
  | .bool false => ['f', 'a', 'l', 's', 'e']
  | .num n => decimal n
  | .str s => quote s
  | .arr [] => ['[', ']']
  | .arr (v :: vs) => '[' :: (v.render ++ renderItems vs)
  | .obj [] => ['{', '}']
  | .obj ((k, v) :: fs) => '{' :: (quote k ++ ':' :: (v.render ++ renderFields fs))
/-- The rest of an array, from the separator of its next item on. -/
def renderItems : List Json → List Char
  | [] => [']']
  | v :: vs => ',' :: (v.render ++ renderItems vs)
/-- The rest of an object, from the separator of its next field on. -/
def renderFields : List (String × Json) → List Char
  | [] => ['}']
  | (k, v) :: fs => ',' :: (quote k ++ ':' :: (v.render ++ renderFields fs))
end

/-- `JSON.stringify`. -/
def stringify (v : Json) : String := String.ofList v.render

/-! ## Reading -/

def isSpace (c : Char) : Bool := c = ' ' || c = '\t' || c = '\n' || c = '\r'

/-- The text after its white space. -/
def skipSpace (cs : List Char) : List Char := cs.dropWhile isSpace

/-- The value of a hexadecimal digit. -/
def hexValue (c : Char) : Option Nat :=
  if '0' ≤ c ∧ c ≤ '9' then some (c.toNat - 48)
  else if 'a' ≤ c ∧ c ≤ 'f' then some (c.toNat - 87)
  else if 'A' ≤ c ∧ c ≤ 'F' then some (c.toNat - 55)
  else none

/-- The character of a `\u` escape, surrogates excepted. -/
def unhex4 (a b c d : Char) : Option Char := do
  let n := (← hexValue a) * 4096 + (← hexValue b) * 256 + (← hexValue c) * 16 +
    (← hexValue d)
  if 0xD800 ≤ n ∧ n ≤ 0xDFFF then none else some (Char.ofNat n)

/-- The character of a one-letter escape. -/
def unescape : Char → Option Char
  | '"' => some '"'
  | '\\' => some '\\'
  | '/' => some '/'
  | 'b' => some (Char.ofNat 8)
  | 't' => some (Char.ofNat 9)
  | 'n' => some (Char.ofNat 10)
  | 'f' => some (Char.ofNat 12)
  | 'r' => some (Char.ofNat 13)
  | _ => none

/-- The rest of a string literal, and what follows its closing quote. -/
def stringBody : List Char → Option (List Char × List Char)
  | [] => none
  | '"' :: cs => some ([], cs)
  | '\\' :: 'u' :: a :: b :: c :: d :: cs => do
    let x ← unhex4 a b c d
    let (s, rest) ← stringBody cs
    return (x :: s, rest)
  | '\\' :: e :: cs => do
    let x ← unescape e
    let (s, rest) ← stringBody cs
    return (x :: s, rest)
  | c :: cs => do
    if c.toNat < 32 ∨ c = '\\' then none
    let (s, rest) ← stringBody cs
    return (c :: s, rest)

/-- The characters of a number literal. -/
def isNumeric (c : Char) : Bool :=
  c.isDigit || c = '-' || c = '+' || c = '.' || c = 'e' || c = 'E'

/-- A literal without leading zeros. -/
def natural (ds : List Char) : Option Nat :=
  if ds ≠ [] ∧ ds.all Char.isDigit ∧ (ds.length = 1 ∨ ds.head? ≠ some '0') then
    some (Nat.ofDigitChars 10 ds 0)
  else none

/-- The integer a number token denotes, when it denotes one. -/
def integer (token : List Char) : Option Int :=
  match token with
  | '-' :: ds => (natural ds).map fun n => -(n : Int)
  | ds => (natural ds).map Int.ofNat

/-- A number at the front of a text. -/
def number (cs : List Char) : Option (Json × List Char) :=
  (integer (cs.takeWhile isNumeric)).map fun n => (.num n, cs.dropWhile isNumeric)

/-- A later field of the same name replaces the value of the earlier one. -/
def setField (fields : List (String × Json)) (key : String) (v : Json) : List (String × Json) :=
  if fields.any fun f => f.1 = key then
    fields.map fun f => if f.1 = key then (key, v) else f
  else fields ++ [(key, v)]

/-- The key of a field and its colon. -/
def fieldKey (cs : List Char) : Option (String × List Char) :=
  match skipSpace cs with
  | '"' :: cs => do
    let (k, cs) ← stringBody cs
    match skipSpace cs with
    | ':' :: cs => return (String.ofList k, cs)
    | _ => none
  | _ => none

mutual
/-- The value at the head of a text, and what follows it; `fuel` bounds the
number of values the text holds. -/
def value : (fuel : Nat) → List Char → Option (Json × List Char)
  | 0, _ => none
  | fuel + 1, cs =>
    match skipSpace cs with
    | 'n' :: 'u' :: 'l' :: 'l' :: cs => some (.null, cs)
    | 't' :: 'r' :: 'u' :: 'e' :: cs => some (.bool true, cs)
    | 'f' :: 'a' :: 'l' :: 's' :: 'e' :: cs => some (.bool false, cs)
    | '"' :: cs => (stringBody cs).map fun (s, cs) => (.str (String.ofList s), cs)
    | '[' :: cs =>
      match skipSpace cs with
      | ']' :: cs => some (.arr [], cs)
      | cs => do
        let (v, cs) ← value fuel cs
        let (vs, cs) ← items fuel cs
        return (.arr (v :: vs), cs)
    | '{' :: cs =>
      match skipSpace cs with
      | '}' :: cs => some (.obj [], cs)
      | cs => do
        let (k, cs) ← fieldKey cs
        let (v, cs) ← value fuel cs
        let (fs, cs) ← fields fuel [(k, v)] cs
        return (.obj fs, cs)
    | cs => number cs
/-- The rest of an array. -/
def items : (fuel : Nat) → List Char → Option (List Json × List Char)
  | 0, _ => none
  | fuel + 1, cs =>
    match skipSpace cs with
    | ']' :: cs => some ([], cs)
    | ',' :: cs => do
      let (v, cs) ← value fuel cs
      let (vs, cs) ← items fuel cs
      return (v :: vs, cs)
    | _ => none
/-- The rest of an object whose first fields are `before`. -/
def fields : (fuel : Nat) → (before : List (String × Json)) → List Char →
    Option (List (String × Json) × List Char)
  | 0, _, _ => none
  | fuel + 1, before, cs =>
    match skipSpace cs with
    | '}' :: cs => some (before, cs)
    | ',' :: cs => do
      let (k, cs) ← fieldKey cs
      let (v, cs) ← value fuel cs
      fields fuel (setField before k v) cs
    | _ => none
end

/-- `JSON.parse`: one value and nothing after it. -/
def parse (text : String) : Option Json :=
  match value text.toList.length text.toList with
  | some (v, cs) => if skipSpace cs = [] then some v else none
  | none => none

/-- The value of a field, `undefined` being `none`. -/
def field? (fields : List (String × Json)) (key : String) : Option Json :=
  (fields.find? fun f => f.1 = key).map Prod.snd

mutual
/-- No object repeats a key. -/
def Distinct : Json → Prop
  | .arr vs => DistinctItems vs
  | .obj fs => (fs.map Prod.fst).Nodup ∧ DistinctFields fs
  | _ => True
def DistinctItems : List Json → Prop
  | [] => True
  | v :: vs => v.Distinct ∧ DistinctItems vs
def DistinctFields : List (String × Json) → Prop
  | [] => True
  | (_, v) :: fs => v.Distinct ∧ DistinctFields fs
end

mutual
/-- Whether an object repeats a key can be decided. -/
def decideDistinct : (v : Json) → Decidable v.Distinct
  | .null => .isTrue trivial
  | .bool _ => .isTrue trivial
  | .num _ => .isTrue trivial
  | .str _ => .isTrue trivial
  | .arr vs => decideDistinctItems vs
  | .obj fs =>
    have := decideDistinctFields fs
    inferInstanceAs (Decidable (_ ∧ _))
def decideDistinctItems : (vs : List Json) → Decidable (DistinctItems vs)
  | [] => .isTrue trivial
  | v :: vs =>
    have := decideDistinct v
    have := decideDistinctItems vs
    inferInstanceAs (Decidable (_ ∧ _))
def decideDistinctFields : (fs : List (String × Json)) → Decidable (DistinctFields fs)
  | [] => .isTrue trivial
  | (_, v) :: fs =>
    have := decideDistinct v
    have := decideDistinctFields fs
    inferInstanceAs (Decidable (_ ∧ _))
end

instance : DecidablePred Distinct := decideDistinct

/-! ## Strings -/

theorem unhex4_hex4 : ∀ n < 32, unhex4 (n / 4096 % 16).digitChar (n / 256 % 16).digitChar
    (n / 16 % 16).digitChar (n % 16).digitChar = some (Char.ofNat n) := by decide

theorem ofNat_of_toNat {c : Char} {n : Nat} (h : c.toNat = n) : Char.ofNat n = c := by
  rw [← h]
  exact Char.ofNat_toNat c

/-- Reading a plain character: it opens no escape and does not end the literal. -/
theorem stringBody_plain {c : Char} (cs : List Char) (hquote : c ≠ '"') (hslash : c ≠ '\\')
    (hctl : 32 ≤ c.toNat) :
    stringBody (c :: cs) = (stringBody cs).map fun p => (c :: p.1, p.2) := by
  have hread : stringBody (c :: cs) =
      if c.toNat < 32 ∨ c = '\\' then none
      else (stringBody cs).bind fun p => some (c :: p.1, p.2) := by
    rw [stringBody.eq_5]
    · split <;> rfl
    · intro h
      exact absurd h hquote
    · intro _ _ _ _ _ h
      exact absurd h hslash
    · intro _ _ h
      exact absurd h hslash
  have hnot : ¬(c.toNat < 32 ∨ c = '\\') := by
    rintro (h | h)
    · omega
    · exact hslash h
  rw [hread, if_neg hnot]
  cases stringBody cs <;> rfl

/-- Reading back one written character. -/
theorem stringBody_escape (c : Char) (cs : List Char) :
    stringBody (escape c ++ cs) = (stringBody cs).map fun p => (c :: p.1, p.2) := by
  have letter : ∀ (e : Char), e ≠ 'u' → unescape e = some c →
      stringBody ('\\' :: e :: cs) = (stringBody cs).map fun p => (c :: p.1, p.2) := by
    intro e he hc
    rw [stringBody.eq_4, hc]
    · cases stringBody cs <;> rfl
    · intro _ _ _ _ _ h
      exact absurd h he
  unfold escape
  split_ifs with h1 h2 h3 h4 h5 h6 h7 h8
  · exact letter _ (by decide) (by rw [h1]; rfl)
  · exact letter _ (by decide) (by rw [h2]; rfl)
  · exact letter _ (by decide) (congrArg some (ofNat_of_toNat h3))
  · exact letter _ (by decide) (congrArg some (ofNat_of_toNat h4))
  · exact letter _ (by decide) (congrArg some (ofNat_of_toNat h5))
  · exact letter _ (by decide) (congrArg some (ofNat_of_toNat h6))
  · exact letter _ (by decide) (congrArg some (ofNat_of_toNat h7))
  · have hread := unhex4_hex4 c.toNat h8
    rw [Char.ofNat_toNat] at hread
    simp only [hex4, List.cons_append, List.nil_append, stringBody, hread]
    cases stringBody cs <;> rfl
  · exact stringBody_plain cs h1 h2 (by omega)

theorem stringBody_chars (s cs : List Char) :
    stringBody (s.flatMap escape ++ '"' :: cs) = some (s, cs) := by
  induction s with
  | nil => rfl
  | cons c s ih =>
    rw [List.flatMap_cons, List.append_assoc, stringBody_escape, ih]
    rfl

/-- Reading back a written string literal, its opening quote read already. -/
theorem stringBody_quote (s : String) (cs : List Char) :
    stringBody (s.toList.flatMap escape ++ ['"'] ++ cs) = some (s.toList, cs) := by
  rw [List.append_assoc]
  exact stringBody_chars s.toList cs

/-! ## Numbers -/

theorem natural_toDigits (n : Nat) : natural (Nat.toDigits 10 n) = some n := by
  have hdigits : (Nat.toDigits 10 n).all Char.isDigit = true := by
    rw [List.all_eq_true]
    intro c hc
    exact Nat.isDigit_of_mem_toDigits (by decide) (by decide) hc
  have hlead : (Nat.toDigits 10 n).length = 1 ∨ (Nat.toDigits 10 n).head? ≠ some '0' := by
    induction n using Nat.strong_induction_on with
    | _ n ih =>
      by_cases hn : n < 10
      · left
        rw [Nat.toDigits_of_lt_base hn]
        rfl
      · right
        -- the leading digit is that of the quotient
        have hpos : 0 < n / 10 := by omega
        rw [Nat.toDigits_of_base_le (by decide) (by omega), List.head?_append_of_ne_nil _
          Nat.toDigits_ne_nil]
        by_cases hq : n / 10 < 10
        · rw [Nat.toDigits_of_lt_base hq]
          have lead : ∀ q < 10, 0 < q → [q.digitChar].head? ≠ some '0' := by decide
          exact lead _ hq hpos
        · have hall : (Nat.toDigits 10 (n / 10)).all Char.isDigit = true := by
            rw [List.all_eq_true]
            intro c hc
            exact Nat.isDigit_of_mem_toDigits (by decide) (by decide) hc
          rcases ih (n / 10) (by omega) hall with hlen | hhead
          · exfalso
            have := (Nat.length_toDigits_le_iff (n := n / 10) (b := 10) (k := 1) (by decide)
              (by decide)).mp (by omega)
            omega
          · exact hhead
  rw [natural, if_pos ⟨Nat.toDigits_ne_nil, hdigits, hlead⟩]
  rw [Nat.ofDigitChars_ten_toDigits]

/-- What follows a value does not continue a number. -/
def Ends (cs : List Char) : Prop := ∀ c ∈ cs.head?, isNumeric c = false

theorem Ends.nil : Ends [] := by
  intro c hc
  cases hc

theorem Ends.cons {c : Char} (cs : List Char) (hc : isNumeric c = false) : Ends (c :: cs) := by
  intro d hd
  cases hd
  exact hc

theorem isNumeric_of_isDigit {c : Char} (h : c.isDigit = true) : isNumeric c = true := by
  simp [isNumeric, h]

theorem decimal_numeric (n : Int) : ∀ c ∈ decimal n, isNumeric c = true := by
  intro c hc
  cases n with
  | ofNat n => exact isNumeric_of_isDigit (Nat.isDigit_of_mem_toDigits (by decide) (by decide) hc)
  | negSucc n =>
    rcases List.mem_cons.mp hc with rfl | hc
    · rfl
    · exact isNumeric_of_isDigit (Nat.isDigit_of_mem_toDigits (by decide) (by decide) hc)

theorem integer_decimal (n : Int) : integer (decimal n) = some n := by
  cases n with
  | ofNat n =>
    have hne : ∀ ds, Nat.toDigits 10 n ≠ '-' :: ds := by
      intro ds h
      have hdigit : '-'.isDigit = true :=
        Nat.isDigit_of_mem_toDigits (b := 10) (n := n) (by decide) (by decide)
          (h ▸ List.mem_cons_self)
      exact absurd hdigit (by decide)
    rw [decimal, integer.eq_2 _ hne, natural_toDigits]
    rfl
  | negSucc n =>
    rw [decimal, integer, natural_toDigits]
    rfl

/-- Reading back a written number. -/
theorem number_decimal (n : Int) {cs : List Char} (hcs : Ends cs) :
    number (decimal n ++ cs) = some (.num n, cs) := by
  have hrest : cs.takeWhile isNumeric = [] ∧ cs.dropWhile isNumeric = cs := by
    cases cs with
    | nil => exact ⟨rfl, rfl⟩
    | cons c cs =>
      have hc := hcs c rfl
      rw [List.takeWhile_cons_of_neg (by simp [hc]), List.dropWhile_cons_of_neg (by simp [hc])]
      exact ⟨rfl, rfl⟩
  rw [number, List.takeWhile_append_of_pos (decimal_numeric n),
    List.dropWhile_append_of_pos (decimal_numeric n), hrest.1, hrest.2, List.append_nil,
    integer_decimal]
  rfl

/-! ## Values -/

@[simp] theorem skipSpace_cons {c : Char} (cs : List Char) (h : isSpace c = false) :
    skipSpace (c :: cs) = c :: cs :=
  List.dropWhile_cons_of_neg (by simp [h])

theorem fieldKey_quote (k : String) (cs : List Char) :
    fieldKey (quote k ++ ':' :: cs) = some (k, cs) := by
  rw [quote, List.cons_append, fieldKey, skipSpace_cons _ rfl]
  have hcolon : skipSpace (':' :: cs) = ':' :: cs := skipSpace_cons _ rfl
  simp only [stringBody_quote, Option.bind_eq_bind, Option.bind_some, hcolon,
    String.ofList_toList]
  rfl

/-- No value's text opens with a space or with a closing bracket. -/
theorem render_head (v : Json) : ∃ c cs, v.render = c :: cs ∧ isSpace c = false ∧ c ≠ ']' ∧
    c ≠ '}' := by
  have digits : ∀ n, ∃ c cs, Nat.toDigits 10 n = c :: cs ∧ isSpace c = false ∧ c ≠ ']' ∧
      c ≠ '}' := by
    intro n
    obtain ⟨c, cs, h⟩ := List.exists_cons_of_ne_nil (Nat.toDigits_ne_nil (n := n) (b := 10))
    have hc : c.isDigit = true :=
      Nat.isDigit_of_mem_toDigits (by decide) (by decide) (h ▸ List.mem_cons_self)
    refine ⟨c, cs, h, ?_, ?_, ?_⟩
    · cases hs : isSpace c with
      | false => rfl
      | true =>
        simp only [isSpace, Bool.or_eq_true, decide_eq_true_eq] at hs
        rcases hs with ((rfl | rfl) | rfl) | rfl <;> exact absurd hc (by decide)
    · rintro rfl
      exact absurd hc (by decide)
    · rintro rfl
      exact absurd hc (by decide)
  cases v with
  | null => exact ⟨_, _, rfl, rfl, by decide, by decide⟩
  | bool b => cases b <;> exact ⟨_, _, rfl, rfl, by decide, by decide⟩
  | num n =>
    cases n with
    | ofNat n => exact digits n
    | negSucc n => exact ⟨_, _, rfl, rfl, by decide, by decide⟩
  | str s => exact ⟨_, _, rfl, rfl, by decide, by decide⟩
  | arr vs => cases vs <;> exact ⟨_, _, rfl, rfl, by decide, by decide⟩
  | obj fs =>
    rcases fs with _ | ⟨⟨k, v⟩, fs⟩ <;> exact ⟨_, _, rfl, rfl, by decide, by decide⟩

/-- No value's text opens with a byte order mark. -/
theorem render_head_ne (v : Json) : v.render.head? ≠ some '\uFEFF' := by
  cases v with
  | num n =>
    intro h
    have hnumeric := decimal_numeric n '\uFEFF' (List.mem_of_head? h)
    exact absurd hnumeric (by decide)
  | null => decide
  | bool b => cases b <;> decide
  | str s => exact fun h => absurd (Option.some.inj h) (by decide)
  | arr vs => cases vs <;> exact fun h => absurd (Option.some.inj h) (by decide)
  | obj fs =>
    rcases fs with _ | ⟨⟨k, v⟩, fs⟩ <;> exact fun h => absurd (Option.some.inj h) (by decide)

theorem renderItems_ends (vs : List Json) (cs : List Char) : Ends (renderItems vs ++ cs) := by
  cases vs <;> exact .cons _ rfl

theorem renderFields_ends (fs : List (String × Json)) (cs : List Char) :
    Ends (renderFields fs ++ cs) := by
  rcases fs with _ | ⟨⟨k, v⟩, fs⟩ <;> exact .cons _ rfl

/-- A field whose key is new goes to the end. -/
theorem setField_fresh {fields : List (String × Json)} {key : String} {v : Json}
    (h : key ∉ fields.map Prod.fst) : setField fields key v = fields ++ [(key, v)] := by
  refine if_neg ?_
  rw [List.any_eq_true]
  rintro ⟨f, hf, hkey⟩
  rw [decide_eq_true_eq] at hkey
  exact h (List.mem_map.mpr ⟨f, hf, hkey⟩)

/-- Reading a number literal: none of the other forms opens with its first character. -/
theorem value_decimal (n : Int) (fuel : Nat) {cs : List Char} (hcs : Ends cs) :
    value (fuel + 1) (decimal n ++ cs) = some (.num n, cs) := by
  obtain ⟨c, ds, hn, hspace, -, -⟩ := render_head (.num n)
  have hc : isNumeric c = true := by
    refine decimal_numeric n c ?_
    rw [show decimal n = c :: ds from hn]
    exact List.mem_cons_self
  have hread := number_decimal n hcs
  rw [show decimal n = c :: ds from hn, List.cons_append] at hread ⊢
  rw [value, skipSpace_cons _ hspace]
  split
  any_goals
    rename_i h
    obtain ⟨rfl, -⟩ := List.cons.inj h
    exact absurd hc (by decide)
  exact hread

mutual
/-- Reading back a written value, whatever follows it. -/
theorem value_render : ∀ (v : Json) (fuel : Nat) (cs : List Char), v.Distinct →
    v.render.length ≤ fuel → Ends cs → value fuel (v.render ++ cs) = some (v, cs)
  | v, 0, _, _, hfuel, _ => by
    obtain ⟨c, cs, h, -⟩ := render_head v
    rw [h] at hfuel
    cases hfuel
  | .null, fuel + 1, cs, _, _, _ => rfl
  | .bool true, fuel + 1, cs, _, _, _ => rfl
  | .bool false, fuel + 1, cs, _, _, _ => rfl
  | .num n, fuel + 1, cs, _, _, hcs => value_decimal n fuel hcs
  | .str s, fuel + 1, cs, _, _, _ => by
    rw [render, quote, List.cons_append, value, skipSpace_cons _ rfl]
    simp only [stringBody_quote, Option.map_some, String.ofList_toList]
  | .arr [], fuel + 1, cs, _, _, _ => rfl
  | .arr (v :: vs), fuel + 1, cs, hd, hfuel, _ => by
    obtain ⟨hdv, hdvs⟩ := hd
    simp only [render, List.length_cons, List.length_append] at hfuel
    have hv := value_render v fuel (renderItems vs ++ cs) hdv (by omega) (renderItems_ends vs cs)
    have hvs := items_render vs fuel cs hdvs (by omega)
    obtain ⟨c, ds, hc, hspace, hclose, -⟩ := render_head v
    rw [render, List.cons_append, List.append_assoc, value, skipSpace_cons _ rfl]
    simp only
    rw [hc, List.cons_append] at hv ⊢
    rw [skipSpace_cons _ hspace]
    split
    · rename_i h
      exact absurd (List.cons.inj h).1 hclose
    · simp only [hv, hvs, Option.bind_eq_bind, Option.bind_some]
      rfl
  | .obj [], fuel + 1, cs, _, _, _ => rfl
  | .obj ((k, v) :: fs), fuel + 1, cs, hd, hfuel, _ => by
    obtain ⟨hkeys, hdv, hdfs⟩ := hd
    simp only [render, List.length_cons, List.length_append] at hfuel
    have hv := value_render v fuel (renderFields fs ++ cs) hdv (by omega) (renderFields_ends fs cs)
    have hfs := fields_render fs [(k, v)] fuel cs hkeys hdfs (by omega)
    have hkey := fieldKey_quote k (v.render ++ (renderFields fs ++ cs))
    rw [render, List.cons_append, List.append_assoc, List.cons_append, List.append_assoc, value,
      skipSpace_cons _ rfl]
    simp only
    rw [quote, List.cons_append] at hkey ⊢
    rw [skipSpace_cons _ rfl]
    split
    · rename_i h
      exact absurd (List.cons.inj h).1 (by decide)
    · simp only [hkey, hv, hfs, Option.bind_eq_bind, Option.bind_some]
      rfl
theorem items_render : ∀ (vs : List Json) (fuel : Nat) (cs : List Char), DistinctItems vs →
    (renderItems vs).length ≤ fuel → items fuel (renderItems vs ++ cs) = some (vs, cs)
  | [], fuel + 1, cs, _, _ => rfl
  | v :: vs, fuel + 1, cs, hd, hfuel => by
    obtain ⟨hdv, hdvs⟩ := hd
    simp only [renderItems, List.length_cons, List.length_append] at hfuel
    have hv := value_render v fuel (renderItems vs ++ cs) hdv (by omega) (renderItems_ends vs cs)
    have hvs := items_render vs fuel cs hdvs (by omega)
    rw [renderItems, List.cons_append, List.append_assoc, items, skipSpace_cons _ rfl]
    simp only [hv, hvs, Option.bind_eq_bind, Option.bind_some]
    rfl
theorem fields_render : ∀ (fs before : List (String × Json)) (fuel : Nat) (cs : List Char),
    ((before ++ fs).map Prod.fst).Nodup → DistinctFields fs → (renderFields fs).length ≤ fuel →
    fields fuel before (renderFields fs ++ cs) = some (before ++ fs, cs)
  | [], before, fuel + 1, cs, _, _, _ => by
    rw [List.append_nil]
    rfl
  | (k, v) :: fs, before, fuel + 1, cs, hkeys, hd, hfuel => by
    obtain ⟨hdv, hdfs⟩ := hd
    simp only [renderFields, List.length_cons, List.length_append] at hfuel
    have hsplit : before ++ (k, v) :: fs = before ++ [(k, v)] ++ fs := by
      rw [List.append_assoc, List.singleton_append]
    have hfresh : k ∉ before.map Prod.fst := by
      rw [List.map_append, List.nodup_append] at hkeys
      intro hk
      exact hkeys.2.2 k hk k List.mem_cons_self rfl
    have hv := value_render v fuel (renderFields fs ++ cs) hdv (by omega) (renderFields_ends fs cs)
    have hfs := fields_render fs (before ++ [(k, v)]) fuel cs (hsplit ▸ hkeys) hdfs (by omega)
    have hkey := fieldKey_quote k (v.render ++ (renderFields fs ++ cs))
    rw [renderFields, List.cons_append, List.append_assoc, List.cons_append, List.append_assoc,
      fields, skipSpace_cons _ rfl]
    simp only [hkey, hv, setField_fresh hfresh, Option.bind_eq_bind, Option.bind_some, hfs,
      hsplit]
end

/-- A value is read back from its own text. -/
theorem parse_stringify {v : Json} (h : v.Distinct) : parse v.stringify = some v := by
  have hread := value_render v v.render.length [] h (Nat.le_refl _) .nil
  rw [List.append_nil] at hread
  rw [parse, stringify, String.toList_ofList, hread]
  rfl

/-- Two values with one text are one value. -/
theorem stringify_inj {v w : Json} (hv : v.Distinct) (hw : w.Distinct)
    (h : v.stringify = w.stringify) : v = w := by
  have := parse_stringify hv
  rw [h, parse_stringify hw] at this
  exact (Option.some.inj this).symm

/-! ## Values as strings -/

mutual
/-- `String(value)` returns: no object in the value hides the inherited `toString` with a field
of its own, which cannot be called. -/
def hasText : Json → Bool
  | .arr vs => haveTexts vs
  | .obj fields => (field? fields "toString").isNone
  | _ => true
def haveTexts : List Json → Bool
  | [] => true
  | v :: vs => hasText v && haveTexts vs
end

mutual
/-- `String(value)`, where it returns. -/
def toText : Json → String
  | .null => "null"
  | .bool b => if b then "true" else "false"
  | .num n => String.ofList (decimal n)
  | .str s => s
  | .arr vs => ",".intercalate (itemTexts vs)
  | .obj _ => "[object Object]"
/-- The texts `Array.prototype.join` puts its commas between. -/
def itemTexts : List Json → List String
  | [] => []
  | .null :: vs => "" :: itemTexts vs
  | v :: vs => toText v :: itemTexts vs
end

/-- The value in so many arrays of one item. -/
def nest : Nat → Json → Json
  | 0, v => v
  | n + 1, v => .arr [nest n v]

@[simp] theorem nest_zero (v : Json) : nest 0 v = v := rfl

@[simp] theorem nest_succ (n : Nat) (v : Json) : nest (n + 1) v = .arr [nest n v] := rfl

/-- A text that only a string has, or the arrays around it: a word that no other value
is written as. -/
structure Word (s : String) : Prop where
  comma : ',' ∉ s.toList
  numeric : ∃ c ∈ s.toList, isNumeric c = false
  bare : s ∉ ["null", "true", "false", "[object Object]"]

theorem itemTexts_cons {v : Json} (h : v ≠ .null) (vs : List Json) :
    itemTexts (v :: vs) = toText v :: itemTexts vs := by
  cases v with
  | null => exact absurd rfl h
  | bool b => rfl
  | num n => rfl
  | str s => rfl
  | arr items => rfl
  | obj fields => rfl

/-- An array around a string has the string's text. -/
theorem toText_nest (n : Nat) (s : String) : toText (nest n (.str s)) = s := by
  induction n with
  | zero => rfl
  | succ n ih =>
    have hnot : nest n (.str s) ≠ .null := by cases n <;> simp
    rw [nest_succ, toText, itemTexts_cons hnot, itemTexts, ih, String.intercalate_singleton]

theorem hasText_nest (n : Nat) (s : String) : hasText (nest n (.str s)) = true := by
  induction n with
  | zero => rfl
  | succ n ih => rw [nest_succ, hasText, haveTexts, ih, haveTexts, Bool.and_self]

/-- What is written as a word is the word, in arrays of one item. -/
theorem exists_nest {s : String} (hs : Word s) : ∀ v : Json, toText v = s → ∃ n, v = nest n (.str s)
  | .null, h => absurd (h ▸ List.mem_cons_self) hs.bare
  | .bool b, h => by
    refine absurd ?_ hs.bare
    rw [← h]
    cases b <;> simp [toText]
  | .num n, h => by
    obtain ⟨c, hc, hnot⟩ := hs.numeric
    rw [← h, toText, String.toList_ofList] at hc
    rw [decimal_numeric n c hc] at hnot
    cases hnot
  | .str t, h => ⟨0, congrArg Json.str h⟩
  | .obj _, h => by
    refine absurd ?_ hs.bare
    rw [← h]
    simp [toText]
  | .arr [], h => by
    obtain ⟨c, hc, -⟩ := hs.numeric
    rw [← h] at hc
    simp [toText, itemTexts] at hc
  | .arr [v], h => by
    by_cases hnull : v = .null
    · obtain ⟨c, hc, -⟩ := hs.numeric
      rw [← h, hnull] at hc
      simp [toText, itemTexts] at hc
    · rw [toText, itemTexts_cons hnull, itemTexts, String.intercalate_singleton] at h
      obtain ⟨n, hn⟩ := exists_nest hs v h
      exact ⟨n + 1, by rw [hn, nest_succ]⟩
  | .arr (v :: w :: vs), h => by
    -- two items have a comma between them
    obtain ⟨t, ts, ht⟩ : ∃ t ts, itemTexts (w :: vs) = t :: ts := by
      by_cases hw : w = .null
      · exact ⟨_, _, by rw [hw, itemTexts]⟩
      · exact ⟨_, _, itemTexts_cons hw vs⟩
    refine absurd ?_ hs.comma
    rw [← h, toText]
    by_cases hv : v = .null
    · rw [hv, itemTexts, ht, String.intercalate_cons_cons]
      simp
    · rw [itemTexts_cons hv, ht, String.intercalate_cons_cons]
      simp

theorem distinct_nest (n : Nat) {v : Json} (h : v.Distinct) : (nest n v).Distinct := by
  induction n with
  | zero => exact h
  | succ n ih => exact ⟨ih, trivial⟩

/-- How many arrays of one item are around a value. -/
def wraps : Json → Nat
  | .arr [v] => wraps v + 1
  | _ => 0

theorem wraps_nest (n : Nat) (s : String) : wraps (nest n (.str s)) = n := by
  induction n with
  | zero => rfl
  | succ n ih => rw [nest_succ, wraps, ih]

/-! ## Sizes -/

/-- The number of bytes a text takes in UTF-8. -/
def byteSize (cs : List Char) : Nat := (cs.map Char.utf8Size).sum

@[simp] theorem byteSize_nil : byteSize [] = 0 := rfl

@[simp] theorem byteSize_cons (c : Char) (cs : List Char) :
    byteSize (c :: cs) = c.utf8Size + byteSize cs := rfl

@[simp] theorem byteSize_append (cs ds : List Char) :
    byteSize (cs ++ ds) = byteSize cs + byteSize ds := by
  simp [byteSize]

/-- Every array around a value takes two bytes more. -/
theorem byteSize_nest (n : Nat) (v : Json) :
    byteSize (nest n v).render = byteSize v.render + 2 * n := by
  induction n with
  | zero => rfl
  | succ n ih =>
    simp only [nest_succ, render, renderItems, byteSize_cons, byteSize_append, byteSize_nil, ih]
    show 1 + (_ + (1 + 0)) = _
    omega

theorem size_stringify (v : Json) : v.stringify.utf8ByteSize = byteSize v.render := by
  unfold stringify
  generalize v.render = cs
  induction cs with
  | nil => rfl
  | cons c cs ih =>
    rw [byteSize_cons, ← ih, ← List.singleton_append, String.ofList_append,
      String.utf8ByteSize_append]
    congr 1
    exact String.utf8ByteSize_singleton

/-- A character a string literal writes as itself, in one byte. -/
def Plain (c : Char) : Prop := escape c = [c] ∧ c.utf8Size = 1

instance : DecidablePred Plain := fun c =>
  inferInstanceAs (Decidable (escape c = [c] ∧ c.utf8Size = 1))

theorem plain_of_toNat {c : Char} (hlow : 35 ≤ c.toNat) (hhigh : c.toNat ≤ 127) (hne : c ≠ '\\') :
    Plain c := by
  constructor
  · have hquote : c ≠ '"' := by
      rintro rfl
      exact absurd hlow (by decide)
    rw [escape, if_neg hquote, if_neg hne]
    repeat rw [if_neg (by omega)]
  · rw [Char.utf8Size_eq_one_iff, UInt32.le_iff_toNat_le]
    exact hhigh

theorem byteSize_quote {s : String} (h : ∀ c ∈ s.toList, Plain c) :
    byteSize (quote s) = s.toList.length + 2 := by
  have hbody : byteSize (s.toList.flatMap escape) = s.toList.length := by
    revert h
    generalize s.toList = cs
    intro h
    induction cs with
    | nil => rfl
    | cons c cs ih =>
      obtain ⟨hescape, hsize⟩ := h c List.mem_cons_self
      rw [List.flatMap_cons, hescape, byteSize_append, ih fun d hd => h d (.tail _ hd)]
      simp only [byteSize_cons, byteSize_nil, hsize, List.length_cons]
      omega
  simp only [quote, byteSize_cons, byteSize_append, byteSize_nil, hbody]
  show 1 + (s.toList.length + (1 + 0)) = _
  omega

end Json

end Lib
