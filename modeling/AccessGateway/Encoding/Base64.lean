import AccessGateway.Text.Utf8

/-!
# Base64

Four characters of an alphabet of 64 stand for three bytes.  A text is read only in its canonical
form: the padding is complete (or left out altogether, where the alphabet is used without it) and
the bits that carry nothing are zero.  Main statement: `decode?_encode`, what is written is read
back.
-/

set_option autoImplicit false

namespace AccessGateway.Base64

/-- The two characters in which alphabets differ, and whether the last group is padded. -/
structure Variant where
  digit62 : Char
  digit63 : Char
  padded : Bool
deriving DecidableEq, Repr

/-- The alphabet with `+` and `/`, padded. -/
def standard : Variant := ⟨'+', '/', true⟩

/-- The alphabet with `-` and `_`, without padding, as it is used inside tokens. -/
def urlSafe : Variant := ⟨'-', '_', false⟩

/-- The character for a number below 64. -/
def digit (v : Variant) (n : Nat) : Char :=
  if n < 26 then Char.ofNat (0x41 + n)
  else if n < 52 then Char.ofNat (0x61 + (n - 26))
  else if n < 62 then Char.ofNat (0x30 + (n - 52))
  else if n = 62 then v.digit62
  else v.digit63

/-- The number that a character of the alphabet stands for. -/
def value? (v : Variant) (c : Char) : Option Nat :=
  if c.isUpper then some (c.toNat - 0x41)
  else if c.isLower then some (c.toNat - 0x61 + 26)
  else if c.isDigit then some (c.toNat - 0x30 + 52)
  else if c = v.digit62 then some 62
  else if c = v.digit63 then some 63
  else none

/-- The padding that completes a group of which `n` characters are missing. -/
def padding (v : Variant) (n : Nat) : List Char := if v.padded then List.replicate n '=' else []

/-- The text of a sequence of bytes. -/
def encode (v : Variant) : Bytes → List Char
  | [] => []
  | [a] =>
    digit v (a.toNat / 4) :: digit v (a.toNat % 4 * 16) :: padding v 2
  | [a, b] =>
    digit v (a.toNat / 4) :: digit v (a.toNat % 4 * 16 + b.toNat / 16) ::
      digit v (b.toNat % 16 * 4) :: padding v 1
  | a :: b :: c :: rest =>
    digit v (a.toNat / 4) :: digit v (a.toNat % 4 * 16 + b.toNat / 16) ::
      digit v (b.toNat % 16 * 4 + c.toNat / 64) :: digit v (c.toNat % 64) :: encode v rest

/-- The one byte of a last group of two digits. -/
def lastOne? (v : Variant) (a b : Char) : Option Bytes := do
  let x ← value? v a
  let y ← value? v b
  if y % 16 = 0 then some [UInt8.ofNat (x * 4 + y / 16)] else none

/-- The two bytes of a last group of three digits. -/
def lastTwo? (v : Variant) (a b c : Char) : Option Bytes := do
  let x ← value? v a
  let y ← value? v b
  let z ← value? v c
  if z % 4 = 0 then some [UInt8.ofNat (x * 4 + y / 16), UInt8.ofNat (y % 16 * 16 + z / 4)] else none

/-- The three bytes of a full group. -/
def group? (v : Variant) (a b c d : Char) : Option Bytes := do
  let x ← value? v a
  let y ← value? v b
  let z ← value? v c
  let w ← value? v d
  some [UInt8.ofNat (x * 4 + y / 16), UInt8.ofNat (y % 16 * 16 + z / 4),
    UInt8.ofNat (z % 4 * 64 + w)]

/-- The bytes that a canonical text stands for. -/
def decode? (v : Variant) : List Char → Option Bytes
  | [] => some []
  | [a, b] => if v.padded then none else lastOne? v a b
  | [a, b, c] => if v.padded then none else lastTwo? v a b c
  | a :: b :: c :: d :: rest =>
    if v.padded ∧ d = '=' ∧ rest = [] then
      if c = '=' then lastOne? v a b else lastTwo? v a b c
    else do
      let bytes ← group? v a b c d
      let more ← decode? v rest
      some (bytes ++ more)
  | [_] => none

theorem value?_digit_standard {n : Nat} (h : n < 64) :
    value? standard (digit standard n) = some n := by
  have all : ∀ m : Fin 64, value? standard (digit standard m) = some m.val := by decide
  exact all ⟨n, h⟩

theorem digit_standard_ne_pad {n : Nat} (h : n < 64) : digit standard n ≠ '=' := by
  have all : ∀ m : Fin 64, digit standard m ≠ '=' := by decide
  exact all ⟨n, h⟩

private theorem ofNat_toNat_eq {a : UInt8} {n : Nat} (h : n = a.toNat) : UInt8.ofNat n = a := by
  subst h; simp

/-- What is written in the standard alphabet is read back. -/
theorem decode?_encode (bs : Bytes) : decode? standard (encode standard bs) = some bs := by
  fun_induction encode standard bs with
  | case1 => rfl
  | case2 a =>
    have := a.toNat_lt
    simp only [padding, standard, ↓reduceIte, List.replicate, decode?]
    have h1 : value? standard (digit standard (a.toNat / 4)) = some (a.toNat / 4) :=
      value?_digit_standard (by omega)
    have h2 : value? standard (digit standard (a.toNat % 4 * 16)) = some (a.toNat % 4 * 16) :=
      value?_digit_standard (by omega)
    simp only [standard] at h1 h2
    simp only [and_self, ↓reduceIte, lastOne?, h1, h2, Option.bind_eq_bind, Option.bind_some]
    rw [if_pos (by omega)]
    simp only [Option.some.injEq, List.cons.injEq, and_true]
    exact ofNat_toNat_eq (by omega)
  | case3 a b =>
    have := a.toNat_lt
    have := b.toNat_lt
    simp only [padding, standard, ↓reduceIte, List.replicate, decode?]
    have h1 : value? standard (digit standard (a.toNat / 4)) = some (a.toNat / 4) :=
      value?_digit_standard (by omega)
    have h2 : value? standard (digit standard (a.toNat % 4 * 16 + b.toNat / 16)) =
        some (a.toNat % 4 * 16 + b.toNat / 16) := value?_digit_standard (by omega)
    have h3 : value? standard (digit standard (b.toNat % 16 * 4)) = some (b.toNat % 16 * 4) :=
      value?_digit_standard (by omega)
    have h4 : digit standard (b.toNat % 16 * 4) ≠ '=' := digit_standard_ne_pad (by omega)
    simp only [standard] at h1 h2 h3 h4
    simp only [and_self, ↓reduceIte, h4, lastTwo?, h1, h2, h3, Option.bind_eq_bind,
      Option.bind_some]
    rw [if_pos (by omega)]
    simp only [Option.some.injEq, List.cons.injEq, and_true]
    exact ⟨ofNat_toNat_eq (by omega), ofNat_toNat_eq (by omega)⟩
  | case4 a b c rest ih =>
    have := a.toNat_lt
    have := b.toNat_lt
    have := c.toNat_lt
    have h1 : value? standard (digit standard (a.toNat / 4)) = some (a.toNat / 4) :=
      value?_digit_standard (by omega)
    have h2 : value? standard (digit standard (a.toNat % 4 * 16 + b.toNat / 16)) =
        some (a.toNat % 4 * 16 + b.toNat / 16) := value?_digit_standard (by omega)
    have h3 : value? standard (digit standard (b.toNat % 16 * 4 + c.toNat / 64)) =
        some (b.toNat % 16 * 4 + c.toNat / 64) := value?_digit_standard (by omega)
    have h4 : value? standard (digit standard (c.toNat % 64)) = some (c.toNat % 64) :=
      value?_digit_standard (by omega)
    have h5 : digit standard (c.toNat % 64) ≠ '=' := digit_standard_ne_pad (by omega)
    rw [decode?, if_neg (fun h => h5 h.2.1), ih]
    simp only [group?, h1, h2, h3, h4, Option.bind_eq_bind, Option.bind_some, Option.some.injEq,
      List.cons_append, List.nil_append, List.cons.injEq, and_true]
    exact ⟨ofNat_toNat_eq (by omega), ofNat_toNat_eq (by omega), ofNat_toNat_eq (by omega)⟩

end AccessGateway.Base64
