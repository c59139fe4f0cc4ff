import AccessGateway.Text.Ascii
import AccessGateway.Text.Split
import AccessGateway.Text.Utf8

/-!
# Form encoding

The encoding of form fields: a blank is written `+`, letters, digits and `*-._` stand for
themselves, and every other byte of the UTF-8 text is `%` with two hexadecimal digits.  Reading is
lenient: a `%` that is not followed by two such digits stands for itself.  Main statements:

* `unescape_escape`: an escaped sequence of bytes is read back,
* `separator_notMem_escape`: what is written holds neither of the characters that separate fields
  and parts of a field.
-/

set_option autoImplicit false

namespace AccessGateway.Form

/-- A byte that is written as itself. -/
def isSafe (b : UInt8) : Bool :=
  (0x30 ≤ b && b ≤ 0x39) || (0x41 ≤ b && b ≤ 0x5A) || (0x61 ≤ b && b ≤ 0x7A) ||
    b == 0x2A || b == 0x2D || b == 0x2E || b == 0x5F

/-- The written form of one byte. -/
def escapeByte (b : UInt8) : List Char :=
  if isSafe b then [Char.ofNat b.toNat]
  else if b = 0x20 then ['+']
  else ['%', Text.hexDigit (b.toNat / 16), Text.hexDigit (b.toNat % 16)]

/-- The written form of a text. -/
def encode (cs : List Char) : List Char := (Utf8.encode cs).flatMap escapeByte

/-- The hexadecimal value of a byte that is the code of a hexadecimal digit. -/
def hexByte? (b : UInt8) : Option Nat := Text.hexValue? (Char.ofNat b.toNat)

/-- The byte at the front of a non-empty sequence, with the rest: an escape, a `+`, or itself. -/
def unescapeHead (b : UInt8) (bs : Bytes) : UInt8 × Bytes :=
  if b = 0x25 then
    match bs with
    | h :: l :: rest =>
      match hexByte? h, hexByte? l with
      | some x, some y => (UInt8.ofNat (x * 16 + y), rest)
      | _, _ => (b, bs)
    | _ => (b, bs)
  else if b = 0x2B then (0x20, bs)
  else (b, bs)

theorem unescapeHead_length_le (b : UInt8) (bs : Bytes) :
    (unescapeHead b bs).2.length ≤ bs.length := by
  unfold unescapeHead
  split
  · split
    · split
      · simp only [List.length_cons]; omega
      · simp
    · simp
  · split <;> simp

/-- Undoes the escapes, after the bytes already read (`read` is in reverse). -/
def unescapeFrom (read : Bytes) : Bytes → Bytes
  | [] => read.reverse
  | b :: bs => unescapeFrom ((unescapeHead b bs).1 :: read) (unescapeHead b bs).2
termination_by bs => bs.length
decreasing_by
  have := unescapeHead_length_le b bs
  simp only [List.length_cons]
  omega

/-- The bytes without escapes. -/
def unescape (bs : Bytes) : Bytes := unescapeFrom [] bs

/-- The text that an encoded component stands for; ill-formed UTF-8 becomes U+FFFD. -/
def decode (bs : Bytes) : List Char := Utf8.decodeLossy (unescape bs)

/-- The fields of a form: its pieces between `&`, empty ones left out, each cut at its first `=`. -/
def parse (bs : Bytes) : List (String × String) :=
  ((Text.fields 0x26 bs).filter (· ≠ [])).map fun piece =>
    let (name, value) := (Text.cut? 0x3D piece).getD (piece, [])
    (String.ofList (decode name), String.ofList (decode value))

/-- The first field of a form with the given name. -/
def lookup? (name : String) (bs : Bytes) : Option String :=
  ((parse bs).find? (·.1 = name)).map (·.2)

/-- The written form of a list of fields. -/
def write (fields : List (String × String)) : String :=
  Text.join "&" (fields.map fun (name, value) =>
    String.ofList (encode name.toList ++ '=' :: encode value.toList))

theorem unescapeFrom_append (read last bs : Bytes) :
    unescapeFrom (read ++ last) bs = last.reverse ++ unescapeFrom read bs := by
  fun_induction unescapeFrom read bs with
  | case1 => simp [unescapeFrom]
  | case2 read b bs ih =>
    rw [unescapeFrom]
    exact ih

@[simp] theorem unescape_nil : unescape [] = [] := by simp [unescape, unescapeFrom]

theorem unescape_cons (b : UInt8) (bs : Bytes) :
    unescape (b :: bs) = (unescapeHead b bs).1 :: unescape (unescapeHead b bs).2 := by
  rw [unescape, unescapeFrom]
  simpa [unescape] using unescapeFrom_append [] [(unescapeHead b bs).1] (unescapeHead b bs).2

/-- What a byte is written as, in bytes. -/
def escapedByte (b : UInt8) : Bytes := (escapeByte b).map fun c => UInt8.ofNat c.toNat

/-- A property of all bytes, checked value by value. -/
theorem forall_byte {p : UInt8 → Prop} (h : ∀ n : Fin 256, p (UInt8.ofNat n)) (b : UInt8) :
    p b := by
  have := h ⟨b.toNat, b.toNat_lt⟩
  rwa [UInt8.ofNat_toNat] at this

theorem unescapeHead_safe {b : UInt8} (h : isSafe b = true) (rest : Bytes) :
    unescapeHead b rest = (b, rest) := by
  have : b ≠ 0x25 ∧ b ≠ 0x2B := by
    constructor <;> rintro rfl <;> exact absurd h (by decide)
  unfold unescapeHead
  rw [if_neg this.1, if_neg this.2]

theorem escapedByte_safe {b : UInt8} (h : isSafe b = true) : escapedByte b = [b] :=
  forall_byte (p := fun b => isSafe b = true → escapedByte b = [b]) (by decide +kernel) b h

theorem unescapeHead_hex (b : UInt8) (rest : Bytes) :
    unescapeHead 0x25 (UInt8.ofNat (Text.hexDigit (b.toNat / 16)).toNat ::
      UInt8.ofNat (Text.hexDigit (b.toNat % 16)).toNat :: rest) = (b, rest) := by
  have digit : ∀ n : Fin 16, hexByte? (UInt8.ofNat (Text.hexDigit n).toNat) = some n.val := by
    decide
  have hb := b.toNat_lt
  have high := digit ⟨b.toNat / 16, by omega⟩
  have low := digit ⟨b.toNat % 16, by omega⟩
  simp only at high low
  rw [unescapeHead, if_pos rfl]
  simp only [high, low]
  rw [Nat.div_add_mod', UInt8.ofNat_toNat]

theorem unescape_escapedByte (b : UInt8) (rest : Bytes) :
    unescape (escapedByte b ++ rest) = b :: unescape rest := by
  by_cases safe : isSafe b = true
  · rw [escapedByte_safe safe, List.singleton_append, unescape_cons, unescapeHead_safe safe]
  · rw [escapedByte, escapeByte, if_neg safe]
    split
    · next blank =>
      subst blank
      exact unescape_cons 0x2B rest
    · simp only [List.map_cons, List.map_nil, List.cons_append, List.nil_append]
      rw [show UInt8.ofNat (Char.toNat '%') = 0x25 from by decide, unescape_cons, unescapeHead_hex]

theorem unescape_escape (bs : Bytes) : unescape (bs.flatMap escapedByte) = bs := by
  induction bs with
  | nil => exact unescape_nil
  | cons b bs ih => rw [List.flatMap_cons, unescape_escapedByte, ih]

theorem separator_notMem_escape (bs : Bytes) :
    '&' ∉ bs.flatMap escapeByte ∧ '=' ∉ bs.flatMap escapeByte := by
  have one : ∀ b, '&' ∉ escapeByte b ∧ '=' ∉ escapeByte b := forall_byte (by decide +kernel)
  simp only [List.mem_flatMap, not_exists, not_and]
  exact ⟨fun b _ => (one b).1, fun b _ => (one b).2⟩

end AccessGateway.Form
