import AccessGateway.Encoding.Form
import AccessGateway.Proofs.Wire.CookieText

/-!
# Texts in forms

Every text can stand in a form, as the name or the value of a field, and is read again as it was
written.

## Results

* `Utf8.pieces_encode`, `Utf8.decode?_encode`, `Utf8.decodeLossy_encode` — the UTF-8 form of a text
  is read again.
* `Form.parse_write` — a written form is read again, field by field.
* `Form.lookup?_write` — what is found under a name.
* `Form.escaped_encode` — which characters an encoded text is made of.
-/

set_option autoImplicit false

namespace AccessGateway

/-! ## UTF-8 -/

namespace Utf8

theorem toNat_ofNat_of_lt {n : Nat} (h : n < 256) : (UInt8.ofNat n).toNat = n := by
  rw [UInt8.toNat_ofNat']
  exact Nat.mod_eq_of_lt h

/-- A byte in range gives six more bits. -/
theorem follow_ofNat {n : Nat} {lo hi : UInt8} (h : n < 256) (hlo : lo.toNat ≤ n)
    (hhi : n ≤ hi.toNat) (count acc : Nat) (rest : Bytes) :
    follow (count + 1) lo hi acc (UInt8.ofNat n :: rest) =
      follow count 0x80 0xBF (acc * 64 + (n - 0x80)) rest := by
  have hn := toNat_ofNat_of_lt h
  have hin : lo ≤ UInt8.ofNat n ∧ UInt8.ofNat n ≤ hi := by
    rw [UInt8.le_iff_toNat_le, UInt8.le_iff_toNat_le, hn]
    exact ⟨hlo, hhi⟩
  rw [follow, if_pos hin, hn]

/-- What a leading byte of three or four bytes announces; the ranges keep out what has a shorter
form and what is no character. -/
theorem lead?_three {n : Nat} (h : n < 16) :
    lead? (UInt8.ofNat (n + 224)) =
      some (n, 2, if n = 0 then 0xA0 else 0x80, if n = 13 then 0x9F else 0xBF) := by
  have all : ∀ m : Fin 16, lead? (UInt8.ofNat (m.val + 224)) =
      some (m.val, 2, if m.val = 0 then 0xA0 else 0x80, if m.val = 13 then 0x9F else 0xBF) := by
    decide
  exact all ⟨n, h⟩

theorem lead?_four {n : Nat} (h : n < 5) :
    lead? (UInt8.ofNat (n + 240)) =
      some (n, 3, if n = 0 then 0x90 else 0x80, if n = 4 then 0x8F else 0xBF) := by
  have all : ∀ m : Fin 5, lead? (UInt8.ofNat (m.val + 240)) =
      some (m.val, 3, if m.val = 0 then 0x90 else 0x80, if m.val = 4 then 0x8F else 0xBF) := by
    decide
  exact all ⟨n, h⟩

theorem lead?_two {n : Nat} (hlow : 2 ≤ n) (h : n < 32) :
    lead? (UInt8.ofNat (n + 192)) = some (n, 1, 0x80, 0xBF) := by
  have all : ∀ m : Fin 32, 2 ≤ m.val →
      lead? (UInt8.ofNat (m.val + 192)) = some (m.val, 1, 0x80, 0xBF) := by
    decide
  exact all ⟨n, h⟩ hlow

theorem lead?_one {n : Nat} (h : n < 128) :
    lead? (UInt8.ofNat n) = some (n, 0, 0x80, 0xBF) := by
  unfold lead?
  rw [toNat_ofNat_of_lt (by omega), if_pos h]

/-- The bytes of a character are read as this character, whatever follows. -/
theorem piece_utf8EncodeChar (c : Char) (rest : Bytes) :
    ∃ b bs, String.utf8EncodeChar c = b :: bs ∧ piece b (bs ++ rest) = (some c, rest) := by
  have hchar : Char.ofNat c.val.toNat = c := Char.ofNat_toNat c
  have hvalid : c.val.toNat < 0xD800 ∨ 0xDFFF < c.val.toNat ∧ c.val.toNat < 0x110000 := c.valid
  unfold String.utf8EncodeChar
  dsimp only
  generalize c.val.toNat = n at hchar hvalid ⊢
  -- by the number of bytes
  split
  · rename_i h
    refine ⟨_, _, rfl, ?_⟩
    unfold piece
    rw [lead?_one (by omega)]
    simp [follow, hchar]
  · split
    · rename_i h1 h2
      have hhigh : n / 64 % 32 = n / 64 := Nat.mod_eq_of_lt (by omega)
      refine ⟨_, _, rfl, ?_⟩
      unfold piece
      rw [hhigh, lead?_two (by omega) (by omega)]
      dsimp only [List.cons_append, List.nil_append]
      rw [follow_ofNat (by omega) (by simp) (by simp; omega), follow]
      have hvalue : n / 64 * 64 + n % 64 = n := by omega
      simp [hvalue, hchar]
    · split
      · rename_i h1 h2 h3
        have hhigh : n / 4096 % 16 = n / 4096 := Nat.mod_eq_of_lt (by omega)
        refine ⟨_, _, rfl, ?_⟩
        unfold piece
        rw [hhigh, lead?_three (by omega)]
        dsimp only [List.cons_append, List.nil_append]
        rw [follow_ofNat (by omega) (by split <;> simp; omega) (by split <;> simp <;> omega),
          follow_ofNat (by omega) (by simp) (by simp; omega), follow]
        have hvalue : (n / 4096 * 64 + n / 64 % 64) * 64 + n % 64 = n := by omega
        simp [hvalue, hchar]
      · rename_i h1 h2 h3
        have hhigh : n / 262144 % 8 = n / 262144 := Nat.mod_eq_of_lt (by omega)
        refine ⟨_, _, rfl, ?_⟩
        unfold piece
        rw [hhigh, lead?_four (by omega)]
        dsimp only [List.cons_append, List.nil_append]
        rw [follow_ofNat (by omega) (by split <;> simp; omega) (by split <;> simp <;> omega),
          follow_ofNat (by omega) (by simp) (by simp; omega),
          follow_ofNat (by omega) (by simp) (by simp; omega), follow]
        have hvalue : ((n / 262144 * 64 + n / 4096 % 64) * 64 + n / 64 % 64) * 64 + n % 64 = n := by
          omega
        simp [hvalue, hchar]

/-- The pieces of a text's UTF-8 form are its characters. -/
theorem pieces_encode (cs : List Char) : pieces (encode cs) = cs.map some := by
  induction cs with
  | nil => exact pieces_nil
  | cons c cs ih =>
    obtain ⟨b, bs, hbytes, hpiece⟩ := piece_utf8EncodeChar c (encode cs)
    have hencode : encode (c :: cs) = b :: (bs ++ encode cs) := by
      rw [encode, List.flatMap_cons, hbytes, List.cons_append]
      rfl
    rw [hencode, pieces_cons, hpiece, ih, List.map_cons]

theorem decode?_encode (cs : List Char) : decode? (encode cs) = some cs := by
  rw [decode?, pieces_encode]
  induction cs with
  | nil => rfl
  | cons c cs ih => simp [List.mapM_cons, ih]

theorem decodeLossy_encode (cs : List Char) : decodeLossy (encode cs) = cs := by
  rw [decodeLossy, pieces_encode, List.map_map]
  exact (List.map_congr_left fun c _ => rfl).trans (List.map_id _)

end Utf8

/-! ## Forms -/

namespace Form

/-- All characters of an encoded text are ASCII characters. -/
theorem lt_of_mem_encode {cs : List Char} {c : Char} (h : c ∈ encode cs) : c.toNat < 128 := by
  have hone : ∀ b, (escapeByte b).all (·.toNat < 128) = true := forall_byte (by decide +kernel)
  obtain ⟨b, -, hc⟩ := List.mem_flatMap.mp h
  exact of_decide_eq_true (List.all_eq_true.mp (hone b) c hc)

/-- An encoded text, in bytes. -/
theorem encode_encode (cs : List Char) :
    Utf8.encode (encode cs) = (Utf8.encode cs).flatMap escapedByte := by
  have hascii : ∀ c ∈ (String.ofList (encode cs)).toList, c.toNat < 128 := by
    rw [String.toList_ofList]
    exact fun c => lt_of_mem_encode
  have hbytes := HeaderValue.ofText_bytes hascii
  rw [Bytes.ofText, String.toList_ofList] at hbytes
  rw [hbytes, encode, List.map_flatMap]
  rfl

/-- An encoded text is read again. -/
theorem decode_encode (cs : List Char) : decode (Utf8.encode (encode cs)) = cs := by
  rw [decode, encode_encode, unescape_escape, Utf8.decodeLossy_encode]

/-- Neither of the bytes that separate fields and their parts is in an encoded text. -/
theorem separator_notMem_encode (cs : List Char) :
    (0x26 : UInt8) ∉ Utf8.encode (encode cs) ∧ (0x3D : UInt8) ∉ Utf8.encode (encode cs) := by
  have hone : ∀ b, (0x26 : UInt8) ∉ escapedByte b ∧ (0x3D : UInt8) ∉ escapedByte b :=
    forall_byte (by decide +kernel)
  rw [encode_encode]
  simp only [List.mem_flatMap, not_exists, not_and]
  exact ⟨fun b _ => (hone b).1, fun b _ => (hone b).2⟩

/-- A field as it is written, in bytes. -/
def fieldBytes (field : String × String) : Bytes :=
  Utf8.encode (encode field.1.toList) ++ 0x3D :: Utf8.encode (encode field.2.toList)

theorem separator_notMem_fieldBytes (field : String × String) :
    (0x26 : UInt8) ∉ fieldBytes field := by
  simp [fieldBytes, (separator_notMem_encode _).1]

/-- A written form, in bytes. -/
theorem ofText_write (field : String × String) (fields : List (String × String)) :
    Bytes.ofText (write (field :: fields)) =
      fieldBytes field ++ (fields.map fieldBytes).flatMap (0x26 :: ·) := by
  have happ : ∀ cs ds, Utf8.encode (cs ++ ds) = Utf8.encode cs ++ Utf8.encode ds := fun cs ds =>
    List.flatMap_append
  have hnil : Utf8.encode [] = [] := rfl
  have hequals : ∀ cs, Utf8.encode ('=' :: cs) = 0x3D :: Utf8.encode cs := fun cs => rfl
  have hampersand : ∀ cs, Utf8.encode ('&' :: cs) = 0x26 :: Utf8.encode cs := fun cs => rfl
  unfold Bytes.ofText write Text.join
  rw [String.toList_intercalate, List.map_map]
  induction fields generalizing field with
  | nil => simp [fieldBytes, happ, hequals]
  | cons next fields ih =>
    rw [List.map_cons, List.map_cons, List.intercalate_cons_cons, ← List.map_cons, happ, happ,
      ih next]
    simp [fieldBytes, happ, hnil, hequals, hampersand]

/-- **A written form is read again**, field by field. -/
theorem parse_write (fields : List (String × String)) :
    parse (Bytes.ofText (write fields)) = fields := by
  cases fields with
  | nil => rfl
  | cons field fields =>
    have hcut : ∀ f : String × String, Text.cut? 0x3D (fieldBytes f) =
        some (Utf8.encode (encode f.1.toList), Utf8.encode (encode f.2.toList)) := fun f =>
      Text.cut?_append (separator_notMem_encode _).2 _
    have hpieces : Text.fields 0x26 (Bytes.ofText (write (field :: fields))) =
        (field :: fields).map fieldBytes := by
      rw [ofText_write, List.map_cons]
      refine Text.fields_join fun piece hpiece => ?_
      obtain ⟨f, -, rfl⟩ := List.mem_map.mp (List.map_cons ▸ hpiece)
      exact separator_notMem_fieldBytes f
    have hfull : ∀ piece ∈ (field :: fields).map fieldBytes, decide (piece ≠ []) = true := by
      intro piece hpiece
      obtain ⟨f, -, rfl⟩ := List.mem_map.mp hpiece
      simp [fieldBytes]
    unfold parse
    rw [hpieces, List.filter_eq_self.mpr hfull, List.map_map]
    refine (List.map_congr_left fun f _ => ?_).trans (List.map_id _)
    simp [hcut, decode_encode, String.ofList_toList]

/-- What is found in a written form under a name: the value of the first field of that name. -/
theorem lookup?_write (name : String) (fields : List (String × String)) :
    lookup? name (Bytes.ofText (write fields)) = (fields.find? (·.1 = name)).map (·.2) := by
  rw [lookup?, parse_write]

/-! ## The alphabet of encoded texts -/

/-- A letter, a digit or one of `*-._`, which are written as they are. -/
def isPlain (c : Char) : Bool := c.isAlphanum || "*-._".toList.contains c

/-- A text of plain characters, of `+`, and of `%` with two hexadecimal digits. -/
inductive Escaped : List Char → Prop
  | nil : Escaped []
  | plain {c : Char} {cs : List Char} : isPlain c = true → Escaped cs → Escaped (c :: cs)
  | blank {cs : List Char} : Escaped cs → Escaped ('+' :: cs)
  | escape {high low : Char} {cs : List Char} : (Text.hexValue? high).isSome = true →
      (Text.hexValue? low).isSome = true → Escaped cs → Escaped ('%' :: high :: low :: cs)

/-- A character that an encoded text can hold. -/
def isWritten (c : Char) : Bool := isPlain c || c == '+' || c == '%'

theorem Escaped.append {xs ys : List Char} (hx : Escaped xs) (hy : Escaped ys) :
    Escaped (xs ++ ys) := by
  induction hx with
  | nil => exact hy
  | plain hc _ ih => exact .plain hc ih
  | blank _ ih => exact .blank ih
  | escape hhigh hlow _ ih => exact .escape hhigh hlow ih

theorem isPlain_of_isSafe {b : UInt8} (h : isSafe b = true) :
    isPlain (Char.ofNat b.toNat) = true :=
  forall_byte (p := fun b => isSafe b = true → isPlain (Char.ofNat b.toNat) = true)
    (by decide +kernel) b h

/-- What a byte is written as. -/
theorem escaped_escapeByte (b : UInt8) : Escaped (escapeByte b) := by
  have hb : b.toNat < 256 := b.toNat_lt
  unfold escapeByte
  split
  · rename_i hsafe
    exact .plain (isPlain_of_isSafe hsafe) .nil
  · split
    · exact .blank .nil
    · have hhigh : b.toNat / 16 < 16 := by omega
      have hlow : b.toNat % 16 < 16 := by omega
      apply Escaped.escape
      · rw [Text.hexValue?_hexDigit hhigh]
        rfl
      · rw [Text.hexValue?_hexDigit hlow]
        rfl
      · exact .nil

/-- **Which characters an encoded text is made of.** -/
theorem escaped_encode (cs : List Char) : Escaped (encode cs) := by
  unfold encode
  induction Utf8.encode cs with
  | nil => exact .nil
  | cons b bs ih =>
    rw [List.flatMap_cons]
    exact (escaped_escapeByte b).append ih

theorem isPlain_of_hexValue? {c : Char} (h : (Text.hexValue? c).isSome = true) :
    isPlain c = true := by
  have halphanum : c.isAlphanum = true := by
    unfold Text.hexValue? at h
    split at h
    · rename_i hdigit
      exact (Bool.or_eq_true _ _).mpr (.inr hdigit)
    · split at h
      · rename_i hlower
        have hfirst : 0x61 ≤ c.toNat := hlower.1
        have hlast : c.toNat ≤ 0x66 := hlower.2
        rw [Text.isAlphanum_iff]
        omega
      · split at h
        · rename_i hupper
          have hfirst : 0x41 ≤ c.toNat := hupper.1
          have hlast : c.toNat ≤ 0x46 := hupper.2
          rw [Text.isAlphanum_iff]
          omega
        · cases h
  unfold isPlain
  rw [halphanum, Bool.true_or]

theorem Escaped.isWritten {cs : List Char} (h : Escaped cs) :
    ∀ c ∈ cs, Form.isWritten c = true := by
  have hplain : ∀ c, isPlain c = true → Form.isWritten c = true := by
    intro c hc
    simp [Form.isWritten, hc]
  induction h with
  | nil => simp
  | plain hc _ ih =>
    rw [List.forall_mem_cons]
    exact ⟨hplain _ hc, ih⟩
  | blank _ ih =>
    rw [List.forall_mem_cons]
    exact ⟨by decide, ih⟩
  | escape hhigh hlow _ ih =>
    rw [List.forall_mem_cons, List.forall_mem_cons, List.forall_mem_cons]
    exact ⟨by decide, hplain _ (isPlain_of_hexValue? hhigh), hplain _ (isPlain_of_hexValue? hlow),
      ih⟩

/-- No control character is written, and no blank. -/
theorem isWritten_printed {c : Char} (h : isWritten c = true) :
    0x20 < c.toNat ∧ c.toNat < 0x7F := by
  have hmarks : ∀ d ∈ "*-._".toList, 0x20 < d.toNat ∧ d.toNat < 0x7F :=
    Text.forall_mem_of_all (by decide)
  unfold isWritten isPlain at h
  rw [Bool.or_eq_true, Bool.or_eq_true, Bool.or_eq_true, List.contains_iff_mem, beq_iff_eq,
    beq_iff_eq] at h
  rcases h with ((halphanum | hmark) | rfl) | rfl
  · have hrange := Text.isAlphanum_iff.mp halphanum
    omega
  · exact hmarks c hmark
  · decide
  · decide

/-- Different texts are written differently. -/
theorem encode_injective : Function.Injective encode := by
  intro cs ds h
  rw [← decode_encode cs, h, decode_encode]

end Form
end AccessGateway
