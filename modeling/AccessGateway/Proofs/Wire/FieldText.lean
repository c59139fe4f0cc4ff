import AccessGateway.Proofs.Wire.CookieText

/-!
# Texts as values of header fields

A text goes into a header field as its UTF-8 bytes.  Characters above the ASCII range become bytes
above it, which may always stand in a field but are no plain text.

## Results

* `HeaderValue.ofText?_eq` — a text can stand in a field exactly if the tabulator is its only
  control character.
* `HeaderValue.text?_ofText_eq_some` — it is read again exactly if it is plain text.
-/

set_option autoImplicit false

namespace AccessGateway.HeaderValue

/-- A character that can stand in a field: a tabulator, or anything that is no control
    character. -/
def isFieldChar (c : Char) : Bool := c.toNat == 0x09 || (0x20 ≤ c.toNat && c.toNat != 0x7F)

theorem le_of_mem_utf8EncodeChar {c : Char} (h : 128 ≤ c.toNat) :
    ∀ b ∈ String.utf8EncodeChar c, 128 ≤ b.toNat := by
  have hcode : c.val.toNat = c.toNat := rfl
  unfold String.utf8EncodeChar
  dsimp only
  rw [hcode, if_neg (by omega)]
  -- two, three or four bytes, each with its highest bit set
  split
  · intro b hb
    simp only [List.mem_cons, List.not_mem_nil, or_false] at hb
    rcases hb with rfl | rfl <;> simp only [UInt8.toNat_ofNat'] <;> omega
  · split
    · intro b hb
      simp only [List.mem_cons, List.not_mem_nil, or_false] at hb
      rcases hb with rfl | rfl | rfl <;> simp only [UInt8.toNat_ofNat'] <;> omega
    · intro b hb
      simp only [List.mem_cons, List.not_mem_nil, or_false] at hb
      rcases hb with rfl | rfl | rfl | rfl <;> simp only [UInt8.toNat_ofNat'] <;> omega

theorem isFieldByte_iff {b : UInt8} :
    isFieldByte b = true ↔ b.toNat = 9 ∨ 32 ≤ b.toNat ∧ b.toNat ≠ 127 := by
  simp [isFieldByte, UInt8.le_iff_toNat_le, ← UInt8.toNat_inj]

theorem isTextByte_iff {b : UInt8} :
    isTextByte b = true ↔ b.toNat = 9 ∨ 32 ≤ b.toNat ∧ b.toNat < 127 := by
  simp [isTextByte, UInt8.le_iff_toNat_le, UInt8.lt_iff_toNat_lt, ← UInt8.toNat_inj]

theorem isFieldByte_utf8EncodeChar {c : Char} :
    (∀ b ∈ String.utf8EncodeChar c, isFieldByte b = true) ↔ isFieldChar c = true := by
  have hchar : isFieldChar c = true ↔ c.toNat = 9 ∨ 32 ≤ c.toNat ∧ c.toNat ≠ 127 := by
    simp [isFieldChar]
  simp only [hchar, isFieldByte_iff]
  by_cases h : c.toNat < 128
  · have hbyte : (UInt8.ofNat c.toNat).toNat = c.toNat := by
      rw [UInt8.toNat_ofNat']
      exact Nat.mod_eq_of_lt (by omega)
    rw [utf8EncodeChar_of_lt h]
    simp [hbyte]
  · constructor
    · intro _
      omega
    · intro _ b hb
      have hhigh := le_of_mem_utf8EncodeChar (Nat.not_lt.mp h) b hb
      omega

/-- **Which texts can stand in a field.** -/
theorem ofText?_eq (s : String) :
    ofText? s = if s.toList.all isFieldChar then some ⟨Bytes.ofText s⟩ else none := by
  have hall : (Bytes.ofText s).all isFieldByte = s.toList.all isFieldChar := by
    unfold Bytes.ofText Utf8.encode
    rw [Bool.eq_iff_iff, List.all_eq_true, List.all_eq_true]
    simp only [List.mem_flatMap, forall_exists_index, and_imp]
    constructor
    · intro h c hc
      exact isFieldByte_utf8EncodeChar.mp fun b hb => h b c hc hb
    · intro h b c hc hb
      exact isFieldByte_utf8EncodeChar.mpr (h c hc) b hb
  unfold ofText? ofBytes?
  rw [hall]

/-- **Which texts are read again.** -/
theorem text?_ofText_eq_some {s t : String} :
    text? ⟨Bytes.ofText s⟩ = some t ↔ t = s ∧ ∀ c ∈ s.toList, isTextChar c = true := by
  constructor
  · intro h
    have hbytes : ∀ b ∈ Bytes.ofText s, isTextByte b = true := by
      unfold text? chars? at h
      split at h
      · rename_i hall
        exact List.all_eq_true.mp hall
      · cases h
    have hplain : ∀ c ∈ s.toList, isTextChar c = true := by
      intro c hc
      have hin : ∀ b ∈ String.utf8EncodeChar c, isTextByte b = true :=
        fun b hb => hbytes b (List.mem_flatMap.mpr ⟨c, hc, hb⟩)
      have hlow : c.toNat < 128 := by
        refine Nat.not_le.mp fun hhigh => ?_
        obtain ⟨b, hb⟩ := List.exists_mem_of_ne_nil _ (String.utf8EncodeChar_ne_nil (c := c))
        have hb' := isTextByte_iff.mp (hin b hb)
        have hb'' := le_of_mem_utf8EncodeChar hhigh b hb
        omega
      rw [utf8EncodeChar_of_lt hlow] at hin
      have hc' := isTextChar_ofNat.mpr (hin _ List.mem_cons_self)
      rwa [ofNat_toNat_of_lt hlow] at hc'
    rw [text?_ofText hplain] at h
    exact ⟨(Option.some.inj h).symm, hplain⟩
  · rintro ⟨rfl, hplain⟩
    exact text?_ofText hplain

end AccessGateway.HeaderValue
