import AccessGateway.Document.Json
import AccessGateway.Proofs.Wire.CookieText

/-!
# Messages with one text

The simplest message that says something is an object with one member, which is a string.  It is
read as what it says, whatever the name and the text are, as long as each is the inside of a
literal.

## Results

* `Bytes.text?_ofText` — ASCII texts are read back from their bytes.
* `Json.parse?_member` — the tree of an object with one member.
* `Json.fields?_member` — the record that is read from it.
-/

set_option autoImplicit false

namespace AccessGateway

/-! ## Texts of bytes -/

theorem Utf8.piece_of_lt {b : UInt8} (h : b.toNat < 128) (bs : Bytes) :
    piece b bs = (some (Char.ofNat b.toNat), bs) := by
  have hlead : lead? b = some (b.toNat, 0, 0x80, 0xBF) := if_pos h
  unfold piece
  rw [hlead]
  rfl

theorem Utf8.decode?_of_lt {bs : Bytes} (h : ∀ b ∈ bs, b.toNat < 128) :
    decode? bs = some (bs.map fun b => Char.ofNat b.toNat) := by
  unfold decode?
  induction bs with
  | nil =>
    rw [pieces_nil]
    rfl
  | cons b bs ih =>
    obtain ⟨hb, hbs⟩ := List.forall_mem_cons.mp h
    rw [pieces_cons, piece_of_lt hb, List.mapM_cons, ih hbs]
    rfl

theorem Bytes.text?_ofText {s : String} (h : ∀ c ∈ s.toList, c.toNat < 128) :
    (ofText s).text? = some s := by
  have hlow : ∀ b ∈ ofText s, b.toNat < 128 := by
    intro b hb
    rw [HeaderValue.ofText_bytes h] at hb
    obtain ⟨c, hc, rfl⟩ := List.mem_map.mp hb
    have hlt := h c hc
    rw [UInt8.toNat_ofNat']
    omega
  have hback : ((ofText s).map fun b => Char.ofNat b.toNat) = s.toList :=
    HeaderValue.latin1_ofText h
  unfold text?
  rw [Utf8.decode?_of_lt hlow, hback, Option.map_some, String.ofList_toList]

/-! ## Objects with one member -/

namespace Json

/-- The inside of a string literal, whatever comes after the literal. -/
def IsInside (raw : Bytes) : Prop := ∀ rest, literal? (raw ++ 0x22 :: rest) = some (raw, rest)

/-- The written form of an object with one member, which is a string. -/
def member (name raw : Bytes) : Bytes :=
  0x7B :: 0x22 :: (name ++ 0x22 :: 0x3A :: 0x22 :: (raw ++ [0x22, 0x7D]))

variable {name raw : Bytes}

theorem parse?_member (hname : IsInside name) (hraw : IsInside raw) :
    parse? (member name raw) = some (.object [(name, .string raw)]) := by
  unfold IsInside at hname hraw
  -- one more step is needed for each level of the tree
  have hitem : ∀ fuel, value? (fuel + 1) (0x22 :: (raw ++ [0x22, 0x7D])) =
      some (.string raw, [0x7D]) := by
    intro fuel
    rw [value?]
    simp [skipBlanks, isBlankByte, hraw]
  have hmembers : ∀ fuel, members? (fuel + 2)
      (0x22 :: (name ++ 0x22 :: 0x3A :: 0x22 :: (raw ++ [0x22, 0x7D]))) =
        some ([(name, .string raw)], []) := by
    intro fuel
    rw [members?]
    simp [skipBlanks, isBlankByte, hname, hitem]
  have hvalue : ∀ fuel, value? (fuel + 3) (member name raw) =
      some (.object [(name, .string raw)], []) := by
    intro fuel
    unfold member
    rw [value?]
    simp [skipBlanks, isBlankByte, hmembers]
  unfold parse?
  have hfuel : 2 * (member name raw).length + 2 = (2 * (member name raw).length - 1) + 3 := by
    have hlength : (member name raw).length ≠ 0 := by simp [member]
    omega
  rw [hfuel, hvalue]
  rfl

theorem rawText?_eq_some {text : String} (hraw : unescape? raw = some (Bytes.ofText text))
    (htext : ∀ c ∈ text.toList, c.toNat < 128) : rawText? raw = some text := by
  unfold rawText?
  rw [hraw, Option.bind_some, Bytes.text?_ofText htext]

theorem fields?_member {text : String} (hname : rawText? name = some text) (item : Json) :
    fields? [text] (.object [(name, item)]) = some [some item] := by
  unfold fields?
  simp [hname]

end Json
end AccessGateway
