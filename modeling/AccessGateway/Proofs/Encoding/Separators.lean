import AccessGateway.Proofs.Document.Member
import AccessGateway.Proofs.Encoding.FormText
import AccessGateway.Proofs.Wire.FieldText

/-!
# Decoding in parts

A text that is made of parts with a separator between them can be decoded part by part, if the
separator is a byte that neither belongs to an escape nor to a longer character: an escape that
lacks its digits at the end of a part stands for itself, and a character that lacks its last bytes
there is ill-formed, whatever the next part starts with.

## Results

* `Text.fields_append`, `Text.length_fields` — cutting in parts.
* `Form.unescape_append`, `Utf8.decodeLossy_append`, `Form.decode_append` — a separator parts what
  is decoded.
* `Text.exists_fields_append`, `Form.exists_parse_append` — what is added at the end belongs to the
  last piece.
* `Form.parse_protect` — separators can be written as escapes for the time of decoding.
-/

set_option autoImplicit false

namespace AccessGateway

/-! ## Cutting -/

namespace Text

variable {α : Type} [DecidableEq α]

theorem fields_append (sep : α) (xs ys : List α) :
    fields sep (xs ++ sep :: ys) = fields sep xs ++ fields sep ys := by
  induction xs with
  | nil => exact fields_cons_sep sep ys
  | cons x xs ih =>
    by_cases hx : x = sep
    · subst hx
      rw [List.cons_append, fields_cons_sep, fields_cons_sep, ih, List.cons_append]
    · obtain ⟨rest, hrest⟩ := fields_head sep xs
      rw [hrest, List.cons_append] at ih
      rw [List.cons_append, fields_cons hx ih, fields_cons hx hrest, List.cons_append]

/-- **What is added without a separator** stands behind the last piece. -/
theorem exists_fields_append (sep : α) (xs : List α) :
    ∃ front last, fields sep xs = front ++ [last] ∧ sep ∉ last ∧
      ∀ ys, sep ∉ ys → fields sep (xs ++ ys) = front ++ [last ++ ys] := by
  induction xs with
  | nil => exact ⟨[], [], rfl, List.not_mem_nil, fun ys hys => fields_of_notMem hys⟩
  | cons x xs ih =>
    obtain ⟨front, last, hxs, hlast, hadded⟩ := ih
    by_cases hx : x = sep
    · subst hx
      refine ⟨[] :: front, last, ?_, hlast, ?_⟩
      · rw [fields_cons_sep, hxs, List.cons_append]
      · intro ys hys
        rw [List.cons_append, fields_cons_sep, hadded ys hys, List.cons_append]
    · cases front with
      | nil =>
        refine ⟨[], x :: last, fields_cons hx hxs, ?_, ?_⟩
        · rw [List.mem_cons, not_or]
          exact ⟨Ne.symm hx, hlast⟩
        · intro ys hys
          exact fields_cons hx (hadded ys hys)
      | cons f front =>
        refine ⟨(x :: f) :: front, last, fields_cons hx hxs, hlast, ?_⟩
        intro ys hys
        exact fields_cons hx (hadded ys hys)

/-- There is one piece more than there are separators. -/
theorem length_fields (sep : α) (xs : List α) : (fields sep xs).length = xs.count sep + 1 := by
  induction xs with
  | nil => rfl
  | cons x xs ih =>
    by_cases hx : x = sep
    · subst hx
      rw [fields_cons_sep, List.length_cons, ih, List.count_cons_self]
    · obtain ⟨rest, hrest⟩ := fields_head sep xs
      rw [fields_cons hx hrest, List.count_cons_of_ne hx, ← ih, hrest]
      rfl

end Text

/-! ## Escapes -/

namespace Form

/-- A byte that is no part of an escape and does not stand for another one. -/
structure Literal (sep : UInt8) : Prop where
  noDigit : hexByte? sep = none
  noEscape : sep ≠ 0x25
  noBlank : sep ≠ 0x2B

theorem literal_ampersand : Literal 0x26 := ⟨by decide, by decide, by decide⟩

theorem literal_equals : Literal 0x3D := ⟨by decide, by decide, by decide⟩

variable {sep : UInt8}

theorem Literal.unescapeHead (h : Literal sep) (bs : Bytes) :
    Form.unescapeHead sep bs = (sep, bs) := by
  unfold Form.unescapeHead
  rw [if_neg h.noEscape, if_neg h.noBlank]

/-- An escape does not reach over a byte that is no digit. -/
theorem unescapeHead_append (h : hexByte? sep = none) (b : UInt8) (as bs : Bytes) :
    unescapeHead b (as ++ sep :: bs) =
      ((unescapeHead b as).1, (unescapeHead b as).2 ++ sep :: bs) := by
  by_cases hb : b = 0x25
  · unfold unescapeHead
    rw [if_pos hb, if_pos hb]
    rcases as with _ | ⟨x, _ | ⟨y, rest⟩⟩
    · -- the separator would be the first digit
      cases bs <;> simp [h]
    · simp [h]
    · dsimp only [List.cons_append]
      split <;> rfl
  · unfold unescapeHead
    rw [if_neg hb, if_neg hb]
    split <;> rfl

theorem unescapeFrom_append_sep (h : Literal sep) (read as bs : Bytes) :
    unescapeFrom read (as ++ sep :: bs) = unescapeFrom read as ++ sep :: unescape bs := by
  fun_induction unescapeFrom read as with
  | case1 read =>
    have hread := unescapeFrom_append [] (sep :: read) bs
    rw [List.nil_append] at hread
    rw [List.nil_append, unescapeFrom, h.unescapeHead, hread]
    simp [unescape]
  | case2 read b as ih =>
    rw [List.cons_append, unescapeFrom, unescapeHead_append h.noDigit]
    exact ih

/-- **Escapes are undone part by part.** -/
theorem unescape_append (h : Literal sep) (as bs : Bytes) :
    unescape (as ++ sep :: bs) = unescape as ++ sep :: unescape bs :=
  unescapeFrom_append_sep h [] as bs

end Form

/-! ## Characters -/

namespace Utf8

variable {sep : UInt8}

/-- What a leading byte lets follow is never ASCII. -/
theorem lead?_range {b lo hi : UInt8} {acc count : Nat}
    (h : lead? b = some (acc, count, lo, hi)) : 0x80 ≤ lo := by
  have hone : ∀ b, (lead? b).all (0x80 ≤ ·.2.2.1) = true := Form.forall_byte (by decide +kernel)
  have hb := hone b
  rw [h] at hb
  exact of_decide_eq_true hb

theorem follow_append (hsep : sep.toNat < 128) (count : Nat) {lo : UInt8} (hlo : 0x80 ≤ lo)
    (hi : UInt8) (acc : Nat) (as bs : Bytes) :
    follow count lo hi acc (as ++ sep :: bs) =
      ((follow count lo hi acc as).1, (follow count lo hi acc as).2 ++ sep :: bs) := by
  fun_induction follow count lo hi acc as with
  | case1 => rfl
  | case2 lo hi acc count b as hin ih =>
    rw [List.cons_append, follow, if_pos hin, ih (by decide)]
  | case3 lo hi acc count b as hout =>
    rw [List.cons_append, follow, if_neg hout]
  | case4 lo hi acc count =>
    have hlow : ¬(lo ≤ sep ∧ sep ≤ hi) := by
      rw [UInt8.le_iff_toNat_le] at hlo
      rw [UInt8.le_iff_toNat_le, UInt8.le_iff_toNat_le]
      have hbound : (0x80 : UInt8).toNat = 128 := rfl
      omega
    rw [List.nil_append, follow, if_neg hlow]

theorem piece_append (hsep : sep.toNat < 128) (b : UInt8) (as bs : Bytes) :
    piece b (as ++ sep :: bs) = ((piece b as).1, (piece b as).2 ++ sep :: bs) := by
  unfold piece
  cases hlead : lead? b with
  | none => rfl
  | some announced =>
    obtain ⟨acc, count, lo, hi⟩ := announced
    dsimp only
    rw [follow_append hsep _ (lead?_range hlead)]

theorem piecesFrom_append_sep (hsep : sep.toNat < 128) (read : List (Option Char))
    (as bs : Bytes) :
    piecesFrom read (as ++ sep :: bs) =
      piecesFrom read as ++ some (Char.ofNat sep.toNat) :: pieces bs := by
  fun_induction piecesFrom read as with
  | case1 read =>
    have hread := piecesFrom_append [] (some (Char.ofNat sep.toNat) :: read) bs
    rw [List.nil_append] at hread
    rw [List.nil_append, piecesFrom, piece_of_lt hsep, hread]
    simp [pieces]
  | case2 read b as ih =>
    rw [List.cons_append, piecesFrom, piece_append hsep]
    exact ih

/-- **Characters are read part by part**, ill-formed ones included. -/
theorem decodeLossy_append (hsep : sep.toNat < 128) (as bs : Bytes) :
    decodeLossy (as ++ sep :: bs) =
      decodeLossy as ++ Char.ofNat sep.toNat :: decodeLossy bs := by
  unfold decodeLossy
  rw [pieces, piecesFrom_append_sep hsep, List.map_append]
  rfl

theorem encode_append (cs ds : List Char) : encode (cs ++ ds) = encode cs ++ encode ds :=
  List.flatMap_append

end Utf8

namespace Form

theorem decode_append {sep : UInt8} (h : Literal sep) (hsep : sep.toNat < 128) (as bs : Bytes) :
    decode (as ++ sep :: bs) = decode as ++ Char.ofNat sep.toNat :: decode bs := by
  unfold decode
  rw [unescape_append h, Utf8.decodeLossy_append hsep]

/-! ## The end of a form -/

/-- A field, read from its piece of a form. -/
def fieldOf (piece : Bytes) : String × String :=
  let (name, value) := (Text.cut? 0x3D piece).getD (piece, [])
  (String.ofList (decode name), String.ofList (decode value))

theorem parse_eq (bs : Bytes) :
    parse bs = ((Text.fields 0x26 bs).filter (· ≠ [])).map fieldOf := rfl

/-- What is written behind the last `=` of a piece belongs to its value. -/
theorem exists_fieldOf_append (piece : Bytes) :
    ∃ name value, ∀ cs,
      fieldOf (piece ++ 0x3D :: Utf8.encode (encode cs)) = (name, value ++ String.ofList cs) := by
  by_cases hequals : (0x3D : UInt8) ∈ piece
  · obtain ⟨name, value, rfl, hname⟩ := List.eq_append_cons_of_mem hequals
    refine ⟨String.ofList (decode name), String.ofList (decode value ++ ['=']), ?_⟩
    intro cs
    have hvalue :
        decode (value ++ 0x3D :: Utf8.encode (encode cs)) = decode value ++ '=' :: cs := by
      rw [decode_append literal_equals (by decide), decode_encode]
      rfl
    rw [fieldOf, List.append_assoc, List.cons_append, Text.cut?_append hname, Option.getD_some]
    dsimp only
    rw [hvalue, ← String.ofList_append, List.append_assoc, List.singleton_append]
  · refine ⟨String.ofList (decode piece), "", ?_⟩
    intro cs
    rw [fieldOf, Text.cut?_append hequals, Option.getD_some]
    dsimp only
    rw [decode_encode, String.empty_append]

/-- **A text behind a `=` belongs to the value of the last field**, if it is encoded. -/
theorem exists_parse_append (query : Bytes) :
    ∃ fields name value, ∀ cs,
      parse (query ++ 0x3D :: Utf8.encode (encode cs)) =
        fields ++ [(name, value ++ String.ofList cs)] := by
  obtain ⟨front, last, -, -, hadded⟩ := Text.exists_fields_append (0x26 : UInt8) query
  obtain ⟨name, value, hfield⟩ := exists_fieldOf_append last
  refine ⟨(front.filter (· ≠ [])).map fieldOf, name, value, ?_⟩
  intro cs
  have hfree : (0x26 : UInt8) ∉ 0x3D :: Utf8.encode (encode cs) := by
    rw [List.mem_cons, not_or]
    exact ⟨by decide, (separator_notMem_encode cs).1⟩
  rw [parse_eq, hadded _ hfree, List.filter_append, List.map_append,
    List.filter_cons_of_pos (by simp), List.filter_nil, List.map_singleton, hfield]

/-! ## Protected separators -/

/-- A byte with the separators written as escapes. -/
def protectByte (b : UInt8) : Bytes :=
  if b = 0x26 ∨ b = 0x3D then escapedByte b else [b]

/-- A text in which the separators are written as escapes. -/
def protect (bs : Bytes) : Bytes := bs.flatMap protectByte

theorem protect_cons (b : UInt8) (bs : Bytes) : protect (b :: bs) = protectByte b ++ protect bs :=
  List.flatMap_cons

theorem separator_notMem_protect (bs : Bytes) :
    (0x26 : UInt8) ∉ protect bs ∧ (0x3D : UInt8) ∉ protect bs := by
  have hone : ∀ b, (0x26 : UInt8) ∉ protectByte b ∧ (0x3D : UInt8) ∉ protectByte b :=
    forall_byte (by decide +kernel)
  unfold protect
  simp only [List.mem_flatMap, not_exists, not_and]
  exact ⟨fun b _ => (hone b).1, fun b _ => (hone b).2⟩

/-- A protected byte starts with a digit exactly if it is one, and then it is left as it is. -/
theorem protectByte_cases (b : UInt8) :
    protectByte b = [b] ∨ hexByte? b = none ∧ ∃ more, protectByte b = 0x25 :: more := by
  unfold protectByte
  split
  · rename_i hsep
    refine .inr ?_
    rcases hsep with rfl | rfl
    · exact ⟨by decide, [0x32, 0x36], by decide⟩
    · exact ⟨by decide, [0x33, 0x44], by decide⟩
  · exact .inl rfl

/-- Where no two digits follow, an escape mark stands for itself. -/
theorem unescapeHead_of_noDigit {x : UInt8} (h : hexByte? x = none) (bs : Bytes) :
    unescapeHead 0x25 (x :: bs) = (0x25, x :: bs) := by
  unfold unescapeHead
  cases bs <;> simp [h]

theorem unescapeHead_of_noSecond {y : UInt8} (h : hexByte? y = none) (x : UInt8) (bs : Bytes) :
    unescapeHead 0x25 (x :: y :: bs) = (0x25, x :: y :: bs) := by
  unfold unescapeHead
  simp [h]

theorem unescapeHead_protect (b : UInt8) (bs : Bytes) :
    unescapeHead b (protect bs) = ((unescapeHead b bs).1, protect (unescapeHead b bs).2) := by
  have hmark : hexByte? 0x25 = none := by decide
  by_cases hb : b = 0x25
  · subst hb
    rcases bs with _ | ⟨x, bs⟩
    · rfl
    · rw [protect_cons]
      rcases protectByte_cases x with hx | ⟨hdigit, more, hx⟩
      · rcases bs with _ | ⟨y, bs⟩
        · rw [hx]
          simp [unescapeHead, protect, hx]
        · rw [protect_cons, hx]
          rcases protectByte_cases y with hy | ⟨hdigit, more, hy⟩
          · -- both bytes are left as they are
            rw [hy]
            unfold unescapeHead
            dsimp only [List.cons_append, List.nil_append]
            split
            · split <;> simp_all [protect_cons]
            · simp_all
          · rw [hy, unescapeHead_of_noSecond hdigit]
            simp only [List.cons_append, List.nil_append]
            rw [unescapeHead_of_noSecond hmark, protect_cons, protect_cons, hx, hy]
            rfl
      · rw [hx, unescapeHead_of_noDigit hdigit, List.cons_append, unescapeHead_of_noDigit hmark,
          protect_cons, hx]
        rfl
  · unfold unescapeHead
    rw [if_neg hb, if_neg hb]
    split <;> rfl

theorem unescape_protect (bs : Bytes) : unescape (protect bs) = unescape bs := by
  induction hn : bs.length using Nat.strong_induction_on generalizing bs with
  | h n ih =>
    subst hn
    cases bs with
    | nil => rfl
    | cons b bs =>
      have hshort := unescapeHead_length_le b bs
      by_cases hsep : b = 0x26 ∨ b = 0x3D
      · have hliteral : Literal b := by
          rcases hsep with rfl | rfl
          · exact literal_ampersand
          · exact literal_equals
        rw [protect_cons, protectByte, if_pos hsep, unescape_escapedByte, unescape_cons,
          hliteral.unescapeHead, ih bs.length (by simp) bs rfl]
      · rw [protect_cons, protectByte, if_neg hsep, List.singleton_append, unescape_cons,
          unescapeHead_protect, unescape_cons, ih _ (by simp; omega) _ rfl]

/-- **Separators can be written as escapes for the time of decoding**: then a text is a form of one
    field without a value, and the name of the field is the decoded text. -/
theorem parse_protect (bs : Bytes) :
    (parse (protect bs)).head?.map (·.1) =
      if bs = [] then none else some (String.ofList (decode bs)) := by
  obtain ⟨hfields, hcut⟩ := separator_notMem_protect bs
  unfold parse
  rw [Text.fields_of_notMem hfields]
  cases bs with
  | nil => rfl
  | cons b bs =>
    have hne : protect (b :: bs) ≠ [] := by
      rw [protect_cons]
      rcases protectByte_cases b with hb | ⟨-, more, hb⟩
      · simp [hb]
      · simp [hb]
    rw [if_neg (List.cons_ne_nil b bs)]
    simp [hne, Text.cut?_eq_none hcut, decode, unescape_protect]

end Form
end AccessGateway
