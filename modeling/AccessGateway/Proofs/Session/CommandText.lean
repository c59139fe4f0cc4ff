import AccessGateway.Proofs.Encoding.Separators
import AccessGateway.Proofs.Text.Pieces
import AccessGateway.Session.Control

/-!
# Commands in text

A row of commands is written piece by piece, with `&` between the pieces, and the row is encoded as
a whole once more.  Whoever writes the row need not be one who writes commands only: a piece that is
no command is passed over, and whatever it holds, the other pieces are read as if it was not there.

## Results

* `Key.command` — the four commands by their keys; `ofKey?_text`, `ofKey?_eq_none` — which keys are
  known.
* `ofPiece?_command`, `ofPiece?_junk` — what is read from one piece.
* `parse_append` — a separator parts a row, encoded or not.
* `commands_round_trip` — a row is read again as the commands in it.
-/

set_option autoImplicit false

namespace AccessGateway.Command

/-! ## Keys -/

/-- The keys of commands. -/
inductive Key where
  | addCredentials
  | setCredentials
  | auditToken
  | session
deriving DecidableEq, Repr

/-- The key in capital letters. -/
def Key.text : Key → String
  | .addCredentials => "ADD_CREDENTIALS"
  | .setCredentials => "SET_CREDENTIALS"
  | .auditToken => "AUDIT_TOKEN"
  | .session => "SESSION"

/-- The command with a key. -/
def Key.command : Key → String → Command
  | .addCredentials => .addCredentials
  | .setCredentials => .setCredentials
  | .auditToken => .auditToken
  | .session => .endSession

theorem ofKey?_text (k : Key) (value : String) : ofKey? k.text value = some (k.command value) := by
  cases k <;> rfl

theorem ofKey?_eq_none {key : String} (h : ∀ k : Key, key ≠ k.text) (value : String) :
    ofKey? key value = none := by
  have hadd : key ≠ "ADD_CREDENTIALS" := h .addCredentials
  have hset : key ≠ "SET_CREDENTIALS" := h .setCredentials
  have haudit : key ≠ "AUDIT_TOKEN" := h .auditToken
  have hsession : key ≠ "SESSION" := h .session
  rw [ofKey?, if_neg hadd, if_neg hset, if_neg haudit, if_neg hsession]

/-- A character that is no small letter and not in a key is in no spelling of the key. -/
theorem notMem_spelling {k : Key} {spelling : String} (h : Text.toUpper spelling = k.text)
    {c : Char} (hc : c.toUpper = c) (hk : c ∉ k.text.toList) : c ∉ spelling.toList := by
  intro hmem
  rw [← h, Text.toUpper, String.toList_ofList] at hk
  exact hk (List.mem_map.mpr ⟨c, hmem, hc⟩)

theorem separator_notMem_spelling {k : Key} {spelling : String}
    (h : Text.toUpper spelling = k.text) :
    '&' ∉ spelling.toList ∧ '=' ∉ spelling.toList := by
  constructor
  · exact notMem_spelling h (by decide) (by cases k <;> decide)
  · exact notMem_spelling h (by decide) (by cases k <;> decide)

/-! ## Pieces -/

/-- A text without `&` that is no command: it has not exactly one `=`, or what is before it is no
    key, however it is spelled. -/
def IsJunk (text : List Char) : Prop :=
  '&' ∉ text ∧ (text.count '=' ≠ 1 ∨
    ∀ k : Key, Text.toUpper (String.ofList (text.takeWhile (· ≠ '='))) ≠ k.text)

/-- A piece of a row. -/
inductive Piece where
  /-- A command, its key in any letters. -/
  | command (k : Key) (spelling : String) (spells : Text.toUpper spelling = k.text) (value : String)
  | junk (text : List Char) (isJunk : IsJunk text)

namespace Piece

/-- A piece as it is written; the value of a command is encoded. -/
def text : Piece → List Char
  | command _ spelling _ value => spelling.toList ++ '=' :: Form.encode value.toList
  | junk text _ => text

/-- The command that a piece is. -/
def command? : Piece → Option Command
  | command k _ _ value => some (k.command value)
  | junk _ _ => none

/-- The pieces joined by `&`, encoded. -/
def row (pieces : List Piece) : String :=
  String.ofList (Form.encode (['&'].intercalate (pieces.map text)))

theorem ampersand_notMem (p : Piece) : '&' ∉ p.text := by
  cases p with
  | command k spelling spells value =>
    rw [text, List.mem_append, List.mem_cons, not_or, not_or]
    exact ⟨(separator_notMem_spelling spells).1, by decide,
      (Form.separator_notMem_escape _).1⟩
  | junk text isJunk => exact isJunk.1

end Piece

/-! ## Reading -/

/-- An encoded text is read again. -/
theorem unescape_encode (cs : List Char) : unescape (Form.encode cs) = cs := Form.decode_encode cs

/-- Decoding reads a text as a form with its separators protected; such a form has one field at
most. -/
theorem unescape_eq_field (cs : List Char) :
    String.ofList (unescape cs) =
      ((Form.parse (Form.protect (Utf8.encode cs))).head?.map (·.1)).getD "" := by
  rw [Form.parse_protect]
  split
  · rename_i hnil
    have hdecode : Form.decode [] = [] := by simp [Form.decode, Utf8.decodeLossy]
    rw [unescape, hnil, hdecode]
    rfl
  · rfl

theorem unescape_append (cs ds : List Char) :
    unescape (cs ++ '&' :: ds) = unescape cs ++ '&' :: unescape ds := by
  have hbytes : Utf8.encode (cs ++ '&' :: ds) = Utf8.encode cs ++ 0x26 :: Utf8.encode ds :=
    Utf8.encode_append cs ('&' :: ds)
  unfold unescape
  rw [hbytes, Form.decode_append Form.literal_ampersand (by decide)]
  rfl

theorem ofPiece?_command {k : Key} {spelling : String} (h : Text.toUpper spelling = k.text)
    (value : String) :
    ofPiece? (spelling.toList ++ '=' :: Form.encode value.toList) = some (k.command value) := by
  have hvalue : '=' ∉ Form.encode value.toList := (Form.separator_notMem_escape _).2
  unfold ofPiece?
  rw [Text.fields_append_sep (separator_notMem_spelling h).2, Text.fields_of_notMem hvalue]
  dsimp only
  rw [String.ofList_toList, h, unescape_encode, String.ofList_toList, ofKey?_text]

theorem ofPiece?_junk {text : List Char} (h : IsJunk text) : ofPiece? text = none := by
  obtain ⟨rest, hrest⟩ := Text.fields_head '=' text
  have hcount := Text.length_fields '=' text
  unfold ofPiece?
  rw [hrest] at hcount ⊢
  rcases rest with _ | ⟨value, _ | ⟨more, rest⟩⟩
  · rfl
  · -- exactly one separator, so it is the key that is unknown
    have hone : text.count '=' = 1 := by
      simpa using hcount.symm
    exact ofKey?_eq_none (h.2.resolve_left (not_not_intro hone)) _
  · rfl

theorem ofPiece?_text (p : Piece) : ofPiece? p.text = p.command? := by
  cases p with
  | command k spelling spells value => exact ofPiece?_command spells value
  | junk text isJunk => exact ofPiece?_junk isJunk

/-- A separator parts a row. -/
theorem parse_append (x y : String) : parse (x ++ "&" ++ y) = parse x ++ parse y := by
  have hchars : (x ++ "&" ++ y).toList = x.toList ++ '&' :: y.toList := by
    simp
  unfold parse
  rw [hchars, unescape_append, Text.fields_append, List.filterMap_append]

theorem parse_row (pieces : List Piece) :
    parse (Piece.row pieces) = pieces.filterMap Piece.command? := by
  unfold parse Piece.row
  rw [String.toList_ofList, unescape_encode]
  cases pieces with
  | nil => rfl
  | cons p pieces =>
    have hpieces : ∀ piece ∈ (p :: pieces).map Piece.text, '&' ∉ piece := by
      intro piece hpiece
      obtain ⟨q, -, rfl⟩ := List.mem_map.mp hpiece
      exact q.ampersand_notMem
    have hread : ofPiece? ∘ Piece.text = Piece.command? := funext ofPiece?_text
    rw [Text.fields_intercalate (by simp) hpieces, List.filterMap_map, hread]

/-- **A row of commands is read again.**

    * Of commands, their keys in any letters and their values any texts, and of junk, in any order,
      exactly the commands are read, in order and with their values, when the pieces are joined by
      `&` and encoded as a whole.
    * A separator parts every row, encoded or not: what is before it and what is behind it are read
      by themselves.
    * The decoding that both rest on is that of a form: in the text that is decoded the separators
      are written as escapes first, so that the form has one field at most, and no value. -/
theorem commands_round_trip :
    (∀ pieces : List Piece, parse (Piece.row pieces) = pieces.filterMap Piece.command?) ∧
    (∀ x y : String, parse (x ++ "&" ++ y) = parse x ++ parse y) ∧
    ∀ cs : List Char, String.ofList (unescape cs) =
      ((Form.parse (Form.protect (Utf8.encode cs))).head?.map (·.1)).getD "" :=
  ⟨parse_row, parse_append, unescape_eq_field⟩

/-- A value that looks like a separator, a command that is cut short, and a byte that starts no
    character. -/
example : parse "audit_token%3Dt%2526%26SESSION%26%ff%26Session=" =
    [.auditToken "t&", .endSession ""] := by
  decide +kernel

end AccessGateway.Command
