/-!
# UTF-8

Bytes are read piece by piece.  A piece is a character, or an ill-formed sequence that is cut off
where it stops being the start of a well-formed one.  Strict reading (`decode?`) refuses ill-formed
pieces, lenient reading (`decodeLossy`) puts U+FFFD in the place of each.
-/

set_option autoImplicit false

namespace AccessGateway

/-- Octets, as they travel in messages. -/
abbrev Bytes := List UInt8

namespace Utf8

/-- The UTF-8 form of a text. -/
def encode (cs : List Char) : Bytes := cs.flatMap String.utf8EncodeChar

/-- What a leading byte announces: the bits it holds, how many bytes follow, and the range of the
first of these. -/
def lead? (b : UInt8) : Option (Nat × Nat × UInt8 × UInt8) :=
  let n := b.toNat
  if n < 0x80 then some (n, 0, 0x80, 0xBF)
  else if n < 0xC2 then none
  else if n < 0xE0 then some (n - 0xC0, 1, 0x80, 0xBF)
  else if n = 0xE0 then some (0, 2, 0xA0, 0xBF)
  else if n = 0xED then some (0xD, 2, 0x80, 0x9F)
  else if n < 0xF0 then some (n - 0xE0, 2, 0x80, 0xBF)
  else if n = 0xF0 then some (0, 3, 0x90, 0xBF)
  else if n < 0xF4 then some (n - 0xF0, 3, 0x80, 0xBF)
  else if n = 0xF4 then some (4, 3, 0x80, 0x8F)
  else none

/-- Reads `count` further bytes of a character; on a byte out of range nothing more is taken. -/
def follow : (count : Nat) → (lo hi : UInt8) → (acc : Nat) → Bytes → Option Nat × Bytes
  | 0, _, _, acc, bs => (some acc, bs)
  | count + 1, lo, hi, acc, b :: bs =>
    if lo ≤ b ∧ b ≤ hi then follow count 0x80 0xBF (acc * 64 + (b.toNat - 0x80)) bs
    else (none, b :: bs)
  | _ + 1, _, _, _, [] => (none, [])

theorem follow_length_le (count : Nat) (lo hi : UInt8) (acc : Nat) (bs : Bytes) :
    (follow count lo hi acc bs).2.length ≤ bs.length := by
  fun_induction follow count lo hi acc bs with
  | case1 => simp
  | case2 _ _ _ _ _ _ _ ih => simp only [List.length_cons]; omega
  | case3 => simp
  | case4 => simp

/-- The first piece of a non-empty sequence, and what comes after it. -/
def piece (b : UInt8) (bs : Bytes) : Option Char × Bytes :=
  match lead? b with
  | none => (none, bs)
  | some (acc, count, lo, hi) =>
    let (code, rest) := follow count lo hi acc bs
    (code.map Char.ofNat, rest)

theorem piece_length_le (b : UInt8) (bs : Bytes) : (piece b bs).2.length ≤ bs.length := by
  unfold piece
  split
  · simp
  · exact follow_length_le _ _ _ _ _

/-- All pieces of a sequence, put in front of the ones already read (`read` is in reverse). -/
def piecesFrom (read : List (Option Char)) : Bytes → List (Option Char)
  | [] => read.reverse
  | b :: bs => piecesFrom ((piece b bs).1 :: read) (piece b bs).2
termination_by bs => bs.length
decreasing_by
  have := piece_length_le b bs
  simp only [List.length_cons]
  omega

/-- All pieces of a sequence; `none` stands for an ill-formed one. -/
def pieces (bs : Bytes) : List (Option Char) := piecesFrom [] bs

/-- The text that the bytes stand for, if they are well-formed. -/
def decode? (bs : Bytes) : Option (List Char) := (pieces bs).mapM id

/-- The text that the bytes stand for, with U+FFFD for each ill-formed piece. -/
def decodeLossy (bs : Bytes) : List Char := (pieces bs).map (·.getD (Char.ofNat 0xFFFD))

theorem piecesFrom_append (read last : List (Option Char)) (bs : Bytes) :
    piecesFrom (read ++ last) bs = last.reverse ++ piecesFrom read bs := by
  fun_induction piecesFrom read bs with
  | case1 => simp [piecesFrom]
  | case2 read b bs ih =>
    rw [piecesFrom]
    exact ih

@[simp] theorem pieces_nil : pieces [] = [] := by simp [pieces, piecesFrom]

theorem pieces_cons (b : UInt8) (bs : Bytes) :
    pieces (b :: bs) = (piece b bs).1 :: pieces (piece b bs).2 := by
  rw [pieces, piecesFrom]
  simpa [pieces] using piecesFrom_append [] [(piece b bs).1] (piece b bs).2

end Utf8

/-- The UTF-8 bytes of a string. -/
def Bytes.ofText (s : String) : Bytes := Utf8.encode s.toList

/-- The string that well-formed bytes stand for. -/
def Bytes.text? (bs : Bytes) : Option String := (Utf8.decode? bs).map String.ofList

end AccessGateway
