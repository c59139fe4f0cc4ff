import AccessGateway.Text.Ascii
import AccessGateway.Text.Number
import AccessGateway.Text.Utf8

/-!
# JSON messages

A message is read into a tree that keeps the inside of every string literal as it stands: a literal
has to be well-formed, but only the ones that are used have to stand for a text (`text?`).  Members
of objects keep their order, and a name may occur more than once.

A record is read from an object by the names of its fields, or from an array by their positions;
a field that is named twice makes the record unreadable.
-/

set_option autoImplicit false

namespace AccessGateway

/-- The tree of a message.  `string` holds the bytes between the quotes. -/
inductive Json where
  | null
  | bool (b : Bool)
  | number (digits : String)
  | string (raw : Bytes)
  | array (items : List Json)
  | object (members : List (Bytes × Json))
deriving Repr, Inhabited

namespace Json

/-- A blank between the parts of a message. -/
def isBlankByte (b : UInt8) : Bool := b == 0x20 || b == 0x09 || b == 0x0A || b == 0x0D

/-- The bytes after the blanks at their front. -/
def skipBlanks (bs : Bytes) : Bytes := bs.dropWhile isBlankByte

/-- A decimal digit. -/
def isDigitByte (b : UInt8) : Bool := 0x30 ≤ b && b ≤ 0x39

/-- The value of a byte that is the code of a hexadecimal digit. -/
def hexByte? (b : UInt8) : Option Nat := Text.hexValue? (Char.ofNat b.toNat)

/-- The letters that a backslash may stand before, with what they mean, `u` left out. -/
def escapes : List (UInt8 × UInt8) :=
  [(0x22, 0x22), (0x5C, 0x5C), (0x2F, 0x2F), (0x62, 0x08), (0x66, 0x0C), (0x6E, 0x0A), (0x72, 0x0D),
    (0x74, 0x09)]

/-- Splits the bytes after an opening quote into the literal's inside and what follows it. -/
def literal? : Bytes → Option (Bytes × Bytes)
  | 0x22 :: rest => some ([], rest)
  | 0x5C :: 0x75 :: a :: b :: c :: d :: rest =>
    if [a, b, c, d].all (hexByte? · |>.isSome) then
      (literal? rest).map fun (raw, after) => (0x5C :: 0x75 :: a :: b :: c :: d :: raw, after)
    else none
  | 0x5C :: e :: rest =>
    if escapes.any (·.1 == e) then
      (literal? rest).map fun (raw, after) => (0x5C :: e :: raw, after)
    else none
  | b :: rest =>
    if b < 0x20 ∨ b = 0x5C then none
    else (literal? rest).map fun (raw, after) => (b :: raw, after)
  | [] => none

/-- Splits a number off the front: an integer part, then perhaps a fraction and an exponent. -/
def number? (bs : Bytes) : Option (Bytes × Bytes) := do
  let (sign, bs) : Bytes × Bytes := match bs with
    | 0x2D :: rest => ([0x2D], rest)
    | _ => ([], bs)
  let whole := bs.takeWhile isDigitByte
  if whole = [] ∨ (whole.head? = some 0x30 ∧ whole.length > 1) then none
  let bs := bs.dropWhile isDigitByte
  let (fraction, bs) ← match bs with
    | 0x2E :: rest =>
      if rest.takeWhile isDigitByte = [] then none
      else some (0x2E :: rest.takeWhile isDigitByte, rest.dropWhile isDigitByte)
    | _ => some ([], bs)
  let (exponent, bs) ← match bs with
    | e :: rest =>
      if e = 0x65 ∨ e = 0x45 then
        let (mark, rest) : Bytes × Bytes := match rest with
          | 0x2B :: more => ([0x2B], more)
          | 0x2D :: more => ([0x2D], more)
          | _ => ([], rest)
        if rest.takeWhile isDigitByte = [] then none
        else some (e :: (mark ++ rest.takeWhile isDigitByte), rest.dropWhile isDigitByte)
      else some ([], bs)
    | [] => some ([], bs)
  some (sign ++ whole ++ fraction ++ exponent, bs)

/-- The bytes of an ASCII text that they are the codes of. -/
def asciiText (bs : Bytes) : String := String.ofList (bs.map fun b => Char.ofNat b.toNat)

mutual

/-- Reads one value; `fuel` bounds the number of steps. -/
def value? (fuel : Nat) (bs : Bytes) : Option (Json × Bytes) :=
  match fuel with
  | 0 => none
  | fuel + 1 =>
    match skipBlanks bs with
    | 0x6E :: 0x75 :: 0x6C :: 0x6C :: rest => some (.null, rest)
    | 0x74 :: 0x72 :: 0x75 :: 0x65 :: rest => some (.bool true, rest)
    | 0x66 :: 0x61 :: 0x6C :: 0x73 :: 0x65 :: rest => some (.bool false, rest)
    | 0x22 :: rest => (literal? rest).map fun (raw, after) => (.string raw, after)
    | 0x5B :: rest =>
      match skipBlanks rest with
      | 0x5D :: after => some (.array [], after)
      | _ => (items? fuel rest).map fun (items, after) => (.array items, after)
    | 0x7B :: rest =>
      match skipBlanks rest with
      | 0x7D :: after => some (.object [], after)
      | _ => (members? fuel rest).map fun (members, after) => (.object members, after)
    | other => (number? other).map fun (digits, after) => (.number (asciiText digits), after)

/-- Reads the values of an array up to its closing bracket. -/
def items? (fuel : Nat) (bs : Bytes) : Option (List Json × Bytes) :=
  match fuel with
  | 0 => none
  | fuel + 1 => do
    let (item, rest) ← value? fuel bs
    match skipBlanks rest with
    | 0x5D :: after => some ([item], after)
    | 0x2C :: more => (items? fuel more).map fun (items, after) => (item :: items, after)
    | _ => none

/-- Reads the members of an object up to its closing brace. -/
def members? (fuel : Nat) (bs : Bytes) : Option (List (Bytes × Json) × Bytes) :=
  match fuel with
  | 0 => none
  | fuel + 1 => do
    let (name, rest) ← match skipBlanks bs with
      | 0x22 :: rest => literal? rest
      | _ => none
    let (item, rest) ← match skipBlanks rest with
      | 0x3A :: rest => value? fuel rest
      | _ => none
    match skipBlanks rest with
    | 0x7D :: after => some ([(name, item)], after)
    | 0x2C :: more =>
      (members? fuel more).map fun (members, after) => ((name, item) :: members, after)
    | _ => none

end

/-- The tree of a whole message. -/
def parse? (bs : Bytes) : Option Json := do
  let (tree, rest) ← value? (2 * bs.length + 2) bs
  if skipBlanks rest = [] then some tree else none

/-- The number that four hexadecimal digits stand for. -/
def hexQuad (a b c d : UInt8) : Nat :=
  [a, b, c, d].foldl (fun n h => 16 * n + (hexByte? h).getD 0) 0

/-- The UTF-8 bytes that the inside of a literal stands for; a lone half of a surrogate pair stands
for nothing. -/
def unescape? : Bytes → Option Bytes
  | 0x5C :: 0x75 :: a :: b :: c :: d :: rest =>
    let high := hexQuad a b c d
    if 0xDC00 ≤ high ∧ high ≤ 0xDFFF then none
    else if 0xD800 ≤ high ∧ high ≤ 0xDBFF then
      match rest with
      | 0x5C :: 0x75 :: e :: f :: g :: h :: more =>
        let low := hexQuad e f g h
        if 0xDC00 ≤ low ∧ low ≤ 0xDFFF then
          (unescape? more).map
            (String.utf8EncodeChar (Char.ofNat (0x10000 + (high - 0xD800) * 1024 + (low - 0xDC00)))
              ++ ·)
        else none
      | _ => none
    else (unescape? rest).map (String.utf8EncodeChar (Char.ofNat high) ++ ·)
  | 0x5C :: e :: rest =>
    match escapes.find? (·.1 == e) with
    | some (_, meaning) => (unescape? rest).map (meaning :: ·)
    | none => none
  | b :: rest => (unescape? rest).map (b :: ·)
  | [] => some []

/-- The text that the inside of a literal stands for. -/
def rawText? (raw : Bytes) : Option String := (unescape? raw).bind Bytes.text?

/-- The text of a string value. -/
def text? : Json → Option String
  | .string raw => rawText? raw
  | _ => none

/-- The fields of a record, in the order of `names`; `none` where a field is absent. -/
def fields? (names : List String) : Json → Option (List (Option Json))
  | .object members => do
    let named ← members.mapM fun (raw, item) => (rawText? raw).map (·, item)
    if names.all fun name => (named.filter (·.1 = name)).length ≤ 1 then
      some (names.map fun name => (named.find? (·.1 = name)).map (·.2))
    else none
  | .array items =>
    if items.length ≤ names.length then
      some ((List.range names.length).map (items[·]?))
    else none
  | _ => none

end Json
end AccessGateway
