import AccessGateway.Document.Json
import AccessGateway.Text.Split

/-!
# Numbers of messages

A message keeps a number as it is written.  A whole number of 64 bits is read as it is.  Of any
other one, as many digits are kept as fit into 64 bits, and a floating-point number is made of them
by scaling with a power of ten; each step rounds.  A floating-point number is the rational number
that it stands for.

A message that is kept whole has to have numbers in the range of floating-point numbers, texts that
can be read, and no more than so many levels.
-/

set_option autoImplicit false

namespace AccessGateway

namespace Binary64

/-- The greatest exponent of two with a power of at most the given positive number. -/
def exponent (x : Rat) : Int :=
  let e : Int := Nat.log2 x.num.toNat - Nat.log2 x.den
  if (2 : Rat) ^ e ≤ x then e else e - 1

/-- The exponent of the last bit of the floating-point numbers around a positive number. -/
def lastBit (x : Rat) : Int := max (exponent x - 52) (-1074)

/-- The nearest whole number, the even one of two. -/
def nearestEven (x : Rat) : Int :=
  let low := x.floor
  let rest := x - low
  if rest < 1 / 2 ∨ (rest = 1 / 2 ∧ low % 2 = 0) then low else low + 1

/-- The floating-point number next to a number that is not negative, as if there was no greatest
one. -/
def nearest (x : Rat) : Rat := nearestEven (x / (2 : Rat) ^ lastBit x) * (2 : Rat) ^ lastBit x

/-- The least number that is too large for a floating-point number, once it is rounded. -/
def bound : Nat := Nat.pow 2 1024

/-- The greatest exponent of ten that a floating-point number can have. -/
def maxTenExponent : Nat := 308

/-- A power of ten as a floating-point number. -/
def tenPow (k : Nat) : Rat := nearest (Nat.pow 10 k : Nat)

/-- Divides by the greatest power of ten so many times. -/
def shrink (x : Rat) : Nat → Rat
  | 0 => x
  | times + 1 => if x = 0 then 0 else shrink (nearest (x / tenPow maxTenExponent)) times

/-- The floating-point number for kept digits and an exponent of ten (`f64_from_parts`); nothing if
it is too large. -/
def ofParts? (kept : Nat) : Int → Option Rat
  | .ofNat k =>
    if kept = 0 then some 0
    else if k ≤ maxTenExponent then
      let x := nearest (nearest kept * tenPow k)
      if x < bound then some x else none
    else none
  | .negSucc k =>
    some (nearest (shrink (nearest kept) (k / maxTenExponent) / tenPow (k % maxTenExponent + 1)))

/-- Adds digits to a number as long as it has 64 bits at most; the digits from then on are left. -/
def keepDigits (kept : Nat) : List Char → Nat × List Char
  | [] => (kept, [])
  | c :: cs =>
    let longer := 10 * kept + (c.toNat - 0x30)
    if longer < UInt64.size then keepDigits longer cs else (kept, c :: cs)

/-- The number that is written with an integer part, perhaps a fraction and perhaps an exponent;
nothing if it is too large.  A digit before the point that is not kept still makes the number ten
times as large, and digits of the fraction may be kept behind it. -/
def ofLiteral? (digits : String) : Option Rat :=
  let cs := digits.toList.map Char.toLower
  let negative := cs.head? = some '-'
  let body := if negative then cs.drop 1 else cs
  let (mantissa, power) := (Text.cut? 'e' body).getD (body, [])
  let (whole, fraction) := (Text.cut? '.' mantissa).getD (mantissa, [])
  let (first, dropped) := keepDigits 0 whole
  let (kept, unread) := keepDigits first fraction
  let down := power.head? = some '-'
  let size := (Text.digits? (if down ∨ power.head? = some '+' then power.drop 1 else power)).getD 0
  let scale : Int := if down then -(size : Int) else size
  let exponent := scale + dropped.length - (fraction.length - unread.length : Nat)
  let isWhole := fraction = [] ∧ power = [] ∧ dropped = []
  let value? :=
    if isWhole ∧ ¬(negative ∧ Nat.pow 2 63 < kept) then some (kept : Rat)
    else ofParts? kept exponent
  value?.map fun x => if negative then -x else x

end Binary64

/-- Whether a message can be kept whole if it has at most `depth` levels. -/
def Json.isKeepable (depth : Nat) : Json → Bool
  | .null | .bool _ => true
  | .number digits => (Binary64.ofLiteral? digits).isSome
  | .string raw => (rawText? raw).isSome
  | .array items =>
    match depth with
    | 0 => false
    | depth + 1 => items.all (isKeepable depth)
  | .object members =>
    match depth with
    | 0 => false
    | depth + 1 => members.all fun (raw, item) => (rawText? raw).isSome && isKeepable depth item

end AccessGateway
