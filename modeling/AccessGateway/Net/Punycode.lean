import AccessGateway.Text.Ascii
import AccessGateway.Text.Split

/-!
# Punycode

Labels of domain names that begin with `xn--` hold characters beyond ASCII in an encoding of their
own: the ASCII characters first, then the others as differences in a base of 36 whose digit ranges
follow an adaptive bias.
-/

set_option autoImplicit false

namespace AccessGateway.Punycode

/-- The value of a digit; case does not matter. -/
def digit? (c : Char) : Option Nat :=
  if c.isDigit then some (c.toNat - 0x30 + 26)
  else if c.isLower then some (c.toNat - 0x61)
  else if c.isUpper then some (c.toNat - 0x41)
  else none

/-- The digit range's start at a position. -/
def threshold (k bias : Nat) : Nat := if k ≤ bias then 1 else if k ≥ bias + 26 then 26 else k - bias

/-- Divides a difference by 35 until it is small, counting the digits. -/
def adaptLoop (delta k : Nat) : Nat × Nat :=
  if delta > 455 then adaptLoop (delta / 35) (k + 36) else (delta, k)
termination_by delta
decreasing_by omega

/-- The bias after a difference. -/
def adapt (delta points : Nat) (first : Bool) : Nat :=
  let delta := if first then delta / 700 else delta / 2
  let (delta, k) := adaptLoop (delta + delta / points) 0
  k + 36 * delta / (delta + 38)

/-- One difference from its digits: the new index and the rest of the digits. -/
def readDelta (bias : Nat) : (i w k : Nat) → List Char → Option (Nat × List Char)
  | _, _, _, [] => none
  | i, w, k, c :: rest =>
    match digit? c with
    | none => none
    | some d =>
      let i := i + d * w
      if i ≥ UInt32.size then none
      else
        let t := threshold k bias
        if d < t then some (i, rest) else readDelta bias i (w * (36 - t)) (k + 36) rest

/-- The characters put into the output by the differences; `fuel` bounds their number. -/
def insertAll (fuel n i bias : Nat) (out cs : List Char) : Option (List Char) :=
  match fuel, cs with
  | _, [] => some out
  | 0, _ => none
  | fuel + 1, cs => do
    let (next, rest) ← readDelta bias i 1 36 cs
    let points := out.length + 1
    let n := n + next / points
    if n ≥ 0x110000 ∨ (0xD800 ≤ n ∧ n < 0xE000) then none
    else
      let place := next % points
      insertAll fuel n (place + 1) (adapt (next - i) points (i = 0))
        (out.take place ++ Char.ofNat n :: out.drop place) rest

/-- The label that a text stands for. -/
def decode? (cs : List Char) : Option (List Char) :=
  let (basic, deltas) := (Text.cutLast? '-' cs).getD ([], cs)
  insertAll cs.length 128 0 72 basic deltas

end AccessGateway.Punycode
