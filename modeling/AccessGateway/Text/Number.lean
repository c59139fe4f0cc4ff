import AccessGateway.Text.Split

/-!
# Decimal numbers in text

Numbers are read with a bound that says how large a value may be, with or without a leading plus
sign, and written with a least number of digits.
-/

set_option autoImplicit false

namespace AccessGateway.Text

/-- The value of a non-empty run of decimal digits. -/
def digits? (cs : List Char) : Option Nat :=
  if cs ≠ [] ∧ cs.all Char.isDigit then
    some (cs.foldl (fun n c => 10 * n + (c.toNat - 0x30)) 0)
  else none

/-- A decimal number below `size`, with at most one plus sign in front. -/
def word? (size : Nat) (cs : List Char) : Option Nat :=
  let body := match cs with
    | '+' :: rest => rest
    | _ => cs
  (digits? body).filter (· < size)

/-- The decimal digits of a number, without leading zeros. -/
def decimal (n : Nat) : String := String.ofList (Nat.toDigits 10 n)

/-- The decimal digits of a number with zeros in front up to `width` characters. -/
def padded (width n : Nat) : String :=
  let ds := Nat.toDigits 10 n
  String.ofList (List.replicate (width - ds.length) '0' ++ ds)

end AccessGateway.Text
