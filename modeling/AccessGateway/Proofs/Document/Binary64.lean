import AccessGateway.Document.Binary64
import AccessGateway.Proofs.Text.Numerals
import Mathlib.Algebra.Order.Field.Rat

/-!
# Whole numbers in messages

A whole number that has at most 64 bits is never rounded: all of its digits are kept, and nothing is
left to scale.

## Results

* `Binary64.ofLiteral?_decimal` — what is read from the digits of a whole number.
-/

set_option autoImplicit false

namespace AccessGateway.Binary64

/-- The number that digits make behind a number. -/
abbrev withDigits (kept : Nat) (cs : List Char) : Nat :=
  cs.foldl (fun n c => 10 * n + (c.toNat - 0x30)) kept

theorem le_withDigits (kept : Nat) (cs : List Char) : kept ≤ withDigits kept cs := by
  induction cs generalizing kept with
  | nil => exact Nat.le_refl kept
  | cons c cs ih =>
    have hstep : kept ≤ 10 * kept + (c.toNat - 0x30) := by omega
    exact hstep.trans (ih _)

/-- Digits that stay within 64 bits are all kept. -/
theorem keepDigits_eq {cs : List Char} {kept : Nat} (h : withDigits kept cs < UInt64.size) :
    keepDigits kept cs = (withDigits kept cs, []) := by
  induction cs generalizing kept with
  | nil => rfl
  | cons c cs ih =>
    rw [keepDigits, if_pos ((le_withDigits _ cs).trans_lt h)]
    exact ih h

/-- **A whole number of 64 bits** that is written with its digits only is read as it is. -/
theorem ofLiteral?_decimal {n : Nat} (h : n < 2 ^ 64) :
    ofLiteral? (Text.decimal n) = some (n : ℚ) := by
  have hdigit : ∀ c ∈ Nat.toDigits 10 n, c.isDigit = true :=
    fun c hc => Nat.isDigit_of_mem_toDigits (by decide) (by decide) hc
  have habsent : ∀ c : Char, c.isDigit = false → c ∉ Nat.toDigits 10 n :=
    fun c hc hmem => Text.ne_of_isDigit (hdigit c hmem) hc rfl
  have hlower : (Nat.toDigits 10 n).map Char.toLower = Nat.toDigits 10 n :=
    (List.map_congr_left fun c hc => Text.toLower_of_isDigit (hdigit c hc)).trans (List.map_id _)
  have hsign : ¬(Nat.toDigits 10 n).head? = some '-' :=
    fun h => habsent '-' rfl (List.mem_of_head? h)
  have hfold : withDigits 0 (Nat.toDigits 10 n) = n :=
    Nat.ofDigitChars_toDigits (by decide) (by decide)
  have hkept : keepDigits 0 (Nat.toDigits 10 n) = (n, []) := by
    rw [keepDigits_eq (by rwa [hfold]), hfold]
  unfold ofLiteral? Text.decimal
  rw [String.toList_ofList, hlower]
  simp [hsign, Text.cut?_eq_none (habsent 'e' rfl), Text.cut?_eq_none (habsent '.' rfl), hkept,
    keepDigits]

-- A number with a fraction is rounded to 53 bits.
example : ofLiteral? "0.1" = some (3602879701896397 / 2 ^ 55) := by decide +kernel

end AccessGateway.Binary64
