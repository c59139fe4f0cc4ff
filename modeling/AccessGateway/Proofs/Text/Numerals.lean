import Mathlib.Algebra.Group.Nat.Defs
import AccessGateway.Text.Blank
import AccessGateway.Text.Number

/-!
# Numbers with a fixed number of digits

Dates are written with numbers of two and of four digits.  Such a number is written with zeros in
front if it is small, and read again with its digits counted.

## Results

* `padded_eq`, `decimal_eq` — numbers are written with their digits.
* `digits?_toDigits`, `digits?_digitsOf`, `word?_digitsOf` — and read again.
-/

set_option autoImplicit false

namespace AccessGateway.Text

variable {width n : Nat} {c : Char}

/-- The last `width` decimal digits of a number. -/
def digitsOf : Nat → Nat → List Char
  | 0, _ => []
  | width + 1, n => digitsOf width (n / 10) ++ [Nat.digitChar (n % 10)]

@[simp] theorem length_digitsOf (width n : Nat) : (digitsOf width n).length = width := by
  induction width generalizing n with
  | zero => rfl
  | succ width ih => rw [digitsOf, List.length_append, ih, List.length_singleton]

theorem digitsOf_ne_nil (n : Nat) : digitsOf (width + 1) n ≠ [] := by
  rw [digitsOf]
  exact List.append_ne_nil_of_right_ne_nil _ (List.cons_ne_nil _ _)

/-- A digit stands for its number. -/
theorem digitChar_value {d : Nat} (h : d < 10) :
    (Nat.digitChar d).isDigit = true ∧ (Nat.digitChar d).toNat - 0x30 = d := by
  have all : ∀ k : Fin 10,
      (Nat.digitChar k).isDigit = true ∧ (Nat.digitChar k).toNat - 0x30 = k.val := by
    decide
  exact all ⟨d, h⟩

theorem isDigit_of_mem_digitsOf (h : c ∈ digitsOf width n) : c.isDigit = true := by
  induction width generalizing n with
  | zero => cases h
  | succ width ih =>
    rw [digitsOf, List.mem_append, List.mem_singleton] at h
    rcases h with h | rfl
    · exact ih h
    · exact (digitChar_value (Nat.mod_lt _ (by decide))).1

theorem isDigit_iff : c.isDigit = true ↔ 48 ≤ c.toNat ∧ c.toNat ≤ 57 := by
  simp only [Char.isDigit, Bool.and_eq_true, decide_eq_true_eq, ge_iff_le, UInt32.le_iff_toNat_le]
  rfl

/-- A digit has no small letter. -/
theorem toLower_of_isDigit (h : c.isDigit = true) : c.toLower = c := by
  obtain ⟨-, hnine⟩ := isDigit_iff.mp h
  have hupper : ¬(c.val ≥ 'A'.val ∧ c.val ≤ 'Z'.val) := by
    rintro ⟨hupper, -⟩
    have hlarge : 65 ≤ c.toNat := UInt32.le_iff_toNat_le.mp hupper
    omega
  unfold Char.toLower
  rw [dif_neg hupper]

/-- A digit is no mark that separates numbers. -/
theorem ne_of_isDigit {mark : Char} (h : c.isDigit = true) (hmark : mark.isDigit = false) :
    c ≠ mark := by
  rintro rfl
  rw [h] at hmark
  cases hmark

theorem isBlank_of_isDigit (h : c.isDigit = true) : isBlank c = false := by
  obtain ⟨hlow, hhigh⟩ := isDigit_iff.mp h
  simp only [isBlank, Bool.or_eq_false_iff, Bool.and_eq_false_iff, decide_eq_false_iff_not,
    beq_eq_false_iff_ne]
  omega

theorem foldl_digitsOf (h : n < 10 ^ width) :
    (digitsOf width n).foldl (fun value c => 10 * value + (c.toNat - 0x30)) 0 = n := by
  induction width generalizing n with
  | zero =>
    rw [Nat.pow_zero, Nat.lt_one_iff] at h
    rw [h]
    rfl
  | succ width ih =>
    have hrest : n / 10 < 10 ^ width := by
      rw [Nat.pow_succ] at h
      omega
    rw [digitsOf, List.foldl_append, ih hrest, List.foldl_cons, List.foldl_nil,
      (digitChar_value (Nat.mod_lt _ (by decide))).2, Nat.div_add_mod]

/-- A number is read from its digits. -/
theorem digits?_toDigits (n : Nat) : digits? (Nat.toDigits 10 n) = some n := by
  have hdigits : (Nat.toDigits 10 n).all Char.isDigit = true :=
    List.all_eq_true.mpr fun c hc => Nat.isDigit_of_mem_toDigits (by decide) (by decide) hc
  unfold digits?
  rw [if_pos ⟨Nat.toDigits_ne_nil, hdigits⟩]
  exact congrArg some (Nat.ofDigitChars_toDigits (by decide) (by decide))

/-- A number with so many digits is read from them. -/
theorem digits?_digitsOf (hwidth : 0 < width) (h : n < 10 ^ width) :
    digits? (digitsOf width n) = some n := by
  obtain ⟨width, rfl⟩ := Nat.exists_eq_add_of_lt hwidth
  have hall : (digitsOf (0 + width + 1) n).all Char.isDigit = true :=
    List.all_eq_true.mpr fun c hc => isDigit_of_mem_digitsOf hc
  unfold digits?
  rw [if_pos ⟨digitsOf_ne_nil n, hall⟩, foldl_digitsOf h]

/-- So many digits are those of a number below a power of ten. -/
theorem digits?_lt {cs : List Char} (h : digits? cs = some n) : n < 10 ^ cs.length := by
  have hfold : ∀ (cs : List Char) (m : Nat), (∀ c ∈ cs, c.isDigit = true) →
      cs.foldl (fun value c => 10 * value + (c.toNat - 0x30)) m < (m + 1) * 10 ^ cs.length := by
    intro cs
    induction cs with
    | nil => intro m _; simp
    | cons c cs ih =>
      intro m hcs
      obtain ⟨-, hnine⟩ := isDigit_iff.mp (hcs c List.mem_cons_self)
      have hstep := ih (10 * m + (c.toNat - 0x30)) fun d hd => hcs d (List.mem_cons_of_mem _ hd)
      have hpow : (10 * m + (c.toNat - 0x30) + 1) * 10 ^ cs.length ≤
          (10 * (m + 1)) * 10 ^ cs.length :=
        Nat.mul_le_mul_right _ (by omega)
      rw [List.foldl_cons, List.length_cons, Nat.pow_succ, Nat.mul_comm (10 ^ cs.length),
        ← Nat.mul_assoc, Nat.mul_comm (m + 1)]
      exact Nat.lt_of_lt_of_le hstep hpow
  unfold digits? at h
  split at h
  case isTrue hdigits =>
    cases h
    have hlt := hfold cs 0 (List.all_eq_true.mp hdigits.2)
    simpa using hlt
  case isFalse => cases h

/-- A number below a bound is read with it. -/
theorem word?_digitsOf {size : Nat} (hwidth : 0 < width) (h : n < 10 ^ width) (hsize : n < size) :
    word? size (digitsOf width n) = some n := by
  have hplus : ∀ rest, digitsOf width n ≠ '+' :: rest := by
    intro rest heq
    have hdigit := isDigit_of_mem_digitsOf (heq ▸ List.mem_cons_self : '+' ∈ digitsOf width n)
    cases hdigit
  unfold word?
  split
  case h_1 rest heq => exact absurd heq (hplus rest)
  case h_2 =>
    dsimp only
    rw [digits?_digitsOf hwidth h, Option.filter_some, if_pos (by simpa using hsize)]

theorem digitsOf_zero (width : Nat) : digitsOf width 0 = List.replicate width '0' := by
  induction width with
  | zero => rfl
  | succ width ih => rw [digitsOf, ih, List.replicate_succ']; rfl

/-- The digits of a number with zeros in front up to a width are its last digits. -/
theorem replicate_append_toDigits (h : n < 10 ^ (width + 1)) :
    List.replicate (width + 1 - (Nat.toDigits 10 n).length) '0' ++ Nat.toDigits 10 n =
      digitsOf (width + 1) n := by
  induction width generalizing n with
  | zero =>
    have hdigit : n < 10 := by simpa using h
    rw [Nat.toDigits_of_lt_base hdigit, digitsOf, digitsOf, Nat.mod_eq_of_lt hdigit]
    rfl
  | succ width ih =>
    rw [digitsOf, Nat.toDigits_eq_if (by decide)]
    split
    case isTrue hdigit =>
      rw [Nat.div_eq_of_lt hdigit, digitsOf_zero, Nat.mod_eq_of_lt hdigit]
      rfl
    case isFalse =>
      have hrest : n / 10 < 10 ^ (width + 1) := by
        rw [Nat.pow_succ] at h
        omega
      rw [List.length_append, List.length_singleton, Nat.add_sub_add_right, ← List.append_assoc,
        ih hrest]

/-- Numbers are written with zeros in front. -/
theorem toList_padded (h : n < 10 ^ (width + 1)) :
    (padded (width + 1) n).toList = digitsOf (width + 1) n := by
  unfold padded
  dsimp only
  rw [String.toList_ofList, replicate_append_toDigits h]

/-- A number that has so many digits itself is written with them. -/
theorem toList_decimal (h : 10 ^ width ≤ n) (hlt : n < 10 ^ (width + 1)) :
    (decimal n).toList = digitsOf (width + 1) n := by
  have hlength : (Nat.toDigits 10 n).length = width + 1 := by
    have hle := (Nat.length_toDigits_le_iff (by decide) (Nat.succ_pos width)).mpr hlt
    have hge : ¬(Nat.toDigits 10 n).length ≤ width := by
      rcases Nat.eq_zero_or_pos width with rfl | hpos
      · have hne := List.length_pos_iff.mpr (@Nat.toDigits_ne_nil n 10)
        omega
      · rw [Nat.length_toDigits_le_iff (by decide) hpos]
        omega
    omega
  have hpadded := replicate_append_toDigits hlt
  rw [hlength, Nat.sub_self, List.replicate_zero, List.nil_append] at hpadded
  rw [decimal, String.toList_ofList, hpadded]

end AccessGateway.Text
