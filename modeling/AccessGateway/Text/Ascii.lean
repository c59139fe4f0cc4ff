/-!
# ASCII case and character classes

Names of headers, schemes and control keys are compared without regard to the case of ASCII
letters; all other characters stand for themselves.
-/

set_option autoImplicit false

namespace AccessGateway.Text

/-- The text with `A` to `Z` written small. -/
def toLower (s : String) : String := String.ofList (s.toList.map Char.toLower)

/-- The text with `a` to `z` written large. -/
def toUpper (s : String) : String := String.ofList (s.toList.map Char.toUpper)

/-- Equality up to the case of ASCII letters. -/
def eqIgnoreCase (s t : String) : Bool :=
  s.toList.map Char.toLower == t.toList.map Char.toLower

/-- A character of a header name or method: a letter, a digit or one of fifteen marks. -/
def isTokenChar (c : Char) : Bool :=
  c.isAlphanum || "!#$%&'*+-.^_|~".toList.contains c || c.toNat == 0x60

/-- A hexadecimal digit's value. -/
def hexValue? (c : Char) : Option Nat :=
  if c.isDigit then some (c.toNat - 0x30)
  else if 'a' ≤ c ∧ c ≤ 'f' then some (c.toNat - 0x61 + 10)
  else if 'A' ≤ c ∧ c ≤ 'F' then some (c.toNat - 0x41 + 10)
  else none

/-- The large hexadecimal digit of a number below sixteen. -/
def hexDigit (n : Nat) : Char :=
  if n < 10 then Char.ofNat (0x30 + n) else Char.ofNat (0x41 + (n - 10))

theorem hexValue?_hexDigit {n : Nat} (h : n < 16) : hexValue? (hexDigit n) = some n := by
  have all : ∀ m : Fin 16, hexValue? (hexDigit m) = some m.val := by decide
  exact all ⟨n, h⟩

/-- What was checked of every character of a given text. -/
theorem forall_mem_of_all {p : Char → Prop} [DecidablePred p] {cs : List Char}
    (h : cs.all (fun c => decide (p c)) = true) : ∀ c ∈ cs, p c :=
  fun c hc => of_decide_eq_true (List.all_eq_true.mp h c hc)

/-- Letters and digits by their numbers. -/
theorem isAlphanum_iff {c : Char} :
    c.isAlphanum = true ↔
      (0x41 ≤ c.toNat ∧ c.toNat ≤ 0x5A) ∨ (0x61 ≤ c.toNat ∧ c.toNat ≤ 0x7A) ∨
        (0x30 ≤ c.toNat ∧ c.toNat ≤ 0x39) := by
  show ((decide (65 ≤ c.val ∧ c.val ≤ 90) || decide (97 ≤ c.val) && decide (c.val ≤ 122)) ||
    decide (48 ≤ c.val) && decide (c.val ≤ 57)) = true ↔ _
  simp only [Bool.or_eq_true, Bool.and_eq_true, decide_eq_true_eq, UInt32.le_iff_toNat_le, or_assoc]
  exact Iff.rfl

/-- Tokens hold neither blanks nor control characters. -/
theorem isTokenChar_printed {c : Char} (h : isTokenChar c = true) :
    0x20 < c.toNat ∧ c.toNat < 0x7F := by
  have hmarks : ∀ d ∈ "!#$%&'*+-.^_|~".toList, 0x20 < d.toNat ∧ d.toNat < 0x7F :=
    forall_mem_of_all (by decide)
  unfold isTokenChar at h
  rw [Bool.or_eq_true, Bool.or_eq_true, List.contains_iff_mem, beq_iff_eq] at h
  rcases h with (halphanum | hmark) | hcode
  · have hrange := isAlphanum_iff.mp halphanum
    omega
  · exact hmarks c hmark
  · omega

end AccessGateway.Text
