/-!
# Blanks and trimming

Two sets of blanks are in use: the Unicode property `White_Space`, which trimming works with, and
the five ASCII blanks that may wrap an encoded text.  Main statements:

* `trim_eq_self`: a text whose two ends are no blanks is its own trimmed form,
* `trimStart_append`, `trimEnd_append`: blanks added at an end are taken away again.
-/

set_option autoImplicit false

namespace AccessGateway.Text

/-- A character with the Unicode property `White_Space`. -/
def isBlank (c : Char) : Bool :=
  let n := c.toNat
  (9 ≤ n && n ≤ 13) || n == 0x20 || n == 0x85 || n == 0xA0 || n == 0x1680 ||
    (0x2000 ≤ n && n ≤ 0x200A) || n == 0x2028 || n == 0x2029 || n == 0x202F || n == 0x205F ||
    n == 0x3000

/-- The ASCII blanks: space, tabulator, line feed, form feed and carriage return. -/
def isAsciiBlank (c : Char) : Bool :=
  c == ' ' || c == '\t' || c == '\n' || c == '\x0c' || c == '\r'

/-- The text without the blanks it starts with. -/
def trimStart (cs : List Char) : List Char := cs.dropWhile isBlank

/-- The text without the blanks it ends with. -/
def trimEnd (cs : List Char) : List Char := (cs.reverse.dropWhile isBlank).reverse

/-- The text without the blanks at its two ends. -/
def trim (cs : List Char) : List Char := trimEnd (trimStart cs)

/-- `trim` on strings. -/
def trimmed (s : String) : String := String.ofList (trim s.toList)

/-- The longest pieces of a text that hold no blank, in order. -/
def words (cs : List Char) : List (List Char) :=
  (cs.foldr (fun c acc =>
    match isBlank c, acc with
    | true, [] :: _ => acc
    | true, _ => [] :: acc
    | false, [] => [[c]]
    | false, w :: ws => (c :: w) :: ws) []).filter (· ≠ [])

@[simp] theorem trimStart_nil : trimStart [] = [] := rfl
@[simp] theorem trimEnd_nil : trimEnd [] = [] := rfl

theorem trimStart_cons (c : Char) (cs : List Char) :
    trimStart (c :: cs) = if isBlank c then trimStart cs else c :: cs := by
  simp only [trimStart, List.dropWhile_cons]

theorem trimStart_append {bs : List Char} (cs : List Char) (h : ∀ b ∈ bs, isBlank b = true) :
    trimStart (bs ++ cs) = trimStart cs := by
  induction bs with
  | nil => rfl
  | cons b bs ih =>
    simp only [List.mem_cons, forall_eq_or_imp] at h
    simp [trimStart_cons, h.1, ih h.2]

theorem trimEnd_append {bs : List Char} (cs : List Char) (h : ∀ b ∈ bs, isBlank b = true) :
    trimEnd (cs ++ bs) = trimEnd cs := by
  have h' : ∀ b ∈ bs.reverse, isBlank b = true := by simpa using h
  simpa [trimEnd, trimStart] using congrArg List.reverse (trimStart_append cs.reverse h')

theorem trimStart_eq_self {cs : List Char} (h : ∀ c, cs.head? = some c → isBlank c = false) :
    trimStart cs = cs := by
  cases cs with
  | nil => rfl
  | cons c cs => simp [trimStart_cons, h c rfl]

theorem trimEnd_eq_self {cs : List Char} (h : ∀ c, cs.getLast? = some c → isBlank c = false) :
    trimEnd cs = cs := by
  have := @trimStart_eq_self cs.reverse (by simpa using h)
  simp only [trimStart] at this
  simp [trimEnd, this]

/-- A text whose two ends are no blanks is its own trimmed form. -/
theorem trim_eq_self {cs : List Char} (hs : ∀ c, cs.head? = some c → isBlank c = false)
    (he : ∀ c, cs.getLast? = some c → isBlank c = false) : trim cs = cs := by
  rw [trim, trimStart_eq_self hs, trimEnd_eq_self he]

theorem isBlank_of_printed {c : Char} (h : 0x20 < c.toNat ∧ c.toNat < 0x7F) :
    isBlank c = false := by
  unfold isBlank
  simp only [Bool.or_eq_false_iff, Bool.and_eq_false_iff, decide_eq_false_iff_not,
    beq_eq_false_iff_ne]
  omega

end AccessGateway.Text
