import AccessGateway.Federation.Saml
import Mathlib.Data.List.Basic

/-!
# Scanning by byte offsets

The scans read off a text by cutting characters from its front.  Over a text that is kept in one
piece they go by offsets instead: a loop holds the number of bytes that it has passed, slices the
text there, and looks for the next `<`.  A slice fails behind the end of the text and inside the
bytes of a character, and nothing in such a loop says that it ends.  Here the scans are written so,
with every slice and every turn of a loop.

## Results

* `splitAt?_eq_some` — an offset is good exactly at the end of a character.
* `loop_eq` — a loop of which every turn advances comes to its result.
* `offsetOf?_after?`, `tagEnd?_append` — where a mark stands, and where a tag ends.
* `rootElement`, `findElement`, `elementAt`, `assertion` — the scans.
-/

set_option autoImplicit false

namespace AccessGateway

namespace Saml.Offsets

/-! ## Slices -/

/-- Why a scan would break off. -/
inductive Fault
  /-- An offset behind the end of a text, or inside the bytes of a character. -/
  | outside
  /-- A count that would go below zero. -/
  | underflow
  /-- A loop that is out of turns. -/
  | unfinished
deriving DecidableEq, Repr

/-- The number of bytes of a text. -/
def size (cs : List Char) : Nat := (Utf8.encode cs).length

@[simp] theorem size_nil : size [] = 0 := rfl

@[simp] theorem size_cons (c : Char) (cs : List Char) : size (c :: cs) = c.utf8Size + size cs := by
  simp [size, Utf8.encode]

@[simp] theorem size_append (xs ys : List Char) : size (xs ++ ys) = size xs + size ys := by
  simp [size, Utf8.encode]

/-- The parts of a text before and after an offset. -/
def splitAt? : Nat → List Char → Option (List Char × List Char)
  | 0, cs => some ([], cs)
  | _ + 1, [] => none
  | n + 1, c :: cs =>
    if c.utf8Size ≤ n + 1 then
      (splitAt? (n + 1 - c.utf8Size) cs).map fun parts => (c :: parts.1, parts.2)
    else none

theorem size_eq_zero {cs : List Char} : size cs = 0 ↔ cs = [] := by
  cases cs with
  | nil => simp
  | cons c cs =>
    have hpos := c.utf8Size_pos
    simp only [size_cons, reduceCtorEq, iff_false]
    omega

/-- **An offset is good exactly at the end of a character.** -/
theorem splitAt?_eq_some {n : Nat} {cs xs ys : List Char} :
    splitAt? n cs = some (xs, ys) ↔ cs = xs ++ ys ∧ n = size xs := by
  fun_induction splitAt? n cs generalizing xs with
  | case1 cs =>
    rw [Option.some.injEq, Prod.mk.injEq, eq_comm (a := 0), size_eq_zero]
    constructor
    · rintro ⟨rfl, rfl⟩
      exact ⟨rfl, rfl⟩
    · rintro ⟨rfl, rfl⟩
      exact ⟨rfl, rfl⟩
  | case2 n =>
    refine ⟨nofun, ?_⟩
    rintro ⟨happend, hsize⟩
    obtain ⟨rfl, -⟩ := List.append_eq_nil_iff.mp happend.symm
    cases hsize
  | case3 n c cs hfits ih =>
    simp only [Option.map_eq_some_iff, Prod.exists, Prod.mk.injEq]
    constructor
    · rintro ⟨zs, _, hsplit, rfl, rfl⟩
      obtain ⟨rfl, hsize⟩ := ih.mp hsplit
      refine ⟨rfl, ?_⟩
      rw [size_cons]
      omega
    · rintro ⟨happend, hsize⟩
      cases xs with
      | nil => cases hsize
      | cons x xs =>
        obtain ⟨rfl, rfl⟩ := List.cons.inj happend
        rw [size_cons] at hsize
        exact ⟨xs, ys, ih.mpr ⟨rfl, by omega⟩, rfl, rfl⟩
  | case4 n c cs hfits =>
    refine ⟨nofun, ?_⟩
    rintro ⟨happend, hsize⟩
    cases xs with
    | nil => cases hsize
    | cons x xs =>
      obtain ⟨rfl, -⟩ := List.cons.inj happend
      rw [size_cons] at hsize
      omega

/-- What stands behind an offset. -/
def sliceFrom (text : List Char) (start : Nat) : Except Fault (List Char) :=
  match splitAt? start text with
  | some (_, after) => .ok after
  | none => .error .outside

/-- What stands between two offsets. -/
def slice (text : List Char) (start stop : Nat) : Except Fault (List Char) :=
  match splitAt? stop text with
  | some (before, _) => sliceFrom before start
  | none => .error .outside

theorem sliceFrom_append (xs ys : List Char) : sliceFrom (xs ++ ys) (size xs) = .ok ys := by
  rw [sliceFrom, splitAt?_eq_some.mpr ⟨rfl, rfl⟩]

theorem slice_append (xs ys zs : List Char) :
    slice (xs ++ (ys ++ zs)) (size xs) (size xs + size ys) = .ok ys := by
  rw [slice, splitAt?_eq_some.mpr ⟨(List.append_assoc xs ys zs).symm, (size_append xs ys).symm⟩]
  exact sliceFrom_append xs ys

/-- The offset at which a mark first occurs. -/
def offsetOf? (mark : List Char) : List Char → Option Nat
  | [] => none
  | c :: cs =>
    if mark.isPrefixOf (c :: cs) then some 0
    else (offsetOf? mark cs).map (c.utf8Size + ·)

/-- What comes after a mark stands behind its offset. -/
theorem offsetOf?_after? (mark cs : List Char) :
    (offsetOf? mark cs = none ∧ after? mark cs = none) ∨
    ∃ xs ys, cs = xs ++ (mark ++ ys) ∧ offsetOf? mark cs = some (size xs) ∧
      after? mark cs = some ys := by
  induction cs with
  | nil => exact .inl ⟨rfl, rfl⟩
  | cons c cs ih =>
    rw [offsetOf?, after?]
    by_cases hmark : mark <+: c :: cs
    · obtain ⟨ys, hys⟩ := hmark
      refine .inr ⟨[], ys, hys.symm, if_pos (List.isPrefixOf_iff_prefix.mpr ⟨ys, hys⟩), ?_⟩
      rw [List.isPrefixOf?_eq_some_iff_append_eq.mpr hys]
    · have hnone : mark.isPrefixOf? (c :: cs) = none := by
        refine Option.eq_none_iff_forall_ne_some.mpr fun ys hys => hmark ⟨ys, ?_⟩
        exact List.isPrefixOf?_eq_some_iff_append_eq.mp hys
      rw [if_neg (mt List.isPrefixOf_iff_prefix.mp hmark), hnone]
      rcases ih with ⟨hoffset, hafter⟩ | ⟨xs, ys, rfl, hoffset, hafter⟩
      · exact .inl ⟨by rw [hoffset, Option.map_none], hafter⟩
      · exact .inr ⟨c :: xs, ys, rfl, by rw [hoffset, Option.map_some, size_cons], hafter⟩

/-- The next `<`, if there is one. -/
theorem offsetOf?_lt (cs : List Char) :
    ('<' ∉ cs ∧ offsetOf? "<".toList cs = none) ∨
    ∃ gap rest, cs = gap ++ '<' :: rest ∧ '<' ∉ gap ∧
      offsetOf? "<".toList cs = some (size gap) := by
  induction cs with
  | nil => exact .inl ⟨List.not_mem_nil, rfl⟩
  | cons c cs ih =>
    by_cases hlt : c = '<'
    · subst hlt
      exact .inr ⟨[], cs, rfl, List.not_mem_nil, rfl⟩
    · have hmore : offsetOf? "<".toList (c :: cs) =
          (offsetOf? "<".toList cs).map (c.utf8Size + ·) := by
        rw [offsetOf?, if_neg]
        simpa [List.isPrefixOf] using Ne.symm hlt
      rw [hmore]
      rcases ih with ⟨hnone, hoffset⟩ | ⟨gap, rest, rfl, hgap, hoffset⟩
      · refine .inl ⟨?_, by rw [hoffset, Option.map_none]⟩
        rw [List.mem_cons, not_or]
        exact ⟨Ne.symm hlt, hnone⟩
      · refine .inr ⟨c :: gap, rest, rfl, ?_, by rw [hoffset, Option.map_some, size_cons]⟩
        rw [List.mem_cons, not_or]
        exact ⟨Ne.symm hlt, hgap⟩

/-! ## Loops -/

/-- What a turn of a loop comes to. -/
inductive Turn (σ α : Type)
  | again (state : σ)
  | stop (result : α)

/-- A loop, for at most so many turns. -/
def loop {σ α : Type} (turn : σ → Except Fault (Turn σ α)) : Nat → σ → Except Fault α
  | 0, _ => .error .unfinished
  | turns + 1, state => do
    match ← turn state with
    | .again state => loop turn turns state
    | .stop result => .ok result

/-- A turn comes to the result of a state, or goes on in one with the same result that is nearer to
the end.  The states that a loop can be in are given by a type `γ`. -/
def Advances {σ α γ : Type} (state : γ → σ) (result : γ → α) (left : γ → Nat) (g : γ)
    (turn : Except Fault (Turn σ α)) : Prop :=
  turn = .ok (.stop (result g)) ∨
    ∃ g', turn = .ok (.again (state g')) ∧ result g' = result g ∧ left g' < left g

/-- **A loop comes to its result** if every turn advances. -/
theorem loop_eq {σ α γ : Type} {turn : σ → Except Fault (Turn σ α)} {state : γ → σ}
    {result : γ → α} {left : γ → Nat}
    (hturn : ∀ g, Advances state result left g (turn (state g)))
    {turns : Nat} {g : γ} (h : left g < turns) : loop turn turns (state g) = .ok (result g) := by
  induction turns generalizing g with
  | zero => cases h
  | succ turns ih =>
    rw [loop]
    rcases hturn g with hstop | ⟨g', hagain, hresult, hleft⟩
    · rw [hstop]
      rfl
    · rw [hagain, ← hresult]
      exact ih (by omega)

/-! ## Tags -/

/-- The offset of the `>` that ends a tag, counted on from `i`. -/
def tagEndFrom? (quote : Option Char) (i : Nat) : List Char → Option Nat
  | [] => none
  | c :: cs =>
    match quote with
    | some q => tagEndFrom? (if c = q then none else some q) (i + c.utf8Size) cs
    | none =>
      if c = '"' ∨ c = '\'' then tagEndFrom? (some c) (i + c.utf8Size) cs
      else if c = '>' then some i
      else tagEndFrom? none (i + c.utf8Size) cs

/-- The offset of the `>` that ends the tag at an offset. -/
def tagEnd? (text : List Char) (start : Nat) : Except Fault (Option Nat) := do
  return tagEndFrom? none start (← sliceFrom text start)

theorem tagEndFrom?_tagLength? (quote : Option Char) (i m : Nat) (cs : List Char) :
    (tagEndFrom? quote i cs = none ∧ tagLength? quote m cs = none) ∨
    ∃ tag rest, cs = tag ++ '>' :: rest ∧ tagEndFrom? quote i cs = some (i + size tag) ∧
      tagLength? quote m cs = some (m + tag.length) := by
  induction cs generalizing quote i m with
  | nil => exact .inl ⟨rfl, rfl⟩
  | cons c cs ih =>
    -- one character that does not end the tag
    have hmore (quote' : Option Char)
        (hbytes : tagEndFrom? quote i (c :: cs) = tagEndFrom? quote' (i + c.utf8Size) cs)
        (hchars : tagLength? quote m (c :: cs) = tagLength? quote' (m + 1) cs) :
        (tagEndFrom? quote i (c :: cs) = none ∧ tagLength? quote m (c :: cs) = none) ∨
        ∃ tag rest, c :: cs = tag ++ '>' :: rest ∧
          tagEndFrom? quote i (c :: cs) = some (i + size tag) ∧
          tagLength? quote m (c :: cs) = some (m + tag.length) := by
      rw [hbytes, hchars]
      rcases ih quote' (i + c.utf8Size) (m + 1) with hnone | ⟨tag, rest, rfl, hend, hlength⟩
      · exact .inl hnone
      · refine .inr ⟨c :: tag, rest, rfl, ?_, ?_⟩
        · rw [hend, size_cons, Nat.add_assoc]
        · rw [hlength, List.length_cons, Nat.add_assoc, Nat.add_comm 1]
    cases quote with
    | some q => exact hmore _ rfl rfl
    | none =>
      by_cases hquote : c = '"' ∨ c = '\''
      · have hend : c ≠ '>' := by
          rintro rfl
          revert hquote
          decide
        refine hmore (some c) ?_ ?_
        · rw [tagEndFrom?, if_pos hquote]
        · rw [tagLength?, if_neg hend, if_pos hquote]
      · by_cases hend : c = '>'
        · subst hend
          exact .inr ⟨[], cs, rfl, rfl, rfl⟩
        · refine hmore none ?_ ?_
          · rw [tagEndFrom?, if_neg hquote, if_neg hend]
          · rw [tagLength?, if_neg hend, if_neg hquote]

/-- **The end of a tag** is behind the bytes of what is split off. -/
theorem tagEnd?_append (before after : List Char) :
    tagEnd? (before ++ after) (size before) =
      .ok ((splitTag? after).map fun parts => size before + size parts.1) := by
  rw [tagEnd?, sliceFrom_append, splitTag?]
  rcases tagEndFrom?_tagLength? none (size before) 0 after with
    ⟨hnone, hlength⟩ | ⟨tag, rest, rfl, hend, hlength⟩
  · rw [hlength]
    exact congrArg Except.ok hnone
  · rw [hlength, Nat.zero_add, Option.map_some, Option.map_some, List.take_left]
    exact congrArg Except.ok hend

/-! ## The scans -/

/-- The root element as it stands in a text. -/
structure Root where
  start : Nat
  /-- The offset behind the `>` of the tag. -/
  stop : Nat
  qualified : List Char
  name : String
deriving DecidableEq, Repr

/-- The turn of a loop that goes on behind a mark. -/
def skipTo {α : Type} (mark : String) (rest : List Char) (start : Nat) : Turn Nat (Option α) :=
  match offsetOf? mark.toList rest with
  | some offset => .again (start + offset + size mark.toList)
  | none => .stop none

/-- Looks at the next `<` for the root element. -/
def rootTurn (text : List Char) (pos : Nat) : Except Fault (Turn Nat (Option Root)) := do
  match offsetOf? "<".toList (← sliceFrom text pos) with
  | none => return .stop none
  | some offset =>
    let start := pos + offset
    let rest ← sliceFrom text start
    if "<?".toList.isPrefixOf rest then return skipTo "?>" rest start
    else if "<!--".toList.isPrefixOf rest then return skipTo "-->" rest start
    else if "<!".toList.isPrefixOf rest then return skipTo ">" rest start
    else
      match tagName? (← sliceFrom rest 1) with
      | none => return .stop none
      | some qualified =>
        match ← tagEnd? text start with
        | none => return .stop none
        | some stop =>
          return .stop (some ⟨start, stop + 1, qualified, String.ofList (localName qualified)⟩)

/-- Looks at the next `<` for an element with a local name. -/
def findTurn (text : List Char) (name : String) (pos : Nat) :
    Except Fault (Turn Nat (Option (Nat × List Char))) := do
  match offsetOf? "<".toList (← sliceFrom text pos) with
  | none => return .stop none
  | some offset =>
    let start := pos + offset
    match tagName? (← sliceFrom text (start + 1)) with
    | none => return .again (start + 1)
    | some qualified =>
      if String.ofList (localName qualified) = name then return .stop (some (start, qualified))
      else return .again (start + 1)

/-- What comes of a tag that ends at `stop`, in the search for the one that closes the element at
`start`; so many elements of its name are open. -/
def tagTurn (text : List Char) (start : Nat) (qualified tag : List Char) (depth stop : Nat) :
    Except Fault (Turn (Nat × Nat) (Option (List Char))) := do
  if tag.head? = some '/' then
    if Text.trimEnd (tag.drop 1) = qualified then
      match depth with
      | 0 => throw .underflow
      | 1 => return .stop (some (← slice text start (stop + 1)))
      | depth + 1 => return .again (depth, stop + 1)
    else return .again (depth, stop + 1)
  else if tagName? tag = some qualified ∧ !isSelfClosing tag then
    return .again (depth + 1, stop + 1)
  else return .again (depth, stop + 1)

/-- Looks at the next tag for the one that closes the element. -/
def closeTurn (text : List Char) (start : Nat) (qualified : List Char) (state : Nat × Nat) :
    Except Fault (Turn (Nat × Nat) (Option (List Char))) := do
  let (depth, pos) := state
  match offsetOf? "<".toList (← sliceFrom text pos) with
  | none => return .stop none
  | some offset =>
    match ← tagEnd? text (pos + offset) with
    | none => return .stop none
    | some stop =>
      tagTurn text start qualified (← slice text (pos + offset + 1) stop) depth stop

/-- The first element of a text. -/
def rootElement (turns : Nat) (text : List Char) : Except Fault (Option Root) :=
  loop (rootTurn text) turns 0

/-- The first element with a local name behind an offset, and its qualified name. -/
def findElement (turns : Nat) (text : List Char) (start : Nat) (name : String) :
    Except Fault (Option (Nat × List Char)) :=
  loop (findTurn text name) turns start

/-- The text of the element at an offset. -/
def elementAt (turns : Nat) (text : List Char) (start : Nat) (qualified : List Char) :
    Except Fault (Option (List Char)) := do
  match ← tagEnd? text start with
  | none => return none
  | some stop =>
    if isSelfClosing (← slice text start stop) then return some (← slice text start (stop + 1))
    else loop (closeTurn text start qualified) turns (1, stop + 1)

/-- The assertion of a text. -/
def assertion (turns : Nat) (text : List Char) : Except Fault (Option (List Char)) := do
  match ← rootElement turns text with
  | none => return none
  | some root =>
    if root.name = "Assertion" then elementAt turns text root.start root.qualified
    else if root.name = "Response" then
      match ← findElement turns text root.stop "Assertion" with
      | none => return none
      | some (start, qualified) => elementAt turns text start qualified
    else return none

end Saml.Offsets
end AccessGateway
