/-!
# Cutting texts at separators

`fields` cuts at every occurrence of a separator, `cut?` at the first one, `cutLast?` at the last
one and `cutText?` at the first occurrence of a longer mark.  Main statements:

* `fields_join`: fields without the separator, joined by it, are cut into the same fields again,
* `cut?_append`: a text without the separator, the separator and any rest are cut into these two.
-/

set_option autoImplicit false

namespace AccessGateway.Text

variable {α : Type} [DecidableEq α]

/-- The pieces between the occurrences of `sep`; a text without `sep` is its own only piece. -/
def fields (sep : α) (xs : List α) : List (List α) :=
  xs.foldr (fun x acc =>
    if x = sep then [] :: acc
    else match acc with
      | [] => [[x]]
      | f :: fs => (x :: f) :: fs) [[]]

/-- The parts before and after the first `sep`. -/
def cut? (sep : α) (xs : List α) : Option (List α × List α) :=
  match xs.dropWhile (· ≠ sep) with
  | [] => none
  | _ :: rest => some (xs.takeWhile (· ≠ sep), rest)

/-- The parts before and after the last `sep`. -/
def cutLast? (sep : α) (xs : List α) : Option (List α × List α) :=
  (cut? sep xs.reverse).map fun (after, before) => (before.reverse, after.reverse)

/-- The parts before and after the first occurrence of `mark`. -/
def cutText? (mark : List α) : List α → Option (List α × List α)
  | [] => if mark = [] then some ([], []) else none
  | x :: xs =>
    match mark.isPrefixOf? (x :: xs) with
    | some rest => some ([], rest)
    | none => (cutText? mark xs).map fun (before, after) => (x :: before, after)

/-- The text without `mark` at its end, if it ends so. -/
def stripEnd? (mark xs : List α) : Option (List α) :=
  (mark.reverse.isPrefixOf? xs.reverse).map List.reverse

/-- The pieces joined by `sep`. -/
def join (sep : String) (pieces : List String) : String := sep.intercalate pieces

@[simp] theorem fields_nil (sep : α) : fields sep [] = [[]] := rfl

theorem fields_cons_sep (sep : α) (xs : List α) : fields sep (sep :: xs) = [] :: fields sep xs := by
  simp [fields]

theorem fields_cons {sep x : α} (h : x ≠ sep) {xs f : List α} {fs : List (List α)}
    (hx : fields sep xs = f :: fs) : fields sep (x :: xs) = (x :: f) :: fs := by
  simp only [fields] at hx ⊢
  simp [h, hx]

theorem fields_append_sep {sep : α} {f : List α} (h : sep ∉ f) (xs : List α) :
    fields sep (f ++ sep :: xs) = f :: fields sep xs := by
  induction f with
  | nil => simp [fields_cons_sep]
  | cons x f ih =>
    simp only [List.mem_cons, not_or] at h
    rw [List.cons_append, fields_cons (fun e => h.1 e.symm) (ih h.2)]

theorem fields_of_notMem {sep : α} {f : List α} (h : sep ∉ f) : fields sep f = [f] := by
  induction f with
  | nil => rfl
  | cons x f ih =>
    simp only [List.mem_cons, not_or] at h
    exact fields_cons (fun e => h.1 e.symm) (ih h.2)

/-- Pieces without the separator, joined by it, are cut into the same pieces again. -/
theorem fields_join {sep : α} {f : List α} {fs : List (List α)} (h : ∀ g ∈ f :: fs, sep ∉ g) :
    fields sep (f ++ fs.flatMap (sep :: ·)) = f :: fs := by
  induction fs generalizing f with
  | nil => simpa using fields_of_notMem (h f (by simp))
  | cons g gs ih =>
    simp only [List.flatMap_cons, List.cons_append]
    rw [fields_append_sep (h f (by simp)), ih fun k hk => h k (List.mem_cons_of_mem _ hk)]

/-- What is before and after the first separator is shorter than the whole by the separator. -/
theorem length_cut? {sep : α} {xs before after : List α} (h : cut? sep xs = some (before, after)) :
    xs.length = before.length + 1 + after.length := by
  unfold cut? at h
  split at h
  · cases h
  · next y rest hd =>
    cases h
    have := congrArg List.length (@List.takeWhile_append_dropWhile _ (· ≠ sep) xs)
    rw [hd] at this
    simp only [List.length_append, List.length_cons] at this
    omega

theorem takeWhile_append_sep {sep : α} {f : List α} (h : sep ∉ f) (xs : List α) :
    (f ++ sep :: xs).takeWhile (· ≠ sep) = f := by
  induction f with
  | nil => simp
  | cons x f ih =>
    simp only [List.mem_cons, not_or] at h
    have hx : x ≠ sep := fun e => h.1 e.symm
    simp only [ne_eq, decide_not, List.cons_append] at ih ⊢
    simp [hx, ih h.2]

theorem dropWhile_append_sep {sep : α} {f : List α} (h : sep ∉ f) (xs : List α) :
    (f ++ sep :: xs).dropWhile (· ≠ sep) = sep :: xs := by
  induction f with
  | nil => simp
  | cons x f ih =>
    simp only [List.mem_cons, not_or] at h
    have hx : x ≠ sep := fun e => h.1 e.symm
    simp only [ne_eq, decide_not, List.cons_append] at ih ⊢
    simp [hx, ih h.2]

/-- The first separator is where a text is cut. -/
theorem cut?_append {sep : α} {f : List α} (h : sep ∉ f) (xs : List α) :
    cut? sep (f ++ sep :: xs) = some (f, xs) := by
  simp only [cut?, dropWhile_append_sep h, takeWhile_append_sep h]

theorem dropWhile_of_notMem {sep : α} {f : List α} (h : sep ∉ f) :
    f.dropWhile (· ≠ sep) = [] := by
  induction f with
  | nil => rfl
  | cons x f ih =>
    simp only [List.mem_cons, not_or] at h
    have hx : x ≠ sep := fun e => h.1 e.symm
    simp only [ne_eq, decide_not] at ih ⊢
    simp [hx, ih h.2]

theorem cut?_eq_none {sep : α} {f : List α} (h : sep ∉ f) : cut? sep f = none := by
  simp only [cut?, dropWhile_of_notMem h]

end AccessGateway.Text
