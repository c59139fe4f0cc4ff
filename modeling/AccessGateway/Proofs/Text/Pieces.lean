import Mathlib.Data.List.Basic
import AccessGateway.Text.Ascii
import AccessGateway.Text.Blank
import AccessGateway.Text.Split

/-!
# Texts put together from pieces

A text that is put together from words, blanks and marks is taken apart into the same pieces
again.

## Results

* `trim_around` — blanks around a text are trimmed off, and nothing else.
* `trimEnd_append_cons` — trimming an end leaves alone what is in front of a character.
* `words_blanks`, `words_append` — the words of a text are those it was put together from.
* `fields_intercalate`, `cutText?_append`, `cutLast?_append`, `stripEnd?_append` — a text is cut
  where its pieces meet.
-/

set_option autoImplicit false

namespace AccessGateway.Text

/-! ## Blanks -/

/-- What is left of a text between blanks is the text, if its two ends are no blanks. -/
theorem trim_around {before cs after : List Char} (hne : cs ≠ [])
    (hfirst : ∀ c, cs.head? = some c → isBlank c = false)
    (hlast : ∀ c, cs.getLast? = some c → isBlank c = false)
    (hends : ∀ c ∈ before ++ after, isBlank c = true) :
    trim (before ++ cs ++ after) = cs := by
  have hstart : trimStart (cs ++ after) = cs ++ after := by
    obtain ⟨c, rest, rfl⟩ := List.exists_cons_of_ne_nil hne
    exact trimStart_eq_self fun d hd => hfirst d hd
  unfold trim
  rw [List.append_assoc, trimStart_append _ fun c hc => hends c (List.mem_append_left _ hc),
    hstart, trimEnd_append _ fun c hc => hends c (List.mem_append_right _ hc),
    trimEnd_eq_self hlast]

theorem trimStart_blanks {bs : List Char} (h : ∀ b ∈ bs, isBlank b = true) :
    trimStart bs = [] := by
  have happend := trimStart_append [] h
  rwa [List.append_nil] at happend

theorem trim_blanks {bs : List Char} (h : ∀ b ∈ bs, isBlank b = true) : trim bs = [] := by
  rw [trim, trimStart_blanks h]
  rfl

/-- Trimming the end goes back to the last character that is no blank at most. -/
theorem trimEnd_append_cons {c : Char} (h : isBlank c = false) (xs ys : List Char) :
    trimEnd (xs ++ c :: ys) = xs ++ c :: trimEnd ys := by
  have hstop : (c :: xs.reverse).dropWhile isBlank = c :: xs.reverse :=
    List.dropWhile_cons_of_neg (by simp [h])
  have hreverse : (xs ++ c :: ys).reverse = ys.reverse ++ (c :: xs.reverse) := by simp
  unfold trimEnd
  rw [hreverse, List.dropWhile_append]
  split
  · next hnone =>
    rw [hstop, List.isEmpty_iff.mp hnone]
    simp
  · simp

/-! ## Words -/

/-- The pieces between blanks, also the empty ones. -/
def runs (cs : List Char) : List (List Char) :=
  cs.foldr (fun c acc =>
    match isBlank c, acc with
    | true, [] :: _ => acc
    | true, _ => [] :: acc
    | false, [] => [[c]]
    | false, w :: ws => (c :: w) :: ws) []

theorem words_eq (cs : List Char) : words cs = (runs cs).filter (· ≠ []) := rfl

theorem runs_blank {b : Char} (h : isBlank b = true) (cs : List Char) :
    ∃ ws, runs (b :: cs) = [] :: ws ∧ ws.filter (· ≠ []) = words cs := by
  rw [words_eq]
  unfold runs
  rw [List.foldr_cons, h]
  generalize List.foldr _ _ cs = acc
  match acc with
  | [] => exact ⟨[], rfl, rfl⟩
  | [] :: ws => exact ⟨ws, rfl, rfl⟩
  | (c :: w) :: ws => exact ⟨(c :: w) :: ws, rfl, rfl⟩

theorem runs_append {w rest : List Char} {ws : List (List Char)} (hne : w ≠ [])
    (hw : ∀ c ∈ w, isBlank c = false) (hrest : runs rest = [] :: ws ∨ runs rest = [] ∧ ws = []) :
    runs (w ++ rest) = w :: ws := by
  induction w with
  | nil => exact absurd rfl hne
  | cons c w ih =>
    have hc := hw c List.mem_cons_self
    by_cases hempty : w = []
    · subst hempty
      unfold runs at hrest ⊢
      rw [List.cons_append, List.foldr_cons, hc, List.nil_append]
      rcases hrest with h | ⟨h, rfl⟩ <;> rw [h]
    · have htail := ih hempty fun d hd => hw d (List.mem_cons_of_mem _ hd)
      unfold runs at htail ⊢
      rw [List.cons_append, List.foldr_cons, hc, htail]

/-- Blanks in front of a text belong to no word. -/
theorem words_blanks {bs : List Char} (h : ∀ b ∈ bs, isBlank b = true) (cs : List Char) :
    words (bs ++ cs) = words cs := by
  induction bs with
  | nil => rfl
  | cons b bs ih =>
    obtain ⟨ws, hruns, hwords⟩ := runs_blank (h b List.mem_cons_self) (bs ++ cs)
    rw [List.cons_append, words_eq, hruns, List.filter_cons_of_neg (by simp), hwords]
    exact ih fun d hd => h d (List.mem_cons_of_mem _ hd)

/-- A word ends where the next blank stands. -/
theorem words_append {w bs : List Char} (hne : w ≠ []) (hw : ∀ c ∈ w, isBlank c = false)
    (hbs : bs ≠ []) (hblanks : ∀ b ∈ bs, isBlank b = true) (cs : List Char) :
    words (w ++ (bs ++ cs)) = w :: words cs := by
  obtain ⟨b, bs, rfl⟩ := List.exists_cons_of_ne_nil hbs
  obtain ⟨ws, hruns, hwords⟩ := runs_blank (hblanks b List.mem_cons_self) (bs ++ cs)
  have hrest := words_blanks (fun d hd => hblanks d (List.mem_cons_of_mem _ hd)) cs
  rw [words_eq, List.cons_append, runs_append hne hw (.inl hruns),
    List.filter_cons_of_pos (by simpa using hne), hwords, hrest]

/-- A text without blanks is a word. -/
theorem words_of_word {w : List Char} (hne : w ≠ []) (hw : ∀ c ∈ w, isBlank c = false) :
    words w = [w] := by
  have hruns : runs (w ++ []) = [w] := runs_append hne hw (.inr ⟨rfl, rfl⟩)
  rw [List.append_nil] at hruns
  rw [words_eq, hruns, List.filter_cons_of_pos (by simpa using hne), List.filter_nil]

/-! ## Cuts -/

/-- Pieces without the separator are found again between the separators. -/
theorem fields_intercalate {α : Type} [DecidableEq α] {sep : α} {pieces : List (List α)}
    (hne : pieces ≠ []) (h : ∀ piece ∈ pieces, sep ∉ piece) :
    fields sep ([sep].intercalate pieces) = pieces := by
  induction pieces with
  | nil => exact absurd rfl hne
  | cons piece rest ih =>
    obtain ⟨hpiece, hrest⟩ := List.forall_mem_cons.mp h
    cases rest with
    | nil => rw [List.intercalate_singleton, fields_of_notMem hpiece]
    | cons next rest =>
      rw [List.intercalate_cons_cons, List.append_assoc, List.singleton_append,
        fields_append_sep hpiece, ih (List.cons_ne_nil next rest) hrest]

theorem isPrefixOf?_of_ne {a c : Char} (h : a ≠ c) (mark cs : List Char) :
    (a :: mark).isPrefixOf? (c :: cs) = none := by
  refine Option.eq_none_iff_forall_ne_some.mpr fun rest hrest => h ?_
  exact (List.cons.inj (List.isPrefixOf?_eq_some_iff_append_eq.mp hrest)).1

/-- A text is cut at a mark of two characters where the first of them is found. -/
theorem cutText?_append {a b : Char} {before : List Char} (h : a ∉ before) (rest : List Char) :
    cutText? [a, b] (before ++ a :: b :: rest) = some (before, rest) := by
  induction before with
  | nil =>
    have hprefix : [a, b].isPrefixOf? (a :: b :: rest) = some rest :=
      List.isPrefixOf?_eq_some_iff_append_eq.mpr rfl
    rw [List.nil_append, cutText?, hprefix]
  | cons c before ih =>
    rw [List.mem_cons, not_or] at h
    rw [List.cons_append, cutText?, isPrefixOf?_of_ne h.1, ih h.2]
    rfl

theorem cutText?_eq_none {a b : Char} {cs : List Char} (h : a ∉ cs) :
    cutText? [a, b] cs = none := by
  induction cs with
  | nil => rfl
  | cons c cs ih =>
    rw [List.mem_cons, not_or] at h
    rw [cutText?, isPrefixOf?_of_ne h.1, ih h.2]
    rfl

/-- A text is cut at the last of its separators. -/
theorem cutLast?_append {sep : Char} {after : List Char} (h : sep ∉ after) (before : List Char) :
    cutLast? sep (before ++ sep :: after) = some (before, after) := by
  have hreverse : (before ++ sep :: after).reverse = after.reverse ++ sep :: before.reverse := by
    simp
  have hafter : sep ∉ after.reverse := by
    rwa [List.mem_reverse]
  rw [cutLast?, hreverse, cut?_append hafter, Option.map_some]
  dsimp only
  rw [List.reverse_reverse, List.reverse_reverse]

theorem cutLast?_eq_none {sep : Char} {cs : List Char} (h : sep ∉ cs) : cutLast? sep cs = none := by
  have hreverse : sep ∉ cs.reverse := by
    rwa [List.mem_reverse]
  rw [cutLast?, cut?_eq_none hreverse]
  rfl

theorem stripEnd?_append (c : Char) (cs : List Char) : stripEnd? [c] (cs ++ [c]) = some cs := by
  have hprefix : [c].isPrefixOf? (cs ++ [c]).reverse = some cs.reverse :=
    List.isPrefixOf?_eq_some_iff_append_eq.mpr (by simp)
  unfold stripEnd?
  rw [List.reverse_singleton, hprefix, Option.map_some, List.reverse_reverse]

end AccessGateway.Text
