import AccessGateway.Proofs.Federation.ByteOffsets
import AccessGateway.Settings.Placeholder

/-!
# Filling placeholders

A text is a row of pieces: characters that stand for themselves, and placeholders with a name.
Which pieces they are is a matter of the text alone.  Filling puts the value of each name in the
place of its placeholder and looks at neither the values nor what it has filled already.

## Results

* `Placeholder.exists_template` — every text is a row of pieces.
* `Placeholder.Template.fill_eq` — filling a text is filling its pieces.
* `Placeholder.fills_iff` — three equations say what filling does.
* `Placeholder.scan_eq` — the scan by offsets comes to its end, and to the same text.
* `substitution_exact` — what filling does to a text.
-/

set_option autoImplicit false

namespace AccessGateway

namespace Placeholder

/-! ## Where marks stand -/

section Marks

variable {α : Type} {a : α} {mark xs ys : List α}

/-- A mark in which its first item does not occur again cannot reach from a text into the next mark
    behind it. -/
theorem prefix_of_marked (ha : a ∉ mark) (hne : xs ≠ []) (h : a :: mark <+: xs ++ a :: ys) :
    a :: mark <+: xs := by
  rcases List.prefix_or_prefix_of_prefix h (List.prefix_append xs (a :: ys)) with hin | hout
  · exact hin
  · obtain ⟨rest, hrest⟩ := hout
    cases rest with
    | nil =>
      have hxs : xs = a :: mark := by rw [← hrest, List.append_nil]
      exact hxs ▸ List.prefix_refl _
    | cons b rest =>
      -- the mark would hold its first item once more, where the next mark starts
      rw [← hrest, List.prefix_append_right_inj, List.cons_prefix_cons] at h
      obtain ⟨rfl, -⟩ := h
      obtain ⟨c, xs, rfl⟩ := List.exists_cons_of_ne_nil hne
      obtain ⟨-, hmark⟩ := List.cons.inj hrest
      refine absurd ?_ ha
      rw [← hmark]
      simp

/-- A text holds no mark, or it has a first one. -/
theorem free_or_first (a : α) (mark cs : List α) :
    ¬a :: mark <:+: cs ∨
      ∃ before after, cs = before ++ a :: (mark ++ after) ∧ ¬a :: mark <:+: before := by
  induction cs with
  | nil => exact .inl (by simp)
  | cons c cs ih =>
    by_cases hfirst : a :: mark <+: c :: cs
    · obtain ⟨after, hafter⟩ := hfirst
      exact .inr ⟨[], after, hafter.symm, by simp⟩
    · rcases ih with hfree | ⟨before, after, rfl, hbefore⟩
      · refine .inl ?_
        rw [List.infix_cons_iff, not_or]
        exact ⟨hfirst, hfree⟩
      · refine .inr ⟨c :: before, after, rfl, ?_⟩
        rw [List.infix_cons_iff, not_or]
        refine ⟨?_, hbefore⟩
        intro hin
        exact hfirst (hin.trans (List.prefix_append (c :: before) (a :: (mark ++ after))))

end Marks

/-! ## Pieces -/

/-- A piece of a text. -/
inductive Piece where
  /-- Characters that stand for themselves. -/
  | plain (text : List Char)
  /-- A placeholder. -/
  | named (name : List Char)
deriving DecidableEq, Repr

/-- The characters of a piece. -/
def Piece.written : Piece → List Char
  | .plain text => text
  | .named name => opening ++ name ++ [closing]

/-- What is put in the place of a placeholder: the value of its name, or the placeholder itself. -/
def valueOf (lookup : String → Option String) (name : List Char) : List Char :=
  match lookup (String.ofList name) with
  | some value => value.toList
  | none => opening ++ name ++ [closing]

/-- The characters of a piece once it is filled. -/
def Piece.filled (lookup : String → Option String) : Piece → List Char
  | .plain text => text
  | .named name => valueOf lookup name

/-- The name in a placeholder. -/
def Piece.name? : Piece → Option String
  | .plain _ => none
  | .named name => some (String.ofList name)

/-- The pieces of a text: up to the first opening mark everything stands for itself; from there to
    the next closing mark there is a name, and without a closing mark all the rest stands for
    itself. -/
inductive Template : List Char → List Piece → Prop
  | free {text : List Char} : ¬opening <:+: text → Template text [.plain text]
  | unclosed {before after : List Char} : ¬opening <:+: before → closing ∉ after →
      Template (before ++ (opening ++ after)) [.plain (before ++ (opening ++ after))]
  | placeholder {before name rest : List Char} {pieces : List Piece} : ¬opening <:+: before →
      closing ∉ name → Template rest pieces →
      Template (before ++ (opening ++ (name ++ closing :: rest)))
        (.plain before :: .named name :: pieces)

/-- **Every text is a row of pieces.** -/
theorem exists_template (text : List Char) : ∃ pieces, Template text pieces := by
  induction hn : text.length using Nat.strongRecOn generalizing text with
  | ind n ih =>
    subst hn
    rcases free_or_first '$' ['\x7b'] text with hfree | ⟨before, after, rfl, hbefore⟩
    · exact ⟨_, .free hfree⟩
    · by_cases hclosing : closing ∈ after
      · obtain ⟨name, rest, rfl, hname⟩ := List.eq_append_cons_of_mem hclosing
        obtain ⟨pieces, hpieces⟩ := ih rest.length (by simp; omega) rest rfl
        exact ⟨_, .placeholder hbefore hname hpieces⟩
      · exact ⟨_, .unclosed hbefore hclosing⟩

variable {lookup : String → Option String} {text before after name rest : List Char}
  {pieces : List Piece}

/-- The pieces make up the text. -/
theorem Template.written_eq (h : Template text pieces) :
    pieces.flatMap Piece.written = text := by
  induction h with
  | free _ => simp [Piece.written]
  | unclosed _ _ => simp [Piece.written]
  | placeholder _ _ _ ih => simp [Piece.written, ih]

/-! ## Filling -/

theorem fill_cons {c : Char} (h : ¬opening <+: c :: text) :
    fill lookup (c :: text) = c :: fill lookup text := by
  rw [fill]
  rintro after rfl rfl
  exact h ⟨after, rfl⟩

/-- In front of a mark, no other one starts. -/
theorem not_prefix_cons {c : Char} (h : ¬opening <+: c :: before) :
    ¬opening <+: c :: (before ++ (opening ++ after)) := by
  intro hin
  exact h (prefix_of_marked (by decide) (List.cons_ne_nil c before) hin)

theorem fill_before (h : ¬opening <:+: before) :
    fill lookup (before ++ (opening ++ after)) = before ++ fill lookup (opening ++ after) := by
  induction before with
  | nil => rfl
  | cons c before ih =>
    rw [List.infix_cons_iff, not_or] at h
    rw [List.cons_append, fill_cons (not_prefix_cons h.1), ih h.2, List.cons_append]

theorem fill_free (h : ¬opening <:+: text) : fill lookup text = text := by
  induction text with
  | nil => rw [fill]
  | cons c text ih =>
    rw [List.infix_cons_iff, not_or] at h
    rw [fill_cons h.1, ih h.2]

theorem fill_unclosed (h : closing ∉ after) :
    fill lookup (opening ++ after) = opening ++ after := by
  have hnone : fill? lookup after = none := by
    unfold fill?
    split
    · rfl
    · rename_i hd
      rw [Text.dropWhile_of_notMem h] at hd
      cases hd
  show fill lookup ('$' :: '\x7b' :: after) = _
  rw [fill, hnone]

theorem fill_named (h : closing ∉ name) :
    fill lookup (opening ++ (name ++ closing :: rest)) =
      valueOf lookup name ++ fill lookup rest := by
  have hsome : ∃ hlt, fill? lookup (name ++ closing :: rest) =
      some (valueOf lookup name, ⟨rest, hlt⟩) := by
    unfold fill?
    split
    · rename_i hd
      rw [Text.dropWhile_append_sep h] at hd
      cases hd
    · rename_i hd
      rw [Text.dropWhile_append_sep h] at hd
      cases hd
      simp only [Text.takeWhile_append_sep h]
      exact ⟨by simp; omega, rfl⟩
  obtain ⟨hlt, hsome⟩ := hsome
  show fill lookup ('$' :: '\x7b' :: (name ++ closing :: rest)) = _
  rw [fill, hsome]

/-! ## What filling is determined by -/

/-- The rules of filling, for a way `f` to fill texts. -/
structure Fills (lookup : String → Option String) (f : String → String) : Prop where
  /-- A text without an opening mark is left as it is. -/
  free : ∀ text, ¬opening <:+: text.toList → f text = text
  /-- An opening mark that no closing one follows is left as it is, with all that comes after it. -/
  unclosed : ∀ before after, ¬opening <:+: before.toList → closing ∉ after.toList →
    f (before ++ "$\x7b" ++ after) = before ++ "$\x7b" ++ after
  /-- The first placeholder becomes the value of its name as it is, or stays if there is none, and
      filling goes on behind it. -/
  placeholder : ∀ before name rest, ¬opening <:+: before.toList → closing ∉ name.toList →
    f (before ++ "$\x7b" ++ name ++ "\x7d" ++ rest) =
      before ++ (lookup name).getD ("$\x7b" ++ name ++ "\x7d") ++ f rest

theorem toList_opening : "$\x7b".toList = opening := rfl

theorem toList_closing : "\x7d".toList = [closing] := rfl

theorem toList_getD (lookup : String → Option String) (name : String) :
    ((lookup name).getD ("$\x7b" ++ name ++ "\x7d")).toList = valueOf lookup name.toList := by
  unfold valueOf
  rw [String.ofList_toList]
  cases lookup name with
  | some value => rfl
  | none => simp only [Option.getD_none, String.toList_append, toList_opening, toList_closing]

theorem fills_substitute (lookup : String → Option String) :
    Fills lookup fun text => substitute text lookup := by
  constructor
  case free =>
    intro text hfree
    rw [substitute, fill_free hfree, String.ofList_toList]
  case unclosed =>
    intro before after hbefore hafter
    rw [← String.toList_inj]
    simp only [substitute, String.toList_ofList, String.toList_append, toList_opening,
      List.append_assoc]
    rw [fill_before hbefore, fill_unclosed hafter]
  case placeholder =>
    intro before name rest hbefore hname
    rw [← String.toList_inj]
    simp only [substitute, String.toList_ofList, String.toList_append, toList_getD,
      toList_opening, toList_closing, List.append_assoc, List.singleton_append]
    rw [fill_before hbefore, fill_named hname]

/-- **Filling a text is filling its pieces**, for every way to fill that obeys the rules. -/
theorem Fills.filled_eq {f : String → String} (hf : Fills lookup f) (h : Template text pieces) :
    (f (String.ofList text)).toList = pieces.flatMap (Piece.filled lookup) := by
  induction h with
  | @free text hfree =>
    rw [hf.free _ (by rwa [String.toList_ofList]), String.toList_ofList]
    simp [Piece.filled]
  | @unclosed before after hbefore hafter =>
    have hrule := hf.unclosed (String.ofList before) (String.ofList after)
      (by rwa [String.toList_ofList]) (by rwa [String.toList_ofList])
    have htext : String.ofList before ++ "$\x7b" ++ String.ofList after =
        String.ofList (before ++ (opening ++ after)) := by
      rw [← String.toList_inj]
      simp only [String.toList_append, String.toList_ofList, toList_opening, List.append_assoc]
    rw [htext] at hrule
    rw [hrule, String.toList_ofList]
    simp [Piece.filled]
  | @placeholder before name rest pieces hbefore hname _ ih =>
    have hrule := hf.placeholder (String.ofList before) (String.ofList name) (String.ofList rest)
      (by rwa [String.toList_ofList]) (by rwa [String.toList_ofList])
    have htext : String.ofList before ++ "$\x7b" ++ String.ofList name ++ "\x7d" ++
        String.ofList rest = String.ofList (before ++ (opening ++ (name ++ closing :: rest))) := by
      rw [← String.toList_inj]
      simp only [String.toList_append, String.toList_ofList, toList_opening, toList_closing,
        List.append_assoc, List.singleton_append]
    rw [htext] at hrule
    rw [hrule, String.toList_append, String.toList_append, String.toList_ofList, toList_getD,
      String.toList_ofList, ih]
    simp [Piece.filled]

/-- **The rules leave one way to fill texts.** -/
theorem fills_iff {f : String → String} :
    Fills lookup f ↔ ∀ text, f text = substitute text lookup := by
  constructor
  · intro hf text
    obtain ⟨pieces, hpieces⟩ := exists_template text.toList
    have hboth := (hf.filled_eq hpieces).trans ((fills_substitute lookup).filled_eq hpieces).symm
    rw [String.ofList_toList, String.toList_inj] at hboth
    exact hboth
  · intro h
    rw [funext h]
    exact fills_substitute lookup

/-! ## The names that are looked up -/

theorem names_cons {c : Char} (h : ¬opening <+: c :: text) : names (c :: text) = names text := by
  rw [names]
  rintro after rfl rfl
  exact h ⟨after, rfl⟩

theorem names_free (h : ¬opening <:+: text) : names text = [] := by
  induction text with
  | nil => rw [names]
  | cons c text ih =>
    rw [List.infix_cons_iff, not_or] at h
    rw [names_cons h.1, ih h.2]

theorem names_before (h : ¬opening <:+: before) :
    names (before ++ (opening ++ after)) = names (opening ++ after) := by
  induction before with
  | nil => rfl
  | cons c before ih =>
    rw [List.infix_cons_iff, not_or] at h
    rw [List.cons_append, names_cons (not_prefix_cons h.1), ih h.2]

theorem names_unclosed (h : closing ∉ after) : names (opening ++ after) = [] := by
  show names ('$' :: '\x7b' :: after) = _
  rw [names]
  split
  · rfl
  · rename_i hcut
    rw [Text.cut?_eq_none h] at hcut
    cases hcut

theorem names_named (h : closing ∉ name) :
    names (opening ++ (name ++ closing :: rest)) = String.ofList name :: names rest := by
  show names ('$' :: '\x7b' :: (name ++ closing :: rest)) = _
  rw [names]
  split
  · rename_i hcut
    rw [Text.cut?_append h] at hcut
    cases hcut
  · rename_i hcut
    rw [Text.cut?_append h] at hcut
    cases hcut
    rfl

/-- The names that are looked up are those of the pieces. -/
theorem Template.names_eq (h : Template text pieces) :
    names text = pieces.filterMap Piece.name? := by
  induction h with
  | free hfree =>
    rw [names_free hfree]
    rfl
  | unclosed hbefore hafter =>
    rw [names_before hbefore, names_unclosed hafter]
    rfl
  | placeholder hbefore hname _ ih =>
    rw [names_before hbefore, names_named hname, ih]
    rfl

/-! ## The scan by offsets -/

open Saml.Offsets

/-- The offset of the first of some marks. -/
theorem offsetOf?_first {a : Char} {mark before : List Char} (ha : a ∉ mark)
    (h : ¬a :: mark <:+: before) (after : List Char) :
    offsetOf? (a :: mark) (before ++ a :: (mark ++ after)) = some (size before) := by
  induction before with
  | nil =>
    have hprefix : (a :: mark).isPrefixOf (a :: (mark ++ after)) = true :=
      List.isPrefixOf_iff_prefix.mpr ⟨after, rfl⟩
    rw [List.nil_append, offsetOf?, if_pos hprefix, size_nil]
  | cons c before ih =>
    rw [List.infix_cons_iff, not_or] at h
    have hprefix : ¬(a :: mark).isPrefixOf (c :: (before ++ a :: (mark ++ after))) = true := by
      rw [List.isPrefixOf_iff_prefix]
      intro hin
      exact h.1 (prefix_of_marked ha (List.cons_ne_nil c before) hin)
    rw [List.cons_append, offsetOf?, if_neg hprefix, ih h.2, Option.map_some, size_cons]

theorem offsetOf?_free {mark : List Char} (h : ¬mark <:+: text) : offsetOf? mark text = none := by
  induction text with
  | nil => rfl
  | cons c text ih =>
    rw [List.infix_cons_iff, not_or] at h
    rw [offsetOf?, if_neg (mt List.isPrefixOf_iff_prefix.mp h.1), ih h.2]
    rfl

/-- A turn of the scan, which holds what it has put out and what it has not read yet. -/
def scanTurn (lookup : String → Option String) :
    List Char × List Char → Except Fault (Turn (List Char × List Char) (List Char))
  | (out, rest) =>
    match offsetOf? opening rest with
    | none => .ok (.stop (out ++ rest))
    | some start => do
      let out := out ++ (← slice rest 0 start)
      let after ← sliceFrom rest (start + 2)
      match offsetOf? [closing] after with
      | some stop =>
        let name ← slice after 0 stop
        let text ← match lookup (String.ofList name) with
          | some value => .ok value.toList
          | none => slice rest start (start + 2 + stop + 1)
        return .again (out ++ text, ← sliceFrom after (stop + 1))
      | none => return .again (out ++ (← sliceFrom rest start), [])

/-- The scan of a text, for at most so many turns. -/
def scan (lookup : String → Option String) (turns : Nat) (text : String) : Except Fault String :=
  (loop (scanTurn lookup) turns ([], text.toList)).map String.ofList

theorem scanTurn_free (h : ¬opening <:+: text) (out : List Char) :
    scanTurn lookup (out, text) = .ok (.stop (out ++ text)) := by
  have hnone : offsetOf? opening text = none := offsetOf?_free h
  simp only [scanTurn, hnone]

theorem slice_before (before after : List Char) :
    slice (before ++ (opening ++ after)) 0 (size before) = .ok before := by
  simpa using slice_append [] before (opening ++ after)

theorem sliceFrom_opening (before after : List Char) :
    sliceFrom (before ++ (opening ++ after)) (size before + 2) = .ok after := by
  have hsize : size (before ++ opening) = size before + 2 := by
    rw [size_append]
    rfl
  rw [← hsize, ← List.append_assoc]
  exact sliceFrom_append (before ++ opening) after

theorem offsetOf?_opening (h : ¬opening <:+: before) :
    offsetOf? opening (before ++ (opening ++ after)) = some (size before) :=
  offsetOf?_first (by decide) h after

theorem scanTurn_unclosed (hbefore : ¬opening <:+: before) (hafter : closing ∉ after)
    (out : List Char) :
    scanTurn lookup (out, before ++ (opening ++ after)) =
      .ok (.again (out ++ before ++ (opening ++ after), [])) := by
  have hnone : offsetOf? [closing] after = none := by
    apply offsetOf?_free
    intro hin
    exact hafter (hin.subset List.mem_cons_self)
  simp only [scanTurn, offsetOf?_opening hbefore, bind, Except.bind, slice_before,
    sliceFrom_opening, hnone, sliceFrom_append]
  rfl

theorem scanTurn_named (hbefore : ¬opening <:+: before) (hname : closing ∉ name)
    (out : List Char) :
    scanTurn lookup (out, before ++ (opening ++ (name ++ closing :: rest))) =
      .ok (.again (out ++ before ++ valueOf lookup name, rest)) := by
  have hclosing : offsetOf? [closing] (name ++ closing :: rest) = some (size name) := by
    apply offsetOf?_first List.not_mem_nil
    intro hin
    exact hname (hin.subset List.mem_cons_self)
  have hinner : slice (name ++ closing :: rest) 0 (size name) = .ok name := by
    simpa using slice_append [] name (closing :: rest)
  have hwhole : slice (before ++ (opening ++ (name ++ closing :: rest))) (size before)
      (size before + 2 + size name + 1) = .ok (opening ++ name ++ [closing]) := by
    have hslice := slice_append before (opening ++ name ++ [closing]) rest
    have hsize : size (opening ++ name ++ [closing]) = 2 + size name + 1 := by
      rw [size_append, size_append]
      rfl
    rw [hsize] at hslice
    simpa [Nat.add_assoc] using hslice
  have hrest : sliceFrom (name ++ closing :: rest) (size name + 1) = .ok rest := by
    have hslice := sliceFrom_append (name ++ [closing]) rest
    have hsize : size (name ++ [closing]) = size name + 1 := by
      rw [size_append]
      rfl
    rw [hsize] at hslice
    simpa using hslice
  simp only [scanTurn, offsetOf?_opening hbefore, bind, Except.bind, slice_before,
    sliceFrom_opening, hclosing, hinner, hwhole, hrest, valueOf]
  cases lookup (String.ofList name) <;> rfl

/-- A turn of the scan fills the first placeholder, or comes to the end. -/
theorem scanTurn_advances (lookup : String → Option String) (state : List Char × List Char) :
    Advances (fun state => state) (fun state => state.1 ++ fill lookup state.2)
      (fun state => state.2.length) state (scanTurn lookup state) := by
  obtain ⟨out, text⟩ := state
  obtain ⟨pieces, hpieces⟩ := exists_template text
  cases hpieces with
  | free hfree =>
    refine .inl ?_
    rw [scanTurn_free hfree]
    dsimp only
    rw [fill_free hfree]
  | @unclosed before after hbefore hafter =>
    refine .inr ⟨_, scanTurn_unclosed hbefore hafter out, ?_, ?_⟩
    · have hnil : fill lookup [] = [] := by rw [fill]
      dsimp only
      rw [fill_before hbefore, fill_unclosed hafter, hnil, List.append_nil, List.append_assoc]
    · simp only [opening, List.length_append, List.length_cons]
      omega
  | @placeholder before name rest _ hbefore hname _ =>
    refine .inr ⟨_, scanTurn_named hbefore hname out, ?_, ?_⟩
    · dsimp only
      rw [fill_before hbefore, fill_named hname, List.append_assoc, List.append_assoc]
    · simp only [opening, List.length_append, List.length_cons]
      omega

/-- **The scan comes to its end**, within one turn more than the text has characters, and no slice
    fails. -/
theorem scan_eq (lookup : String → Option String) {turns : Nat} {text : String}
    (h : text.length < turns) : scan lookup turns text = .ok (substitute text lookup) := by
  have hloop := loop_eq (scanTurn_advances lookup) (g := ([], text.toList))
    (show text.toList.length < turns by rwa [String.length_toList])
  rw [scan, hloop]
  rfl

end Placeholder

open Placeholder

/-- **What filling does to a text.**

    * It obeys the three rules of filling, and no other way to fill texts does.
    * A text is a row of pieces, plain characters and names, whatever the names stand for; filling
      leaves the former as they are and puts values in the place of the latter, where they stay as
      they are.  What is looked up is the names of the pieces.
    * If no name has a value, every text is left as it is.
    * The scan by offsets ends on every text, with the same result, within one turn more than the
      text has characters; no slice of it fails. -/
theorem substitution_exact :
    (∀ (lookup : String → Option String) (f : String → String),
      Fills lookup f ↔ ∀ text, f text = substitute text lookup) ∧
    (∀ text : String, ∃ pieces : List Piece, pieces.flatMap Piece.written = text.toList ∧
      names text.toList = pieces.filterMap Piece.name? ∧
      ∀ lookup, (substitute text lookup).toList = pieces.flatMap (Piece.filled lookup)) ∧
    (∀ lookup : String → Option String, (∀ name, lookup name = none) →
      ∀ text, substitute text lookup = text) ∧
    ∀ (lookup : String → Option String) (text : String) (turns : Nat), text.length < turns →
      scan lookup turns text = .ok (substitute text lookup) := by
  refine ⟨fun _ _ => fills_iff, ?_, ?_, fun lookup _ _ => scan_eq lookup⟩
  · intro text
    obtain ⟨pieces, hpieces⟩ := exists_template text.toList
    refine ⟨pieces, hpieces.written_eq, hpieces.names_eq, ?_⟩
    intro lookup
    have hfilled := (fills_substitute lookup).filled_eq hpieces
    rwa [String.ofList_toList] at hfilled
  · intro lookup hnone text
    obtain ⟨pieces, hpieces⟩ := exists_template text.toList
    have hsame : Piece.filled lookup = Piece.written := by
      funext piece
      cases piece with
      | plain text => rfl
      | named name => simp only [Piece.filled, Piece.written, valueOf, hnone]
    have hfilled := (fills_substitute lookup).filled_eq hpieces
    rw [String.ofList_toList, hsame, hpieces.written_eq, String.toList_inj] at hfilled
    exact hfilled

/-- A value with a mark in it stays as it is, although the name in it has a value. -/
example :
    let lookup : String → Option String
      | "X" => some "$\x7bY\x7d"
      | "Y" => some "1"
      | _ => none
    substitute "a=$\x7bX\x7d b=$\x7bY\x7d c=$\x7b" lookup = "a=$\x7bY\x7d b=1 c=$\x7b" := by
  decide +kernel

end AccessGateway
