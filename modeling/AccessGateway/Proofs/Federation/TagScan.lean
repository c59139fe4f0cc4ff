import AccessGateway.Federation.Saml
import AccessGateway.Proofs.Federation.Markup
import Mathlib.Data.List.TakeWhile

/-!
# Scanning tags

The scanner knows of tags only that they start with `<`, that quotation marks hide a `>`, and that
a name ends at white space, at a slash or at a `>`.  For the tags of a tree that is enough: what
stands inside one is passed over up to its own end, and its name is read, unless the name itself
holds what the scanner takes for white space.

## Results

* `Passes` — a text that does not end a tag; `passes_tag` — so is all of a tag before its end;
  `splitTag?_eq_some` — what is split off is such a text.
* `tagName?_inside` — what is read as the name of a tag; `tagName?_tag` — its name, if the scanner
  sees no white space in it.
* `isSelfClosing_opening`, `isSelfClosing_alone` — whether it has a closing tag is read.
* `localName_text` — the local name of a qualified name.
-/

set_option autoImplicit false

namespace AccessGateway

namespace Xml

theorem ne_of_isNameChar {c d : Char} (h : isNameChar c = true) (hd : isNameChar d = false) :
    c ≠ d := by
  rintro rfl
  rw [h] at hd
  cases hd

theorem isBlank_of_isSpace {c : Char} (h : isSpace c = true) : Text.isBlank c = true := by
  simp only [isSpace, Bool.or_eq_true, beq_iff_eq] at h
  rcases h with ((rfl | rfl) | rfl) | rfl <;> decide

theorem ne_of_isSpace {c d : Char} (h : isSpace c = true) (hd : isSpace d = false) : c ≠ d := by
  rintro rfl
  rw [h] at hd
  cases hd

theorem Name.isNameChar_text (n : Name) : ∀ c ∈ n.text, isNameChar c = true := by
  unfold Name.text
  rw [List.forall_mem_cons]
  exact ⟨isNameChar_of_isNameStart n.first_ok, List.all_eq_true.mp n.rest_ok⟩

/-- The text of a qualified name starts like a name. -/
theorem QName.text_eq_cons (q : QName) :
    ∃ c cs, q.text = c :: cs ∧ isNameStart c = true := by
  rcases q with ⟨_ | space, label⟩
  · exact ⟨label.first, label.rest, rfl, label.first_ok⟩
  · exact ⟨space.first, space.rest ++ ':' :: label.text, rfl, space.first_ok⟩

/-- Beside the characters of names there is at most a colon. -/
theorem QName.mem_text {q : QName} {c : Char} (h : c ∈ q.text) : isNameChar c = true ∨ c = ':' := by
  rcases q with ⟨_ | space, label⟩
  · exact .inl (label.isNameChar_text c h)
  · rcases List.mem_append.mp h with h | h
    · exact .inl (space.isNameChar_text c h)
    · rcases List.mem_cons.mp h with rfl | h
      · exact .inr rfl
      · exact .inl (label.isNameChar_text c h)

theorem QName.ne_of_mem {q : QName} {c d : Char} (h : c ∈ q.text) (hd : isNameChar d = false)
    (hcolon : d ≠ ':') : c ≠ d := by
  rcases mem_text h with h | rfl
  · exact ne_of_isNameChar h hd
  · exact hcolon.symm

/-- What the scanner sees of a name: it takes an Ogham space mark for the end. -/
def QName.seen (q : QName) : List Char := q.text.takeWhile (· ≠ '\u1680')

/-- A name that the scanner sees as it is. -/
def QName.Solid (q : QName) : Prop := '\u1680' ∉ q.text

theorem QName.isBlank_of_mem {q : QName} {c : Char} (hc : c ∈ q.text) (hne : c ≠ '\u1680') :
    Text.isBlank c = false := by
  rw [Bool.eq_false_iff]
  intro hb
  rcases mem_text hc with hn | rfl
  · exact hne (isBlank_of_isNameChar hn hb)
  · exact absurd hb (by decide)

theorem QName.Solid.isBlank {q : QName} (h : q.Solid) {c : Char} (hc : c ∈ q.text) :
    Text.isBlank c = false :=
  isBlank_of_mem hc (ne_of_mem_of_not_mem hc h)

theorem QName.Solid.seen {q : QName} (h : q.Solid) : q.seen = q.text :=
  List.takeWhile_eq_self_iff.mpr fun _ hc => decide_eq_true (ne_of_mem_of_not_mem hc h)

end Xml

open Xml

namespace Saml

/-! ## The end of a tag -/

/-- A text that does not end a tag, and leaves no quotation mark open. -/
def Passes (cs : List Char) : Prop :=
  ∀ n rest, tagLength? none n (cs ++ rest) = tagLength? none (n + cs.length) rest

theorem Passes.append {cs ds : List Char} (hc : Passes cs) (hd : Passes ds) :
    Passes (cs ++ ds) := by
  intro n rest
  rw [List.append_assoc, hc, hd, List.length_append, Nat.add_assoc]

theorem Passes.flatMap {α : Type} {f : α → List Char} {xs : List α}
    (h : ∀ x ∈ xs, Passes (f x)) : Passes (xs.flatMap f) := by
  induction xs with
  | nil => exact fun _ _ => rfl
  | cons x xs ih =>
    rw [List.forall_mem_cons] at h
    rw [List.flatMap_cons]
    exact h.1.append (ih h.2)

/-- Without quotation marks and `>` a text passes. -/
theorem passes_of_plain {cs : List Char} (h : ∀ c ∈ cs, c ≠ '>' ∧ c ≠ '"' ∧ c ≠ '\'') :
    Passes cs := by
  intro n rest
  induction cs generalizing n with
  | nil => rfl
  | cons c cs ih =>
    rw [List.forall_mem_cons] at h
    obtain ⟨⟨hend, hdouble, hsingle⟩, h⟩ := h
    rw [List.cons_append, tagLength?]
    simp only [hend, hdouble, hsingle, or_self, if_false]
    rw [ih h, List.length_cons, Nat.add_assoc, Nat.add_comm 1]

/-- Between two quotation marks of a kind everything passes. -/
theorem tagLength?_quoted {q : Char} {v : List Char} (h : q ∉ v) (n : Nat) (rest : List Char) :
    tagLength? (some q) n (v ++ q :: rest) = tagLength? none (n + v.length + 1) rest := by
  induction v generalizing n with
  | nil => simp [tagLength?]
  | cons c v ih =>
    rw [List.mem_cons, not_or] at h
    rw [List.cons_append, tagLength?, if_neg (Ne.symm h.1), ih h.2, List.length_cons]
    congr 1
    omega

theorem passes_quoted {q : Quote} {v : List Char} (h : q.mark ∉ v) :
    Passes (q.mark :: v ++ [q.mark]) := by
  intro n rest
  have hopen : tagLength? none n (q.mark :: (v ++ q.mark :: rest)) =
      tagLength? (some q.mark) (n + 1) (v ++ q.mark :: rest) := by
    cases q <;> rfl
  rw [List.cons_append, List.cons_append, List.append_assoc, List.singleton_append, hopen,
    tagLength?_quoted h, List.length_cons, List.length_append, List.length_singleton]
  congr 1
  omega

theorem passes_name (q : QName) : Passes q.text :=
  passes_of_plain fun _ hc => ⟨QName.ne_of_mem hc (by decide) (by decide),
    QName.ne_of_mem hc (by decide) (by decide), QName.ne_of_mem hc (by decide) (by decide)⟩

theorem passes_spaces (g : Spaces) : Passes g.text :=
  passes_of_plain fun c hc =>
    have hspace := g.isSpace_of_mem hc
    ⟨ne_of_isSpace hspace (by decide), ne_of_isSpace hspace (by decide),
      ne_of_isSpace hspace (by decide)⟩

theorem passes_singleton {c : Char} (h : c ≠ '>' ∧ c ≠ '"' ∧ c ≠ '\'') : Passes [c] :=
  passes_of_plain fun _ hc => List.mem_singleton.mp hc ▸ h

theorem passes_attribute (a : Attribute) : Passes a.text := by
  have hequals : Passes (['='] ++ a.behind.text) :=
    (passes_singleton (by decide)).append (passes_spaces _)
  exact (passes_spaces _).append ((passes_name _).append ((passes_spaces _).append
    (hequals.append (passes_quoted a.value_ok.2))))

theorem passes_inside (t : Tag) : Passes t.inside :=
  (passes_name _).append ((Passes.flatMap fun _ _ => passes_attribute _).append (passes_spaces _))

/-- All of a tag before its end passes. -/
theorem passes_tag (t : Tag) : Passes t.text :=
  (passes_singleton (by decide)).append (passes_inside t)

theorem tagLength?_of_passes {cs : List Char} (h : Passes cs) (rest : List Char) :
    tagLength? none 0 (cs ++ '>' :: rest) = some cs.length := by
  rw [h, Nat.zero_add]
  rfl

theorem splitTag?_of_passes {cs : List Char} (h : Passes cs) (rest : List Char) :
    splitTag? (cs ++ '>' :: rest) = some (cs, rest) := by
  rw [splitTag?, tagLength?_of_passes h, Option.map_some, List.take_left,
    List.drop_length_add_append]
  rfl

/-- What a scan has read of a tag up to its end passes. -/
theorem tagLength?_eq_some {quote : Option Char} {m n : Nat} {cs : List Char}
    (h : tagLength? quote m cs = some n) :
    ∃ tag rest, cs = tag ++ '>' :: rest ∧ n = m + tag.length ∧
      ∀ n more, tagLength? quote n (tag ++ more) = tagLength? none (n + tag.length) more := by
  induction cs generalizing quote m with
  | nil => cases h
  | cons c cs ih =>
    -- one character that does not end the tag
    have hmore {quote' : Option Char} (h' : tagLength? quote' (m + 1) cs = some n)
        (hc : ∀ n more, tagLength? quote n (c :: more) = tagLength? quote' (n + 1) more) :
        ∃ tag rest, c :: cs = tag ++ '>' :: rest ∧ n = m + tag.length ∧
          ∀ n more, tagLength? quote n (tag ++ more) =
            tagLength? none (n + tag.length) more := by
      obtain ⟨tag, rest, rfl, rfl, hpasses⟩ := ih h'
      refine ⟨c :: tag, rest, rfl, by rw [List.length_cons]; omega, fun n more => ?_⟩
      rw [List.cons_append, hc, hpasses, List.length_cons, Nat.add_right_comm, Nat.add_assoc]
    cases quote with
    | some q => exact hmore h fun _ _ => rfl
    | none =>
      rw [tagLength?] at h
      split at h
      · rename_i hend
        cases h
        exact ⟨[], cs, by rw [hend, List.nil_append], rfl, fun _ _ => rfl⟩
      · rename_i hend
        exact hmore h fun n more => by rw [tagLength?, if_neg hend]

/-- A tag is split off exactly if it passes up to a `>`. -/
theorem splitTag?_eq_some {cs tag content : List Char} :
    splitTag? cs = some (tag, content) ↔ cs = tag ++ '>' :: content ∧ Passes tag := by
  constructor
  · intro h
    obtain ⟨n, hn, hparts⟩ := Option.map_eq_some_iff.mp h
    obtain ⟨tag', rest, rfl, rfl, hpasses⟩ := tagLength?_eq_some hn
    rw [Nat.zero_add, List.take_left, List.drop_length_add_append] at hparts
    cases hparts
    exact ⟨rfl, hpasses⟩
  · rintro ⟨rfl, hpasses⟩
    exact splitTag?_of_passes hpasses content

/-- A tag that is split off, without its `<`. -/
theorem splitTag?_lt {rest tag content : List Char}
    (h : splitTag? ('<' :: rest) = some (tag, content)) :
    ∃ inside, tag = '<' :: inside ∧ rest = inside ++ '>' :: content ∧ Passes inside := by
  obtain ⟨n, hn, -⟩ := Option.map_eq_some_iff.mp h
  have hinside : tagLength? none 1 rest = some n := hn
  obtain ⟨inside, content', rfl, -, hpasses⟩ := tagLength?_eq_some hinside
  have hlt : Passes ('<' :: inside) := (passes_singleton (by decide)).append hpasses
  rw [← List.cons_append, splitTag?_of_passes hlt] at h
  cases h
  exact ⟨inside, rfl, rfl, hpasses⟩

/-! ## Names -/

/-- A text before which a name ends. -/
def Stops (rest : List Char) : Prop :=
  ∀ c, rest.head? = some c → Text.isBlank c = true ∨ c = '>' ∨ c = '/'

theorem stops_nil : Stops [] := nofun

theorem stops_cons {c : Char} (h : Text.isBlank c = true ∨ c = '>' ∨ c = '/')
    (rest : List Char) : Stops (c :: rest) := by
  intro d hd
  cases hd
  exact h

theorem stops_spaces (g : Spaces) {rest : List Char} (h : Stops rest) :
    Stops (g.text ++ rest) := by
  cases hg : g.text with
  | nil => exact h
  | cons c cs =>
    have hspace := g.isSpace_of_mem (hg ▸ List.mem_cons_self)
    exact stops_cons (.inl (isBlank_of_isSpace hspace)) _

/-- An attribute stands apart from what is before it. -/
theorem stops_attributes (as : List Attribute) {rest : List Char} (h : Stops rest) :
    Stops (as.flatMap Attribute.text ++ rest) := by
  cases as with
  | nil => exact h
  | cons a as =>
    obtain ⟨c, cs, hgap⟩ := List.exists_cons_of_ne_nil a.gap_ne
    rw [List.flatMap_cons, Attribute.text, hgap]
    have hspace := a.gap.isSpace_of_mem (hgap ▸ List.mem_cons_self)
    exact stops_cons (.inl (isBlank_of_isSpace hspace)) _

theorem takeWhile_append_stop {p : Char → Bool} {c : Char} (h : p c = false) (xs ys : List Char) :
    (xs ++ c :: ys).takeWhile p = xs.takeWhile p := by
  induction xs with
  | nil => simp [h]
  | cons x xs ih => simp only [List.cons_append, List.takeWhile_cons, ih]

/-- A name ends at the end of its tag, at the latest. -/
theorem tagName?_append_end (cs rest : List Char) :
    tagName? (cs ++ '>' :: rest) = tagName? cs := by
  unfold tagName?
  rw [takeWhile_append_stop (by simp)]

theorem takeWhile_name (q : QName) {rest : List Char} (h : Stops rest) :
    ((q.text ++ rest).takeWhile fun c => !Text.isBlank c && c ≠ '>' && c ≠ '/') = q.seen := by
  have hname : ∀ c ∈ q.text, c ≠ '\u1680' → (!Text.isBlank c && c ≠ '>' && c ≠ '/') = true := by
    intro c hc hne
    simp [QName.isBlank_of_mem hc hne, QName.ne_of_mem hc (d := '>') (by decide) (by decide),
      QName.ne_of_mem hc (d := '/') (by decide) (by decide)]
  by_cases hq : '\u1680' ∈ q.text
  · obtain ⟨xs, ys, htext, hxs⟩ := List.eq_append_cons_of_mem hq
    have hall : ∀ c ∈ xs, (!Text.isBlank c && c ≠ '>' && c ≠ '/') = true := fun c hc =>
      hname c (htext ▸ List.mem_append_left _ hc) (ne_of_mem_of_not_mem hc hxs)
    rw [QName.seen, htext, List.append_assoc, List.cons_append,
      takeWhile_append_stop (by simp [show Text.isBlank '\u1680' = true from rfl]),
      List.takeWhile_eq_self_iff.mpr hall, Text.takeWhile_append_sep hxs]
  · have hrest : (rest.takeWhile fun c => !Text.isBlank c && c ≠ '>' && c ≠ '/') = [] := by
      cases rest with
      | nil => rfl
      | cons c cs =>
        rcases h c rfl with hb | rfl | rfl
        · simp [hb]
        · simp
        · simp
    rw [QName.Solid.seen hq, List.takeWhile_append_of_pos
      fun c hc => hname c hc (ne_of_mem_of_not_mem hc hq), hrest, List.append_nil]

/-- The name of a tag is read as the scanner sees it. -/
theorem tagName?_append (q : QName) {rest : List Char} (h : Stops rest) :
    tagName? (q.text ++ rest) = if q.seen = [] then none else some q.seen := by
  unfold tagName?
  rw [takeWhile_name q h]
  cases hseen : q.seen with
  | nil => rfl
  | cons c cs =>
    have hc : c ∈ q.text :=
      (List.takeWhile_prefix _).subset (hseen ▸ List.mem_cons_self : c ∈ q.seen)
    have hmark : ¬(c = '!' ∨ c = '?') := by
      rintro (hbang | hquestion)
      · exact QName.ne_of_mem hc (by decide) (by decide) hbang
      · exact QName.ne_of_mem hc (by decide) (by decide) hquestion
    rw [if_neg (List.cons_ne_nil c cs)]
    exact if_neg hmark

theorem tagName?_inside (t : Tag) {rest : List Char} (hrest : Stops rest) :
    tagName? (t.inside ++ rest) = if t.name.seen = [] then none else some t.name.seen := by
  rw [Tag.inside, List.append_assoc, List.append_assoc]
  exact tagName?_append _ (stops_attributes _ (stops_spaces _ hrest))

theorem tagName?_tag {t : Tag} (h : t.name.Solid) {rest : List Char} (hrest : Stops rest) :
    tagName? (t.inside ++ rest) = some t.name.text := by
  obtain ⟨c, cs, htext, -⟩ := t.name.text_eq_cons
  rw [tagName?_inside t hrest, h.seen, htext, if_neg (List.cons_ne_nil c cs)]

/-- Closing tags have no name, and comments have none. -/
theorem tagName?_mark {c : Char} (h : c = '/' ∨ c = '!') (cs : List Char) :
    tagName? (c :: cs) = none := by
  rcases h with rfl | rfl
  · simp [tagName?]
  · simp [tagName?, show Text.isBlank '!' = false from rfl]

theorem localName_text (q : QName) : localName q.text = q.localName.text := by
  have hlabel : ':' ∉ q.localName.text := fun h =>
    ne_of_isNameChar (q.localName.isNameChar_text _ h) (by decide) rfl
  have hreverse : ':' ∉ q.localName.text.reverse := by rwa [List.mem_reverse]
  rcases q with ⟨_ | space, label⟩
  · rw [localName, Text.cutLast?, QName.text, Text.cut?_eq_none hreverse]
    rfl
  · rw [localName, Text.cutLast?, QName.text, List.reverse_append, List.reverse_cons,
      List.append_assoc, List.singleton_append, Text.cut?_append hreverse, Option.map_some]
    exact List.reverse_reverse _

theorem ofList_localName (q : QName) (name : String) :
    String.ofList (localName q.text) = name ↔ q.Is name := by
  rw [localName_text, QName.Is]
  constructor
  · rintro rfl
    rw [String.toList_ofList]
  · intro h
    rw [h, String.ofList_toList]

/-! ## Closing tags -/

theorem isSelfClosing_append (xs : List Char) {c : Char} (hc : Text.isBlank c = false)
    (g : Spaces) : isSelfClosing (xs ++ c :: g.text) = decide (c = '/') := by
  have hspaces : ∀ b ∈ g.text, Text.isBlank b = true := fun b hb =>
    isBlank_of_isSpace (g.isSpace_of_mem hb)
  have hlast : ∀ d, (xs ++ [c]).getLast? = some d → Text.isBlank d = false := by
    intro d hd
    rw [List.getLast?_concat] at hd
    cases hd
    exact hc
  rw [isSelfClosing, List.append_cons, Text.trimEnd_append _ hspaces,
    Text.trimEnd_eq_self hlast, List.getLast?_concat]
  simp

/-- A tag before its spaces ends with a character of a name or with a quotation mark. -/
theorem inside_eq_append {t : Tag} (h : t.name.Solid) :
    ∃ xs c, t.inside = xs ++ c :: t.gap.text ∧ Text.isBlank c = false ∧ c ≠ '/' := by
  rcases List.eq_nil_or_concat t.attributes with hnone | ⟨as, a, has⟩
  · obtain ⟨c, cs, htext, -⟩ := t.name.text_eq_cons
    have hne : t.name.text ≠ [] := by simp [htext]
    have hlast := List.getLast_mem hne
    refine ⟨t.name.text.dropLast, t.name.text.getLast hne, ?_, h.isBlank hlast,
      QName.ne_of_mem hlast (by decide) (by decide)⟩
    rw [Tag.inside, hnone, List.flatMap_nil, List.nil_append, List.append_cons,
      List.dropLast_append_getLast]
  · refine ⟨t.name.text ++ (as.flatMap Attribute.text ++ (a.gap.text ++ (a.name.text ++
      (a.before.text ++ ('=' :: a.behind.text ++ (a.quote.mark :: a.value)))))), a.quote.mark,
      ?_, ?_, ?_⟩
    · simp [Tag.inside, has, Attribute.text]
    · cases a.quote <;> rfl
    · cases a.quote <;> decide

/-- Whether the tag of an element has a closing one is read, whatever is before it. -/
theorem isSelfClosing_opening {t : Tag} (h : t.name.Solid) (xs : List Char) :
    isSelfClosing (xs ++ t.inside) = false := by
  obtain ⟨ys, c, htext, hblank, hslash⟩ := inside_eq_append h
  rw [htext, ← List.append_assoc, isSelfClosing_append _ hblank]
  simpa using hslash

theorem isSelfClosing_alone (xs : List Char) (gap : Spaces) :
    isSelfClosing (xs ++ '/' :: gap.text) = true := by
  rw [isSelfClosing_append xs (by decide)]
  simp

end Saml
end AccessGateway
