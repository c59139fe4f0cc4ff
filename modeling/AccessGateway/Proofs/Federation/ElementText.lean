import AccessGateway.Proofs.Federation.TagScan

/-!
# Where elements end

The scanner looks for the end of an element by counting: an opening tag of the element's own name
counts up, a closing one counts down, and all other tags are passed over.  On the text of a tree
that is right, because what stands between the tags of an element is balanced.  Comments are tags to
the scanner, so their text has to be harmless.

## Results

* `closeLength?_opening`, `closeLength?_alone`, `closeLength?_closing` — what the search makes of
  each kind of tag; `closeLength?_comment` — of a comment that is `Quiet`.
* `closeLength?_content` — content is passed over.
* `text?_text` — the text of an element is cut out exactly.
-/

set_option autoImplicit false

namespace AccessGateway

open Xml

namespace Saml

/-! ## The search for the closing tag -/

variable {q : List Char} {depth n : Nat}

theorem forall_ne_of_notMem {t : List Char} (h : '<' ∉ t) :
    ∀ c ∈ t, decide (c ≠ '<') = true :=
  fun _ hc => decide_eq_true (ne_of_mem_of_not_mem hc h)

theorem toMarkup_append {t : List Char} (h : '<' ∉ t) (rest : List Char) :
    toMarkup (t ++ rest) = toMarkup rest :=
  List.dropWhile_append_of_pos (forall_ne_of_notMem h)

theorem toMarkup_of_notMem {cs : List Char} (h : '<' ∉ cs) : toMarkup cs = [] := by
  have hmarkup := toMarkup_append h []
  rwa [List.append_nil] at hmarkup

theorem toMarkup_tag (tag : List Char) : toMarkup ('<' :: tag) = '<' :: tag := by
  simp [toMarkup]

/-- Where there is no markup any more, nothing closes. -/
theorem closeLength?_nil {cs : List Char} (h : toMarkup cs = []) :
    closeLength? q depth n cs = none := by
  rw [closeLength?]
  split
  · rfl
  · rename_i hm
    rw [h] at hm
    cases hm

/-- The search goes from tag to tag. -/
theorem closeLength?_cons {cs rest : List Char} {lt : Char} (h : toMarkup cs = lt :: rest) :
    closeLength? q depth n cs =
      (tagLength? none 0 (lt :: rest)).bind fun len =>
        let tag := rest.take (len - 1)
        let n := n + (cs.takeWhile (· ≠ '<')).length + len + 1
        let more := rest.drop len
        if tag.head? = some '/' then
          if Text.trimEnd (tag.drop 1) = q then
            match depth with
            | 0 => some n
            | depth + 1 => closeLength? q depth n more
          else closeLength? q depth n more
        else if tagName? tag = some q ∧ !isSelfClosing tag then
          closeLength? q (depth + 1) n more
        else closeLength? q depth n more := by
  rw [closeLength?]
  split
  · rename_i hm
    rw [h] at hm
    cases hm
  · rename_i hm
    rw [h] at hm
    cases hm
    split
    · rename_i hl
      rw [hl]
      rfl
    · rename_i hl
      rw [hl]
      rfl

/-- Character data is passed over. -/
theorem closeLength?_append {t : List Char} (h : '<' ∉ t) (rest : List Char) :
    closeLength? q depth n (t ++ rest) = closeLength? q depth (n + t.length) rest := by
  have hlength : ((t ++ rest).takeWhile (· ≠ '<')).length =
      t.length + (rest.takeWhile (· ≠ '<')).length := by
    rw [List.takeWhile_append_of_pos (forall_ne_of_notMem h), List.length_append]
  cases hm : toMarkup rest with
  | nil => rw [closeLength?_nil hm, closeLength?_nil ((toMarkup_append h rest).trans hm)]
  | cons lt more =>
    rw [closeLength?_cons hm, closeLength?_cons ((toMarkup_append h rest).trans hm), hlength]
    simp only [Nat.add_assoc]

/-- One tag. -/
theorem closeLength?_tag {tag : List Char} (h : Passes tag) (rest : List Char) :
    closeLength? q depth n ('<' :: tag ++ '>' :: rest) =
      if tag.head? = some '/' then
        if Text.trimEnd (tag.drop 1) = q then
          match depth with
          | 0 => some (n + tag.length + 2)
          | depth + 1 => closeLength? q depth (n + tag.length + 2) rest
        else closeLength? q depth (n + tag.length + 2) rest
      else if tagName? tag = some q ∧ !isSelfClosing tag then
        closeLength? q (depth + 1) (n + tag.length + 2) rest
      else closeLength? q depth (n + tag.length + 2) rest := by
  have hpasses : Passes ('<' :: tag) := (passes_singleton (by decide)).append h
  have htake : (tag ++ '>' :: rest).take tag.length = tag := List.take_left
  have hdrop : (tag ++ '>' :: rest).drop (tag.length + 1) = rest :=
    List.drop_length_add_append 1
  rw [List.cons_append, closeLength?_cons (toMarkup_tag _), ← List.cons_append,
    tagLength?_of_passes hpasses, Option.bind_some]
  simp only [List.length_cons, Nat.add_sub_cancel, htake, hdrop]
  simp [Nat.add_assoc]

/-- The first character of a tag starts a name. -/
theorem head?_inside (t : Tag) : ∃ c cs, t.inside = c :: cs ∧ isNameStart c = true := by
  obtain ⟨c, cs, htext, hstart⟩ := t.name.text_eq_cons
  exact ⟨c, cs ++ (t.attributes.flatMap Attribute.text ++ t.gap.text),
    by rw [Tag.inside, htext, List.cons_append], hstart⟩

theorem closeLength?_opening {t : Tag} (h : t.name.Solid) (rest : List Char) :
    closeLength? q depth n (t.opening ++ rest) =
      closeLength? q (if t.name.text = q then depth + 1 else depth)
        (n + t.opening.length) rest := by
  have hlength : n + t.inside.length + 2 = n + t.opening.length := by
    simp [Tag.opening, Tag.text, Nat.add_assoc]
  have hhead : t.inside.head? ≠ some '/' := by
    obtain ⟨c, cs, htext, hstart⟩ := head?_inside t
    rw [htext, List.head?_cons, Ne, Option.some.injEq]
    exact ne_of_isNameChar (isNameChar_of_isNameStart hstart) (by decide)
  have hname : tagName? t.inside = some t.name.text := by
    simpa using tagName?_tag h stops_nil
  have hclosing : isSelfClosing t.inside = false := isSelfClosing_opening h []
  have hshape : t.opening ++ rest = '<' :: t.inside ++ '>' :: rest := by
    simp [Tag.opening, Tag.text]
  rw [hshape, closeLength?_tag (passes_inside t), hlength, if_neg hhead, hname, hclosing]
  by_cases hq : t.name.text = q
  · simp [hq]
  · simp [hq]

/-- An element of one tag is passed over, whatever its name. -/
theorem closeLength?_alone (t : Tag) (gap : Spaces) (rest : List Char) :
    closeLength? q depth n (t.alone gap ++ rest) =
      closeLength? q depth (n + (t.alone gap).length) rest := by
  have hlength : n + (t.inside ++ '/' :: gap.text).length + 2 = n + (t.alone gap).length := by
    simp [Tag.alone, Tag.text]
    omega
  have hhead : (t.inside ++ '/' :: gap.text).head? ≠ some '/' := by
    obtain ⟨c, cs, htext, hstart⟩ := head?_inside t
    rw [htext, List.cons_append, List.head?_cons, Ne, Option.some.injEq]
    exact ne_of_isNameChar (isNameChar_of_isNameStart hstart) (by decide)
  have hpasses : Passes (t.inside ++ '/' :: gap.text) :=
    (passes_inside t).append ((passes_singleton (by decide)).append (passes_spaces gap))
  have hshape : t.alone gap ++ rest = '<' :: (t.inside ++ '/' :: gap.text) ++ '>' :: rest := by
    simp [Tag.alone, Tag.text]
  rw [hshape, closeLength?_tag hpasses, hlength, if_neg hhead, isSelfClosing_alone]
  simp

theorem closeLength?_closing {t : Tag} (h : t.name.Solid) (gap : Spaces) (rest : List Char) :
    closeLength? q depth n (t.closing gap ++ rest) =
      if t.name.text = q then
        match depth with
        | 0 => some (n + (t.closing gap).length)
        | depth + 1 => closeLength? q depth (n + (t.closing gap).length) rest
      else closeLength? q depth (n + (t.closing gap).length) rest := by
  have hlength : n + ('/' :: t.name.text ++ gap.text).length + 2 = n + (t.closing gap).length := by
    simp [Tag.closing]
    omega
  have hpasses : Passes ('/' :: t.name.text ++ gap.text) :=
    ((passes_singleton (by decide)).append (passes_name _)).append (passes_spaces _)
  have htrim : Text.trimEnd (t.name.text ++ gap.text) = t.name.text := by
    rw [Text.trimEnd_append _ fun b hb => isBlank_of_isSpace (gap.isSpace_of_mem hb)]
    exact Text.trimEnd_eq_self fun c hc => h.isBlank (List.mem_of_getLast? hc)
  have hshape : t.closing gap ++ rest = '<' :: ('/' :: t.name.text ++ gap.text) ++ '>' :: rest := by
    simp [Tag.closing]
  rw [hshape, closeLength?_tag hpasses, hlength, List.cons_append, List.head?_cons, if_pos rfl,
    List.drop_one, List.tail_cons, htrim]

/-- A comment without markup and quotation marks. -/
def Quiet (k : Comment) : Prop := '<' ∉ k.body ∧ '"' ∉ k.body ∧ '\'' ∉ k.body

/-- A comment counts as a tag up to the first `>` in it, and as character data from there on. -/
theorem closeLength?_bang {w : List Char} (h : ∀ c ∈ '!' :: w, c ≠ '<' ∧ c ≠ '"' ∧ c ≠ '\'')
    (rest : List Char) :
    closeLength? q depth n ('<' :: '!' :: w ++ '>' :: rest) =
      closeLength? q depth (n + w.length + 3) rest := by
  -- one tag, without the name of an element
  have htag : ∀ (v : List Char), (∀ c ∈ '!' :: v, c ≠ '>' ∧ c ≠ '"' ∧ c ≠ '\'') →
      ∀ more, closeLength? q depth n ('<' :: '!' :: v ++ '>' :: more) =
        closeLength? q depth (n + v.length + 3) more := by
    intro v hv more
    rw [closeLength?_tag (passes_of_plain hv), tagName?_mark (.inr rfl)]
    simp [Nat.add_assoc]
  by_cases hw : '>' ∈ w
  · obtain ⟨v, more, rfl, hv⟩ := List.eq_append_cons_of_mem hw
    have hplain : ∀ c ∈ '!' :: v, c ≠ '>' ∧ c ≠ '"' ∧ c ≠ '\'' := by
      intro c hc
      have hother : c ∈ '!' :: (v ++ '>' :: more) := by
        simp only [List.mem_cons, List.mem_append] at hc ⊢
        tauto
      refine ⟨?_, (h c hother).2⟩
      rintro rfl
      simp only [List.mem_cons] at hc
      exact hv (hc.resolve_left (by decide))
    have hmore : '<' ∉ more ++ ['>'] := by
      intro hc
      rcases List.mem_append.mp hc with hc | hc
      · exact (h '<' (by simp [hc])).1 rfl
      · simp at hc
    have hshape : '<' :: '!' :: (v ++ '>' :: more) ++ '>' :: rest =
        '<' :: '!' :: v ++ '>' :: (more ++ ['>'] ++ rest) := by
      simp
    rw [hshape, htag v hplain, closeLength?_append hmore]
    simp only [List.length_append, List.length_cons, List.length_nil]
    congr 1
    omega
  · refine htag w (fun c hc => ⟨?_, (h c hc).2⟩) rest
    rintro rfl
    rw [List.mem_cons] at hc
    exact hw (hc.resolve_left (by decide))

theorem closeLength?_comment {k : Comment} (h : Quiet k) (rest : List Char) :
    closeLength? q depth n (k.text ++ rest) = closeLength? q depth (n + k.text.length) rest := by
  have hshape : k.text ++ rest = '<' :: '!' :: ("--".toList ++ (k.body ++ "--".toList)) ++
      '>' :: rest := by
    simp [Comment.text]
  have hlength : n + ("--".toList ++ (k.body ++ "--".toList)).length + 3 = n + k.text.length := by
    simp [Comment.text]
    omega
  rw [hshape, closeLength?_bang ?_, hlength]
  intro c hc
  simp only [List.mem_cons, List.mem_append] at hc
  rcases hc with rfl | hc | hc | hc
  · decide
  · have hdash : c = '-' := by simpa using hc
    rw [hdash]
    decide
  · exact ⟨ne_of_mem_of_not_mem hc h.1, ne_of_mem_of_not_mem hc h.2.1,
      ne_of_mem_of_not_mem hc h.2.2⟩
  · have hdash : c = '-' := by simpa using hc
    rw [hdash]
    decide

/-- **Content is passed over**: every element in it is closed when it ends. -/
theorem closeLength?_content {content : Content} (hn : ∀ name ∈ content.names, name.Solid)
    (hk : ∀ k ∈ content.comments, Quiet k) (rest : List Char) :
    closeLength? q depth n (content.text ++ rest) =
      closeLength? q depth (n + content.text.length) rest := by
  induction content generalizing depth n rest with
  | nil => rfl
  | data d more ih =>
    rw [Content.text, List.append_assoc, closeLength?_append d.ok, ih hn hk, List.length_append,
      Nat.add_assoc]
  | comment k more ih =>
    rw [Content.comments, List.forall_mem_cons] at hk
    rw [Content.text, List.append_assoc, closeLength?_comment hk.1, ih hn hk.2, List.length_append,
      Nat.add_assoc]
  | alone tag gap more ih =>
    rw [Content.names, List.forall_mem_cons] at hn
    rw [Content.text, List.append_assoc, closeLength?_alone, ih hn.2 hk, List.length_append,
      Nat.add_assoc]
  | element tag inner gap more ihInner ihMore =>
    rw [Content.names, List.forall_mem_cons, List.forall_mem_append] at hn
    rw [Content.comments, List.forall_mem_append] at hk
    obtain ⟨htag, hinner, hmore⟩ := hn
    have hlength : n + tag.opening.length + inner.text.length + (tag.closing gap).length +
        more.text.length =
          n + (tag.opening ++ (inner.text ++ (tag.closing gap ++ more.text))).length := by
      simp only [List.length_append]
      omega
    rw [Content.text, List.append_assoc, List.append_assoc, List.append_assoc,
      closeLength?_opening htag, ihInner hinner hk.1, closeLength?_closing htag]
    -- the closing tag takes back what the opening one counted
    by_cases hq : tag.name.text = q
    · rw [if_pos hq, if_pos hq]
      dsimp only
      rw [ihMore hmore hk.2, hlength]
    · rw [if_neg hq, if_neg hq, ihMore hmore hk.2, hlength]

/-! ## The text of an element -/

/-- The text of an element ends with its tag, or where the search behind it does. -/
theorem text?_of_passes {tag : List Char} (h : Passes tag) (q content : List Char) :
    (Element.mk q (tag ++ '>' :: content)).text? =
      if isSelfClosing tag then some (tag ++ ['>'])
      else (closeLength? q 0 (tag.length + 1) content).map (tag ++ '>' :: content).take := by
  rw [Element.text?]
  dsimp only
  rw [splitTag?_of_passes h]
  rfl

theorem text?_alone (t : Tag) (gap : Spaces) (q tail : List Char) :
    (Element.mk q (t.alone gap ++ tail)).text? = some (t.alone gap) := by
  have hpasses : Passes (t.text ++ '/' :: gap.text) :=
    (passes_tag t).append ((passes_singleton (by decide)).append (passes_spaces gap))
  rw [Tag.alone, List.append_assoc, List.singleton_append, text?_of_passes hpasses,
    isSelfClosing_alone, if_pos rfl]

theorem text?_element {t : Tag} {inner : Content} (ht : t.name.Solid)
    (hn : ∀ name ∈ inner.names, name.Solid) (hk : ∀ k ∈ inner.comments, Quiet k) (gap : Spaces)
    (tail : List Char) :
    (Element.mk t.name.text ((Xml.Element.element t inner gap).text ++ tail)).text? =
      some (Xml.Element.element t inner gap).text := by
  have hshape : (Xml.Element.element t inner gap).text ++ tail =
      t.text ++ '>' :: (inner.text ++ (t.closing gap ++ tail)) := by
    simp [Xml.Element.text, Tag.opening]
  have hclosing : isSelfClosing t.text = false := isSelfClosing_opening ht ['<']
  have hlength : t.text.length + 1 + inner.text.length + (t.closing gap).length =
      (Xml.Element.element t inner gap).text.length := by
    simp [Xml.Element.text, Tag.opening]
    omega
  rw [hshape, text?_of_passes (passes_tag t), hclosing, if_neg Bool.false_ne_true,
    closeLength?_content hn hk, closeLength?_closing ht, if_pos rfl]
  dsimp only
  rw [hlength, ← hshape, Option.map_some, List.take_left]

/-- **The text of an element is cut out exactly.** -/
theorem text?_text {e : Xml.Element} (hn : ∀ name ∈ e.names, name.Solid)
    (hk : ∀ k ∈ e.inner.comments, Quiet k) (tail : List Char) :
    (Element.mk e.tag.name.text (e.text ++ tail)).text? = some e.text := by
  rw [Xml.Element.names, List.forall_mem_cons] at hn
  cases e with
  | alone tag gap => exact text?_alone tag gap _ tail
  | element tag inner gap => exact text?_element hn.1 hn.2 hk gap tail

end Saml
end AccessGateway
