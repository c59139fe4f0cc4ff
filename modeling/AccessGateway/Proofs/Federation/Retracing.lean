import AccessGateway.Proofs.Federation.ElementSearch

/-!
# Scanning what was cut out

Whatever the document, well-formed or not: an element that is cut out of it starts with a tag and
ends with one, and all that the scanner made of it on the way depends on nothing behind its end.  So
when the text that was cut out is scanned by itself, the scan goes through the same tags at the same
depths, and cuts out all of it.

## Results

* `closeLength?_local` — a search for a closing tag depends on nothing behind it.
* `root?_in`, `find?_in` — what is found is a tag of the document, with its name.
* `Element.text?_cut` — the text of an element is that of an element again.
* `assertion?_cut` — an assertion that is cut out is one by itself.
-/

set_option autoImplicit false

namespace AccessGateway

namespace Saml

variable {q cs : List Char} {depth n k : Nat}

/-! ## The search for the closing tag -/

/-- The depth behind a tag in the search for a closing one; none behind the one that fits. -/
def depthAfter (q : List Char) (depth : Nat) (tag : List Char) : Option Nat :=
  if tag.head? = some '/' then
    if Text.trimEnd (tag.drop 1) = q then
      match depth with
      | 0 => none
      | depth + 1 => some depth
    else some depth
  else if tagName? tag = some q ∧ !isSelfClosing tag then some (depth + 1)
  else some depth

/-- The search goes on behind every tag but the one that fits. -/
theorem closeLength?_next {gap tag : List Char} (hgap : '<' ∉ gap) (h : Passes tag)
    (rest : List Char) :
    closeLength? q depth n (gap ++ ('<' :: tag ++ '>' :: rest)) =
      match depthAfter q depth tag with
      | none => some (n + gap.length + tag.length + 2)
      | some depth => closeLength? q depth (n + gap.length + tag.length + 2) rest := by
  rw [closeLength?_append hgap, closeLength?_tag h]
  unfold depthAfter
  split
  · split
    · cases depth <;> rfl
    · rfl
  · split <;> rfl

/-- At a tag that does not end the search breaks off. -/
theorem closeLength?_unclosed {gap rest : List Char} (hgap : '<' ∉ gap)
    (h : splitTag? ('<' :: rest) = none) :
    closeLength? q depth n (gap ++ '<' :: rest) = none := by
  rw [closeLength?_append hgap, closeLength?_cons (toMarkup_tag rest),
    Option.map_eq_none_iff.mp h]
  rfl

/-- A search that ends has a tag before it. -/
theorem exists_tag_of_closeLength? (h : closeLength? q depth n cs = some k) :
    ∃ gap tag rest, cs = gap ++ ('<' :: tag ++ '>' :: rest) ∧ '<' ∉ gap ∧ Passes tag := by
  by_cases hlt : '<' ∈ cs
  · obtain ⟨gap, rest, rfl, hgap⟩ := List.eq_append_cons_of_mem hlt
    cases htag : splitTag? ('<' :: rest) with
    | none =>
      rw [closeLength?_unclosed hgap htag] at h
      cases h
    | some parts =>
      obtain ⟨inside, -, rfl, hpasses⟩ := splitTag?_lt htag
      exact ⟨gap, inside, parts.2, rfl, hgap, hpasses⟩
  · rw [closeLength?_nil (toMarkup_of_notMem hlt)] at h
    cases h

/-- **A search that ends depends on nothing behind its end.** -/
theorem closeLength?_local (h : closeLength? q depth n cs = some k) :
    ∃ inside rest, cs = inside ++ '>' :: rest ∧ k = n + inside.length + 1 ∧
      ∀ m more, closeLength? q depth m (inside ++ '>' :: more) = some (m + inside.length + 1) := by
  -- from tag to tag: what the search makes of one depends on its text and on the depth alone
  induction hcs : cs.length using Nat.strong_induction_on generalizing cs depth n with
  | _ size ih =>
    obtain ⟨gap, tag, rest, rfl, hgap, hpasses⟩ := exists_tag_of_closeLength? h
    have hnext (m : Nat) (more : List Char) :
        closeLength? q depth m (gap ++ ('<' :: tag ++ '>' :: more)) =
          match depthAfter q depth tag with
          | none => some (m + gap.length + tag.length + 2)
          | some depth => closeLength? q depth (m + gap.length + tag.length + 2) more :=
      closeLength?_next hgap hpasses more
    rw [hnext] at h
    cases hdepth : depthAfter q depth tag with
    | none =>
      rw [hdepth] at h hnext
      have hlength (m : Nat) : m + gap.length + tag.length + 2 =
          m + (gap ++ '<' :: tag).length + 1 := by
        simp only [List.length_append, List.length_cons]
        omega
      refine ⟨gap ++ '<' :: tag, rest, by simp, ?_, fun m more => ?_⟩
      · rw [← hlength]
        exact (Option.some.inj h).symm
      · rw [List.append_assoc, hnext, hlength]
    | some depth' =>
      rw [hdepth] at h hnext
      have hless : rest.length < size := by
        rw [← hcs]
        simp only [List.length_append, List.length_cons]
        omega
      obtain ⟨inside, rest', rfl, hk, hlocal⟩ := ih rest.length hless h rfl
      have hlength (m : Nat) : m + gap.length + tag.length + 2 + inside.length + 1 =
          m + (gap ++ ('<' :: tag ++ '>' :: inside)).length + 1 := by
        simp only [List.length_append, List.length_cons]
        omega
      refine ⟨gap ++ ('<' :: tag ++ '>' :: inside), rest', by simp, ?_, fun m more => ?_⟩
      · rw [hk, hlength]
      · have hshape : gap ++ ('<' :: tag ++ '>' :: inside) ++ '>' :: more =
            gap ++ ('<' :: tag ++ '>' :: (inside ++ '>' :: more)) := by
          simp only [List.append_assoc, List.cons_append]
        rw [hshape, hnext]
        exact (hlocal _ more).trans (by rw [hlength])

/-! ## Found elements -/

/-- What has a name is no part of a prolog. -/
theorem skipProlog?_of_tagName? {cs q : List Char} (h : tagName? cs = some q) :
    skipProlog? ('<' :: cs) = none := by
  unfold tagName? at h
  split at h
  · cases h
  · rename_i c name hname
    split at h
    · cases h
    · rename_i hc
      rw [not_or] at hc
      obtain ⟨rest, rfl⟩ : c :: name <+: cs := hname ▸ List.takeWhile_prefix _
      exact skipProlog?_of_ne hc.2 hc.1 (name ++ rest)

/-- An element that is found in a document: its tag stands there, and has its name. -/
structure Element.In (e : Element) (document : List Char) : Prop where
  markup : e.markup <:+ document
  tag : ∃ rest, e.markup = '<' :: rest ∧ tagName? rest = some e.qualified

theorem Element.In.mono {e : Element} {cs document : List Char} (h : e.In cs)
    (hcs : cs <:+ document) : e.In document :=
  ⟨h.markup.trans hcs, h.tag⟩

theorem after?_suffix {mark rest : List Char} (h : after? mark cs = some rest) : rest <:+ cs := by
  induction cs with
  | nil => cases h
  | cons c cs ih =>
    rw [after?] at h
    split at h
    · rename_i hmark
      cases h
      exact ⟨mark, (List.isPrefixOf?_eq_some_iff_append_eq.mp hmark)⟩
    · exact (ih h).trans (List.suffix_cons c cs)

theorem skipProlog?_suffix {markup rest : List Char} (h : skipProlog? markup = some (some rest)) :
    rest <:+ markup := by
  unfold skipProlog? at h
  split at h
  · exact after?_suffix (Option.some.inj h)
  · split at h
    · exact after?_suffix (Option.some.inj h)
    · split at h
      · exact after?_suffix (Option.some.inj h)
      · cases h

theorem toMarkup_eq_cons {rest : List Char} {c : Char} (h : toMarkup cs = c :: rest) :
    c = '<' ∧ '<' :: rest <:+ cs := by
  by_cases hlt : '<' ∈ cs
  · obtain ⟨gap, rest', rfl, hgap⟩ := List.eq_append_cons_of_mem hlt
    rw [toMarkup_append hgap, toMarkup_tag] at h
    cases h
    exact ⟨rfl, List.suffix_append gap _⟩
  · rw [toMarkup_of_notMem hlt] at h
    cases h

theorem root?_in {e : Element} (h : root? cs = some e) :
    e.In cs ∧ ∃ parts, splitTag? e.markup = some parts := by
  fun_induction root? cs with
  | case1 => cases h
  | case2 cs lt rest hm hle more hp hlt ih =>
    obtain ⟨rfl, hsuffix⟩ := toMarkup_eq_cons hm
    exact ⟨(ih h).1.mono ((skipProlog?_suffix hp).trans hsuffix), (ih h).2⟩
  | case3 => cases h
  | case4 cs lt rest hm hle hp parts qualified htag hname =>
    cases h
    obtain ⟨rfl, hsuffix⟩ := toMarkup_eq_cons hm
    exact ⟨⟨hsuffix, rest, rfl, hname⟩, _, htag⟩
  | case5 => cases h

theorem find?_in {name : String} {e : Element} (h : find? name cs = some e) :
    e.In cs ∧ e.name = name := by
  fun_induction find? name cs with
  | case1 => cases h
  | case2 cs qualified htag hname =>
    cases h
    exact ⟨⟨List.suffix_rfl, cs, rfl, htag⟩, hname⟩
  | case3 cs qualified htag hname ih => exact ⟨(ih h).1.mono (List.suffix_cons _ cs), (ih h).2⟩
  | case4 cs htag ih => exact ⟨(ih h).1.mono (List.suffix_cons _ cs), (ih h).2⟩
  | case5 c cs hc ih => exact ⟨(ih h).1.mono (List.suffix_cons c cs), (ih h).2⟩

/-! ## What is cut out is found in itself -/

/-- What starts with a tag that has a name is the root. -/
theorem root?_of_tagName? {inside qualified : List Char} (h : Passes inside)
    (hname : tagName? inside = some qualified) (body : List Char) :
    root? ('<' :: inside ++ '>' :: body) = some ⟨qualified, '<' :: inside ++ '>' :: body⟩ := by
  have hlt : Passes ('<' :: inside) := (passes_singleton (by decide)).append h
  have hwhole : tagName? (inside ++ '>' :: body) = some qualified := by
    rw [tagName?_append_end, hname]
  rw [List.cons_append, root?_tag (toMarkup_tag _) (skipProlog?_of_tagName? hwhole)
    (splitTag?_of_passes hlt body), hwhole]
  rfl

/-- **The text of an element is that of an element again**, of the same name: it starts and ends
    with its tags, and a second scan of it retraces the first. -/
theorem Element.text?_cut {e : Element} {document text : List Char} (hin : e.In document)
    (h : e.text? = some text) :
    ∃ body, text = '<' :: body ++ ['>'] ∧ text <+: e.markup ∧
      root? text = some ⟨e.qualified, text⟩ ∧ (Element.mk e.qualified text).text? = some text := by
  obtain ⟨qualified, markup⟩ := e
  obtain ⟨-, rest, rfl, hname⟩ := hin
  obtain ⟨⟨tag, content⟩, htag, -⟩ := Option.bind_eq_some_iff.mp h
  obtain ⟨inside, rfl, rfl, hpasses⟩ := splitTag?_lt htag
  dsimp only at hname ⊢
  rw [tagName?_append_end] at hname
  have hlt : Passes ('<' :: inside) := (splitTag?_eq_some.mp htag).2
  have hroot := root?_of_tagName? hpasses hname
  rw [← List.cons_append, text?_of_passes hlt] at h
  split at h
  · rename_i hclosing
    cases h
    refine ⟨inside, rfl, ⟨content, by simp⟩, hroot [], ?_⟩
    rw [text?_of_passes hlt, if_pos hclosing]
  · rename_i hclosing
    obtain ⟨k, hk, htext⟩ := Option.map_eq_some_iff.mp h
    obtain ⟨inner, more, rfl, rfl, hlocal⟩ := closeLength?_local hk
    have hshape : '<' :: inside ++ '>' :: (inner ++ '>' :: more) =
        '<' :: inside ++ '>' :: (inner ++ ['>']) ++ more := by simp
    have hlength : ('<' :: inside).length + 1 + inner.length + 1 =
        ('<' :: inside ++ '>' :: (inner ++ ['>'])).length := by
      simp only [List.length_append, List.length_cons, List.length_nil]
      omega
    rw [hshape, hlength, List.take_left] at htext
    subst htext
    refine ⟨inside ++ '>' :: inner, by simp, ⟨more, hshape.symm⟩, hroot _, ?_⟩
    rw [text?_of_passes hlt, if_neg hclosing, hlocal, Option.map_some, hlength, List.take_length]

/-- **An assertion that is cut out of a document is an assertion by itself.** -/
theorem assertion?_cut {document text : List Char} (h : assertion? document = some text) :
    ∃ root body, root? document = some root ∧ (root.name = "Response" ∨ root.name = "Assertion") ∧
      text = '<' :: body ++ ['>'] ∧ text <:+: document ∧ assertion? text = some text := by
  -- whichever element it is, it is found in the document under its name
  have hcut {e : Element} (hin : e.In document) (hname : e.name = "Assertion")
      (htext : e.text? = some text) :
      ∃ body, text = '<' :: body ++ ['>'] ∧ text <:+: document ∧ assertion? text = some text := by
    obtain ⟨body, hbody, hprefix, hroot, hagain⟩ := Element.text?_cut hin htext
    refine ⟨body, hbody, hprefix.isInfix.trans hin.markup.isInfix, ?_⟩
    have hlocal : (Element.mk e.qualified text).name = "Assertion" := hname
    rw [assertion?, hroot, Option.bind_eq_bind, Option.bind_some, if_pos hlocal, hagain]
  unfold assertion? at h
  obtain ⟨root, hroot, h⟩ := Option.bind_eq_some_iff.mp h
  obtain ⟨hin, -⟩ := root?_in hroot
  split at h
  · rename_i hname
    obtain ⟨body, hparts⟩ := hcut hin hname h
    exact ⟨root, body, hroot, .inr hname, hparts⟩
  · split at h
    · rename_i hname
      obtain ⟨⟨tag, content⟩, htag, h⟩ := Option.bind_eq_some_iff.mp h
      obtain ⟨e, he, htext⟩ := Option.bind_eq_some_iff.mp h
      obtain ⟨hfound, hlocal⟩ := find?_in he
      have hcontent : content <:+ root.markup :=
        ⟨tag ++ ['>'], by rw [(splitTag?_eq_some.mp htag).1, ← List.append_cons]⟩
      obtain ⟨body, hparts⟩ := hcut (hfound.mono (hcontent.trans hin.markup)) hlocal htext
      exact ⟨root, body, hroot, .inl hname, hparts⟩
    · cases h

end Saml
end AccessGateway
