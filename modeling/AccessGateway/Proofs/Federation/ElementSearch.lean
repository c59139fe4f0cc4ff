import AccessGateway.Proofs.Federation.ElementText

/-!
# Where elements start

The scanner looks for an element by trying every `<`: if what follows reads as a name with the local
name that is sought, the element is found.  In a tree that is the first element of this name in
document order.  In a comment it may be anything that looks like one.

## Results

* `Baits` — a comment in which an element of a name seems to start; `find?_baited`,
  `find?_unbaited` — what the search makes of a comment.
* `find?_content` — without such comments the search finds the first element of a name in content.
* `find?_content_baited` — with one before it, what is found starts inside a comment;
  `Baited.within`, `Baited.behind` — wherever in the content it stands.
* `root?_text` — the root of a document is found.
-/

set_option autoImplicit false

namespace AccessGateway

open Xml

namespace Saml

variable {name : String}

/-! ## One piece of content -/

theorem find?_lt (name : String) (cs : List Char) :
    find? name ('<' :: cs) =
      match tagName? cs with
      | some q => if String.ofList (localName q) = name then some ⟨q, '<' :: cs⟩ else find? name cs
      | none => find? name cs := by
  rw [find?]
  exact if_pos rfl

/-- Where there is no `<`, nothing is found. -/
theorem find?_append {t : List Char} (h : '<' ∉ t) (rest : List Char) :
    find? name (t ++ rest) = find? name rest := by
  induction t with
  | nil => rfl
  | cons c t ih =>
    rw [List.mem_cons, not_or] at h
    rw [List.cons_append, find?, if_neg (Ne.symm h.1), ih h.2]

theorem lt_notMem_spaces (g : Spaces) : '<' ∉ g.text :=
  fun h => ne_of_isSpace (g.isSpace_of_mem h) (by decide) rfl

theorem lt_notMem_name (q : QName) : '<' ∉ q.text :=
  fun h => QName.ne_of_mem h (by decide) (by decide) rfl

theorem lt_notMem_attribute (a : Attribute) : '<' ∉ a.text := by
  have hmark : '<' ≠ a.quote.mark := by
    cases a.quote <;> decide
  simp [Attribute.text, lt_notMem_spaces, lt_notMem_name, hmark, a.value_ok.1]

theorem lt_notMem_inside (t : Tag) : '<' ∉ t.inside := by
  simp [Tag.inside, lt_notMem_spaces, lt_notMem_name, lt_notMem_attribute]

/-- A tag that opens an element is found, if it has the local name. -/
theorem find?_tag (name : String) {t : Tag} (h : t.name.Solid) {more : List Char}
    (hmore : Stops more) (hlt : '<' ∉ more) (rest : List Char) :
    find? name (t.text ++ (more ++ '>' :: rest)) =
      if t.name.Is name then some ⟨t.name.text, t.text ++ (more ++ '>' :: rest)⟩
      else find? name rest := by
  have hstops : Stops (more ++ '>' :: rest) := by
    cases more with
    | nil => exact stops_cons (.inr (.inl rfl)) _
    | cons c cs => exact stops_cons (hmore c rfl) _
  have hrest : find? name (t.inside ++ (more ++ '>' :: rest)) = find? name rest := by
    rw [find?_append (lt_notMem_inside t), find?_append hlt, find?, if_neg (by decide)]
  rw [Tag.text, List.cons_append, find?_lt, tagName?_tag h hstops]
  dsimp only
  rw [hrest]
  by_cases hname : t.name.Is name
  · rw [if_pos hname, if_pos ((ofList_localName _ _).mpr hname)]
  · rw [if_neg hname, if_neg fun he => hname ((ofList_localName _ _).mp he)]

theorem find?_opening {t : Tag} (h : t.name.Solid) (rest : List Char) :
    find? name (t.opening ++ rest) =
      if t.name.Is name then some ⟨t.name.text, t.opening ++ rest⟩ else find? name rest := by
  have hfound := find?_tag name h stops_nil (by simp) rest
  rwa [List.nil_append, List.append_cons] at hfound

theorem find?_alone {t : Tag} (h : t.name.Solid) (gap : Spaces) (rest : List Char) :
    find? name (t.alone gap ++ rest) =
      if t.name.Is name then some ⟨t.name.text, t.alone gap ++ rest⟩ else find? name rest := by
  have hfound := find?_tag name h
    (stops_cons (c := '/') (.inr (.inr rfl)) gap.text) (by simp [lt_notMem_spaces]) rest
  rwa [← List.append_assoc, List.append_cons] at hfound

/-- A closing tag is no element. -/
theorem find?_closing (t : Tag) (gap : Spaces) (rest : List Char) :
    find? name (t.closing gap ++ rest) = find? name rest := by
  have hplain : '<' ∉ '/' :: t.name.text ++ gap.text ++ ['>'] := by
    simp [lt_notMem_spaces, lt_notMem_name]
  have hshape :
      t.closing gap ++ rest = '<' :: ('/' :: t.name.text ++ gap.text ++ ['>'] ++ rest) := by
    simp [Tag.closing]
  rw [hshape, find?_lt, ← find?_append hplain rest]
  rw [List.cons_append, List.cons_append, List.cons_append, tagName?_mark (.inl rfl)]

/-! ## Comments -/

/-- What follows a `<` in a comment reads as a name with the local name. -/
def Reads (name : String) (cs : List Char) : Prop :=
  ∃ q, tagName? (cs ++ "-->".toList) = some q ∧ String.ofList (localName q) = name

/-- A comment in which an element of the name seems to start. -/
def Baits (name : String) (k : Comment) : Prop :=
  ∃ cs, '<' :: cs <:+ k.body ∧ Reads name cs

theorem not_baits_of_quiet {k : Comment} (h : Quiet k) : ¬Baits name k := by
  rintro ⟨cs, hcs, -⟩
  exact h.1 (hcs.subset List.mem_cons_self)

/-- A name in a comment ends with the comment, at the latest. -/
theorem tagName?_comment (cs rest : List Char) :
    tagName? (cs ++ ("-->".toList ++ rest)) = tagName? (cs ++ "-->".toList) := by
  have hshape : ∀ ys, cs ++ ("-->".toList ++ ys) = (cs ++ "--".toList) ++ '>' :: ys := by simp
  have hclosed := hshape []
  rw [List.append_nil] at hclosed
  rw [hshape, hclosed, tagName?_append_end, tagName?_append_end]

/-- The search goes on where nothing reads as the name. -/
theorem find?_cons_of_not {c : Char} {cs : List Char} (h : ¬(c = '<' ∧ Reads name cs))
    (rest : List Char) :
    find? name (c :: cs ++ ("-->".toList ++ rest)) =
      find? name (cs ++ ("-->".toList ++ rest)) := by
  by_cases hc : c = '<'
  · subst hc
    rw [List.cons_append, find?_lt, tagName?_comment]
    split
    · rename_i q hq
      exact if_neg fun hlocal => h ⟨rfl, q, hq, hlocal⟩
    · rfl
  · rw [List.cons_append, find?, if_neg hc]

theorem find?_body (name : String) (body rest : List Char) :
    (∃ cs q, '<' :: cs <:+ body ∧ Reads name cs ∧
      find? name (body ++ ("-->".toList ++ rest)) = some ⟨q, '<' :: cs ++ ("-->".toList ++ rest)⟩) ∨
    (∀ cs, '<' :: cs <:+ body → ¬Reads name cs) ∧
      find? name (body ++ ("-->".toList ++ rest)) = find? name rest := by
  induction body with
  | nil =>
    refine .inr ⟨fun cs hcs => ?_, find?_append (by decide) rest⟩
    exact absurd (List.suffix_nil.mp hcs) (List.cons_ne_nil _ _)
  | cons c body ih =>
    by_cases hread : c = '<' ∧ Reads name body
    · obtain ⟨rfl, q, hq, hlocal⟩ := hread
      refine .inl ⟨body, q, List.suffix_rfl, ⟨q, hq, hlocal⟩, ?_⟩
      rw [List.cons_append, find?_lt, tagName?_comment, hq]
      exact if_pos hlocal
    · rw [find?_cons_of_not hread]
      rcases ih with ⟨cs, q, hcs, hreads, hfound⟩ | ⟨hnone, hfound⟩
      · exact .inl ⟨cs, q, hcs.trans (List.suffix_cons c body), hreads, hfound⟩
      · refine .inr ⟨fun cs hcs hreads => ?_, hfound⟩
        rcases List.suffix_cons_iff.mp hcs with heq | hcs
        · cases heq
          exact hread ⟨rfl, hreads⟩
        · exact hnone cs hcs hreads

theorem find?_comment (k : Comment) (rest : List Char) :
    find? name (k.text ++ rest) = find? name (k.body ++ ("-->".toList ++ rest)) := by
  have hshape : k.text ++ rest =
      '<' :: '!' :: ("--".toList ++ (k.body ++ ("-->".toList ++ rest))) := by
    simp [Comment.text]
  rw [hshape, find?_lt, tagName?_mark (.inr rfl)]
  dsimp only
  rw [find?, if_neg (by decide), find?_append (by decide)]

theorem find?_unbaited {k : Comment} (h : ¬Baits name k) (rest : List Char) :
    find? name (k.text ++ rest) = find? name rest := by
  rw [find?_comment]
  rcases find?_body name k.body rest with ⟨cs, _, hcs, hreads, -⟩ | ⟨-, hfound⟩
  · exact absurd ⟨cs, hcs, hreads⟩ h
  · exact hfound

/-- What is found in a comment starts there. -/
theorem find?_baited {k : Comment} (h : Baits name k) (rest : List Char) :
    ∃ cs q, '<' :: cs <:+ k.body ∧
      find? name (k.text ++ rest) = some ⟨q, '<' :: cs ++ ("-->".toList ++ rest)⟩ := by
  rw [find?_comment]
  rcases find?_body name k.body rest with ⟨cs, q, hcs, -, hfound⟩ | ⟨hnone, -⟩
  · exact ⟨cs, q, hcs, hfound⟩
  · obtain ⟨cs, hcs, hreads⟩ := h
    exact absurd hreads (hnone cs hcs)

/-! ## Content -/

/-- **The search finds the first element of a name in content**, in document order, if no comment
    before it seems to hold one; and goes on behind the content if there is none. -/
theorem find?_content {content : Content} (hn : ∀ q ∈ content.names, q.Solid)
    (hk : ∀ k ∈ content.before name, ¬Baits name k) (rest : List Char) :
    match content.first? name with
    | some e => ∃ tail,
        find? name (content.text ++ rest) = some ⟨e.tag.name.text, e.text ++ tail⟩
    | none => find? name (content.text ++ rest) = find? name rest := by
  induction content generalizing rest with
  | nil => rfl
  | data d more ih =>
    rw [Content.text, List.append_assoc, find?_append d.ok]
    exact ih hn hk rest
  | comment k more ih =>
    rw [Content.before, List.forall_mem_cons] at hk
    rw [Content.text, List.append_assoc, find?_unbaited hk.1]
    exact ih hn hk.2 rest
  | alone tag gap more ih =>
    rw [Content.names, List.forall_mem_cons] at hn
    rw [Content.text, List.append_assoc, find?_alone hn.1, Content.first?]
    by_cases hname : tag.name.Is name
    · rw [if_pos hname, if_pos hname]
      exact ⟨more.text ++ rest, rfl⟩
    · rw [Content.before, if_neg hname] at hk
      rw [if_neg hname, if_neg hname]
      exact ih hn.2 hk rest
  | element tag inner gap more ihInner ihMore =>
    rw [Content.names, List.forall_mem_cons, List.forall_mem_append] at hn
    obtain ⟨htag, hinner, hmore⟩ := hn
    rw [Content.text, List.append_assoc, find?_opening htag, Content.first?]
    by_cases hname : tag.name.Is name
    · rw [if_pos hname, if_pos hname]
      exact ⟨more.text ++ rest, by simp [Xml.Element.text, Xml.Element.tag]⟩
    · rw [Content.before, if_neg hname, List.forall_mem_append] at hk
      have hin := ihInner hinner hk.1 (tag.closing gap ++ more.text ++ rest)
      rw [if_neg hname, if_neg hname, List.append_assoc]
      cases hfirst : inner.first? name with
      | some e =>
        rw [hfirst] at hin
        exact hin
      | none =>
        rw [hfirst] at hin hk
        have hbehind := ihMore hmore hk.2 rest
        rw [hin, List.append_assoc, find?_closing]
        exact hbehind

/-- What was found starts inside a comment that stands before the first element of the name. -/
def Baited (name : String) (content : Content) (rest : List Char) (found : Option Element) : Prop :=
  ∃ k ∈ content.before name, ∃ pre cs q post, '<' :: cs <:+ k.body ∧
    content.text = pre ++ (k.text ++ post) ∧
    found = some ⟨q, '<' :: cs ++ ("-->".toList ++ (post ++ rest))⟩

/-- It stays so in content around this one. -/
theorem Baited.within {inner outer : Content} {pre post rest : List Char} {found : Option Element}
    (h : Baited name inner (post ++ rest) found) (hbefore : inner.before name ⊆ outer.before name)
    (htext : outer.text = pre ++ (inner.text ++ post)) : Baited name outer rest found := by
  obtain ⟨k, hmem, pre', cs, q, post', hcs, hinner, hfound⟩ := h
  refine ⟨k, hbefore hmem, pre ++ pre', cs, q, post' ++ post, hcs, ?_, ?_⟩
  · simp only [htext, hinner, List.append_assoc]
  · simp only [hfound, List.append_assoc]

/-- And in content that ends with this one. -/
theorem Baited.behind {more outer : Content} {pre rest : List Char} {found : Option Element}
    (h : Baited name more rest found) (hbefore : more.before name ⊆ outer.before name)
    (htext : outer.text = pre ++ more.text) : Baited name outer rest found := by
  have hmore : Baited name more ([] ++ rest) found := h
  exact hmore.within hbefore (by rw [List.append_nil, htext])

/-- **With such a comment before it, what is found starts inside a comment.** -/
theorem find?_content_baited {content : Content} (hn : ∀ q ∈ content.names, q.Solid)
    (hk : ∃ k ∈ content.before name, Baits name k) (rest : List Char) :
    Baited name content rest (find? name (content.text ++ rest)) := by
  induction content generalizing rest with
  | nil =>
    obtain ⟨k, hk, -⟩ := hk
    cases hk
  | data d more ih =>
    rw [Content.text, List.append_assoc, find?_append d.ok]
    exact (ih hn hk rest).behind (List.Subset.refl _) rfl
  | comment k more ih =>
    rw [Content.text, List.append_assoc]
    by_cases hbaits : Baits name k
    · obtain ⟨cs, q, hcs, hfound⟩ := find?_baited hbaits (more.text ++ rest)
      exact ⟨k, List.mem_cons_self, [], cs, q, more.text, hcs, rfl, hfound⟩
    · have hmore : ∃ k' ∈ more.before name, Baits name k' := by
        simpa [Content.before, List.exists_mem_cons_iff, hbaits] using hk
      rw [find?_unbaited hbaits]
      exact (ih hn hmore rest).behind (List.subset_cons_self _ _) rfl
  | alone tag gap more ih =>
    rw [Content.names, List.forall_mem_cons] at hn
    by_cases hname : tag.name.Is name
    · simp [Content.before, hname] at hk
    · have hbefore : (Content.alone tag gap more).before name = more.before name := by
        rw [Content.before, if_neg hname]
      rw [Content.text, List.append_assoc, find?_alone hn.1, if_neg hname]
      rw [hbefore] at hk
      exact (ih hn.2 hk rest).behind (hbefore ▸ List.Subset.refl _) rfl
  | element tag inner gap more ihInner ihMore =>
    rw [Content.names, List.forall_mem_cons, List.forall_mem_append] at hn
    obtain ⟨htag, hinner, hmore⟩ := hn
    by_cases hname : tag.name.Is name
    · simp [Content.before, hname] at hk
    · have hbefore : (Content.element tag inner gap more).before name = inner.before name ++
          if (inner.first? name).isSome then [] else more.before name := by
        rw [Content.before, if_neg hname]
      rw [hbefore] at hk
      rw [Content.text, List.append_assoc, find?_opening htag, if_neg hname, List.append_assoc]
      by_cases hin : ∃ k ∈ inner.before name, Baits name k
      · exact (ihInner hinner hin _).within (hbefore ▸ List.subset_append_left _ _) rfl
      · -- nothing in the element: the search comes out behind it
        have hnone : ∀ k ∈ inner.before name, ¬Baits name k := fun k hmem hb => hin ⟨k, hmem, hb⟩
        have hthrough := find?_content hinner hnone (tag.closing gap ++ more.text ++ rest)
        obtain ⟨k, hmem, hbaits⟩ := hk
        have hmem := (List.mem_append.mp hmem).resolve_left fun h => hnone k h hbaits
        cases hfirst : inner.first? name with
        | some e => simp [hfirst] at hmem
        | none =>
          rw [hfirst] at hthrough hmem hbefore
          have htext : (Content.element tag inner gap more).text =
              (tag.opening ++ (inner.text ++ tag.closing gap)) ++ more.text := by
            simp only [Content.text, List.append_assoc]
          rw [hthrough, List.append_assoc, find?_closing]
          exact (ihMore hmore ⟨k, hmem, hbaits⟩ rest).behind
            (hbefore ▸ List.subset_append_right _ _) htext

/-! ## The root -/

/-- Where there is no markup, there is no root. -/
theorem root?_nil {cs : List Char} (h : toMarkup cs = []) : root? cs = none := by
  rw [root?]
  split
  · rfl
  · rename_i hm
    rw [h] at hm
    cases hm

/-- The first markup is a piece of the prolog, or the tag of the root. -/
theorem root?_cons {cs rest : List Char} {lt : Char} (h : toMarkup cs = lt :: rest) :
    root? cs =
      match skipProlog? (lt :: rest) with
      | some (some more) => root? more
      | some none => none
      | none =>
        (tagName? rest).bind fun qualified =>
          (splitTag? (lt :: rest)).map fun _ => ⟨qualified, lt :: rest⟩ := by
  rw [root?]
  split
  · rename_i hm
    rw [h] at hm
    cases hm
  · rename_i hm
    rw [h] at hm
    cases hm
    split
    · rename_i hp
      simp only [hp]
    · rename_i hp
      simp only [hp]
    · rename_i hp
      simp only [hp]
      cases tagName? rest with
      | none => rfl
      | some qualified => cases splitTag? (lt :: rest) <;> rfl

theorem root?_skip {cs rest more : List Char} {lt : Char} (h : toMarkup cs = lt :: rest)
    (hp : skipProlog? (lt :: rest) = some (some more)) : root? cs = root? more := by
  rw [root?_cons h, hp]

theorem root?_tag {cs rest : List Char} {lt : Char} {parts : List Char × List Char}
    (h : toMarkup cs = lt :: rest) (hp : skipProlog? (lt :: rest) = none)
    (htag : splitTag? (lt :: rest) = some parts) :
    root? cs = (tagName? rest).map (⟨·, lt :: rest⟩) := by
  rw [root?_cons h, hp, htag]
  cases tagName? rest <;> rfl

theorem after?_cons_cons {c d : Char} (h : ¬(c = '?' ∧ d = '>')) (cs : List Char) :
    after? "?>".toList (c :: d :: cs) = after? "?>".toList (d :: cs) := by
  have hmark : "?>".toList.isPrefixOf? (c :: d :: cs) = none := by
    rw [show "?>".toList = ['?', '>'] from rfl]
    simp only [List.isPrefixOf?]
    grind
  rw [after?, hmark]

/-- A text without the mark ends at the mark. -/
theorem after?_append {body : List Char} (h : ¬ "?>".toList <:+: body) (rest : List Char) :
    after? "?>".toList (body ++ ("?>".toList ++ rest)) = some rest := by
  induction body with
  | nil => rfl
  | cons c body ih =>
    rw [List.infix_cons_iff, not_or] at h
    cases body with
    | nil =>
      exact (after?_cons_cons (d := '?') (fun hc => absurd hc.2 (by decide)) _).trans (ih h.2)
    | cons d body =>
      have hnot : ¬(c = '?' ∧ d = '>') := by
        rintro ⟨rfl, rfl⟩
        exact h.1 ⟨body, rfl⟩
      exact (after?_cons_cons hnot _).trans (ih h.2)

/-- The mark does not start where there is no question mark. -/
theorem not_infix_append {t cs : List Char} (ht : '?' ∉ t) (h : ¬ "?>".toList <:+: cs) :
    ¬ "?>".toList <:+: t ++ cs := by
  induction t with
  | nil => exact h
  | cons c t ih =>
    rw [List.mem_cons, not_or] at ht
    rw [List.cons_append, List.infix_cons_iff, not_or]
    refine ⟨?_, ih ht.2⟩
    rw [show "?>".toList = ['?', '>'] from rfl, List.cons_prefix_cons]
    exact fun hp => ht.1 hp.1

/-- An instruction is skipped, with the spaces before it. -/
theorem root?_instruction (g : Spaces) (i : Instruction) (rest : List Char) :
    root? (g.text ++ (i.text ++ rest)) = root? rest := by
  have hshape : i.text ++ rest =
      ('<' :: '?' :: (i.target.text ++ i.body)) ++ ("?>".toList ++ rest) := by
    simp [Instruction.text]
  have hmarkup : toMarkup (g.text ++ (i.text ++ rest)) = i.text ++ rest := by
    rw [toMarkup_append (lt_notMem_spaces g), hshape]
    exact toMarkup_tag _
  have htarget : '?' ∉ i.target.text :=
    fun h => QName.ne_of_mem h (d := '?') (by decide) (by decide) rfl
  -- the target stands between the opening mark and the body
  have hinside : ¬ "?>".toList <:+: '<' :: '?' :: (i.target.text ++ i.body) := by
    have htail := not_infix_append htarget i.body_ok
    refine not_infix_append (t := ['<']) (by decide) ?_
    rw [List.infix_cons_iff, not_or]
    refine ⟨?_, htail⟩
    obtain ⟨c, cs, htext, hstart⟩ := i.target.text_eq_cons
    rw [htext, show "?>".toList = ['?', '>'] from rfl, List.cons_append, List.cons_prefix_cons,
      List.cons_prefix_cons]
    rintro ⟨-, hend, -⟩
    exact ne_of_isNameChar (isNameChar_of_isNameStart hstart) (by decide) hend.symm
  have hskip : skipProlog? (i.text ++ rest) = some (some rest) := by
    have hmark : "<?".toList.isPrefixOf (i.text ++ rest) = true := by
      rw [hshape]
      simp [List.isPrefixOf]
    rw [skipProlog?, if_pos hmark, hshape, after?_append hinside]
  rw [hshape] at hmarkup hskip ⊢
  exact root?_skip hmarkup hskip

theorem root?_prolog (prolog : List (Spaces × Instruction)) (rest : List Char) :
    root? (prolog.flatMap (fun p => p.1.text ++ p.2.text) ++ rest) = root? rest := by
  induction prolog with
  | nil => rfl
  | cons p prolog ih =>
    rw [List.flatMap_cons, List.append_assoc, List.append_assoc, root?_instruction, ih]

/-- An element starts with its tag. -/
theorem text_eq_tag (e : Xml.Element) (tail : List Char) :
    ∃ more rest, e.text ++ tail = e.tag.text ++ (more ++ '>' :: (e.inner.text ++ rest)) ∧
      Passes more ∧ Stops more ∧ ∀ name, find? name rest = find? name tail := by
  cases e with
  | alone tag gap =>
    refine ⟨'/' :: gap.text, tail, ?_, ?_, stops_cons (.inr (.inr rfl)) _, fun _ => rfl⟩
    · simp [Xml.Element.text, Xml.Element.tag, Xml.Element.inner, Content.text, Tag.alone]
    · exact (passes_singleton (by decide)).append (passes_spaces gap)
  | element tag inner gap =>
    refine ⟨[], tag.closing gap ++ tail, ?_, fun _ _ => rfl, stops_nil,
      fun name => find?_closing tag gap tail⟩
    simp [Xml.Element.text, Xml.Element.tag, Xml.Element.inner, Tag.opening]

theorem skipProlog?_of_ne {c : Char} (hquestion : c ≠ '?') (hbang : c ≠ '!') (cs : List Char) :
    skipProlog? ('<' :: c :: cs) = none := by
  have hquestion : ('?' == c) = false := by simpa using hquestion.symm
  have hbang : ('!' == c) = false := by simpa using hbang.symm
  simp [skipProlog?, List.isPrefixOf, hquestion, hbang]

theorem skipProlog?_name {c : Char} (h : isNameStart c = true) (cs : List Char) :
    skipProlog? ('<' :: c :: cs) = none :=
  have hc := isNameChar_of_isNameStart h
  skipProlog?_of_ne (ne_of_isNameChar hc (by decide)) (ne_of_isNameChar hc (by decide)) cs

/-- **The root of a document is found**, under the name that the scanner sees. -/
theorem root?_text (d : Xml.Document) :
    root? d.text = if d.root.tag.name.seen = [] then none
      else some ⟨d.root.tag.name.seen, d.root.text ++ d.behind.text⟩ := by
  obtain ⟨more, rest, htext, hpasses, hstops, -⟩ := text_eq_tag d.root d.behind.text
  obtain ⟨c, cs, hinside, hstart⟩ := head?_inside d.root.tag
  have hmarkup : toMarkup (d.gap.text ++ (d.root.text ++ d.behind.text)) =
      '<' :: (d.root.tag.inside ++ (more ++ '>' :: (d.root.inner.text ++ rest))) := by
    rw [toMarkup_append (lt_notMem_spaces _), htext]
    exact toMarkup_tag _
  have hskip : skipProlog?
      ('<' :: (d.root.tag.inside ++ (more ++ '>' :: (d.root.inner.text ++ rest)))) = none := by
    rw [hinside]
    exact skipProlog?_name hstart _
  have hstop : Stops (more ++ '>' :: (d.root.inner.text ++ rest)) := by
    cases more with
    | nil => exact stops_cons (.inr (.inl rfl)) _
    | cons c cs => exact stops_cons (hstops c rfl) _
  have htag := splitTag?_of_passes ((passes_tag d.root.tag).append hpasses)
    (d.root.inner.text ++ rest)
  rw [List.append_assoc] at htag
  rw [Xml.Document.text, root?_prolog, root?_tag hmarkup hskip htag, tagName?_inside _ hstop,
    htext]
  split <;> rfl

end Saml
end AccessGateway
