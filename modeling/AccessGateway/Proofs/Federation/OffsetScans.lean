import AccessGateway.Proofs.Federation.ByteOffsets
import AccessGateway.Proofs.Federation.Retracing

/-!
# The scans by offsets are the scans

Wherever a loop over offsets is, it is between two characters of the text, and each of its turns
takes it on behind a `<`, a tag or a piece of the prolog.  So no slice fails, no loop makes more
than one turn for each character and a last one, and what it comes to is what the scan over
characters finds there.

## Results

* `findTurn_advances`, `rootTurn_advances`, `closeTurn_advances` — what one turn does.
* `findElement_eq`, `rootElement_eq`, `elementAt_eq` — the loops, on every text and from every place
  in it.
* `assertion_eq` — the assertion of any text.
-/

set_option autoImplicit false

namespace AccessGateway

namespace Saml.Offsets

/-! ## Where a loop can be -/

/-- A place between two characters of a text. -/
structure Cut (text : List Char) where
  before : List Char
  after : List Char
  join : before ++ after = text

variable {text : List Char}

/-- The offset of a place. -/
def Cut.offset (c : Cut text) : Nat := size c.before

/-- The place behind some more of the text. -/
def Cut.behind (c : Cut text) (xs ys : List Char) (h : c.after = xs ++ ys) : Cut text where
  before := c.before ++ xs
  after := ys
  join := by rw [List.append_assoc, ← h, c.join]

/-- The number of characters behind a place. -/
def Cut.left (c : Cut text) : Nat := c.after.length

theorem Cut.left_le (c : Cut text) : c.left ≤ text.length := by
  have hlength := congrArg List.length c.join
  rw [List.length_append] at hlength
  show c.after.length ≤ text.length
  omega

theorem Cut.left_behind (c : Cut text) {xs ys : List Char} (h : c.after = xs ++ ys)
    (hne : xs ≠ []) : (c.behind xs ys h).left < c.left := by
  have hpos := List.length_pos_iff.mpr hne
  show ys.length < c.after.length
  rw [h, List.length_append]
  omega

@[simp] theorem Cut.offset_behind (c : Cut text) {xs ys : List Char} (h : c.after = xs ++ ys) :
    (c.behind xs ys h).offset = c.offset + size xs := size_append _ _

theorem Cut.sliceFrom_offset (c : Cut text) : sliceFrom text c.offset = .ok c.after := by
  obtain ⟨before, after, rfl⟩ := c
  exact sliceFrom_append before after

theorem Cut.sliceFrom_behind (c : Cut text) {xs ys : List Char} (h : c.after = xs ++ ys) :
    sliceFrom text (c.offset + size xs) = .ok ys := by
  rw [← c.offset_behind h]
  exact (c.behind xs ys h).sliceFrom_offset

theorem Cut.slice_behind (c : Cut text) (xs ys zs : List Char) (h : c.after = xs ++ (ys ++ zs)) :
    slice text (c.offset + size xs) (c.offset + size xs + size ys) = .ok ys := by
  have hslice := slice_append (c.before ++ xs) ys zs
  rwa [List.append_assoc, ← h, c.join, size_append] at hslice

theorem Cut.tagEnd?_offset (c : Cut text) :
    tagEnd? text c.offset =
      .ok ((splitTag? c.after).map fun parts => c.offset + size parts.1) := by
  obtain ⟨before, after, rfl⟩ := c
  exact tagEnd?_append before after

theorem Cut.tagEnd?_behind (c : Cut text) {xs ys : List Char} (h : c.after = xs ++ ys) :
    tagEnd? text (c.offset + size xs) =
      .ok ((splitTag? ys).map fun parts => c.offset + size xs + size parts.1) := by
  rw [← c.offset_behind h]
  exact (c.behind xs ys h).tagEnd?_offset

/-! ## The search for a name -/

/-- Where an element stands in a text. -/
def position (text : List Char) (e : Element) : Nat := size text - size e.markup

theorem Cut.position_eq (c : Cut text) {xs ys q : List Char} (h : c.after = xs ++ ys) :
    position text ⟨q, ys⟩ = c.offset + size xs := by
  obtain ⟨before, after, rfl⟩ := c
  dsimp only at h
  simp only [position, offset, h, size_append]
  omega

/-- What the search for a name comes to from a place on. -/
def foundFrom (name : String) (c : Cut text) : Option (Nat × List Char) :=
  (find? name c.after).map fun e => (position text e, e.qualified)

theorem findTurn_advances (name : String) (c : Cut text) :
    Advances Cut.offset (foundFrom name) Cut.left c (findTurn text name c.offset) := by
  rw [findTurn, c.sliceFrom_offset]
  rcases offsetOf?_lt c.after with ⟨hnone, hoffset⟩ | ⟨gap, rest, hafter, hgap, hoffset⟩
  · left
    have hfind : find? name c.after = none := by
      rw [← List.append_nil c.after, find?_append hnone]
      rfl
    simp only [foundFrom, hfind, bind, Except.bind, hoffset]
    rfl
  · have hbehind : c.after = (gap ++ ['<']) ++ rest := by rw [hafter, ← List.append_cons]
    have hsize : c.offset + size gap + 1 = c.offset + size (gap ++ ['<']) := by
      rw [size_append, Nat.add_assoc]
      rfl
    have hfind : find? name c.after = find? name ('<' :: rest) := by
      rw [hafter, find?_append hgap]
    rw [find?_lt] at hfind
    -- the search goes on behind the `<`
    have hagain (hmore : find? name c.after = find? name rest) :
        Advances Cut.offset (foundFrom name) Cut.left c
          (.ok (.again (c.offset + size (gap ++ ['<'])))) := by
      refine .inr ⟨c.behind _ rest hbehind, by rw [Cut.offset_behind], ?_, c.left_behind hbehind ?_⟩
      · rw [foundFrom, foundFrom, hmore]
        rfl
      · simp
    simp only [bind, Except.bind, hoffset]
    rw [hsize, c.sliceFrom_behind hbehind]
    dsimp only
    cases htag : tagName? rest with
    | none => exact hagain (by rw [hfind, htag])
    | some qualified =>
      rw [htag] at hfind
      dsimp only at hfind ⊢
      by_cases hname : String.ofList (localName qualified) = name
      · left
        rw [if_pos hname, foundFrom, hfind, if_pos hname, Option.map_some, c.position_eq hafter]
        rfl
      · rw [if_neg hname]
        exact hagain (by rw [hfind, if_neg hname])

/-- **The search for a name** from any place in a text. -/
theorem findElement_eq (name : String) (c : Cut text) {turns : Nat} (h : c.left < turns) :
    findElement turns text c.offset name = .ok (foundFrom name c) :=
  loop_eq (findTurn_advances name) h

/-! ## The search for the root -/

/-- The root element of a text, as it stands there. -/
def Root.ofElement (text : List Char) (e : Element) : Root where
  start := position text e
  stop := position text e + (splitTag? e.markup).elim 0 (fun parts => size parts.1 + 1)
  qualified := e.qualified
  name := e.name

/-- What the search for the root comes to from a place on. -/
def rootFrom (c : Cut text) : Option Root := (root? c.after).map (Root.ofElement text)

/-- Behind a mark the search for the root goes on. -/
theorem skipTo_advances {mark : String} (hmark : mark.toList ≠ []) (c : Cut text)
    {gap rest : List Char} (h : c.after = gap ++ rest)
    (hroot : root? c.after = (after? mark.toList rest).bind root?) :
    Advances Cut.offset rootFrom Cut.left c (.ok (skipTo mark rest (c.offset + size gap))) := by
  unfold skipTo
  rcases offsetOf?_after? mark.toList rest with
    ⟨hoffset, hafter⟩ | ⟨xs, ys, rfl, hoffset, hafter⟩
  · left
    rw [hoffset, rootFrom, hroot, hafter]
    rfl
  · have hbehind : c.after = (gap ++ (xs ++ mark.toList)) ++ ys := by simp [h]
    refine .inr ⟨c.behind _ ys hbehind, ?_, ?_, c.left_behind hbehind (by simp [hmark])⟩
    · rw [hoffset, Cut.offset_behind, size_append, size_append, ← Nat.add_assoc, ← Nat.add_assoc]
    · rw [rootFrom, rootFrom, hroot, hafter]
      rfl

theorem rootTurn_advances (c : Cut text) :
    Advances Cut.offset rootFrom Cut.left c (rootTurn text c.offset) := by
  rw [rootTurn, c.sliceFrom_offset]
  rcases offsetOf?_lt c.after with ⟨hnone, hoffset⟩ | ⟨gap, rest, hafter, hgap, hoffset⟩
  · left
    simp only [rootFrom, root?_nil (toMarkup_of_notMem hnone), bind, Except.bind, hoffset]
    rfl
  · have hmarkup : toMarkup c.after = '<' :: rest := by
      rw [hafter, toMarkup_append hgap, toMarkup_tag]
    have hroot := root?_cons hmarkup
    -- a piece of a prolog: what ends it is looked for
    have hskip {mark : String} (hmark : mark.toList ≠ [])
        (hp : skipProlog? ('<' :: rest) = some (after? mark.toList ('<' :: rest))) :
        Advances Cut.offset rootFrom Cut.left c
          (.ok (skipTo mark ('<' :: rest) (c.offset + size gap))) := by
      refine skipTo_advances hmark c hafter ?_
      rw [hroot, hp]
      cases after? mark.toList ('<' :: rest) <;> rfl
    have hname : sliceFrom ('<' :: rest) 1 = .ok rest := sliceFrom_append ['<'] rest
    simp only [bind, Except.bind, hoffset]
    rw [c.sliceFrom_behind hafter]
    dsimp only
    rw [c.tagEnd?_behind hafter, hname]
    split
    · rename_i hquestion
      exact hskip (by decide) (if_pos hquestion)
    · rename_i hquestion
      split
      · rename_i hcomment
        exact hskip (by decide) (by rw [skipProlog?, if_neg hquestion, if_pos hcomment])
      · rename_i hcomment
        split
        · rename_i hbang
          exact hskip (by decide)
            (by rw [skipProlog?, if_neg hquestion, if_neg hcomment, if_pos hbang])
        · rename_i hbang
          have hp : skipProlog? ('<' :: rest) = none := by
            rw [skipProlog?, if_neg hquestion, if_neg hcomment, if_neg hbang]
          rw [hp] at hroot
          left
          rw [rootFrom, hroot]
          dsimp only
          cases tagName? rest with
          | none => rfl
          | some qualified =>
            cases htag : splitTag? ('<' :: rest) with
            | none => rfl
            | some parts =>
              simp only [Option.bind_some, Option.map_some, Root.ofElement, htag, Option.elim_some,
                c.position_eq hafter]
              rfl

/-- **The search for the root** of any text. -/
theorem rootElement_eq (text : List Char) {turns : Nat} (h : text.length < turns) :
    rootElement turns text = .ok ((root? text).map (Root.ofElement text)) :=
  loop_eq (g := ⟨[], text, rfl⟩) rootTurn_advances h

/-! ## The search for the closing tag -/

/-- A state of the search for the closing tag of the element at a place. -/
def openAt (c : Cut text) (state : Nat × Cut c.after) : Nat × Nat :=
  (state.1 + 1, c.offset + state.2.offset)

/-- What the search comes to from a state on. -/
def closedFrom (c : Cut text) (qualified : List Char) (state : Nat × Cut c.after) :
    Option (List Char) :=
  (closeLength? qualified state.1 state.2.before.length state.2.after).map c.after.take

/-- A tag closes the element, or changes the depth. -/
theorem tagTurn_eq (text : List Char) (start : Nat) (qualified tag : List Char) (depth stop : Nat) :
    tagTurn text start qualified tag (depth + 1) stop =
      match depthAfter qualified depth tag with
      | none => (slice text start (stop + 1)).map fun cs => .stop (some cs)
      | some depth => .ok (.again (depth + 1, stop + 1)) := by
  unfold tagTurn depthAfter
  split
  · split
    · cases depth with
      | zero => cases slice text start (stop + 1) <;> rfl
      | succ depth => rfl
    · rfl
  · split <;> rfl

theorem size_through (xs : List Char) : size (xs ++ ['>']) = size xs + 1 := size_append xs ['>']

/-- A tag without its marks. -/
theorem Cut.slice_inside (c : Cut text) {xs inside content : List Char}
    (h : c.after = xs ++ ('<' :: inside ++ '>' :: content)) :
    slice text (c.offset + size xs + 1) (c.offset + size xs + size ('<' :: inside)) =
      .ok inside := by
  have hlt : size ['<'] = 1 := rfl
  have hstart : c.offset + size (xs ++ ['<']) = c.offset + size xs + 1 := by
    rw [size_append, hlt, Nat.add_assoc]
  have hstop : c.offset + size (xs ++ ['<']) + size inside =
      c.offset + size xs + size ('<' :: inside) := by
    rw [hstart, ← List.singleton_append, size_append, hlt, Nat.add_assoc _ 1]
  rw [← hstop, ← hstart]
  exact c.slice_behind _ _ ('>' :: content) (h.trans (by simp))

/-- All of a text through the end of a tag. -/
theorem Cut.slice_through (c : Cut text) {xs content : List Char}
    (h : c.after = xs ++ '>' :: content) :
    slice text c.offset (c.offset + size xs + 1) = .ok (xs ++ ['>']) := by
  have hslice := c.slice_behind [] (xs ++ ['>']) content (h.trans (by simp))
  rwa [size_nil, Nat.add_zero, size_through, ← Nat.add_assoc] at hslice

/-- The search ends at the tag that closes the element, and goes on behind any other. -/
theorem tagTurn_advances (c : Cut text) (qualified : List Char) (depth : Nat) (d : Cut c.after)
    {gap inside content : List Char} (hgap : '<' ∉ gap) (hpasses : Passes inside)
    (h : d.after = gap ++ ('<' :: inside ++ '>' :: content)) :
    Advances (openAt c) (closedFrom c qualified) (·.2.left) (depth, d)
      (tagTurn text c.offset qualified inside (depth + 1)
        (c.offset + size (d.before ++ gap ++ '<' :: inside))) := by
  have hthrough : c.after = (d.before ++ gap ++ '<' :: inside) ++ '>' :: content :=
    d.join.symm.trans (by rw [h]; simp)
  have hclose : closeLength? qualified depth d.before.length d.after =
      match depthAfter qualified depth inside with
      | none => some (d.before.length + gap.length + inside.length + 2)
      | some depth => closeLength? qualified depth
          (d.before.length + gap.length + inside.length + 2) content := by
    rw [h]
    exact closeLength?_next hgap hpasses content
  rw [tagTurn_eq]
  cases hdepth : depthAfter qualified depth inside with
  | none =>
    left
    rw [hdepth] at hclose
    have hlength : d.before.length + gap.length + inside.length + 2 =
        ((d.before ++ gap ++ '<' :: inside) ++ ['>']).length := by
      simp only [List.length_append, List.length_cons, List.length_nil]
      omega
    have htake : c.after.take ((d.before ++ gap ++ '<' :: inside) ++ ['>']).length =
        (d.before ++ gap ++ '<' :: inside) ++ ['>'] :=
      (congrArg (List.take _) (hthrough.trans (List.append_cons _ _ _))).trans List.take_left
    rw [c.slice_through hthrough, closedFrom, hclose]
    dsimp only
    rw [hlength, Option.map_some, htake]
    rfl
  | some depth' =>
    rw [hdepth] at hclose
    have hmarks : d.after = (gap ++ '<' :: inside ++ ['>']) ++ content := h.trans (by simp)
    have hlength : d.before.length + gap.length + inside.length + 2 =
        (d.behind _ content hmarks).before.length := by
      simp only [Cut.behind, List.length_append, List.length_cons, List.length_nil]
      omega
    have hpos : c.offset + size (d.before ++ gap ++ '<' :: inside) + 1 =
        c.offset + (d.behind _ content hmarks).offset := by
      rw [Cut.offset_behind, size_through, Cut.offset, Cut.offset]
      simp only [size_append, Nat.add_assoc]
    refine .inr ⟨(depth', d.behind _ content hmarks), ?_, ?_, d.left_behind hmarks (by simp)⟩
    · exact congrArg (fun pos => Except.ok (Turn.again (depth' + 1, pos))) hpos
    · rw [closedFrom, closedFrom, hclose]
      dsimp only
      rw [hlength]
      rfl

theorem closeTurn_advances (c : Cut text) (qualified : List Char) (state : Nat × Cut c.after) :
    Advances (openAt c) (closedFrom c qualified) (·.2.left) state
      (closeTurn text c.offset qualified (openAt c state)) := by
  obtain ⟨depth, d⟩ := state
  have hslice : sliceFrom text (c.offset + d.offset) = .ok d.after :=
    c.sliceFrom_behind d.join.symm
  simp only [closeTurn, openAt, bind, Except.bind, hslice]
  rcases offsetOf?_lt d.after with ⟨hnone, hoffset⟩ | ⟨gap, rest, hafter, hgap, hoffset⟩
  · left
    simp only [closedFrom, closeLength?_nil (toMarkup_of_notMem hnone), hoffset]
    rfl
  · have hbehind : c.after = (d.before ++ gap) ++ '<' :: rest :=
      d.join.symm.trans (by rw [hafter, List.append_assoc])
    have hplace : c.offset + d.offset + size gap = c.offset + size (d.before ++ gap) := by
      rw [size_append, Nat.add_assoc]
      rfl
    simp only [hoffset]
    rw [hplace, c.tagEnd?_behind hbehind]
    cases htag : splitTag? ('<' :: rest) with
    | none =>
      left
      rw [closedFrom, hafter, closeLength?_unclosed hgap htag]
      rfl
    | some parts =>
      obtain ⟨inside, hinside, rfl, hpasses⟩ := splitTag?_lt htag
      simp only [Option.map_some, hinside]
      rw [c.slice_inside hbehind, Nat.add_assoc c.offset, ← size_append]
      exact tagTurn_advances c qualified depth d hgap hpasses hafter

/-- **The text of the element at a place** is cut out. -/
theorem elementAt_eq (qualified : List Char) (c : Cut text) {turns : Nat} (h : c.left < turns) :
    elementAt turns text c.offset qualified = .ok (Element.mk qualified c.after).text? := by
  rw [elementAt, c.tagEnd?_offset, Element.text?]
  cases htag : splitTag? c.after with
  | none => rfl
  | some parts =>
    obtain ⟨tag, content⟩ := parts
    obtain ⟨hafter, -⟩ := splitTag?_eq_some.mp htag
    have hslice : slice text c.offset (c.offset + size tag) = .ok tag :=
      c.slice_behind [] _ _ hafter
    simp only [bind, Except.bind, Option.map_some, Option.bind_some, hslice]
    by_cases hclosing : isSelfClosing tag
    · rw [if_pos hclosing, if_pos hclosing, c.slice_through hafter]
      rfl
    · rw [if_neg hclosing, if_neg hclosing]
      -- the search begins behind the tag, where one element is open
      let first : Nat × Cut c.after :=
        (0, ⟨tag ++ ['>'], content, ((List.append_cons tag '>' content).symm.trans hafter.symm)⟩)
      have hfirst : openAt c first = (1, c.offset + size tag + 1) := by
        show (1, c.offset + size (tag ++ ['>'])) = _
        rw [size_through, Nat.add_assoc]
      have hleft : first.2.left < turns := by
        have hcontent : content.length ≤ c.after.length := by
          rw [hafter, List.length_append, List.length_cons]
          omega
        exact Nat.lt_of_le_of_lt hcontent h
      have hlength : first.2.before.length = tag.length + 1 := List.length_append
      rw [← hfirst, loop_eq (closeTurn_advances c qualified) hleft, closedFrom, hlength]

/-! ## The assertion -/

/-- An element of a document stands at a place in it. -/
theorem exists_cut {e : Element} (h : e.In text) :
    ∃ c : Cut text, c.after = e.markup ∧ c.offset = position text e := by
  obtain ⟨before, rfl⟩ := h.markup
  refine ⟨⟨before, e.markup, rfl⟩, rfl, ?_⟩
  show size before = size (before ++ e.markup) - size e.markup
  rw [size_append]
  omega

/-- **The assertion of any text**: no slice fails, and every loop ends within one turn more than the
    text has characters. -/
theorem assertion_eq (text : List Char) {turns : Nat} (h : text.length < turns) :
    assertion turns text = .ok (assertion? text) := by
  -- the text of an element that was found
  have helement {e : Element} (hin : e.In text) :
      elementAt turns text (position text e) e.qualified = .ok e.text? := by
    obtain ⟨c, hafter, hoffset⟩ := exists_cut hin
    rw [← hoffset, elementAt_eq _ c (Nat.lt_of_le_of_lt c.left_le h), hafter]
  rw [assertion, rootElement_eq text h, assertion?]
  cases hroot : root? text with
  | none => rfl
  | some root =>
    obtain ⟨hin, ⟨tag, content⟩, htag⟩ := root?_in hroot
    simp only [bind, Except.bind, Option.map_some, Option.bind_some, Root.ofElement]
    by_cases hassertion : root.name = "Assertion"
    · rw [if_pos hassertion, if_pos hassertion]
      exact helement hin
    · rw [if_neg hassertion, if_neg hassertion]
      by_cases hresponse : root.name = "Response"
      · rw [if_pos hresponse, if_pos hresponse]
        obtain ⟨c, hafter, hoffset⟩ := exists_cut hin
        have hmarkup : c.after = (tag ++ ['>']) ++ content := by
          rw [hafter, (splitTag?_eq_some.mp htag).1, List.append_cons]
        have hplace : position text root + (size tag + 1) =
            (c.behind _ content hmarkup).offset := by
          rw [Cut.offset_behind, size_through, hoffset]
        have hsearch := findElement_eq "Assertion" (c.behind _ content hmarkup)
          (Nat.lt_of_le_of_lt (Cut.left_le _) h)
        have hfound : foundFrom "Assertion" (c.behind _ content hmarkup) =
            (find? "Assertion" content).map fun e => (position text e, e.qualified) := rfl
        rw [htag, Option.elim_some, hplace, hsearch, Option.bind_some, hfound]
        dsimp only
        cases hfind : find? "Assertion" content with
        | none => rfl
        | some e =>
          have hcontent : content <:+ text := ⟨_, (c.behind _ content hmarkup).join⟩
          exact helement ((find?_in hfind).1.mono hcontent)
      · rw [if_neg hresponse, if_neg hresponse]
        rfl

end Saml.Offsets
end AccessGateway
