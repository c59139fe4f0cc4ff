import AccessGateway.Proofs.Federation.Extraction

/-!
# Comments in a response

A comment is to be no part of what a document says.  The scanner skips comments before the root, but
inside a response it takes them for tags.  A comment behind the assertion does no harm.  One before
it does no harm if nothing in it reads as the start of an assertion; otherwise what is cut out, if
anything, starts inside a comment, which whoever writes it can use to put his own assertion in the
place of the right one.  One inside the assertion does no harm if it holds neither markup nor
quotation marks.

## Results

* `Element.text?_prefix` — what is cut out starts where the element was found.
* `selected_among_comments` — which assertion is selected from a response with comments.
* `comment_taken_for_markup` — comments that put another assertion in its place, or hide it.
-/

set_option autoImplicit false

namespace AccessGateway

open Xml

namespace Xml

theorem Content.names_bare (content : Content) : content.bare.names = content.names := by
  induction content with
  | nil => rfl
  | data d rest ih => exact ih
  | comment k rest ih => exact ih
  | alone tag gap rest ih => simp only [bare, names, ih]
  | element tag inner gap rest ihInner ihRest => simp only [bare, names, ihInner, ihRest]

theorem Content.comments_bare (content : Content) : content.bare.comments = [] := by
  induction content with
  | nil => rfl
  | data d rest ih => exact ih
  | comment k rest ih => exact ih
  | alone tag gap rest ih => exact ih
  | element tag inner gap rest ihInner ihRest => simp only [bare, comments, ihInner, ihRest,
      List.append_nil]

@[simp] theorem Element.tag_bare (e : Element) : e.bare.tag = e.tag := by
  cases e <;> rfl

@[simp] theorem Element.inner_bare (e : Element) : e.bare.inner = e.inner.bare := by
  cases e <;> rfl

end Xml

namespace Saml

/-- What is cut out starts where the element was found. -/
theorem Element.text?_prefix {e : Element} {text : List Char} (h : e.text? = some text) :
    text <+: e.markup := by
  rw [Element.text?] at h
  simp only [Option.bind_eq_bind, Option.bind_eq_some_iff] at h
  obtain ⟨⟨tag, content⟩, htag, h⟩ := h
  dsimp only at h
  split at h
  · cases h
    obtain ⟨hmarkup, -⟩ := splitTag?_eq_some.mp htag
    exact ⟨content, by rw [hmarkup, List.append_assoc, List.singleton_append]⟩
  · obtain ⟨n, -, rfl⟩ := Option.map_eq_some_iff.mp h
    exact List.take_prefix n _

/-- **Which assertion is selected from a response with comments**, the names of whose elements the
    scanner sees as they are.  Without its comments, what is extracted is the text of the first
    assertion.

    * If nothing in a comment before this assertion reads as the start of one, and the comments in
      it are without markup and quotation marks, then with the comments the same element is
      selected, and extracted with the comments that are in it.  Comments behind it play no part.
    * If something does, then whatever is extracted starts inside a comment before it. -/
theorem selected_among_comments (d : Xml.Document) (posted : String)
    (hr : d.root.tag.name.Is "Response") (hn : ∀ q ∈ d.root.names, q.Solid)
    (h : Carries posted d) :
    let first? := d.root.inner.first? "Assertion"
    let before := d.root.inner.before "Assertion"
    (∀ plain, Carries plain d.bare →
      extract? plain = first?.map fun e => base64 e.bare.text) ∧
    ((∀ k ∈ before, ¬Baits "Assertion" k) →
      (∀ e, first? = some e → ∀ k ∈ e.inner.comments, Quiet k) →
      extract? posted = first?.map fun e => base64 e.text) ∧
    ((∃ k ∈ before, Baits "Assertion" k) →
      ∀ assertion, extract? posted = some assertion →
        ∃ k ∈ before, ∃ pre cs post text, d.text = pre ++ (k.text ++ post) ∧
          '<' :: cs <:+ k.body ∧ text <+: '<' :: cs ++ ("-->".toList ++ post) ∧
          assertion = base64 text) := by
  intro first? before
  refine ⟨fun plain hplain => ?_, fun hk hquiet => ?_, fun hk assertion hextract => ?_⟩
  · have hcomments : d.bare.root.inner.comments = [] := by
      simp [Xml.Document.bare, Content.comments_bare]
    have hroot : d.bare.root.tag = d.root.tag := d.root.tag_bare
    have hnames : ∀ q ∈ d.bare.root.names, q.Solid := by
      intro q hq
      refine hn q ?_
      simpa [Xml.Document.bare, Xml.Element.names, Content.names_bare] using hq
    have hfirst : d.bare.root.inner.first? "Assertion" = first?.map Xml.Element.bare := by
      simp [Xml.Document.bare, Content.first?_bare, first?]
    rw [extract?_of_carries hplain, assertion?_of_unbaited (hroot ▸ hr) hnames, hfirst,
      Option.map_map, Option.map_map]
    · rfl
    · intro k hmem
      have hnone := Content.mem_comments_of_before _ _ k hmem
      simp [hcomments] at hnone
    · intro e he k hmem
      have hnone := Content.mem_comments_of_first? he k hmem
      simp [hcomments] at hnone
  · rw [extract?_of_carries h, assertion?_of_unbaited hr hn hk hquiet, Option.map_map]
    rfl
  · have hinner : ∀ q ∈ d.root.inner.names, q.Solid := fun q hq => hn q (List.mem_cons_of_mem _ hq)
    obtain ⟨pre, rest, htext, -, hassertion⟩ := assertion?_response hr hn
    obtain ⟨k, hmem, pre', cs, q, post, hcs, hcontent, hfound⟩ :=
      find?_content_baited hinner hk rest
    rw [extract?_of_carries h, hassertion, hfound, Option.bind_some] at hextract
    obtain ⟨text, hcut, rfl⟩ := Option.map_eq_some_iff.mp hextract
    refine ⟨k, hmem, pre ++ pre', cs, post ++ rest, text, ?_, hcs, Element.text?_prefix hcut, rfl⟩
    rw [htext, hcontent]
    simp only [List.append_assoc]

/-- A response with a comment before the assertion, one in it, and one behind it that holds an
    assertion. -/
def remarkedResponse : Xml.Document where
  root := .element { name := responseName }
    (.comment { body := "a > b".toList }
      (.element { name := assertionName } (.comment { body := "c".toList } .nil) .none
        (.comment { body := "<Assertion/>".toList } .nil))) .none

/-- The assertion is selected, with the comment in it. -/
theorem selected_among_comments_remarked :
    remarkedResponse.root.tag.name.Is "Response" ∧
    (∀ q ∈ remarkedResponse.root.names, q.Solid) ∧
    Carries (base64 remarkedResponse.text) remarkedResponse ∧
    extract? (base64 remarkedResponse.text) =
      some (base64 "<Assertion><!--c--></Assertion>".toList) := by
  have hresponse : remarkedResponse.root.tag.name.Is "Response" := rfl
  have hsolid : ∀ q ∈ remarkedResponse.root.names, q.Solid := by
    unfold QName.Solid
    decide
  have hcarries := carries_base64 remarkedResponse
  have hbefore : ∀ k ∈ remarkedResponse.root.inner.before "Assertion", ¬Baits "Assertion" k := by
    refine fun k hk => not_baits_of_quiet ?_
    cases List.mem_singleton.mp hk
    unfold Quiet
    decide
  have hquiet : ∀ e, remarkedResponse.root.inner.first? "Assertion" = some e →
      ∀ k ∈ e.inner.comments, Quiet k := by
    intro e he k hk
    cases he
    cases List.mem_singleton.mp hk
    unfold Quiet
    decide
  refine ⟨hresponse, hsolid, hcarries, ?_⟩
  rw [(selected_among_comments remarkedResponse _ hresponse hsolid hcarries).2.1 hbefore hquiet]
  rfl

/-- A response with an assertion in a comment before its own one. -/
def baitedResponse : Xml.Document where
  root := .element { name := responseName }
    (.comment { body := "<Assertion ID='forged'/>".toList }
      (.alone { name := assertionName } .none .nil)) .none

/-- A response with an odd quotation mark in a comment of its assertion. -/
def quotedResponse : Xml.Document where
  root := .element { name := responseName }
    (.element { name := assertionName } (.comment { body := "don't".toList } .nil) .none .nil)
    .none

/-- **A comment is taken for markup**: an assertion in it is selected in the place of the one behind
    it, and a quotation mark in it hides the assertion around it.  Without the comments both
    assertions are extracted. -/
theorem comment_taken_for_markup :
    extract? (base64 baitedResponse.text) = some (base64 "<Assertion ID='forged'/>".toList) ∧
    extract? (base64 baitedResponse.bare.text) = some (base64 "<Assertion/>".toList) ∧
    extract? (base64 quotedResponse.text) = none ∧
    extract? (base64 quotedResponse.bare.text) =
      some (base64 "<Assertion></Assertion>".toList) := by
  have hbaited : assertion? baitedResponse.text = some "<Assertion ID='forged'/>".toList := by
    decide +kernel
  have hunbaited : assertion? baitedResponse.bare.text = some "<Assertion/>".toList := by
    decide +kernel
  have hquoted : assertion? quotedResponse.text = none := by
    decide +kernel
  have hunquoted :
      assertion? quotedResponse.bare.text = some "<Assertion></Assertion>".toList := by
    decide +kernel
  simp only [extract?_of_carries (carries_base64 _), hbaited, hunbaited, hquoted, hunquoted,
    Option.map_some, Option.map_none, and_self]

end Saml
end AccessGateway
