import AccessGateway.Proofs.Encoding.FormText
import AccessGateway.Proofs.Federation.ElementSearch
import AccessGateway.Proofs.Federation.Envelope

/-!
# What is extracted from a document

An envelope is opened by scanning its text, and its text is that of a tree.  So there are two
readings of what it says: the tree's, by which the assertion is the root or the first element of
this name in a response, and the scanner's.  They agree for every document without comments, if no
name holds the one character that names may hold and the scanner takes for white space.

## Results

* `document?_of_carries` — the document behind a posted text.
* `isToken_of_carries` — which documents are recognised.
* `assertion?_root`, `assertion?_response`, `assertion?_other` — what is cut out of a document, by
  its root.
* `extraction_exact` — the two readings agree; `name_cut_at_ogham_space` — and where they do not.
-/

set_option autoImplicit false

namespace AccessGateway

open Xml

namespace Saml

/-- A posted text carries a document: the base64 form of its bytes, with ASCII white space put in
    anywhere. -/
def Carries (posted : String) (d : Xml.Document) : Prop :=
  posted.toList.filter (fun c => !Text.isAsciiBlank c) =
    Base64.encode Base64.standard (Utf8.encode d.text)

/-- The base64 form of a text. -/
def base64 (text : List Char) : String :=
  String.ofList (Base64.encode Base64.standard (Utf8.encode text))

variable {posted : String} {d : Xml.Document}

theorem document?_of_carries (h : Carries posted d) : document? posted = some d.text := by
  rw [document?, h, Base64.decode?_encode, Option.bind_some, Utf8.decode?_encode]

/-- A base64 form is without white space. -/
theorem isAsciiBlank_base64 (text : List Char) :
    ∀ c ∈ (base64 text).toList, Text.isAsciiBlank c = false := by
  have hsolid : ∀ c, Text.isAsciiBlank c = true → Base64.isSolid c = false := by
    intro c hc
    simp only [Text.isAsciiBlank, Bool.or_eq_true, beq_iff_eq] at hc
    rcases hc with (((rfl | rfl) | rfl) | rfl) | rfl <;> decide
  unfold base64
  rw [String.toList_ofList]
  intro c hc
  have hencoded := Base64.isSolid_encode _ c hc
  cases hblank : Text.isAsciiBlank c with
  | false => rfl
  | true =>
    rw [hsolid c hblank] at hencoded
    cases hencoded

theorem filter_base64 (text : List Char) :
    (base64 text).toList.filter (fun c => !Text.isAsciiBlank c) =
      Base64.encode Base64.standard (Utf8.encode text) := by
  have hall : (base64 text).toList.filter (fun c => !Text.isAsciiBlank c) = (base64 text).toList :=
    List.filter_eq_self.mpr fun c hc => by rw [isAsciiBlank_base64 text c hc, Bool.not_false]
  rw [hall, base64, String.toList_ofList]

/-- Every document is carried by its base64 form. -/
theorem carries_base64 (d : Xml.Document) : Carries (base64 d.text) d := filter_base64 d.text

theorem extract?_of_carries (h : Carries posted d) :
    extract? posted = (assertion? d.text).map base64 := by
  rw [extract?, document?_of_carries h, Option.bind_some]
  rfl

/-- A document is recognised by what the scanner sees of the name of its root. -/
theorem isToken_of_carries (h : Carries posted d) :
    isToken posted = true ↔ localName d.root.tag.name.seen = "Response".toList ∨
      localName d.root.tag.name.seen = "Assertion".toList := by
  have hof (cs : List Char) (s : String) : String.ofList cs = s ↔ cs = s.toList := by
    constructor
    · rintro rfl
      rw [String.toList_ofList]
    · rintro rfl
      rw [String.ofList_toList]
  rw [isToken, document?_of_carries h, Option.bind_some, root?_text]
  by_cases hseen : d.root.tag.name.seen = []
  · rw [if_pos hseen, hseen]
    simp [localName, Text.cutLast?, Text.cut?]
  · rw [if_neg hseen]
    simp [Element.name, hof]

/-! ## By the root -/

theorem root?_of_solid (h : d.root.tag.name.Solid) :
    root? d.text = some ⟨d.root.tag.name.text, d.root.text ++ d.behind.text⟩ := by
  obtain ⟨c, cs, htext, -⟩ := d.root.tag.name.text_eq_cons
  rw [root?_text, h.seen, if_neg (htext ▸ List.cons_ne_nil c cs)]

/-- A root that is an assertion is cut out as it is. -/
theorem assertion?_root (h : d.root.tag.name.Is "Assertion") (hn : ∀ q ∈ d.root.names, q.Solid)
    (hk : ∀ k ∈ d.root.inner.comments, Quiet k) : assertion? d.text = some d.root.text := by
  have hname := (ofList_localName _ _).mpr h
  rw [assertion?, root?_of_solid (hn _ List.mem_cons_self)]
  simp only [Option.bind_eq_bind, Option.bind_some, Element.name, hname, if_true]
  exact text?_text hn hk _

/-- In a response the search runs through the content of the root, and ends there. -/
theorem assertion?_response (h : d.root.tag.name.Is "Response")
    (hn : ∀ q ∈ d.root.names, q.Solid) :
    ∃ pre rest, d.text = pre ++ (d.root.inner.text ++ rest) ∧ find? "Assertion" rest = none ∧
      assertion? d.text =
        (find? "Assertion" (d.root.inner.text ++ rest)).bind Element.text? := by
  obtain ⟨more, rest, htext, hpasses, -, hrest⟩ := text_eq_tag d.root d.behind.text
  have hname := (ofList_localName _ _).mpr h
  have htag := splitTag?_of_passes ((passes_tag d.root.tag).append hpasses)
    (d.root.inner.text ++ rest)
  rw [List.append_assoc, ← htext] at htag
  refine ⟨d.prolog.flatMap (fun p => p.1.text ++ p.2.text) ++ (d.gap.text ++ (d.root.tag.text ++
    (more ++ ['>']))), rest, ?_, ?_, ?_⟩
  · rw [Xml.Document.text, htext]
    simp
  · rw [hrest, ← List.append_nil d.behind.text, find?_append (lt_notMem_spaces _)]
    rfl
  · rw [assertion?, root?_of_solid (hn _ List.mem_cons_self)]
    simp only [Option.bind_eq_bind, Option.bind_some, Element.name, hname, if_true, htag]
    rw [if_neg (by decide)]

/-- **The first assertion of a response is cut out**, if no comment before it seems to hold one, and
    the comments in it are quiet. -/
theorem assertion?_of_unbaited (h : d.root.tag.name.Is "Response")
    (hn : ∀ q ∈ d.root.names, q.Solid)
    (hk : ∀ k ∈ d.root.inner.before "Assertion", ¬Baits "Assertion" k)
    (hquiet : ∀ e, d.root.inner.first? "Assertion" = some e → ∀ k ∈ e.inner.comments, Quiet k) :
    assertion? d.text = (d.root.inner.first? "Assertion").map Xml.Element.text := by
  have hinner : ∀ q ∈ d.root.inner.names, q.Solid := fun q hq => hn q (List.mem_cons_of_mem _ hq)
  obtain ⟨pre, rest, -, hrest, hassertion⟩ := assertion?_response h hn
  have hfound := find?_content hinner hk rest
  rw [hassertion]
  cases hfirst : d.root.inner.first? "Assertion" with
  | none =>
    rw [hfirst] at hfound
    rw [hfound, hrest]
    rfl
  | some e =>
    rw [hfirst] at hfound
    obtain ⟨tail, hfound⟩ := hfound
    rw [hfound, Option.bind_some, Option.map_some]
    exact text?_text (fun q hq => hinner q (Content.mem_names_of_first? hfirst q hq))
      (hquiet e hfirst) tail

/-- Of any other root nothing is cut out. -/
theorem assertion?_other (hn : d.root.tag.name.Solid) (ha : ¬d.root.tag.name.Is "Assertion")
    (hr : ¬d.root.tag.name.Is "Response") : assertion? d.text = none := by
  have hnotAssertion := mt (ofList_localName _ _).mp ha
  have hnotResponse := mt (ofList_localName _ _).mp hr
  rw [assertion?, root?_of_solid hn]
  simp only [Option.bind_eq_bind, Option.bind_some, Element.name, hnotAssertion, hnotResponse,
    if_false]

/-- **The scanner reads the tree**: for every document without comments and every text that carries
    it.

    * It is recognised exactly if what the scanner sees of the root's name has the local name of a
      response or an assertion.
    * If the scanner sees all names as they are, this is the local name of the root, and what is
      extracted is the text of the assertion: the root itself, or the first element of this name
      in a response, in document order, with all that is in it; and nothing if there is none. -/
theorem extraction_exact (d : Xml.Document) (posted : String) (hd : d.root.inner.comments = [])
    (h : Carries posted d) :
    (isToken posted = true ↔ localName d.root.tag.name.seen = "Response".toList ∨
      localName d.root.tag.name.seen = "Assertion".toList) ∧
    ((∀ q ∈ d.root.names, q.Solid) →
      (isToken posted = true ↔
        d.root.tag.name.Is "Response" ∨ d.root.tag.name.Is "Assertion") ∧
      extract? posted = d.assertion?.map fun e => base64 e.text) := by
  have hquiet : ∀ k ∈ d.root.inner.comments, Quiet k := by simp [hd]
  have hbefore : ∀ k ∈ d.root.inner.before "Assertion", ¬Baits "Assertion" k := by
    intro k hk
    have hmem := Content.mem_comments_of_before _ _ k hk
    simp [hd] at hmem
  refine ⟨isToken_of_carries h, fun hn => ⟨?_, ?_⟩⟩
  · have hroot : d.root.tag.name.Solid := hn _ List.mem_cons_self
    rw [isToken_of_carries h, hroot.seen, localName_text]
    rfl
  · rw [extract?_of_carries h, Xml.Document.assertion?]
    split
    · rename_i ha
      rw [assertion?_root ha hn hquiet]
      rfl
    · rename_i ha
      split
      · rename_i hr
        rw [assertion?_of_unbaited hr hn hbefore fun e he k hk =>
          hquiet k (Content.mem_comments_of_first? he k hk), Option.map_map]
        rfl
      · rename_i hr
        rw [assertion?_other (hn _ List.mem_cons_self) ha hr]
        rfl

/-! ## A document, and one that is misread -/

/-- The names of the two elements that count. -/
def responseName : QName := { localName := { first := 'R', rest := "esponse".toList } }

@[inherit_doc responseName]
def assertionName : QName := { localName := { first := 'A', rest := "ssertion".toList } }

/-- A response with a `>` in a value, and with an assertion in another one, whose closing tag has a
    space. -/
def nestedResponse : Xml.Document where
  prolog := [(.none,
    { target := { localName := { first := 'x', rest := "ml".toList } }
      body := " version='1.0'".toList })]
  root := .element
    { name := responseName
      attributes := [
        { gap := { text := [' '] }
          name := { localName := { first := 'T', rest := ['o'] } }
          quote := .double
          value := "a>b".toList }] }
    (.element { name := assertionName }
      (.alone { name := assertionName } .none (.data { text := "'>".toList } .nil))
      { text := [' '] } .nil)
    .none

/-- The assertion of the nested response, with the one in it. -/
theorem extraction_exact_nested :
    nestedResponse.root.inner.comments = [] ∧
    Carries (base64 nestedResponse.text) nestedResponse ∧
    (∀ q ∈ nestedResponse.root.names, q.Solid) ∧
    extract? (base64 nestedResponse.text) =
      some (base64 "<Assertion><Assertion/>'></Assertion >".toList) := by
  have hsolid : ∀ q ∈ nestedResponse.root.names, q.Solid := by
    unfold QName.Solid
    decide
  have hcarries := carries_base64 nestedResponse
  refine ⟨rfl, hcarries, hsolid, ?_⟩
  rw [((extraction_exact nestedResponse _ rfl hcarries).2 hsolid).2]
  rfl

/-- A response with an assertion behind an element that has an Ogham space mark in its name. -/
def markedResponse : Xml.Document where
  root := .element { name := responseName }
    (.alone { name := { localName := { first := 'A', rest := "ssertion\u1680x".toList } } } .none
      (.alone { name := assertionName } .none .nil)) .none

/-- **A name is cut at an Ogham space mark**, so that the element before the assertion is taken for
    it. -/
theorem name_cut_at_ogham_space :
    markedResponse.root.inner.comments = [] ∧
    Carries (base64 markedResponse.text) markedResponse ∧
    extract? (base64 markedResponse.text) = some (base64 "<Assertion\u1680x/>".toList) ∧
    (markedResponse.assertion?.map fun e => base64 e.text) =
      some (base64 "<Assertion/>".toList) := by
  have hcarries := carries_base64 markedResponse
  have hcut : assertion? markedResponse.text = some "<Assertion\u1680x/>".toList := by
    decide +kernel
  refine ⟨rfl, hcarries, ?_, rfl⟩
  rw [extract?_of_carries hcarries, hcut]
  rfl

end Saml
end AccessGateway
