import AccessGateway.Proofs.Federation.Extraction
import AccessGateway.Proofs.Federation.OffsetScans

/-!
# Extraction is stable

What is extracted from a posted text is a posted text itself: the base64 form of a piece of the
document, from the `<` of a tag to the `>` of one.  Extracting again gives the same.  This is so for
all texts, however little they look like a document, and the scans never break off.

## Results

* `Base64.four_dvd_length_encode` — the padding is complete.
* `extract?_base64` — what is extracted from the base64 form of a text.
* `extraction_stable` — extraction from any posted text, and the scans of any text.
-/

set_option autoImplicit false

namespace AccessGateway

/-- The base64 form of a sequence of bytes is padded to groups of four characters. -/
theorem Base64.four_dvd_length_encode (bs : Bytes) : 4 ∣ (encode standard bs).length := by
  fun_induction encode standard bs with
  | case1 => decide
  | case2 a => exact ⟨1, rfl⟩
  | case3 a b => exact ⟨1, rfl⟩
  | case4 a b c rest ih =>
    simp only [List.length_cons]
    omega

namespace Saml

theorem document?_base64 (text : List Char) : document? (base64 text) = some text := by
  rw [document?, filter_base64, Base64.decode?_encode, Option.bind_some, Utf8.decode?_encode]

theorem extract?_base64 (text : List Char) :
    extract? (base64 text) = (assertion? text).map base64 := by
  rw [extract?, document?_base64, Option.bind_some]
  rfl

theorem four_dvd_length_base64 (text : List Char) : 4 ∣ (base64 text).length := by
  rw [base64, String.length_ofList]
  exact Base64.four_dvd_length_encode _

/-- A text is recognised by the name of its root. -/
theorem isToken_of_root {posted : String} {text : List Char} {root : Element}
    (hdocument : document? posted = some text) (hroot : root? text = some root)
    (hname : root.name = "Response" ∨ root.name = "Assertion") : isToken posted = true := by
  rw [isToken, hdocument, Option.bind_some, hroot]
  rcases hname with hname | hname
  · simp [hname]
  · simp [hname]

/-- **Extraction is stable**, for every posted text, and no scan breaks off, on any text.

    * If an assertion is extracted, the posted text is recognised.  The assertion is the base64 form
      of a piece of the document that starts with `<` and ends with `>`; it is padded, and without
      white space.  From the assertion the assertion is extracted again.
    * Written with byte offsets, the scans come to what they come to on characters: the root of any
      text, an element of any name and the text of an element from any place in it, and the
      assertion.  No slice fails, and each loop ends within one turn more than the text has
      characters. -/
theorem extraction_stable (posted : String) :
    (∀ assertion, extract? posted = some assertion →
      isToken posted = true ∧
      (∃ document text, document? posted = some document ∧ text <:+: document ∧
        text.head? = some '<' ∧ text.getLast? = some '>' ∧ assertion = base64 text) ∧
      4 ∣ assertion.length ∧ (∀ c ∈ assertion.toList, Text.isAsciiBlank c = false) ∧
      extract? assertion = some assertion) ∧
    ∀ (text : List Char) (turns : Nat), text.length < turns →
      Offsets.rootElement turns text = .ok ((root? text).map (Offsets.Root.ofElement text)) ∧
      (∀ (place : Offsets.Cut text) (name : String),
        Offsets.findElement turns text place.offset name =
          .ok ((find? name place.after).map fun e => (Offsets.position text e, e.qualified))) ∧
      (∀ (place : Offsets.Cut text) (qualified : List Char),
        Offsets.elementAt turns text place.offset qualified =
          .ok (Element.mk qualified place.after).text?) ∧
      Offsets.assertion turns text = .ok (assertion? text) := by
  refine ⟨fun assertion h => ?_, fun text turns hturns => ?_⟩
  · obtain ⟨text, htext, rfl⟩ := Option.map_eq_some_iff.mp h
    obtain ⟨document, hdocument, htext⟩ := Option.bind_eq_some_iff.mp htext
    obtain ⟨root, body, hroot, hname, hbody, hinfix, hagain⟩ := assertion?_cut htext
    refine ⟨isToken_of_root hdocument hroot hname, ⟨document, text, hdocument, hinfix, ?_, ?_, rfl⟩,
      four_dvd_length_base64 text, isAsciiBlank_base64 text, ?_⟩
    · rw [hbody]
      rfl
    · rw [hbody, List.getLast?_concat]
    · have hextract := extract?_base64 text
      rwa [hagain, Option.map_some] at hextract
  · have hleft (place : Offsets.Cut text) : place.left < turns :=
      Nat.lt_of_le_of_lt place.left_le hturns
    exact ⟨Offsets.rootElement_eq text hturns,
      fun place name => Offsets.findElement_eq name place (hleft place),
      fun place qualified => Offsets.elementAt_eq qualified place (hleft place),
      Offsets.assertion_eq text hturns⟩

/-- A response that is cut off behind its assertion, with characters of several bytes in it. -/
def brokenResponse : List Char :=
  "ü<?x?><r:Response><b/>€<Assertion q='>'><Assertion>é</Assertion ></r>ü</Assertion> <c".toList

/-- Its assertion is extracted, and again from what was extracted. -/
theorem extraction_stable_broken :
    extract? (base64 brokenResponse) =
      some (base64 "<Assertion q='>'><Assertion>é</Assertion ></r>ü</Assertion>".toList) ∧
    isToken (base64 brokenResponse) = true ∧
    extract? (base64 "<Assertion q='>'><Assertion>é</Assertion ></r>ü</Assertion>".toList) =
      some (base64 "<Assertion q='>'><Assertion>é</Assertion ></r>ü</Assertion>".toList) ∧
    Offsets.assertion 100 brokenResponse =
      .ok (some "<Assertion q='>'><Assertion>é</Assertion ></r>ü</Assertion>".toList) := by
  have hcut : assertion? brokenResponse =
      some "<Assertion q='>'><Assertion>é</Assertion ></r>ü</Assertion>".toList := by
    decide +kernel
  have hextract : extract? (base64 brokenResponse) =
      some (base64 "<Assertion q='>'><Assertion>é</Assertion ></r>ü</Assertion>".toList) := by
    rw [extract?_base64, hcut]
    rfl
  have hturns : brokenResponse.length < 100 := by decide +kernel
  obtain ⟨hstable, hscans⟩ := extraction_stable (base64 brokenResponse)
  obtain ⟨htoken, -, -, -, hagain⟩ := hstable _ hextract
  refine ⟨hextract, htoken, hagain, ?_⟩
  rw [(hscans brokenResponse 100 hturns).2.2.2, hcut]

end Saml
end AccessGateway
