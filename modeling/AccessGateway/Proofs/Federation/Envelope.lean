import AccessGateway.Gateway.PostBinding
import AccessGateway.Proofs.Access.BearerSwap

/-!
# The assertion in a posted text

The assertion of a document is never empty, and its base64 form is plain text without blanks.  So it
can stand in a field as a bearer token, and is read again as it is.

## Results

* `Saml.extract?_plain` — what is extracted from a posted text.
* `PostBinding.bearer?_eq_some` — when a posted text is kept, and as which value.
* `PostBinding.bearerToken?_bearer?` — the bearer token that is read from it.
-/

set_option autoImplicit false

namespace AccessGateway

namespace Base64

/-- A character that stands in a field and is not trimmed. -/
def isSolid (c : Char) : Bool := HeaderValue.isTextChar c && !Text.isBlank c

theorem isSolid_digit {n : Nat} (h : n < 64) : isSolid (digit standard n) = true := by
  have all : ∀ m : Fin 64, isSolid (digit standard m) = true := by decide
  exact all ⟨n, h⟩

theorem isSolid_encode (bs : Bytes) : ∀ c ∈ encode standard bs, isSolid c = true := by
  have hpadding : ∀ n, ∀ c ∈ padding standard n, isSolid c = true := by
    intro n c hc
    rw [List.eq_of_mem_replicate hc]
    decide
  fun_induction encode standard bs with
  | case1 => simp
  | case2 a =>
    have ha := a.toNat_lt
    simp only [List.forall_mem_cons]
    exact ⟨isSolid_digit (by omega), isSolid_digit (by omega), hpadding 2⟩
  | case3 a b =>
    have ha := a.toNat_lt
    have hb := b.toNat_lt
    simp only [List.forall_mem_cons]
    exact ⟨isSolid_digit (by omega), isSolid_digit (by omega), isSolid_digit (by omega),
      hpadding 1⟩
  | case4 a b c rest ih =>
    have ha := a.toNat_lt
    have hb := b.toNat_lt
    have hc := c.toNat_lt
    simp only [List.forall_mem_cons]
    exact ⟨isSolid_digit (by omega), isSolid_digit (by omega), isSolid_digit (by omega),
      isSolid_digit (by omega), ih⟩

theorem encode_eq_nil {bs : Bytes} : encode standard bs = [] ↔ bs = [] := by
  cases bs with
  | nil => simp [encode]
  | cons a bs =>
    rcases bs with _ | ⟨b, _ | ⟨c, rest⟩⟩ <;> simp [encode]

end Base64

namespace Saml

/-! ## Elements have texts -/

/-- The end of an element lies behind where the search for it began. -/
theorem le_closeLength? {qualified cs : List Char} {depth n k : Nat}
    (h : closeLength? qualified depth n cs = some k) : n ≤ k := by
  fun_induction closeLength? qualified depth n cs with
  | case1 => cases h
  | case2 => cases h
  | case3 =>
    have hlength := Option.some.inj h
    omega
  | case4 =>
    -- all other tags lie between here and the end
    rename_i ih
    have hmore := ih h
    omega
  | case5 =>
    rename_i ih
    have hmore := ih h
    omega
  | case6 =>
    rename_i ih
    have hmore := ih h
    omega
  | case7 =>
    rename_i ih
    have hmore := ih h
    omega

theorem Element.text?_ne_nil {e : Element} {text : List Char} (h : e.text? = some text) :
    text ≠ [] := by
  unfold Element.text? at h
  simp only [Option.bind_eq_bind, Option.bind_eq_some_iff] at h
  obtain ⟨⟨tag, content⟩, htag, h⟩ := h
  dsimp only at h
  split at h
  · cases h
    simp
  · obtain ⟨n, hn, rfl⟩ := Option.map_eq_some_iff.mp h
    have hlength := le_closeLength? hn
    have hmarkup : e.markup ≠ [] := by
      intro hnil
      rw [hnil] at htag
      cases htag
    simp only [ne_eq, List.take_eq_nil_iff, not_or]
    exact ⟨by omega, hmarkup⟩

theorem assertion?_ne_nil {document text : List Char} (h : assertion? document = some text) :
    text ≠ [] := by
  unfold assertion? at h
  simp only [Option.bind_eq_bind, Option.bind_eq_some_iff] at h
  obtain ⟨root, -, h⟩ := h
  split at h
  · exact Element.text?_ne_nil h
  · split at h
    · obtain ⟨_, -, h⟩ := Option.bind_eq_some_iff.mp h
      obtain ⟨e, -, h⟩ := Option.bind_eq_some_iff.mp h
      exact Element.text?_ne_nil h
    · cases h

/-- **What is extracted is never empty**, and its characters can stand in a field and are not
    trimmed. -/
theorem extract?_plain {posted assertion : String} (h : extract? posted = some assertion) :
    assertion ≠ "" ∧ ∀ c ∈ assertion.toList, Base64.isSolid c = true := by
  obtain ⟨text, htext, rfl⟩ := Option.map_eq_some_iff.mp h
  obtain ⟨document, -, htext⟩ := Option.bind_eq_some_iff.mp htext
  have hne := assertion?_ne_nil htext
  rw [String.toList_ofList]
  refine ⟨fun hempty => ?_, Base64.isSolid_encode _⟩
  rw [String.ofList_eq_empty_iff, Base64.encode_eq_nil] at hempty
  obtain ⟨c, cs, rfl⟩ := List.exists_cons_of_ne_nil hne
  rw [Utf8.encode, List.flatMap_cons, List.append_eq_nil_iff] at hempty
  exact String.utf8EncodeChar_ne_nil hempty.1

end Saml

/-! ## Bearer values -/

namespace PostBinding

/-- A posted text counts: it is recognised, and an assertion can be extracted from it. -/
def Holds (posted assertion : String) : Prop :=
  Saml.isToken posted = true ∧ Saml.extract? posted = some assertion

theorem bearer?_of_holds {posted assertion : String} (h : Holds posted assertion) :
    bearer? posted = some ⟨Bytes.ofText (bearerMark ++ assertion)⟩ := by
  have hfield : assertion.toList.all HeaderValue.isFieldChar = true := by
    refine List.all_eq_true.mpr fun c hc => ?_
    have hsolid := (Saml.extract?_plain h.2).2 c hc
    simp only [Base64.isSolid, HeaderValue.isTextChar, Bool.and_eq_true, Bool.or_eq_true,
      beq_iff_eq, decide_eq_true_eq] at hsolid
    simp only [HeaderValue.isFieldChar, Bool.or_eq_true, beq_iff_eq, Bool.and_eq_true,
      decide_eq_true_eq, bne_iff_ne, ne_eq]
    omega
  unfold bearer?
  rw [if_pos h.1, h.2, Option.bind_some, HeaderValue.ofBearer?_eq, if_pos hfield]

/-- A posted text is kept exactly if it counts. -/
theorem bearer?_eq_none {posted : String} :
    bearer? posted = none ↔ ∀ assertion, ¬Holds posted assertion := by
  constructor
  · intro hnone assertion hholds
    rw [bearer?_of_holds hholds] at hnone
    cases hnone
  · intro hnot
    unfold bearer?
    split
    · rename_i htoken
      cases hextract : Saml.extract? posted with
      | none => rfl
      | some assertion => exact absurd ⟨htoken, hextract⟩ (hnot assertion)
    · rfl

/-- The bearer token of a value that is kept is the assertion. -/
theorem bearerToken?_of_holds {posted assertion : String} (h : Holds posted assertion) :
    HeaderValue.bearerToken? ⟨Bytes.ofText (bearerMark ++ assertion)⟩ = some assertion := by
  obtain ⟨hne, hsolid⟩ := Saml.extract?_plain h.2
  have hparts : ∀ c ∈ assertion.toList, HeaderValue.isTextChar c = true ∧
      Text.isBlank c = false := by
    intro c hc
    have := hsolid c hc
    simpa [Base64.isSolid] using this
  have htrimmed : Text.trimmed assertion = assertion := by
    unfold Text.trimmed
    rw [Text.trim_eq_self, String.ofList_toList]
    · exact fun c hc => (hparts c (List.mem_of_head? hc)).2
    · exact fun c hc => (hparts c (List.mem_of_getLast? hc)).2
  exact HeaderValue.bearerToken?_ofBearer.mpr ⟨fun c hc => (hparts c hc).1, htrimmed, hne⟩

end PostBinding
end AccessGateway
