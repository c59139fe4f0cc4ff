import AccessGateway.Encoding.Base64
import AccessGateway.Text.Blank
import AccessGateway.Text.Split
import AccessGateway.Text.Utf8

/-!
# SAML envelopes

An identity provider posts a base64 text whose bytes are an XML document.  Only its envelope
matters here: whether the root element is a response or an assertion, and where the first assertion
starts and ends.  The document is scanned tag by tag; a tag ends at the first `>` outside quotes.
Elements are compared by their qualified names, and told by their local ones.
-/

set_option autoImplicit false

namespace AccessGateway.Saml

/-- The document behind a posted text (`decode_xml`); ASCII blanks in the text do not matter. -/
def document? (encoded : String) : Option (List Char) :=
  (Base64.decode? Base64.standard (encoded.toList.filter fun c => !Text.isAsciiBlank c)).bind
    Utf8.decode?

/-- The name at the start of what follows a `<` (`tag_name`); closing tags, comments and the like
have none. -/
def tagName? (afterLt : List Char) : Option (List Char) :=
  match afterLt.takeWhile fun c => !Text.isBlank c && c ≠ '>' && c ≠ '/' with
  | [] => none
  | c :: name => if c = '!' ∨ c = '?' then none else some (c :: name)

/-- The part of a name after its last colon (`local_name`). -/
def localName (qualified : List Char) : List Char :=
  match Text.cutLast? ':' qualified with
  | some (_, name) => name
  | none => qualified

/-- The number of characters before the `>` that ends a tag, counted on from `n` (`tag_end`);
`quote` is the quotation mark that is open. -/
def tagLength? (quote : Option Char) (n : Nat) : List Char → Option Nat
  | [] => none
  | c :: cs =>
    match quote with
    | some q => tagLength? (if c = q then none else some q) (n + 1) cs
    | none =>
      if c = '>' then some n
      else tagLength? (if c = '"' ∨ c = '\'' then some c else none) (n + 1) cs

/-- A tag's text from its `<` up to its `>`, and what comes after the `>`. -/
def splitTag? (cs : List Char) : Option (List Char × List Char) :=
  (tagLength? none 0 cs).map fun n => (cs.take n, cs.drop (n + 1))

/-- Whether a tag's text ends with a slash, so that the element has no content. -/
def isSelfClosing (tag : List Char) : Bool := (Text.trimEnd tag).getLast? = some '/'

/-- What comes after the first occurrence of a mark. -/
def after? (mark : List Char) : List Char → Option (List Char)
  | [] => none
  | c :: cs =>
    match mark.isPrefixOf? (c :: cs) with
    | some rest => some rest
    | none => after? mark cs

/-- Skips one piece of a prolog: a processing instruction, a comment or a declaration. -/
def skipProlog? (markup : List Char) : Option (Option (List Char)) :=
  if "<?".toList.isPrefixOf markup then some (after? "?>".toList markup)
  else if "<!--".toList.isPrefixOf markup then some (after? "-->".toList markup)
  else if "<!".toList.isPrefixOf markup then some (after? ">".toList markup)
  else none

theorem length_isPrefixOf? {mark cs rest : List Char} (h : mark.isPrefixOf? cs = some rest) :
    cs.length = mark.length + rest.length := by
  induction mark generalizing cs with
  | nil => cases h; simp
  | cons m mark ih =>
    cases cs with
    | nil => cases h
    | cons c cs =>
      rw [show (m :: mark).isPrefixOf? (c :: cs) =
        if m == c then mark.isPrefixOf? cs else none from rfl] at h
      split at h
      · have := ih h
        simp only [List.length_cons]
        omega
      · cases h

theorem length_after? {mark cs rest : List Char} (hm : mark ≠ []) (h : after? mark cs = some rest) :
    rest.length < cs.length := by
  induction cs with
  | nil => simp [after?] at h
  | cons c cs ih =>
    rw [after?] at h
    split at h
    · next hp =>
      cases h
      have := length_isPrefixOf? hp
      have := List.length_pos_iff.2 hm
      omega
    · have := ih h
      simp only [List.length_cons]
      omega

theorem length_skipProlog? {markup rest : List Char} (h : skipProlog? markup = some (some rest)) :
    rest.length < markup.length := by
  unfold skipProlog? at h
  split at h
  · exact length_after? (by decide) (Option.some.inj h)
  · split at h
    · exact length_after? (by decide) (Option.some.inj h)
    · split at h
      · exact length_after? (by decide) (Option.some.inj h)
      · cases h

/-- The text from the next `<` on. -/
def toMarkup (cs : List Char) : List Char := cs.dropWhile (· ≠ '<')

theorem length_toMarkup_le (cs : List Char) : (toMarkup cs).length ≤ cs.length :=
  (List.dropWhile_suffix (· ≠ '<') (l := cs)).length_le

/-- An element's tag in its document. -/
structure Element where
  qualified : List Char
  /-- The document from the `<` of the tag on. -/
  markup : List Char
deriving DecidableEq, Repr

/-- The local name of an element. -/
def Element.name (e : Element) : String := String.ofList (localName e.qualified)

/-- The first element of a document (`root_element`). -/
def root? (cs : List Char) : Option Element :=
  match hm : toMarkup cs with
  | [] => none
  | lt :: rest =>
    have : (lt :: rest).length ≤ cs.length := hm ▸ length_toMarkup_le cs
    match hp : skipProlog? (lt :: rest) with
    | some (some more) =>
      have := length_skipProlog? hp
      root? more
    | some none => none
    | none =>
      match tagName? rest, splitTag? (lt :: rest) with
      | some qualified, some _ => some ⟨qualified, lt :: rest⟩
      | _, _ => none
termination_by cs.length

/-- The first element with a local name (`find_element`). -/
def find? (name : String) : List Char → Option Element
  | [] => none
  | c :: cs =>
    if c = '<' then
      match tagName? cs with
      | some qualified =>
        if String.ofList (localName qualified) = name then some ⟨qualified, c :: cs⟩
        else find? name cs
      | none => find? name cs
    else find? name cs

/-- The number of characters up to the `>` of the closing tag that fits, counted on from `n`, when
`depth + 1` elements of the name are open. -/
def closeLength? (qualified : List Char) (depth n : Nat) (cs : List Char) : Option Nat :=
  match hm : toMarkup cs with
  | [] => none
  | lt :: rest =>
    have : (lt :: rest).length ≤ cs.length := hm ▸ length_toMarkup_le cs
    match tagLength? none 0 (lt :: rest) with
    | none => none
    | some len =>
      let tag := rest.take (len - 1)
      let n := n + (cs.takeWhile (· ≠ '<')).length + len + 1
      let more := rest.drop len
      if tag.head? = some '/' then
        if Text.trimEnd (tag.drop 1) = qualified then
          match depth with
          | 0 => some n
          | depth + 1 => closeLength? qualified depth n more
        else closeLength? qualified depth n more
      else if tagName? tag = some qualified ∧ !isSelfClosing tag then
        closeLength? qualified (depth + 1) n more
      else closeLength? qualified depth n more
termination_by cs.length
decreasing_by
  all_goals
    simp only [List.length_cons, List.length_drop] at *
    omega

/-- The text of an element from its opening tag through its closing one (`element_at`). -/
def Element.text? (e : Element) : Option (List Char) := do
  let (tag, content) ← splitTag? e.markup
  if isSelfClosing tag then some (tag ++ ['>'])
  else (closeLength? e.qualified 0 (tag.length + 1) content).map e.markup.take

/-- The assertion of a document whose root is an assertion or a response. -/
def assertion? (document : List Char) : Option (List Char) := do
  let root ← root? document
  if root.name = "Assertion" then root.text?
  else if root.name = "Response" then
    let (_, content) ← splitTag? root.markup
    (← find? "Assertion" content).text?
  else none

/-- Whether a posted text holds a response or an assertion (`is_saml_token`). -/
def isToken (encoded : String) : Bool :=
  match (document? encoded).bind root? with
  | some root => root.name = "Response" || root.name = "Assertion"
  | none => false

/-- The assertion inside a posted text, in base64 (`extract_assertion`). -/
def extract? (encoded : String) : Option String :=
  ((document? encoded).bind assertion?).map fun text =>
    String.ofList (Base64.encode Base64.standard (Utf8.encode text))

end AccessGateway.Saml
