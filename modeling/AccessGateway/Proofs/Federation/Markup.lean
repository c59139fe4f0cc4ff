import AccessGateway.Text.Blank
import Mathlib.Data.List.Infix

/-!
# Documents of elements

An XML document as a tree, and its text.  A document is a prolog of processing instructions and one
element; an element has a qualified name, attributes, and content; content is a row of character
data, comments and elements.  The parts carry what their text may hold, so that the text of a tree
tells markup from data.  What the text leaves open is in the tree: the quotation marks of an
attribute, the spaces inside a tag, and whether an element without content is written with one tag
or two.

Somewhat more is admitted than well-formed documents: spaces behind the slash of a tag, two hyphens
in a comment, an attribute twice.  References, entities and sections of character data are not told
from other characters.

## Results

* `isBlank_of_isNameChar` — the one character of names that is white space elsewhere.
* `Content.first?` — the first element of a local name, in document order; `Content.before` — the
  comments that stand before it.
* `Content.first?_bare` — comments do not change which element that is.
* `Document.assertion?` — the element that an envelope is opened for.
-/

set_option autoImplicit false

namespace AccessGateway.Xml

/-! ## Names -/

/-- Where a name can start, as ranges of code points; the colon parts names and is left out. -/
def nameStartRanges : List (Nat × Nat) :=
  [(0x41, 0x5A), (0x5F, 0x5F), (0x61, 0x7A), (0xC0, 0xD6), (0xD8, 0xF6), (0xF8, 0x2FF),
    (0x370, 0x37D), (0x37F, 0x1FFF), (0x200C, 0x200D), (0x2070, 0x218F), (0x2C00, 0x2FEF),
    (0x3001, 0xD7FF), (0xF900, 0xFDCF), (0xFDF0, 0xFFFD), (0x10000, 0xEFFFF)]

/-- What else a name can hold: hyphen, full stop, digits, the middle dot, combining marks and
    ties. -/
def nameRestRanges : List (Nat × Nat) :=
  [(0x2D, 0x2E), (0x30, 0x39), (0xB7, 0xB7), (0x300, 0x36F), (0x203F, 0x2040)]

/-- A character that a name can start with. -/
def isNameStart (c : Char) : Bool :=
  nameStartRanges.any fun r => r.1 ≤ c.toNat && c.toNat ≤ r.2

/-- A character that a name can hold. -/
def isNameChar (c : Char) : Bool :=
  isNameStart c || nameRestRanges.any fun r => r.1 ≤ c.toNat && c.toNat ≤ r.2

theorem isNameChar_of_isNameStart {c : Char} (h : isNameStart c = true) : isNameChar c = true := by
  rw [isNameChar, h, Bool.true_or]

/-- **One character of names is white space elsewhere**, the Ogham space mark. -/
theorem isBlank_of_isNameChar {c : Char} (h : isNameChar c = true)
    (hb : Text.isBlank c = true) : c = '\u1680' := by
  rw [← Char.toNat_inj, show '\u1680'.toNat = 0x1680 from rfl]
  simp only [isNameChar, isNameStart, nameStartRanges, nameRestRanges, List.any_cons,
    List.any_nil, Bool.or_false, Bool.or_eq_true, Bool.and_eq_true, decide_eq_true_eq] at h
  simp only [Text.isBlank, Bool.or_eq_true, Bool.and_eq_true, decide_eq_true_eq,
    beq_iff_eq] at hb
  omega

/-- A name without a colon. -/
structure Name where
  first : Char
  rest : List Char
  first_ok : isNameStart first = true := by decide
  rest_ok : rest.all isNameChar = true := by decide

/-- The text of a name. -/
def Name.text (n : Name) : List Char := n.first :: n.rest

/-- A qualified name: a local name, in a name space or in none. -/
structure QName where
  space? : Option Name := none
  localName : Name

/-- The text of a qualified name. -/
def QName.text (q : QName) : List Char :=
  match q.space? with
  | some space => space.text ++ ':' :: q.localName.text
  | none => q.localName.text

/-- Whether this is the local name. -/
def QName.Is (q : QName) (name : String) : Prop := q.localName.text = name.toList

instance (q : QName) (name : String) : Decidable (q.Is name) :=
  inferInstanceAs (Decidable (_ = _))

/-! ## Tags -/

/-- A space of the markup. -/
def isSpace (c : Char) : Bool := c == ' ' || c == '\t' || c == '\n' || c == '\r'

/-- Spaces, or nothing. -/
structure Spaces where
  text : List Char := []
  ok : text.all isSpace = true := by decide

/-- No spaces. -/
def Spaces.none : Spaces where

theorem Spaces.isSpace_of_mem (g : Spaces) {c : Char} (h : c ∈ g.text) : isSpace c = true :=
  List.all_eq_true.mp g.ok c h

/-- The quotation marks around a value. -/
inductive Quote where
  | double
  | single

/-- The quotation mark. -/
def Quote.mark : Quote → Char
  | .double => '"'
  | .single => '\''

/-- An attribute, with the spaces before it and around its equals sign. -/
structure Attribute where
  gap : Spaces
  gap_ne : gap.text ≠ [] := by decide
  name : QName
  before : Spaces := .none
  behind : Spaces := .none
  quote : Quote
  value : List Char
  value_ok : '<' ∉ value ∧ quote.mark ∉ value := by decide

/-- The text of an attribute. -/
def Attribute.text (a : Attribute) : List Char :=
  a.gap.text ++ (a.name.text ++ (a.before.text ++ ('=' :: a.behind.text ++
    (a.quote.mark :: a.value ++ [a.quote.mark]))))

/-- The tag that opens an element. -/
structure Tag where
  name : QName
  attributes : List Attribute := []
  /-- The spaces before the mark that ends the tag. -/
  gap : Spaces := .none

/-- What stands in a tag before the mark that ends it. -/
def Tag.inside (t : Tag) : List Char :=
  t.name.text ++ (t.attributes.flatMap Attribute.text ++ t.gap.text)

/-- The text of a tag up to the mark that ends it. -/
def Tag.text (t : Tag) : List Char := '<' :: t.inside

/-- The text of a tag that has no closing one. -/
def Tag.alone (t : Tag) (gap : Spaces) : List Char := t.text ++ '/' :: gap.text ++ ['>']

/-- The text of an opening tag. -/
def Tag.opening (t : Tag) : List Char := t.text ++ ['>']

/-- The text of a closing tag. -/
def Tag.closing (t : Tag) (gap : Spaces) : List Char :=
  '<' :: '/' :: t.name.text ++ gap.text ++ ['>']

/-! ## Elements and their content -/

/-- Character data. -/
structure CharData where
  text : List Char
  ok : '<' ∉ text := by decide

/-- A comment. -/
structure Comment where
  body : List Char
  ok : ¬ "-->".toList <:+: body := by decide

/-- The text of a comment. -/
def Comment.text (k : Comment) : List Char := "<!--".toList ++ (k.body ++ "-->".toList)

/-- What stands between the tags of an element, piece by piece. -/
inductive Content where
  | nil
  | data (d : CharData) (rest : Content)
  | comment (k : Comment) (rest : Content)
  /-- An element of one tag. -/
  | alone (tag : Tag) (gap : Spaces) (rest : Content)
  /-- An element of two tags. -/
  | element (tag : Tag) (inner : Content) (gap : Spaces) (rest : Content)

/-- An element. -/
inductive Element where
  | alone (tag : Tag) (gap : Spaces)
  | element (tag : Tag) (inner : Content) (gap : Spaces)

namespace Content

/-- The text of content. -/
def text : Content → List Char
  | nil => []
  | data d rest => d.text ++ rest.text
  | comment k rest => k.text ++ rest.text
  | alone tag gap rest => tag.alone gap ++ rest.text
  | element tag inner gap rest => tag.opening ++ (inner.text ++ (tag.closing gap ++ rest.text))

/-- The names of the elements in it. -/
def names : Content → List QName
  | nil => []
  | data _ rest | comment _ rest => rest.names
  | alone tag _ rest => tag.name :: rest.names
  | element tag inner _ rest => tag.name :: (inner.names ++ rest.names)

/-- The comments in it, in document order. -/
def comments : Content → List Comment
  | nil => []
  | data _ rest | alone _ _ rest => rest.comments
  | comment k rest => k :: rest.comments
  | element _ inner _ rest => inner.comments ++ rest.comments

/-- The same without its comments. -/
def bare : Content → Content
  | nil => nil
  | data d rest => data d rest.bare
  | comment _ rest => rest.bare
  | alone tag gap rest => alone tag gap rest.bare
  | element tag inner gap rest => element tag inner.bare gap rest.bare

/-- The first element with a local name, in document order. -/
def first? (name : String) : Content → Option Element
  | nil => none
  | data _ rest | comment _ rest => rest.first? name
  | alone tag gap rest => if tag.name.Is name then some (.alone tag gap) else rest.first? name
  | element tag inner gap rest =>
    if tag.name.Is name then some (.element tag inner gap)
    else (inner.first? name).or (rest.first? name)

/-- The comments that stand before that element; all of them, if there is none. -/
def before (name : String) : Content → List Comment
  | nil => []
  | data _ rest => rest.before name
  | comment k rest => k :: rest.before name
  | alone tag _ rest => if tag.name.Is name then [] else rest.before name
  | element tag inner _ rest =>
    if tag.name.Is name then []
    else inner.before name ++ if (inner.first? name).isSome then [] else rest.before name

end Content

namespace Element

/-- The tag that opens an element. -/
def tag : Element → Tag
  | alone tag _ | element tag _ _ => tag

/-- The content of an element. -/
def inner : Element → Content
  | alone _ _ => .nil
  | element _ inner _ => inner

/-- The text of an element. -/
def text : Element → List Char
  | alone tag gap => tag.alone gap
  | element tag inner gap => tag.opening ++ (inner.text ++ tag.closing gap)

/-- The names of an element and of all elements in it. -/
def names (e : Element) : List QName := e.tag.name :: e.inner.names

/-- The same without its comments. -/
def bare : Element → Element
  | alone tag gap => alone tag gap
  | element tag inner gap => element tag inner.bare gap

end Element

/-- Which element is the first of a name does not depend on comments. -/
theorem Content.first?_bare (name : String) (content : Content) :
    content.bare.first? name = (content.first? name).map Element.bare := by
  induction content with
  | nil => rfl
  | data d rest ih => exact ih
  | comment k rest ih => exact ih
  | alone tag gap rest ih =>
    simp only [bare, first?, ih]
    split <;> rfl
  | element tag inner gap rest ihInner ihRest =>
    simp only [bare, first?, ihInner, ihRest]
    split
    · rfl
    · cases inner.first? name <;> rfl

namespace Content

variable {name : String} {content : Content} {e : Element}

theorem mem_names_of_first? (h : content.first? name = some e) :
    ∀ q ∈ e.names, q ∈ content.names := by
  intro q hq
  induction content with
  | nil => cases h
  | data d rest ih => exact ih h
  | comment k rest ih => exact ih h
  | alone tag gap rest ih =>
    rw [first?] at h
    split at h
    · cases h
      simpa [Element.names, Element.tag, Element.inner, names] using Or.inl hq
    · exact List.mem_cons_of_mem _ (ih h)
  | element tag inner gap rest ihInner ihRest =>
    rw [first?] at h
    rw [names, List.mem_cons, List.mem_append]
    split at h
    · cases h
      rw [Element.names, List.mem_cons] at hq
      exact hq.imp_right .inl
    · rcases Option.or_eq_some_iff.mp h with h | ⟨-, h⟩
      · exact .inr (.inl (ihInner h))
      · exact .inr (.inr (ihRest h))

theorem mem_comments_of_first? (h : content.first? name = some e) :
    ∀ k ∈ e.inner.comments, k ∈ content.comments := by
  intro k hk
  induction content with
  | nil => cases h
  | data d rest ih => exact ih h
  | comment k' rest ih => exact List.mem_cons_of_mem _ (ih h)
  | alone tag gap rest ih =>
    rw [first?] at h
    split at h
    · cases h
      cases hk
    · exact ih h
  | element tag inner gap rest ihInner ihRest =>
    rw [first?] at h
    rw [comments, List.mem_append]
    split at h
    · cases h
      exact .inl hk
    · rcases Option.or_eq_some_iff.mp h with h | ⟨-, h⟩
      · exact .inl (ihInner h)
      · exact .inr (ihRest h)

theorem mem_comments_of_before (name : String) (content : Content) :
    ∀ k ∈ content.before name, k ∈ content.comments := by
  intro k hk
  induction content with
  | nil => exact hk
  | data d rest ih => exact ih hk
  | comment k' rest ih =>
    rw [before, List.mem_cons] at hk
    exact List.mem_cons.mpr (hk.imp_right ih)
  | alone tag gap rest ih =>
    rw [before] at hk
    split at hk
    · cases hk
    · exact ih hk
  | element tag inner gap rest ihInner ihRest =>
    rw [before] at hk
    rw [comments, List.mem_append]
    split at hk
    · cases hk
    · rcases List.mem_append.mp hk with hk | hk
      · exact .inl (ihInner hk)
      · split at hk
        · cases hk
        · exact .inr (ihRest hk)

end Content

/-! ## Documents -/

/-- A processing instruction. -/
structure Instruction where
  target : QName
  body : List Char
  /-- The body starts with a space, if there is one. -/
  body_apart : body.head?.all isSpace = true := by decide
  body_ok : ¬ "?>".toList <:+: body := by decide

/-- The text of an instruction. -/
def Instruction.text (i : Instruction) : List Char :=
  "<?".toList ++ (i.target.text ++ (i.body ++ "?>".toList))

/-- A document: instructions, each with the spaces before it, and an element between spaces. -/
structure Document where
  prolog : List (Spaces × Instruction) := []
  gap : Spaces := .none
  root : Element
  behind : Spaces := .none

namespace Document

/-- The text of a document. -/
def text (d : Document) : List Char :=
  d.prolog.flatMap (fun p => p.1.text ++ p.2.text) ++ (d.gap.text ++ (d.root.text ++ d.behind.text))

/-- The same without its comments. -/
def bare (d : Document) : Document := { d with root := d.root.bare }

/-- The assertion of a document: its root, or the first one in a response. -/
def assertion? (d : Document) : Option Element :=
  if d.root.tag.name.Is "Assertion" then some d.root
  else if d.root.tag.name.Is "Response" then d.root.inner.first? "Assertion"
  else none

end Document
end AccessGateway.Xml
