import AccessGateway.Text.Ascii
import AccessGateway.Text.Utf8

/-!
# Header fields

A header collection is an ordered list of fields in which a name may occur more than once.  Names
are kept in small letters, so that they compare without regard to case.  Main statements give what
each operation does to the values of a name: `values_append`, `values_insert`, `values_erase`.
-/

set_option autoImplicit false

namespace AccessGateway

/-- The name of a header field, in small letters. -/
structure HeaderName where
  text : String
deriving DecidableEq, Repr

/-- The value of a header field. -/
structure HeaderValue where
  bytes : Bytes
deriving DecidableEq, Repr

namespace HeaderName

/-- Reads a name: a token of at most 65535 characters. -/
def parse? (name : String) : Option HeaderName :=
  let cs := name.toList
  if cs ≠ [] ∧ cs.length ≤ 65535 ∧ cs.all Text.isTokenChar then some ⟨Text.toLower name⟩ else none

def host : HeaderName := ⟨"host"⟩
def cookie : HeaderName := ⟨"cookie"⟩
def setCookie : HeaderName := ⟨"set-cookie"⟩
def authorization : HeaderName := ⟨"authorization"⟩
def location : HeaderName := ⟨"location"⟩
def date : HeaderName := ⟨"date"⟩
def warning : HeaderName := ⟨"warning"⟩
def transferEncoding : HeaderName := ⟨"transfer-encoding"⟩
def contentLength : HeaderName := ⟨"content-length"⟩
def forwardedHost : HeaderName := ⟨"x-forwarded-host"⟩
def forwardedPort : HeaderName := ⟨"x-forwarded-port"⟩
def portalAuthenticated : HeaderName := ⟨"x-portal-authenticated"⟩
def requestId : HeaderName := ⟨"x-request-id"⟩

/-- The fields that speak of one connection only. -/
def hopByHop : List HeaderName :=
  [⟨"connection"⟩, ⟨"te"⟩, ⟨"trailer"⟩, transferEncoding, ⟨"upgrade"⟩, ⟨"keep-alive"⟩,
    ⟨"proxy-connection"⟩]

/-- A field that speaks of one connection only and is never passed on (`is_hop_by_hop`). -/
def isHopByHop (name : HeaderName) : Bool := hopByHop.contains name

end HeaderName

namespace HeaderValue

/-- A byte that a value may hold: a tabulator, or anything that is no control character. -/
def isFieldByte (b : UInt8) : Bool := b == 0x09 || (0x20 ≤ b && b != 0x7F)

/-- A byte of plain text: a tabulator or a printable ASCII character. -/
def isTextByte (b : UInt8) : Bool := b == 0x09 || (0x20 ≤ b && b < 0x7F)

/-- The value with the given bytes, if all may stand in a value. -/
def ofBytes? (bs : Bytes) : Option HeaderValue := if bs.all isFieldByte then some ⟨bs⟩ else none

/-- The value with the given text, in UTF-8. -/
def ofText? (s : String) : Option HeaderValue := ofBytes? (Bytes.ofText s)

/-- The characters of a value that is plain text throughout. -/
def chars? (v : HeaderValue) : Option (List Char) :=
  if v.bytes.all isTextByte then some (v.bytes.map fun b => Char.ofNat b.toNat) else none

/-- The text of a value that is plain text throughout. -/
def text? (v : HeaderValue) : Option String := v.chars?.map String.ofList

end HeaderValue

/-- Header fields in their order. -/
structure Headers where
  entries : List (HeaderName × HeaderValue)
deriving DecidableEq, Repr

namespace Headers

def empty : Headers := ⟨[]⟩

instance : Inhabited Headers := ⟨empty⟩

/-- All values of a name, in order. -/
def values (h : Headers) (name : HeaderName) : List HeaderValue :=
  (h.entries.filter (·.1 = name)).map (·.2)

/-- The first value of a name. -/
def first? (h : Headers) (name : HeaderName) : Option HeaderValue := (h.values name).head?

/-- The last value of a name. -/
def last? (h : Headers) (name : HeaderName) : Option HeaderValue := (h.values name).getLast?

/-- Whether a name occurs. -/
def has (h : Headers) (name : HeaderName) : Bool := !(h.values name).isEmpty

/-- One more field at the end. -/
def append (h : Headers) (name : HeaderName) (value : HeaderValue) : Headers :=
  ⟨h.entries ++ [(name, value)]⟩

/-- The fields of another collection at the end. -/
def appendAll (h more : Headers) : Headers := ⟨h.entries ++ more.entries⟩

/-- The fields whose names are kept by `keep`. -/
def filterNames (h : Headers) (keep : HeaderName → Bool) : Headers :=
  ⟨h.entries.filter fun e => keep e.1⟩

/-- The fields without those of a name. -/
def erase (h : Headers) (name : HeaderName) : Headers := h.filterNames (· ≠ name)

/-- The given value as the only one of its name. -/
def insert (h : Headers) (name : HeaderName) (value : HeaderValue) : Headers :=
  (h.erase name).append name value

/-- The fields with a value that may be missing put in. -/
def insertSome (h : Headers) (name : HeaderName) (value : Option HeaderValue) : Headers :=
  match value with
  | some v => h.insert name v
  | none => h

/-- The fields with those of another collection in the place of their namesakes; of the values of
one name in the other collection, the last counts. -/
def overlay (h more : Headers) : Headers :=
  more.entries.foldl (fun acc e => acc.insert e.1 e.2) h

@[simp] theorem values_empty (name : HeaderName) : empty.values name = [] := rfl

theorem values_append (h : Headers) (n m : HeaderName) (v : HeaderValue) :
    (h.append n v).values m = h.values m ++ if n = m then [v] else [] := by
  by_cases e : n = m <;> simp [append, values, e]

theorem values_filterNames (h : Headers) (keep : HeaderName → Bool) (m : HeaderName) :
    (h.filterNames keep).values m = if keep m then h.values m else [] := by
  simp only [values, filterNames, List.filter_filter]
  split
  · next hk =>
    congr 1
    refine List.filter_congr fun e _ => ?_
    by_cases he : e.1 = m
    · simp [he, hk]
    · simp [he]
  · next hk =>
    simp only [List.map_eq_nil_iff, List.filter_eq_nil_iff]
    rintro e - he
    simp only [Bool.and_eq_true, decide_eq_true_eq] at he
    exact hk (he.1 ▸ he.2)

theorem values_erase (h : Headers) (n m : HeaderName) :
    (h.erase n).values m = if m = n then [] else h.values m := by
  rw [erase, values_filterNames]
  by_cases e : m = n <;> simp [e]

theorem values_insert (h : Headers) (n m : HeaderName) (v : HeaderValue) :
    (h.insert n v).values m = if n = m then [v] else h.values m := by
  rw [insert, values_append, values_erase]
  by_cases e : n = m
  · simp [e]
  · simp [e, Ne.symm e]

theorem values_insertSome (h : Headers) (n m : HeaderName) (v : Option HeaderValue) :
    (h.insertSome n v).values m = if n = m ∧ v.isSome then v.toList else h.values m := by
  cases v with
  | none => simp [insertSome]
  | some v => simp [insertSome, values_insert]

end Headers
end AccessGateway
