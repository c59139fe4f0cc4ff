import AccessGateway.Time.HttpDate
import AccessGateway.Wire.Message

/-!
# Reconciling the header fields of an answer

An answer goes to the browser with exactly one date: its own, if it can be read, else that of the
first warning that has one, else the current one.  Warnings about another instant are dropped, and
so is all that speaks of the connection to the backend only.
-/

set_option autoImplicit false

namespace AccessGateway.Reconcile

/-- The date that a warning closes with. -/
def warningDate? (value : HeaderValue) : Option Timestamp := value.text?.bind HttpDate.ofWarning?

/-- The header value that writes a timestamp. -/
def dateValue (t : Timestamp) : HeaderValue := ⟨Bytes.ofText (HttpDate.format t)⟩

/-- The date of an answer and the instant it means (`resolve_date`). -/
def resolveDate (backend : Headers) (now : Timestamp) : HeaderValue × Timestamp :=
  let own := (backend.first? .date).bind fun value =>
    (value.text?.bind HttpDate.parse?).map (value, ·)
  match own with
  | some found => found
  | none =>
    let instant := ((backend.values .warning).findSome? warningDate?).getD now
    (dateValue instant, instant)

/-- Whether a warning is kept beside a date: it has no date of its own, or the same. -/
def keepsWarning (instant : Timestamp) (value : HeaderValue) : Bool :=
  match warningDate? value with
  | some t => t = instant
  | none => true

/-- Whether a field is taken over as it is (`skip_on_copy`). -/
def isCopied (name : HeaderName) : Bool :=
  name ≠ .date && name ≠ .warning && !name.isHopByHop

/-- The header fields of the answer to the browser (`reconcile_headers`). -/
def headers (backend : Headers) (now : Timestamp) : Headers :=
  let (date, instant) := resolveDate backend now
  let warnings := (backend.values .warning).filter (keepsWarning instant)
  ⟨(.date, date) :: warnings.map (.warning, ·) ++ (backend.filterNames isCopied).entries⟩

end AccessGateway.Reconcile
