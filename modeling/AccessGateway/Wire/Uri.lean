import AccessGateway.Text.Ascii
import AccessGateway.Text.Split
import AccessGateway.Text.Utf8

/-!
# Request targets

A target has up to three parts: a scheme, an authority, and a path with its query.  There are four
forms: `/path?query`, `*`, an authority alone, and `scheme://authority/path?query`.  Fragments are
dropped.  Bytes beyond ASCII are let through in paths and queries.
-/

set_option autoImplicit false

namespace AccessGateway

/-- Why a text is no request target. -/
inductive UriError where
  | character
  | authority
  | format
  | tooLong
  | empty
  | schemeTooLong
deriving DecidableEq, Repr

/-- The wording of a fault. -/
def UriError.message : UriError → String
  | .character => "invalid uri character"
  | .authority => "invalid authority"
  | .format => "invalid format"
  | .tooLong => "uri too long"
  | .empty => "empty string"
  | .schemeTooLong => "scheme too long"

/-- A request target.  `resource` is the path with its query; it is empty if the target is an
authority alone, or if nothing follows the authority. -/
structure Uri where
  scheme : Option String
  authority : String
  resource : String
deriving DecidableEq, Repr

namespace Uri

/-- The longest target in bytes. -/
def maxLength : Nat := 65534

/-- The longest scheme. -/
def maxSchemeLength : Nat := 64

/-- A character of a scheme. -/
def isSchemeChar (c : Char) : Bool := c.isAlphanum || "+-.~".toList.contains c

/-- A character of an authority. -/
def isAuthorityChar (c : Char) : Bool := c.isAlphanum || "!$&'()*+,-.:;=@[]_~".toList.contains c

/-- A character that ends an authority. -/
def endsAuthority (c : Char) : Bool := c == '/' || c == '?' || c == '#'

/-- A character of a path. -/
def isPathChar (c : Char) : Bool :=
  let n := c.toNat
  n == 0x21 || n == 0x22 || (0x24 ≤ n && n ≤ 0x3B) || n == 0x3D || (0x40 ≤ n && n ≤ 0x5F) ||
    (0x61 ≤ n && n ≤ 0x7E) || 0x7F ≤ n

/-- A character of a query. -/
def isQueryChar (c : Char) : Bool :=
  let n := c.toNat
  n == 0x21 || (0x24 ≤ n && n ≤ 0x3B) || n == 0x3D || 0x3F ≤ n

/-- What the scan of an authority has seen since the last `@` or `]`. -/
structure AuthorityScan where
  colons : Nat
  percent : Bool
  opened : Bool
  closed : Bool
  afterAt : Bool
deriving DecidableEq, Repr

/-- The scan after one more character. -/
def AuthorityScan.step (s : AuthorityScan) (c : Char) : Except UriError AuthorityScan :=
  if c = ':' then
    if s.colons ≥ 8 then .error .authority
    else .ok { s with colons := s.colons + 1, afterAt := false }
  else if c = '[' then
    if s.percent ∨ s.opened then .error .authority
    else .ok { s with opened := true, afterAt := false }
  else if c = ']' then
    if !s.opened ∨ s.closed then .error .authority
    else .ok { s with closed := true, colons := 0, percent := false, afterAt := false }
  else if c = '@' then .ok { s with colons := 0, percent := false, afterAt := true }
  else if c = '%' then .ok { s with percent := true, afterAt := false }
  else if isAuthorityChar c then .ok { s with afterAt := false }
  else .error .character

/-- Splits the authority off the front.  Its port, if it has one, is not looked into. -/
def splitAuthority (cs : List Char) : Except UriError (List Char × List Char) := do
  let text := cs.takeWhile fun c => !endsAuthority c
  let s ← text.foldlM AuthorityScan.step ⟨0, false, false, false, false⟩
  if s.opened != s.closed || s.colons > 1 || s.afterAt || s.percent then .error .authority
  else .ok (text, cs.drop text.length)

/-- Splits a scheme with its `://` off the front, if there is one. -/
def splitScheme (cs : List Char) : Except UriError (Option (String × List Char)) :=
  let name := cs.takeWhile isSchemeChar
  match "://".toList.isPrefixOf? (cs.drop name.length) with
  | some rest =>
    let text := String.ofList name
    if name.length > maxSchemeLength then .error .schemeTooLong
    else if Text.eqIgnoreCase text "http" || Text.eqIgnoreCase text "https" then
      .ok (some (Text.toLower text, rest))
    else .ok (some (text, rest))
  | none => .ok none

/-- Reads a path with its query, up to a fragment. -/
def readResource (cs : List Char) : Except UriError String :=
  let text := cs.takeWhile (· ≠ '#')
  let path := text.takeWhile (· ≠ '?')
  if path.all isPathChar && (text.drop path.length).all isQueryChar then .ok (String.ofList text)
  else .error .character

/-- Reads a request target. -/
def parse (s : String) : Except UriError Uri :=
  let cs := s.toList
  if s.utf8ByteSize > maxLength then .error .tooLong
  else match cs with
  | [] => .error .empty
  | ['*'] => .ok ⟨none, "", "*"⟩
  | '/' :: _ => (readResource cs).map fun resource => ⟨none, "", resource⟩
  | _ => do
    match ← splitScheme cs with
    | none =>
      let (authority, rest) ← splitAuthority cs
      if rest ≠ [] then .error .format else .ok ⟨none, String.ofList authority, ""⟩
    | some (scheme, rest) =>
      let (authority, rest) ← splitAuthority rest
      if authority = [] then .error .format
      else
        let resource ← readResource rest
        .ok ⟨some scheme, String.ofList authority, resource⟩

/-- The path with its query as it is asked for, `/` if it is empty; nothing for an authority
alone. -/
def pathAndQuery? (u : Uri) : Option String :=
  if u.scheme.isSome || u.authority = "" then
    some (if u.resource = "" then "/" else u.resource)
  else none

/-- The path; an absolute target without one has the path `/`. -/
def path (u : Uri) : String :=
  let text := String.ofList (u.resource.toList.takeWhile (· ≠ '?'))
  if text ≠ "" then text
  else if u.resource ≠ "" || u.scheme.isSome then "/" else ""

/-- The part after the first `?`. -/
def query? (u : Uri) : Option String := (Text.cut? '?' u.resource.toList).map (String.ofList ·.2)

/-- The written form. -/
def text (u : Uri) : String :=
  (match u.scheme with
    | some s => s ++ "://"
    | none => "") ++ u.authority ++ u.path ++
  (match u.query? with
    | some q => "?" ++ q
    | none => "")

end Uri
end AccessGateway
