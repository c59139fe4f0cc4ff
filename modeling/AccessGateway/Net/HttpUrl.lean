import AccessGateway.Net.DomainName
import AccessGateway.Net.SocketAddress
import AccessGateway.Text.Utf8

/-!
# Absolute URLs

Where an identity provider is reached: an absolute URL with the scheme `http` or `https`, read the
way browsers do.  Blanks and control characters around the text and line breaks inside it do not
matter, nor does the number of slashes after the scheme, and a backslash is as good as a slash.  A
host is an IPv6 address in brackets, an IPv4 address in any of its notations, or a domain name.
-/

set_option autoImplicit false

namespace AccessGateway

/-- The host of a URL. -/
inductive Host where
  | ip (address : IpAddress)
  | domain (name : String)
deriving DecidableEq, Repr

/-- An absolute URL with the scheme `http` or `https`. -/
structure HttpUrl where
  secure : Bool
  host : Host
  port : Option Nat
deriving DecidableEq, Repr

namespace HttpUrl

/-- Splits a number of an IPv4 address in one of three bases; `none` inside is a number that does
not fit into 32 bits. -/
def v4Number? (cs : List Char) : Option (Option Nat) :=
  let read (base : Nat) (ds : List Char) : Option (Option Nat) :=
    if ds.all fun c => (Text.hexValue? c).any (· < base) then
      let n := ds.foldl (fun n c => base * n + (Text.hexValue? c).getD 0) 0
      some (if n < UInt32.size then some n else none)
    else none
  match cs with
  | [] => none
  | '0' :: 'x' :: ds => read 16 ds
  | '0' :: 'X' :: ds => read 16 ds
  | '0' :: d :: ds => read 8 (d :: ds)
  | ds => read 10 ds

/-- The parts of a name between dots, without an empty one at its end. -/
def dottedParts (name : List Char) : List (List Char) :=
  let parts := Text.fields '.' name
  if parts.getLast? = some [] then parts.dropLast else parts

/-- Whether the last part of a name is a number, so that the name must be an IPv4 address. -/
def endsInNumber (name : List Char) : Bool :=
  match (dottedParts name).getLast? with
  | some last => (last ≠ [] && last.all Char.isDigit) || (v4Number? last).isSome
  | none => false

/-- Reads an IPv4 address: up to four numbers, the last of which fills the missing octets. -/
def v4? (name : List Char) : Option IpAddress := do
  let parts := dottedParts name
  if parts.length > 4 then none
  let numbers ← parts.mapM fun part => (v4Number? part).bind id
  let last ← numbers.getLast?
  let front := numbers.dropLast
  if front.any (255 < ·) ∨ 1 <<< (8 * (4 - front.length)) ≤ last then none
  let n := front.zipIdx.foldl (fun n (x, i) => n + x <<< (8 * (3 - i))) last
  some (.v4 [n >>> 24, (n >>> 16) % 256, (n >>> 8) % 256, n % 256])

/-- The bytes of a text with its percent escapes undone. -/
def percentDecode : Bytes → Bytes
  | 0x25 :: h :: l :: rest =>
    match Text.hexValue? (Char.ofNat h.toNat), Text.hexValue? (Char.ofNat l.toNat) with
    | some x, some y => UInt8.ofNat (x * 16 + y) :: percentDecode rest
    | _, _ => 0x25 :: percentDecode (h :: l :: rest)
  | b :: rest => b :: percentDecode rest
  | [] => []

/-- Reads a host. -/
def host? (cs : List Char) : Option Host :=
  match cs with
  | '[' :: rest => do
    let (groups, rest) ← IpAddress.takeV6? rest
    if rest = [']'] then some (.ip (.v6 groups)) else none
  | _ => do
    let decoded ← Utf8.decode? (percentDecode (Utf8.encode cs))
    let name ← DomainName.parse? decoded
    if endsInNumber name then (v4? name).map .ip else some (.domain (String.ofList name))

/-- A character that ends the authority. -/
def endsAuthority (c : Char) : Bool := c == '/' || c == '\\' || c == '?' || c == '#'

/-- The part of an authority before the colon of its port. -/
def hostPart (inBrackets : Bool) : List Char → List Char
  | [] => []
  | c :: rest =>
    if c = ':' ∧ !inBrackets then []
    else if c = '[' then c :: hostPart true rest
    else if c = ']' then c :: hostPart false rest
    else c :: hostPart inBrackets rest

/-- Reads the part of an authority after its host: nothing, or a colon and a port. -/
def port? (cs : List Char) : Option (Option Nat) :=
  match cs with
  | [] => some none
  | [':'] => some none
  | ':' :: ds =>
    match Text.digits? ds with
    | some n => if n < 65536 then some (some n) else none
    | none => none
  | _ => none

/-- Reads an authority; what stands before the last `@` is of no interest here. -/
def authority? (secure : Bool) (cs : List Char) : Option HttpUrl := do
  let cs := match Text.cutLast? '@' cs with
    | some (_, rest) => rest
    | none => cs
  let name := hostPart false cs
  let host ← host? name
  let port ← port? (cs.drop name.length)
  some ⟨secure, host, port⟩

/-- A control character or space. -/
def isPadding (c : Char) : Bool := c.toNat ≤ 0x20

/-- The text without the characters that do not matter. -/
def clean (cs : List Char) : List Char :=
  let cs := cs.dropWhile isPadding
  let cs := (cs.reverse.dropWhile isPadding).reverse
  cs.filter fun c => !(c == '\t' || c == '\n' || c == '\r')

/-- Reads an absolute URL. -/
def parse? (s : String) : Option HttpUrl := do
  let (scheme, rest) ← Text.cut? ':' (clean s.toList)
  let scheme := Text.toLower (String.ofList scheme)
  if scheme = "http" ∨ scheme = "https" then
    let rest := rest.dropWhile fun c => c == '/' || c == '\\'
    authority? (scheme = "https") (rest.takeWhile (!endsAuthority ·))
  else none

end HttpUrl
end AccessGateway
