import AccessGateway.Text.Ascii
import AccessGateway.Text.Number

/-!
# Socket addresses

The address of a socket is an IPv4 address with a port, `127.0.0.1:8080`, or an IPv6 address in
brackets, perhaps with the number of its zone, with a port: `[::1%2]:8080`.  Host names are no
socket addresses.
-/

set_option autoImplicit false

namespace AccessGateway

/-- An address of the internet protocol: four octets, or eight groups of 16 bits. -/
inductive IpAddress where
  | v4 (octets : List Nat)
  | v6 (groups : List Nat)
deriving DecidableEq, Repr

/-- Where a socket listens. -/
structure SocketAddress where
  ip : IpAddress
  port : Nat
deriving DecidableEq, Repr

namespace IpAddress

/-- A number in a base at the front of a text: at most `most` digits, below `bound`. -/
def takeNumber? (base most bound : Nat) (cs : List Char) : Option (Nat × List Char) :=
  let isDigit (c : Char) : Bool := (Text.hexValue? c).any (· < base)
  let ds := cs.takeWhile isDigit
  let n := ds.foldl (fun n c => base * n + (Text.hexValue? c).getD 0) 0
  if ds = [] ∨ most < ds.length ∨ bound ≤ n then none else some (n, cs.drop ds.length)

/-- An octet in decimal without leading zeros. -/
def takeOctet? (cs : List Char) : Option (Nat × List Char) :=
  match takeNumber? 10 3 256 cs with
  | some (n, rest) =>
    if cs.head? = some '0' ∧ cs.length - rest.length > 1 then none else some (n, rest)
  | none => none

/-- An IPv4 address at the front of a text. -/
def takeV4? (cs : List Char) : Option (List Nat × List Char) := do
  let (a, cs) ← takeOctet? cs
  let cs ← ['.'].isPrefixOf? cs
  let (b, cs) ← takeOctet? cs
  let cs ← ['.'].isPrefixOf? cs
  let (c, cs) ← takeOctet? cs
  let cs ← ['.'].isPrefixOf? cs
  let (d, cs) ← takeOctet? cs
  some ([a, b, c, d], cs)

/-- At most `room` groups with colons between them; the last two may be written as an IPv4
address.  `first` says that no colon is due, and the answer says whether there was such an
address. -/
def takeGroups (first : Bool) : (room : Nat) → List Char → List Nat × Bool × List Char
  | 0, cs => ([], false, cs)
  | room + 1, cs =>
    match if first then some cs else [':'].isPrefixOf? cs with
    | none => ([], false, cs)
    | some start =>
      match if room = 0 then none else takeV4? start with
      | some ([a, b, c, d], rest) => ([a * 256 + b, c * 256 + d], true, rest)
      | _ =>
        match takeNumber? 16 4 65536 start with
        | some (g, rest) =>
          let (gs, dotted, rest) := takeGroups false room rest
          (g :: gs, dotted, rest)
        | none => ([], false, cs)

/-- An IPv6 address at the front of a text. -/
def takeV6? (cs : List Char) : Option (List Nat × List Char) :=
  let (front, dotted, rest) := takeGroups true 8 cs
  if front.length = 8 then some (front, rest)
  else if dotted then none
  else do
    let rest ← "::".toList.isPrefixOf? rest
    let (back, _, rest) := takeGroups true (7 - front.length) rest
    some (front ++ List.replicate (8 - front.length - back.length) 0 ++ back, rest)

end IpAddress

namespace SocketAddress

/-- A port to the end of a text; leading zeros are let through. -/
def port? (cs : List Char) : Option Nat := do
  let cs ← [':'].isPrefixOf? cs
  let (port, rest) ← IpAddress.takeNumber? 10 cs.length 65536 cs
  if rest = [] then some port else none

/-- The number of a zone, which may be missing. -/
def skipZone (cs : List Char) : List Char :=
  match cs with
  | '%' :: zone =>
    match IpAddress.takeNumber? 10 zone.length UInt32.size zone with
    | some (_, rest) => rest
    | none => cs
  | _ => cs

/-- Reads a socket address. -/
def parse? (s : String) : Option SocketAddress :=
  match s.toList with
  | '[' :: cs => do
    let (groups, rest) ← IpAddress.takeV6? cs
    let rest ← [']'].isPrefixOf? (skipZone rest)
    let port ← port? rest
    some ⟨.v6 groups, port⟩
  | cs => do
    let (octets, rest) ← IpAddress.takeV4? cs
    let port ← port? rest
    some ⟨.v4 octets, port⟩

end SocketAddress
end AccessGateway
