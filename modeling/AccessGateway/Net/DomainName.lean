import AccessGateway.Net.Punycode

/-!
# Domain names

A host name is brought into one form before it is looked at: case is folded, wide forms become
their narrow ones, and characters without a meaning of their own are left out.  The labels between
its dots must then be well-formed.  The ranges of characters below are those of whole scripts and
blocks; a name is refused if a character of it can stand in no name at all.
-/

set_option autoImplicit false

namespace AccessGateway.DomainName

/-- Whether a code point lies in one of the ranges. -/
def inRanges (ranges : List (Nat × Nat)) (c : Char) : Bool :=
  ranges.any fun (lo, hi) => lo ≤ c.toNat && c.toNat ≤ hi

/-- Characters that are left out. -/
def ignored : List (Nat × Nat) :=
  [(0xAD, 0xAD), (0x34F, 0x34F), (0x180B, 0x180D), (0x180F, 0x180F), (0x200B, 0x200B),
    (0x2060, 0x2060), (0x2064, 0x2064), (0xFE00, 0xFE0F), (0xFEFF, 0xFEFF), (0xE0100, 0xE01EF)]

/-- Wide and special blanks, which mean a space. -/
def spaces : List (Nat × Nat) :=
  [(0xA0, 0xA0), (0x2000, 0x200A), (0x202F, 0x202F), (0x205F, 0x205F), (0x3000, 0x3000)]

/-- The dots of other scripts. -/
def dots : List (Nat × Nat) := [(0x2024, 0x2024), (0x3002, 0x3002), (0xFF61, 0xFF61)]

/-- Characters that can stand in no name. -/
def disallowed : List (Nat × Nat) :=
  [(0x80, 0x9F), (0x378, 0x379), (0x61C, 0x61C), (0x1680, 0x1680), (0x180E, 0x180E),
    (0x200E, 0x200F), (0x2028, 0x202E), (0x2061, 0x2063), (0x2065, 0x206F), (0x2FF0, 0x2FFF),
    (0xE000, 0xF8FF), (0xFDD0, 0xFDEF), (0xFFF0, 0xFFFF), (0x1D173, 0x1D17A),
    (0xE0000, 0xE00FF), (0xE01F0, 0x10FFFF)]

/-- Marks, which can begin no label. -/
def marks : List (Nat × Nat) :=
  [(0x300, 0x36F), (0x483, 0x489), (0x591, 0x5BD), (0x610, 0x61A), (0x64B, 0x65F), (0x670, 0x670),
    (0x6D6, 0x6DC), (0x6DF, 0x6E4), (0x900, 0x903), (0x93A, 0x93C), (0x93E, 0x94F),
    (0xE31, 0xE31), (0xE34, 0xE3A), (0xE47, 0xE4E), (0x1AB0, 0x1AFF), (0x1DC0, 0x1DFF),
    (0x20D0, 0x20FF), (0x302A, 0x302F), (0x3099, 0x309A), (0xFE20, 0xFE2F)]

/-- Marks after which a joiner may stand. -/
def viramas : List Nat :=
  [0x94D, 0x9CD, 0xA4D, 0xACD, 0xB4D, 0xBCD, 0xC4D, 0xCCD, 0xD4D, 0xDCA, 0x1039, 0x17D2]

/-- Letters of scripts that are written from right to left. -/
def rightToLeft : List (Nat × Nat) :=
  [(0x5BE, 0x5BE), (0x5C0, 0x5C0), (0x5C3, 0x5C3), (0x5D0, 0x5FF), (0x608, 0x608), (0x60B, 0x60B),
    (0x61B, 0x64A), (0x66D, 0x66F), (0x671, 0x6D5), (0x6FA, 0x8FF), (0xFB1D, 0xFDFF),
    (0xFE70, 0xFEFC), (0x10800, 0x10FFF), (0x1E800, 0x1EFFF)]

/-- The characters that a character becomes; nothing if it can stand in no name. -/
def mapChar? (c : Char) : Option (List Char) :=
  if c.toNat < 0x80 then some [c.toLower]
  else if inRanges ignored c then some []
  else if inRanges spaces c then some [' ']
  else if inRanges dots c then some ['.']
  else if inRanges disallowed c then none
  else if 0xFF01 ≤ c.toNat ∧ c.toNat ≤ 0xFF5E then some [(Char.ofNat (c.toNat - 0xFEE0)).toLower]
  else some [c]

/-- An ASCII character that host names may not hold. -/
def isForbidden (c : Char) : Bool :=
  c.toNat ≤ 0x20 || c.toNat == 0x7F || "#%/:<>?@[\\]^|".toList.contains c

/-- Joiners stand only after a mark that joins. -/
def joinersFit : (previous : Nat) → List Char → Bool
  | _, [] => true
  | previous, c :: rest =>
    (!(c.toNat == 0x200C || c.toNat == 0x200D) || viramas.contains previous) &&
      joinersFit c.toNat rest

/-- A label in a name with right-to-left letters keeps one direction. -/
def directionFits (label : List Char) : Bool :=
  match label with
  | [] => true
  | first :: _ =>
    if inRanges rightToLeft first then
      label.all (fun c => inRanges rightToLeft c || inRanges marks c || !c.isAlpha)
    else !first.isDigit && label.all (!inRanges rightToLeft ·)

/-- A label that is written in its own characters. -/
def labelFits (label : List Char) : Bool :=
  (match label with
    | first :: _ => !inRanges marks first
    | [] => true) &&
  joinersFit 0 label && label.all (fun c => mapChar? c == some [c])

/-- The characters of a label, decoded if it is encoded. -/
def openLabel? (label : List Char) : Option (List Char) :=
  match "xn--".toList.isPrefixOf? label with
  | some rest =>
    match Punycode.decode? rest with
    | some text => if text.any (·.toNat ≥ 0x80) && labelFits text then some text else none
    | none => none
  | none => if label.all (·.toNat < 0x80) || labelFits label then some label else none

/-- A host name in its one form. -/
def parse? (cs : List Char) : Option (List Char) := do
  let mapped ← cs.mapM mapChar?
  let labels ← (Text.fields '.' mapped.flatten).mapM openLabel?
  let directed := labels.any (·.any (inRanges rightToLeft))
  let name := List.intercalate ['.'] labels
  if name = [] || name.any isForbidden || (directed && !labels.all directionFits) then none
  else some name

end AccessGateway.DomainName
