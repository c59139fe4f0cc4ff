import AccessGateway.Federation.Sha256

/-!
# RSA signatures

A signature holds for a message if raising it to the public exponent gives the padded digest of the
message.  Keys of 256 bytes to 8192 bits are taken, with an odd modulus and an odd exponent of at
least three and at most 33 bits, both written without leading zeros.
-/

set_option autoImplicit false

namespace AccessGateway.Rsa

/-- A public key: modulus and exponent, most significant byte first. -/
structure PublicKey where
  modulus : Bytes
  exponent : Bytes
deriving DecidableEq, Repr

/-- The remainder of a power, by squaring. -/
def powerMod (base exponent modulus : Nat) : Nat :=
  if exponent = 0 then 1 % modulus
  else
    let half := powerMod (base * base % modulus) (exponent / 2) modulus
    if exponent % 2 = 1 then half * base % modulus else half
termination_by exponent

/-- The number of bits of a number. -/
def bitLength (n : Nat) : Nat := if n = 0 then 0 else Nat.log2 n + 1

/-- Whether a key is one of those that are taken. -/
def PublicKey.isUsable (k : PublicKey) : Bool :=
  let n := Sha256.ofBigEndian k.modulus
  let e := Sha256.ofBigEndian k.exponent
  k.modulus.head? ≠ some 0 && k.exponent.head? ≠ some 0 && n % 2 = 1 && e % 2 = 1 && 3 ≤ e &&
    bitLength e ≤ 33 && 256 ≤ k.modulus.length && bitLength n ≤ 8192

/-- What stands before a SHA-256 digest in a signature. -/
def digestMark : Bytes :=
  [0x30, 0x31, 0x30, 0x0d, 0x06, 0x09, 0x60, 0x86, 0x48, 0x01, 0x65, 0x03, 0x04, 0x02, 0x01, 0x05,
    0x00, 0x04, 0x20]

/-- The padded digest of a message in `size` bytes. -/
def encoded (size : Nat) (message : Bytes) : Bytes :=
  let tail := 0x00 :: digestMark ++ Sha256.digest message
  0x00 :: 0x01 :: List.replicate (size - 2 - tail.length) 0xFF ++ tail

/-- Whether a signature holds for a message under a key. -/
def PublicKey.verifies (k : PublicKey) (message signature : Bytes) : Bool :=
  let n := Sha256.ofBigEndian k.modulus
  let s := Sha256.ofBigEndian signature
  k.isUsable && signature.length = k.modulus.length && s < n &&
    powerMod s (Sha256.ofBigEndian k.exponent) n =
      Sha256.ofBigEndian (encoded k.modulus.length message)

end AccessGateway.Rsa
