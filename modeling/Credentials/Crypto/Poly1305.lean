import Credentials.Bytes.Endian

/-!
# The Poly1305 tag

* `Poly1305.tag`   the 16-octet tag of a message under a one-time key.

The message is cut into blocks of 16 octets; each block, read as a number with a one in front, is a
coefficient of a polynomial that is evaluated modulo `2^130 - 5`.
-/

namespace Credentials.Poly1305

-- powers are those of natural numbers, whatever else has some
attribute [local instance (high)] instPowNat

/-- the modulus -/
def prime : Nat := 2 ^ (130 : Nat) - 5

/-- the bits of the first half of a key that take part in the evaluation -/
def clamp (n : Nat) : Nat := n &&& 0x0ffffffc0ffffffc0ffffffc0fffffff

/-- a block with a one in front -/
def coefficient (block : Bytes) : Nat := ofLittle block + 2 ^ (8 * block.length)

/-- adds `n` blocks to the value, one after another -/
def evaluate (r : Nat) : (n : Nat) → Nat → Bytes → Nat
  | 0, acc, _ => acc
  | n + 1, acc, m => evaluate r n ((acc + coefficient (m.take 16)) * r % prime) (m.drop 16)

/-- the tag of a message under a one-time key of 32 octets -/
def tag (key m : Bytes) : Bytes :=
  let r := clamp (ofLittle (key.take 16))
  let s := ofLittle (key.drop 16)
  little 16 (evaluate r ((m.length + 15) / 16) 0 m + s)

end Credentials.Poly1305
