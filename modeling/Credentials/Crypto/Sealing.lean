import Credentials.Crypto.ChaCha20
import Credentials.Crypto.Poly1305

/-!
# Authenticated sealing with 24-octet nonces (XChaCha20-Poly1305)

* `Sealing.seal?`   encrypts and appends a tag of 16 octets;
* `Sealing.open?`   checks the tag and decrypts.

There is no associated data. A message of `2^32 - 1` or more whole blocks of 64 octets is refused
on both sides, because the block counter has 32 bits.
-/

namespace Credentials.Sealing

-- powers are those of natural numbers, whatever else has some
attribute [local instance (high)] instPowNat

/-- the octets of a tag -/
def tagSize : Nat := 16

/-- no more than this many whole blocks can be sealed -/
def withinLimit (m : Bytes) : Bool := m.length / 64 < 2 ^ (32 : Nat) - 1

/-- the key of one nonce: derived from the first 16 octets of the nonce -/
def streamKey (key nonce : Bytes) : Bytes := ChaCha20.subkey key (nonce.take 16)

/-- the short nonce of one nonce: its last eight octets behind four zeros -/
def streamNonce (nonce : Bytes) : Bytes := [0, 0, 0, 0] ++ nonce.drop 16

/-- fills up to whole blocks of 16 octets -/
def fill (m : Bytes) : Bytes := m ++ List.replicate ((16 - m.length % 16) % 16) 0

/-- the tag of an encrypted message -/
def tagOf (key nonce encrypted : Bytes) : Bytes :=
  let oneTime := (ChaCha20.block (streamKey key nonce) 0 (streamNonce nonce)).take 32
  Poly1305.tag oneTime (fill encrypted ++ little 8 0 ++ little 8 encrypted.length)

/-- octets combined with the keystream of a key and a nonce -/
def mask (key nonce m : Bytes) : Bytes :=
  ChaCha20.apply (streamKey key nonce) (streamNonce nonce) 1 m

/-- a message encrypted, with its tag behind it -/
def seal? (key nonce m : Bytes) : Option Bytes :=
  if withinLimit m then
    let encrypted := mask key nonce m
    some (encrypted ++ tagOf key nonce encrypted)
  else none

/-- the message of a sealed one, if its tag is right -/
def open? (key nonce sealed : Bytes) : Option Bytes :=
  if sealed.length < tagSize then none
  else
    let encrypted := sealed.take (sealed.length - tagSize)
    let tag := sealed.drop (sealed.length - tagSize)
    if withinLimit encrypted && tag == tagOf key nonce encrypted then some (mask key nonce encrypted)
    else none

end Credentials.Sealing
