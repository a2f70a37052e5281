import Credentials.Crypto.Edwards
import Credentials.Crypto.Sha512

/-!
# Ed25519 signatures

* `publicKey`   the 32-octet public key of a 32-octet secret;
* `sign`        the 64-octet signature of a message;
* `verify`      the check of a signature: `S` is below the order of the base point, and the
                point `S·B - h·A` is written exactly as the first half of the signature.
-/

namespace Credentials.Ed25519

open Edwards

-- powers are those of natural numbers, whatever else has some
attribute [local instance (high)] instPowNat

/-- octets in the roles of a secret's expansion -/
structure Expanded where
  /-- the secret factor -/
  scalar : Nat
  /-- what is hashed with a message for the factor of one signature -/
  nonceKey : Bytes

/-- the expansion of a secret: half of its digest as a clamped factor, half as a nonce key -/
def expand (secret : Bytes) : Expanded :=
  let h := Sha512.hash secret
  let n := ofLittle (h.take 32)
  ⟨(n % 2 ^ (254 : Nat)) / 8 * 8 + 2 ^ (254 : Nat), h.drop 32⟩

/-- the public key of a secret -/
def publicKey (secret : Bytes) : Bytes :=
  (Point.base.mul (expand secret).scalar).encode

/-- the factor that ties a commitment, a public key and a message -/
def challenge (commitment key message : Bytes) : Nat :=
  ofLittle (Sha512.hash (commitment ++ key ++ message)) % order

/-- the signature of a message -/
def sign (secret message : Bytes) : Bytes :=
  let x := expand secret
  let key := (Point.base.mul x.scalar).encode
  let r := ofLittle (Sha512.hash (x.nonceKey ++ message)) % order
  let commitment := (Point.base.mul r).encode
  commitment ++ little 32 ((r + challenge commitment key message * x.scalar) % order)

/-- the check of a signature -/
def verify (key message signature : Bytes) : Bool :=
  let commitment := signature.take 32
  let s := ofLittle (signature.drop 32)
  if key.length = 32 ∧ signature.length = 64 ∧ s < order then
    match Point.decode? key with
    | some a =>
      let h := challenge commitment key message
      ((Point.base.mul s).add (a.neg.mul h)).encode == commitment
    | none => false
  else false

end Credentials.Ed25519
