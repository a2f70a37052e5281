import Credentials.Text.Quoted
import Credentials.Token.Signature

/-!
# Signers

* `Signer`            what signs: an Ed25519 secret, or a device that may answer octets in any way;
* `Signer.failing`, `Signer.fixed`   a device that is never there, and one that always gives the same
                      octets;
* `Signer.sign`       the signature of octets, or why there is none;
* `SignerHandle`      a signer with the key identifier and the algorithm for a token header.
-/

namespace Credentials

inductive Signer where
  | ed25519 (secret : Bytes)
  /-- claims an algorithm, and answers octets with a signature or with a complaint -/
  | device (algorithm : Algorithm) (answer : Bytes → Except String Bytes)

namespace Signer

/-- claims an algorithm, and is never there -/
def failing (algorithm : Algorithm) : Signer :=
  .device algorithm fun _ => .error "signing device unavailable"

/-- claims an algorithm, and always gives these octets -/
def fixed (algorithm : Algorithm) (signature : Bytes) : Signer :=
  .device algorithm fun _ => .ok signature

/-- the algorithm of the signatures -/
def algorithm : Signer → Algorithm
  | .ed25519 _ => .edDSA
  | .device a _ => a

/-- the signature of octets -/
def sign (s : Signer) (message : Bytes) : Except String Bytes :=
  match s with
  | .ed25519 secret => .ok (Ed25519.sign secret message)
  | .device _ answer => answer message

/-- an Ed25519 signer as text, by its public key -/
def ed25519Text (secret : Bytes) : String :=
  "Ed25519Signer \x7b public_key: " ++ Quoted.string (VerifyingKey.ofSecret secret).text ++ ", .. \x7d"

end Signer

/-- a signer with what goes into a token header -/
structure SignerHandle where
  keyId : String
  algorithm : Algorithm
  signer : Signer

/-- a handle as text, without its signer -/
def SignerHandle.text (h : SignerHandle) : String :=
  "SignerHandle \x7b key_identifier: " ++ Quoted.string h.keyId ++ ", algorithm: " ++
    h.algorithm.name ++ ", .. \x7d"

end Credentials
