import Credentials.Crypto.Ed25519
import Credentials.Token.Header
import Credentials.Token.Claims

/-!
# Signed tokens and Ed25519 keys

* `VerifyingKey`           a public key, as octets of any number;
* `VerifyingKey.ofText`    a key out of its base64url form;
* `VerifyingKey.accepts`   the check of a signature over a text;
* `verifySignature`        the claims of a token whose signature is right and which has not expired.

The parts of a token are looked at in a fixed order: the asked algorithm, the segments, the header,
the signature, the payload, the expiration.
-/

namespace Credentials

/-- a public key -/
structure VerifyingKey where
  octets : Bytes
  deriving DecidableEq

namespace VerifyingKey

/-- the public key of a secret -/
def ofSecret (secret : Bytes) : VerifyingKey := ⟨Ed25519.publicKey secret⟩

/-- the written form of a key -/
def text (k : VerifyingKey) : String := Compact.encode k.octets

/-- a key out of its written form -/
def ofText (x : String) : Except TokenError VerifyingKey :=
  match Compact.decode x with
  | .ok bs => .ok ⟨bs⟩
  | .error e => .error (.invalidPublicKey (JwsError.base64 e).message)

/-- the check of a signature over a text -/
def accepts (k : VerifyingKey) (signed : String) (signature : Bytes) : Bool :=
  Ed25519.verify k.octets (utf8 signed) signature

end VerifyingKey

/-- the claims of a payload. The payload is read twice, the second time for its times alone, and
that reading takes no array. -/
def Claims.ofPayload (bs : Bytes) : Except Json.Error Claims := do
  let c ← Json.readText Claims.ofTree bs
  match (Json.Document.ofText bs).tree with
  | .array .. => .error .malformed
  | _ => .ok c

/-- the claims of a signed form that is cut into its segments already -/
def Compact.verify (c : Compact) (key : VerifyingKey) (algorithm : Algorithm) (now : Nat) :
    Except JwsError Claims := do
  let header ← Header.ofSegment c.header
  if header.algorithm ≠ algorithm then .error .invalidAlgorithm
  else do
    let signature ← (Compact.decode c.signature).mapError .base64
    if key.accepts c.signed signature then do
      let payload ← (Compact.decode c.payload).mapError .base64
      let claims ← (Claims.ofPayload payload).mapError .json
      if claims.exp < now then .error .expiredSignature else .ok claims
    else .error .invalidSignature

/-- the claims of a token whose signature is right under an Ed25519 key and which has not expired -/
def verifySignature (token : String) (key : VerifyingKey) (algorithm : Algorithm) (now : Nat) :
    Except TokenError Claims :=
  Except.mapError JwsError.toTokenError <|
    if algorithm ≠ .edDSA then .error .invalidAlgorithm
    else
      match Compact.ofText? token with
      | some c => c.verify key algorithm now
      | none => .error .invalidToken

end Credentials
