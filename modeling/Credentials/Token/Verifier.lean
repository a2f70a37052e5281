import Credentials.Token.Provider

/-!
# Verifying tokens against a ring

* `Header.cleared`     the key identifier of a header that may be verified at all;
* `verifyUnder`        the claims of a token under one key, at one time;
* `Authority.verify`   the claims of a token that is signed by a key in use and valid now.

The ring is asked only when the header is cleared, and only for the header's key.
-/

namespace Credentials

/-- the system clock in whole seconds since the epoch, zero before it -/
def Instant.clockSeconds (a : Instant) : Nat := a.seconds.toNat

/-- the key identifier of a header that names an acceptable key and the algorithm of the ring -/
def Header.cleared (h : Header) : Except TokenError String := do
  match h.keyId with
  | none => .error (.invalidTokenFormat "JWT header missing 'kid' field")
  | some keyId => do
    Policy.checkKeyId keyId
    Policy.checkAlgorithm h.algorithm.name
    if h.algorithm ≠ .edDSA then
      .error (.unsupportedAlgorithm
        ("Algorithm '" ++ h.algorithm.name ++ "' cannot be verified with Ed25519 signing keys"))
    else .ok keyId

/-- the key identifier of a token that may be verified at all -/
def clearedKeyId (token : String) : Except TokenError String := do
  let h ← Header.ofToken token
  h.cleared

/-- the claims of a token under a key, at a time -/
def verifyUnder (token : String) (key : VerifyingKey) (audience : Option String) (now : Nat) :
    Except TokenError Claims := do
  let claims ← verifySignature token key .edDSA now
  claims.validate now audience
  .ok claims

namespace Authority

/-- the claims of a token that is signed by a key in use and valid now -/
def verify (token : String) (audience : Option String) : Act Claims := do
  note (.span "verify_with_signer_provider" [("expected_audience", Quoted.option audience)])
  let keyId ← Effect.ofExcept (clearedKeyId token)
  let key ← orNote (verifyingKey keyId) fun e =>
    .warn "verification key unavailable" [("kid", keyId), ("error", e.message)]
  let a ← Effect.get
  let claims ← Effect.ofExcept (verifyUnder token key audience a.systemTime.clockSeconds)
  note (.debug "bearer token verified" [("kid", keyId), ("subject", claims.sub)])
  pure claims

end Authority

end Credentials
