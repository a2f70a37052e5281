import Credentials.Text.Blank
import Credentials.Text.Form
import Credentials.Token.Identity
import Credentials.Token.Provider

/-!
# Issuing tokens

* `Identity.check`   what an identity has to have before a provider is asked;
* `Claims.issued`    the claims of an identity: the issuer is form-encoded, and instants are cut to
                     whole seconds;
* `signClaims`       claims in signed form;
* `Authority.issueAt`, `Authority.issue`   a token for an identity, stamped with a given instant or by
                     the authority's clock.
-/

namespace Credentials

/-- whole seconds since the epoch, which an instant must not lie before -/
def Instant.epochSeconds (a : Instant) (what : String) : Except TokenError Nat :=
  if 0 ≤ a.seconds then .ok a.seconds.toNat
  else .error (.precondition (what ++ " is before the Unix epoch"))

/-- a text that has to be there and not blank -/
def required (value : Option String) (what : String) : Except TokenError String :=
  match value with
  | some v =>
    if Text.isBlankText v then .error (.precondition (what ++ " required")) else .ok v
  | none => .error (.precondition (what ++ " required"))

/-- claims that only lack their identifier -/
abbrev Unnumbered := String → Claims

/-- the claims of an identity at an instant, if it has what it takes -/
def Identity.check (i : Identity) (now : Instant) : Except TokenError Unnumbered := do
  let subject ← required i.principal "principal"
  let username ← required i.name "name"
  let issuer ← required (some i.issuer) "issuer"
  if i.expiration ≤ now then
    .error (.precondition
      ("expiration " ++ i.expiration.text ++ " is not after issuance time " ++ now.text))
  else do
    let issuedAt ← now.epochSeconds "issuance time"
    let expiresAt ← i.expiration.epochSeconds "expiration"
    let encoded := Form.encode issuer
    .ok fun jti => ⟨jti, subject, encoded, encoded, issuedAt, issuedAt, expiresAt, username⟩

/-- claims in signed form under a handle -/
def signClaims (h : SignerHandle) (c : Claims) : Except TokenError Compact := do
  let failure (e : String) : TokenError := .signing h.algorithm.name h.keyId e
  (Policy.checkAlgorithm h.algorithm.name).mapError fun e => failure e.message
  if h.signer.algorithm ≠ h.algorithm then
    .error (failure (TokenError.message (.unsupportedAlgorithm
      ("signer produces " ++ h.signer.algorithm.name ++ ", header declares " ++ h.algorithm.name))))
  else do
    let unsigned := Compact.unsigned (utf8 (Header.issued h.algorithm h.keyId).text)
      (utf8 c.toJson.text)
    let signature ← (h.signer.sign (utf8 unsigned.signed)).mapError failure
    .ok { unsigned with signature := Compact.encode signature }

namespace Authority

/-- a token for an identity, stamped with an instant -/
def issueAt (now : Instant) (i : Identity) : Act String := do
  note (.span "get_bearer_token" [("issuer", i.issuer)])
  let unnumbered ← Effect.ofExcept (i.check now)
  let jti ← drawUuid
  let claims := unnumbered jti
  let handle ← orNote (select i.expiration) fun e =>
    .warn "no signer for bearer token" [("error", e.message)]
  let token ← orNote (Effect.ofExcept (signClaims handle claims)) fun e =>
    .warn "bearer token signing failed" [("kid", handle.keyId), ("error", e.message)]
  note (.debug "signed bearer token" [("kid", handle.keyId), ("subject", claims.sub)])
  pure token.text

/-- a token for an identity, stamped by the authority's clock -/
def issue (i : Identity) : Act String := do
  let a ← Effect.get
  issueAt a.now i

end Authority

end Credentials
