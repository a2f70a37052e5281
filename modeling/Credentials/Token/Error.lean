import Credentials.Bytes.Base64
import Credentials.Json.Error
import Credentials.Time.Calendar

/-!
# What can go wrong with tokens

* `TokenError`             the causes for which issuing or verifying a token fails;
* `TokenError.message`     their wording;
* `TokenError.causes`      the wording of what lies behind them;
* `JwsError`               the causes for which the signed form itself is refused;
* `JwsError.toTokenError`  the refusals as a caller sees them.
-/

namespace Credentials

inductive TokenError where
  /-- what the caller asked for is not allowed -/
  | precondition (message : String)
  /-- a key could not sign -/
  | signing (algorithm keyId cause : String)
  | noEligibleSigner (expiration : Instant)
  /-- the source of keys failed -/
  | keyProvider (message : String) (cause : Option String)
  | invalidTokenFormat (message : String)
  | tokenExpired
  | tokenNotYetValid
  | invalidSignature
  | invalidAudience (message : String)
  | missingClaim (name : String)
  | unsupportedAlgorithm (message : String)
  | keyNotFound (keyId : String)
  | keyRevoked (keyId : String)
  | invalidPublicKey (message : String)
  deriving DecidableEq

namespace TokenError

/-- the name of the kind of an error -/
def kind : TokenError → String
  | .precondition _ => "Precondition"
  | .signing .. => "Signing"
  | .noEligibleSigner _ => "NoEligibleSigner"
  | .keyProvider .. => "KeyProvider"
  | .invalidTokenFormat _ => "InvalidTokenFormat"
  | .tokenExpired => "TokenExpired"
  | .tokenNotYetValid => "TokenNotYetValid"
  | .invalidSignature => "InvalidSignature"
  | .invalidAudience _ => "InvalidAudience"
  | .missingClaim _ => "MissingClaim"
  | .unsupportedAlgorithm _ => "UnsupportedAlgorithm"
  | .keyNotFound _ => "KeyNotFound"
  | .keyRevoked _ => "KeyRevoked"
  | .invalidPublicKey _ => "InvalidPublicKey"

/-- the wording of an error -/
def message : TokenError → String
  | .precondition m => "Precondition failed: " ++ m
  | .signing algorithm keyId _ =>
    "Signing failed for algorithm [" ++ algorithm ++ "] key identifier [" ++ keyId ++ "]"
  | .noEligibleSigner expiration => "No signing key valid through " ++ expiration.text
  | .keyProvider m _ => "Key provider error: " ++ m
  | .invalidTokenFormat m => "Invalid token format: " ++ m
  | .tokenExpired => "Token expired"
  | .tokenNotYetValid => "Token not yet valid"
  | .invalidSignature => "Invalid signature"
  | .invalidAudience m => "Invalid audience: " ++ m
  | .missingClaim name => "Missing claim: " ++ name
  | .unsupportedAlgorithm m => "Unsupported algorithm: " ++ m
  | .keyNotFound keyId => "Signing key not found: " ++ keyId
  | .keyRevoked keyId => "Signing key revoked: " ++ keyId
  | .invalidPublicKey m => "Invalid public key: " ++ m

/-- what lies behind an error, the nearest cause first -/
def causes : TokenError → List String
  | .signing _ _ cause => [cause]
  | .keyProvider _ cause => cause.toList
  | _ => []

end TokenError

/-- a refusal of the signed form -/
inductive JwsError where
  | invalidToken
  | invalidSignature
  | invalidEcdsaKey
  | invalidRsaKey (reason : String)
  | rsaFailedSigning
  | invalidAlgorithmName
  | invalidKeyFormat
  | missingRequiredClaim (name : String)
  | expiredSignature
  | invalidIssuer
  | invalidAudience
  | invalidSubject
  | immatureSignature
  | invalidAlgorithm
  | missingAlgorithm
  | base64 (e : Base64.Error)
  | json (e : Json.Error)

namespace JwsError

/-- the wording of a refusal -/
def message : JwsError → String
  | .invalidToken => "InvalidToken"
  | .invalidSignature => "InvalidSignature"
  | .invalidEcdsaKey => "InvalidEcdsaKey"
  | .invalidRsaKey reason => "RSA key invalid: " ++ reason
  | .rsaFailedSigning => "RsaFailedSigning"
  | .invalidAlgorithmName => "InvalidAlgorithmName"
  | .invalidKeyFormat => "InvalidKeyFormat"
  | .missingRequiredClaim name => "Missing required claim: " ++ name
  | .expiredSignature => "ExpiredSignature"
  | .invalidIssuer => "InvalidIssuer"
  | .invalidAudience => "InvalidAudience"
  | .invalidSubject => "InvalidSubject"
  | .immatureSignature => "ImmatureSignature"
  | .invalidAlgorithm => "InvalidAlgorithm"
  | .missingAlgorithm => "MissingAlgorithm"
  | .base64 e => "Base64 error: " ++ e.message
  | .json e => "JSON error: " ++ e.message

/-- a refusal as a caller sees it -/
def toTokenError : JwsError → TokenError
  | .invalidToken => .invalidTokenFormat "Invalid JWT structure"
  | .invalidSignature => .invalidSignature
  | .expiredSignature => .tokenExpired
  | .immatureSignature => .tokenNotYetValid
  | .invalidAudience => .invalidAudience "Audience validation failed"
  | .invalidAlgorithm => .unsupportedAlgorithm "Algorithm does not match key"
  | .invalidKeyFormat => .invalidPublicKey ("JWT error: " ++ message .invalidKeyFormat)
  | .missingRequiredClaim name => .missingClaim name
  | e => .invalidTokenFormat ("JWT error: " ++ e.message)

end JwsError

end Credentials
