import Credentials.Text.Quoted
import Credentials.Token.Error

/-!
# Which algorithms and key identifiers are accepted

* `Policy.checkAlgorithm`   only asymmetric algorithms; `none` and the symmetric ones are refused by
                            name, everything else that is not on the list as unknown;
* `Policy.checkKeyId`       1 to 128 octets of letters, digits, `.`, `_`, `:` and `-`.
-/

namespace Credentials.Policy

/-- never accepted -/
def forbiddenAlgorithms : List String := ["none", "HS256", "HS384", "HS512"]

/-- accepted for signing and verifying -/
def acceptedAlgorithms : List String :=
  ["EdDSA", "ES256", "ES384", "RS256", "RS384", "RS512", "PS256", "PS384", "PS512"]

/-- checks the name of an algorithm -/
def checkAlgorithm (name : String) : Except TokenError Unit :=
  if name ∈ forbiddenAlgorithms then
    .error (.unsupportedAlgorithm ("Algorithm '" ++ name ++ "' is not allowed for security reasons"))
  else if name ∈ acceptedAlgorithms then .ok ()
  else .error (.unsupportedAlgorithm ("Algorithm '" ++ name ++ "' is not in accepted list"))

/-- the longest key identifier, in octets -/
def maxKeyIdSize : Nat := 128

/-- a character of a key identifier -/
def isKeyIdChar (c : Char) : Bool :=
  c.isAlphanum || c == '.' || c == '_' || c == ':' || c == '-'

/-- checks a key identifier -/
def checkKeyId (keyId : String) : Except TokenError Unit :=
  if keyId = "" then .error (.invalidTokenFormat "kid cannot be empty")
  else if maxKeyIdSize < (utf8 keyId).length then
    .error (.invalidTokenFormat "kid exceeds 128 characters")
  else
    match keyId.toList.find? fun c => !isKeyIdChar c with
    | some c => .error (.invalidTokenFormat ("kid contains invalid character " ++ Quoted.char c))
    | none => .ok ()

end Credentials.Policy
