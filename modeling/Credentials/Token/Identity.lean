import Credentials.Text.Quoted
import Credentials.Time.Calendar

/-!
# Authenticated identities

* `Identity`        who has logged in, at which issuer, and until when;
* `Identity.new`    an identity whose name is its principal;
* `Identity.text`   an identity as text.
-/

namespace Credentials

structure Identity where
  principal : Option String
  name : Option String
  issuer : String
  expiration : Instant
  deriving DecidableEq

namespace Identity

/-- an identity whose name is its principal -/
def new (principal issuer : String) (expiration : Instant) : Identity :=
  ⟨some principal, some principal, issuer, expiration⟩

/-- the same identity under another name -/
def withName (i : Identity) (name : String) : Identity := { i with name := some name }

/-- an identity as text -/
def text (i : Identity) : String :=
  "AuthenticationToken \x7b principal: " ++ Quoted.option i.principal ++ ", name: " ++
    Quoted.option i.name ++ ", issuer: " ++ Quoted.string i.issuer ++ ", expiration: " ++
    i.expiration.compactText ++ " \x7d"

end Identity

end Credentials
