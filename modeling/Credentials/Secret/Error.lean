/-!
# What can go wrong with secrets

* `SecretError`               the causes for which a secret service fails;
* `SecretError.message`       their wording;
* `SecretError.causes`        the wording of what lies behind them;
* `SecretError.isTransport`   whether the service could not be reached.
-/

namespace Credentials

inductive SecretError where
  | configuration (message : String)
  | transport (message : String) (cause : Option SecretError)
  | timeout
  /-- the service refuses an operation -/
  | rejected (operation message : String)
  /-- a stored secret has another shape than agreed -/
  | contractViolation (space key message : String)
  | serialization (message : String) (cause : Option SecretError)

namespace SecretError

/-- the name of the kind of an error -/
def kind : SecretError → String
  | .configuration _ => "Configuration"
  | .transport .. => "Transport"
  | .timeout => "Timeout"
  | .rejected .. => "Rejected"
  | .contractViolation .. => "ContractViolation"
  | .serialization .. => "Serialization"

/-- the wording of an error -/
def message : SecretError → String
  | .configuration m => "Configuration error: " ++ m
  | .transport m _ => "Transport error: " ++ m
  | .timeout => "Operation timeout"
  | .rejected operation m => operation ++ " rejected: " ++ m
  | .contractViolation space key m =>
    "Contract violation reading '" ++ space ++ "/" ++ key ++ "': " ++ m
  | .serialization m _ => "Serialization error: " ++ m

/-- what lies behind an error, the nearest cause first -/
def causes : SecretError → List String
  | .transport _ (some e) => e.message :: e.causes
  | .serialization _ (some e) => e.message :: e.causes
  | _ => []

/-- the service could not be reached -/
def isTransport : SecretError → Bool
  | .transport .. | .timeout => true
  | _ => false

end SecretError

end Credentials
