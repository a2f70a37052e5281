/-!
# Signature algorithms

* `Algorithm`          the algorithms that a token header can name;
* `Algorithm.name`     the name in a header;
* `Algorithm.ofName?`  the algorithm of a name.
-/

namespace Credentials

inductive Algorithm where
  | hs256
  | hs384
  | hs512
  | es256
  | es384
  | rs256
  | rs384
  | rs512
  | ps256
  | ps384
  | ps512
  | edDSA
  deriving DecidableEq, Repr

namespace Algorithm

/-- the name in a header -/
def name : Algorithm → String
  | .hs256 => "HS256"
  | .hs384 => "HS384"
  | .hs512 => "HS512"
  | .es256 => "ES256"
  | .es384 => "ES384"
  | .rs256 => "RS256"
  | .rs384 => "RS384"
  | .rs512 => "RS512"
  | .ps256 => "PS256"
  | .ps384 => "PS384"
  | .ps512 => "PS512"
  | .edDSA => "EdDSA"

/-- all algorithms -/
def all : List Algorithm :=
  [.hs256, .hs384, .hs512, .es256, .es384, .rs256, .rs384, .rs512, .ps256, .ps384, .ps512, .edDSA]

/-- the algorithm of a name -/
def ofName? (s : String) : Option Algorithm := all.find? fun a => a.name == s

theorem ofName?_name (a : Algorithm) : ofName? a.name = some a := by cases a <;> rfl

end Algorithm

end Credentials
