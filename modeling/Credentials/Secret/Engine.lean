import Credentials.Json.Decode

/-!
# Versions of the key-value engine

* `Engine`         the versions; the first is the default;
* `Engine.ofTree`  a version out of a written tree.
-/

namespace Credentials

inductive Engine where
  | v1
  | v2
  deriving DecidableEq, Repr

namespace Engine

/-- the version that is taken when none is named -/
def default : Engine := .v1

/-- the name of a version -/
def name : Engine → String
  | .v1 => "v1"
  | .v2 => "v2"

/-- the version as a constant -/
def constant : Engine → String
  | .v1 => "V1"
  | .v2 => "V2"

/-- the version of a name -/
def ofName? (s : String) : Option Engine :=
  if s = "v1" then some .v1 else if s = "v2" then some .v2 else none

/-- a version out of a written tree -/
def ofTree : Json.Tree → Except Json.Error Engine := Json.Tree.variant ["v1", "v2"] ofName?

/-- a version as JSON -/
def toJson (e : Engine) : Json := .string e.name

end Engine

end Credentials
