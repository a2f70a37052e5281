import Credentials.Json.Value
import Credentials.Text.Quoted

/-!
# What can be wrong with a JSON text

* `Json.Found`           what stands where something else was expected;
* `Json.Error`           a text that is no JSON, or JSON of another shape than asked for;
* `Json.Error.message`   its wording.
-/

namespace Credentials.Json

/-- what stands in a text -/
inductive Found where
  | null
  | bool (b : Bool)
  | number (n : Number)
  | string (s : String)
  | sequence
  | map

/-- its name in a message -/
def Found.text : Found → String
  | .null => "null"
  | .bool true => "boolean `true`"
  | .bool false => "boolean `false`"
  | .number (.float x) => "floating point `" ++ (Number.float x).text ++ "`"
  | .number n => "integer `" ++ n.text ++ "`"
  | .string s => "string " ++ Quoted.string s
  | .sequence => "sequence"
  | .map => "map"

/-- a problem with a text -/
inductive Error where
  /-- the text is no JSON, holds a number or a string that has no value, or fits none of several
  shapes. What exactly is wrong is not told apart: all of these have one wording. -/
  | malformed
  | missingField (name : String)
  | duplicateField (name : String)
  | unknownField (name : String) (expected : List String)
  | unknownVariant (name : String) (expected : List String)
  | invalidType (found : Found) (expected : String)
  | invalidValue (found : Found) (expected : String)
  | invalidLength (length : Nat) (expected : String)

/-- a name between back quotes -/
def backQuoted (name : String) : String := "`" ++ name ++ "`"

/-- a list of names to choose from -/
def oneOf : List String → String
  | [] => "there are no choices"
  | [a] => "expected " ++ backQuoted a
  | [a, b] => "expected " ++ backQuoted a ++ " or " ++ backQuoted b
  | names => "expected one of " ++ ", ".intercalate (names.map backQuoted)

/-- the wording of a problem. All problems of syntax share the wording `<json>`, and no wording tells the
place in the text, by line and column, where the problem was met. -/
def Error.message : Error → String
  | .malformed => "<json>"
  | .missingField n => "missing field " ++ backQuoted n
  | .duplicateField n => "duplicate field " ++ backQuoted n
  | .unknownField n names => "unknown field " ++ backQuoted n ++ ", " ++ oneOf names
  | .unknownVariant n names => "unknown variant " ++ backQuoted n ++ ", " ++ oneOf names
  | .invalidType found expected => "invalid type: " ++ found.text ++ ", expected " ++ expected
  | .invalidValue found expected => "invalid value: " ++ found.text ++ ", expected " ++ expected
  | .invalidLength n expected => "invalid length " ++ toString n ++ ", expected " ++ expected

end Credentials.Json
