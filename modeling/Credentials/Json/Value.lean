import Credentials.Decimal.Shortest
import Credentials.Bytes.Hex

/-!
# JSON values and how they are written

* `Number`          an unsigned number of 64 bits, a negative one of 64 bits, or a float;
* `Json`            a value; members keep the order they are given in;
* `Json.insert`     a member put into its place by the order of names, in place of one of that name;
* `Json.get?`       the member of an object;
* `Json.text`       the compact written form, with only the escapes that JSON demands.
-/

namespace Credentials

/-- floats are written positionally from `1e-5` to below `1e16`, and with an exponent elsewhere -/
def jsonFloats : DecimalStyle := ⟨-5, 15⟩

inductive Number where
  /-- from zero to below `2^64` -/
  | natural (n : Nat)
  /-- `-n`, from one to `2^63` -/
  | negative (n : Nat)
  | float (x : Binary64)
  deriving DecidableEq, Repr

/-- the written form of a number -/
def Number.text : Number → String
  | .natural n => toString n
  | .negative n => "-" ++ toString n
  | .float x => x.text jsonFloats

inductive Json where
  | null
  | bool (b : Bool)
  | number (n : Number)
  | string (s : String)
  | array (items : List Json)
  | object (members : List (String × Json))

namespace Json

/-- an unsigned number -/
def nat (n : Nat) : Json := .number (.natural n)

/-- a text or nothing -/
def option : Option String → Json
  | some s => .string s
  | none => .null

/-- puts a member into its place by the order of names; one of the same name is replaced -/
def insert (name : String) (value : Json) : List (String × Json) → List (String × Json)
  | [] => [(name, value)]
  | (n, v) :: r =>
    if name = n then (name, value) :: r
    else if name < n then (name, value) :: (n, v) :: r
    else (n, v) :: insert name value r

/-- the member of an object -/
def get? (j : Json) (name : String) : Option Json :=
  match j with
  | .object members => members.lookup name
  | _ => none

/-! ## Writing -/

/-- how a character is written inside a string -/
def escape (c : Char) : List Char :=
  if c = Char.ofNat 34 then ['\\', Char.ofNat 34]
  else if c = '\\' then ['\\', '\\']
  else if c = Char.ofNat 8 then ['\\', 'b']
  else if c = '\t' then ['\\', 't']
  else if c = '\n' then ['\\', 'n']
  else if c = Char.ofNat 12 then ['\\', 'f']
  else if c = '\r' then ['\\', 'r']
  else if c.toNat < 32 then
    ['\\', 'u', '0', '0', Hex.digit (c.toNat / 16), Hex.digit (c.toNat % 16)]
  else [c]

/-- a string in quotes -/
def quoted (s : String) : List Char :=
  Char.ofNat 34 :: s.toList.flatMap escape ++ [Char.ofNat 34]

mutual

/-- the characters of a value -/
def chars : Json → List Char
  | .null => ['n', 'u', 'l', 'l']
  | .bool true => ['t', 'r', 'u', 'e']
  | .bool false => ['f', 'a', 'l', 's', 'e']
  | .number n => n.text.toList
  | .string s => quoted s
  | .array items => '[' :: itemChars items ++ [']']
  | .object members => '\x7b' :: memberChars members ++ ['\x7d']

/-- items with commas between them -/
def itemChars : List Json → List Char
  | [] => []
  | [v] => v.chars
  | v :: r => v.chars ++ ',' :: itemChars r

/-- members with commas between them -/
def memberChars : List (String × Json) → List Char
  | [] => []
  | [(n, v)] => quoted n ++ ':' :: v.chars
  | (n, v) :: r => quoted n ++ ':' :: v.chars ++ ',' :: memberChars r

end

/-- the written form of a value -/
def text (j : Json) : String := String.ofList j.chars

end Json

end Credentials
