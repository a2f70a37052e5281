import Credentials.Bytes.Hex
import Credentials.Text.Printable

/-!
# Quoted text

Text and characters in quotes, with everything that has no shape of its own written out.

* `Quoted.string`   in double quotes;
* `Quoted.char`     in single quotes;
* `Quoted.option`   an optional text: `None`, or `Some(` the quoted text `)`.
-/

namespace Credentials.Quoted

/-- the double quote -/
def doubleQuote : Char := Char.ofNat 34

/-- the single quote -/
def singleQuote : Char := Char.ofNat 39

/-- a character inside quotes `q`: itself, a letter behind a backslash, or its code point -/
def escape (q c : Char) : List Char :=
  if c = Char.ofNat 0 then ['\\', '0']
  else if c = '\t' then ['\\', 't']
  else if c = '\r' then ['\\', 'r']
  else if c = '\n' then ['\\', 'n']
  else if c = '\\' ∨ c = q then ['\\', c]
  else if Text.isShown c then [c]
  else ['\\', 'u', '\x7b'] ++ Hex.natural c.toNat ++ ['\x7d']

/-- characters between quotes -/
def wrap (q : Char) (cs : List Char) : String :=
  String.ofList (q :: cs.flatMap (escape q) ++ [q])

/-- a text in double quotes -/
def string (s : String) : String := wrap doubleQuote s.toList

/-- a character in single quotes -/
def char (c : Char) : String := wrap singleQuote [c]

/-- an optional text -/
def option : Option String → String
  | none => "None"
  | some s => "Some(" ++ string s ++ ")"

end Credentials.Quoted
