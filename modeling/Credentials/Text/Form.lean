import Credentials.Bytes.Hex

/-!
# Form encoding

The way a field of a web form is written into a URL: letters, digits and `-`, `.`, `_`, `*` stand
for themselves, a space becomes `+`, and every other octet of the UTF-8 form becomes `%` and two
upper-case hexadecimal digits.

* `Form.encode`    the written form of a text;
* `Form.decode`    the octets of a written form.
-/

namespace Credentials.Form

/-- characters that stand for themselves -/
def isPlain (c : Char) : Bool :=
  c.isAlphanum || c == '-' || c == '.' || c == '_' || c == '*'

/-- an upper-case hexadecimal digit -/
def digit (n : Nat) : Char := if n < 10 then Char.ofNat (48 + n) else Char.ofNat (55 + n)

/-- how an octet is written -/
def octet (b : UInt8) : List Char :=
  let c := Char.ofNat b.toNat
  if isPlain c then [c]
  else if c = ' ' then ['+']
  else ['%', digit (b.toNat / 16), digit (b.toNat % 16)]

/-- the written form of a text -/
def encode (s : String) : String := String.ofList ((utf8 s).flatMap octet)

/-- the octets of written characters: `+` is a space, `%` and two digits an octet, and everything
else stands for its own octets -/
def decodeChars : List Char → Bytes
  | '+' :: r => 0x20 :: decodeChars r
  | '%' :: h :: l :: r =>
    match Hex.value? h, Hex.value? l with
    | some hi, some lo => UInt8.ofNat (hi * 16 + lo) :: decodeChars r
    | _, _ => 0x25 :: decodeChars (h :: l :: r)
  | c :: r => utf8 (String.singleton c) ++ decodeChars r
  | [] => []

/-- the octets of a written form -/
def decode (s : String) : Bytes := decodeChars s.toList

end Credentials.Form
