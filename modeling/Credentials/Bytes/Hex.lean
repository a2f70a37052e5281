import Credentials.Bytes.Utf8

/-!
# Octets in hexadecimal

Two lower-case digits an octet, the high half first.

* `Hex.encode`    the written form;
* `Hex.decode?`   the octets of a written form; both cases of a letter are read.
-/

namespace Credentials.Hex

/-- the digit of a value below sixteen -/
def digit (n : Nat) : Char :=
  if n < 10 then Char.ofNat (48 + n) else Char.ofNat (87 + n)

/-- the value of a digit of either case -/
def value? (c : Char) : Option Nat :=
  if '0' ≤ c ∧ c ≤ '9' then some (c.toNat - 48)
  else if 'a' ≤ c ∧ c ≤ 'f' then some (c.toNat - 87)
  else if 'A' ≤ c ∧ c ≤ 'F' then some (c.toNat - 55)
  else none

/-- the two digits of an octet -/
def pair (b : UInt8) : List Char := [digit (b.toNat / 16), digit (b.toNat % 16)]

/-- the written form of octets -/
def encode (bs : Bytes) : String := String.ofList (bs.flatMap pair)

/-- reads digits two by two -/
def octets? : List Char → Option Bytes
  | [] => some []
  | h :: l :: r => do
    let hi ← value? h
    let lo ← value? l
    let rest ← octets? r
    some (UInt8.ofNat (hi * 16 + lo) :: rest)
  | [_] => none

/-- the octets of a written form -/
def decode? (s : String) : Option Bytes := octets? s.toList

/-- the shortest lower-case digits of a number, at least one -/
def natural (n : Nat) : List Char := Nat.toDigits 16 n

end Credentials.Hex
