import Credentials.Bytes.Hex

/-!
# Random identifiers (UUID version 4)

* `Uuid.ofRandom`   the identifier of 16 random octets;
* `Uuid.text`       its 32 lower-case digits in groups of 8, 4, 4, 4 and 12.
-/

namespace Credentials.Uuid

/-- sixteen octets, the last one drawn in front, with the version and the variant set -/
def ofRandom (bs : Bytes) : Bytes :=
  (bs.reverse.modify 6 fun b => b &&& 0x0f ||| 0x40).modify 8 fun b => b &&& 0x3f ||| 0x80

/-- digits of octets -/
def digits (bs : Bytes) : List Char := bs.flatMap Hex.pair

/-- the written form of an identifier -/
def text (bs : Bytes) : String :=
  String.ofList (digits (bs.take 4) ++ '-' :: digits ((bs.drop 4).take 2) ++
    '-' :: digits ((bs.drop 6).take 2) ++ '-' :: digits ((bs.drop 8).take 2) ++
    '-' :: digits (bs.drop 10))

end Credentials.Uuid
