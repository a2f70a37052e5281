import Credentials.Bytes.Base64

/-!
# The compact form of a token

Three segments with dots between them.

* `splitDots`          characters cut at every dot;
* `Compact.segments`   a text cut at every dot;
* `Compact.ofText?`    the three segments of a text that is cut at its last two dots only;
* `Compact.text`       the segments joined;
* `Compact.signed`     what is signed: the first two segments, joined.
-/

namespace Credentials

/-- cuts characters at every dot -/
def splitDots : List Char → List (List Char)
  | [] => [[]]
  | c :: r =>
    if c = '.' then [] :: splitDots r
    else
      match splitDots r with
      | s :: ss => (c :: s) :: ss
      | [] => [[c]]

/-- joins characters with dots -/
def joinDots : List (List Char) → List Char
  | [] => []
  | [s] => s
  | s :: ss => s ++ '.' :: joinDots ss

/-- the segments of a token -/
structure Compact where
  header : String
  payload : String
  signature : String
  deriving DecidableEq

namespace Compact

/-- a text cut at every dot -/
def segments (token : String) : List String := (splitDots token.toList).map String.ofList

/-- a text cut at its last two dots -/
def ofText? (token : String) : Option Compact :=
  match (splitDots token.toList).reverse with
  | s :: p :: h :: hs =>
    some ⟨String.ofList (joinDots (h :: hs).reverse), String.ofList p, String.ofList s⟩
  | _ => none

/-- what is signed -/
def signed (c : Compact) : String := c.header ++ "." ++ c.payload

/-- the segments joined -/
def text (c : Compact) : String := c.signed ++ "." ++ c.signature

/-- the written form of a segment -/
def encode (bs : Bytes) : String := Base64.encode Base64.url bs

/-- the octets of a segment -/
def decode (segment : String) : Except Base64.Error Bytes := Base64.decode Base64.url (utf8 segment)

/-- a token without a signature, of any header and payload octets -/
def unsigned (header payload : Bytes) : Compact := ⟨encode header, encode payload, ""⟩

end Compact

end Credentials
