import Credentials.Json.Error
import Credentials.Json.Tree

/-!
# Values out of a written tree

Every reader walks its tree from left to right and reports the first problem it meets.

* `Piece.text?`         the text of a written string: surrogates have to be paired, octets
                        well-formed;
* `Numeral.value?`      the value of a written number, if it is in range;
* `Tree.text`, `Tree.word`, `Tree.optional`, `Tree.texts`, `Tree.variant`   readers of one value;
* `Tree.skip`           a value that does not matter, but has to be there;
* `Tree.value`          any value, nested at most so deep;
* `Document.read`       a whole text read by such a reader.
-/

namespace Credentials.Json

-- powers are those of natural numbers, whatever else has some
attribute [local instance (high)] instPowNat

/-! ## Strings -/

def isHighSurrogate (n : Nat) : Bool := 0xd800 ≤ n && n < 0xdc00
def isLowSurrogate (n : Nat) : Bool := 0xdc00 ≤ n && n < 0xe000

/-- the octets of a code point that is no surrogate -/
def codePoint (n : Nat) : Bytes := utf8 (String.singleton (Char.ofNat n))

/-- the octets of a written string, if its surrogates are paired -/
def Piece.octets? : List Piece → Option Bytes
  | [] => some []
  | .octet b :: r => (b :: ·) <$> octets? r
  | .unit n :: .unit m :: r =>
    if isHighSurrogate n then
      if isLowSurrogate m then
        (codePoint (0x10000 + (n - 0xd800) * 0x400 + (m - 0xdc00)) ++ ·) <$> octets? r
      else none
    else if isLowSurrogate n then none
    else (codePoint n ++ ·) <$> octets? (.unit m :: r)
  | .unit n :: r =>
    if isHighSurrogate n || isLowSurrogate n then none else (codePoint n ++ ·) <$> octets? r

/-- the text of a written string -/
def Piece.text? (ps : List Piece) : Option String := do
  let bs ← octets? ps
  ofUtf8? bs

/-! ## Numbers -/

/-- the largest number of 64 bits -/
def maxWord : Nat := 2 ^ (64 : Nat) - 1

/-- appends digits to a number of 64 bits while they fit; the rest is counted -/
def takeDigits (n : Nat) : List Nat → Nat × Nat
  | [] => (n, 0)
  | d :: r => if n * 10 + d ≤ maxWord then takeDigits (n * 10 + d) r else (n, r.length + 1)

/-- a number out of decimal digits -/
def ofDigits (ds : List Nat) : Nat := ds.foldl (fun n d => n * 10 + d) 0

/-- the float of a written number: as many leading digits as fit in 64 bits, times a power of ten -/
def Numeral.float? (n : Numeral) : Option Binary64 := do
  let (whole, dropped) := takeDigits 0 n.whole
  let (all, beyond) := takeDigits whole n.fraction
  let shift : Int := dropped - (n.fraction.length - beyond : Nat)
  let power : Int :=
    match n.exponent with
    | none => 0
    | some (true, ds) => -ofDigits ds
    | some (false, ds) => ofDigits ds
  let m ← Magnitude.ofNat? all
  let m ← m.scale? (shift + power)
  some ⟨n.negative, m⟩

/-- the value of a written number. An unsigned integer of 64 bits and a negative one are kept exactly;
all others, minus zero among them, are floats. -/
def Numeral.value? (n : Numeral) : Option Number :=
  if n.fraction = [] ∧ n.exponent = none ∧ !n.negative ∧ ofDigits n.whole ≤ maxWord then
    some (.natural (ofDigits n.whole))
  else if n.fraction = [] ∧ n.exponent = none ∧ n.negative ∧ 0 < ofDigits n.whole ∧
      ofDigits n.whole ≤ 2 ^ (63 : Nat) then
    some (.negative (ofDigits n.whole))
  else .float <$> n.float?

/-! ## Readers of one value -/

/-- a value, or the news that there is none -/
def orMalformed : Option α → Except Error α
  | some a => .ok a
  | none => .error .malformed

namespace Tree

/-- what a tree shows before it is looked into -/
def found : Tree → Except Error Found
  | .null => .ok .null
  | .bool b => .ok (.bool b)
  | .number n => .number <$> orMalformed n.value?
  | .string ps => .string <$> orMalformed (Piece.text? ps)
  | .array .. => .ok .sequence
  | .object .. => .ok .map
  | .broken => .error .malformed

/-- something else was expected -/
def mismatch (t : Tree) (expected : String) : Except Error α := do
  let f ← t.found
  .error (.invalidType f expected)

/-- a string -/
def text : Tree → Except Error String
  | .string ps => orMalformed (Piece.text? ps)
  | t => t.mismatch "a string"

/-- an unsigned number of 64 bits -/
def word : Tree → Except Error Nat
  | .number n => do
    match ← orMalformed n.value? with
    | .natural k => .ok k
    | .negative k => .error (.invalidValue (.number (.negative k)) "u64")
    | .float x => .error (.invalidType (.number (.float x)) "u64")
  | t => t.mismatch "u64"

/-- a value or `null` -/
def optional (read : Tree → Except Error α) : Tree → Except Error (Option α)
  | .null => .ok none
  | t => some <$> read t

/-- nothing: `null` -/
def unit : Tree → Except Error Unit
  | .null => .ok ()
  | t => t.mismatch "unit"

/-- an array of strings -/
def texts : Tree → Except Error (List String)
  | .array items ending => do
    let ss ← items.mapM text
    if ending = .closed then .ok ss else .error .malformed
  | t => t.mismatch "a sequence"

/-- one of several names: as a string, or as an object with this one key and `null` -/
def variant (names : List String) (ofName? : String → Option α) : Tree → Except Error α
  | .string ps => do
    let s ← orMalformed (Piece.text? ps)
    named s
  | .object ((k, v) :: rest) ending => do
    let s ← orMalformed (Piece.text? k)
    let a ← named s
    v.unit
    if rest.isEmpty && ending == .closed then .ok a else .error .malformed
  | _ => .error .malformed
where
  /-- the one of this name -/
  named (s : String) : Except Error α :=
    match ofName? s with
    | some a => .ok a
    | none => .error (.unknownVariant s names)

/-- a value that does not matter -/
def skip (t : Tree) : Except Error Unit := if t.isWhole then .ok () else .error .malformed

mutual

/-- any value, with containers nested at most `depth` deep -/
def value (depth : Nat) : Tree → Except Error Json
  | .null => .ok .null
  | .bool b => .ok (.bool b)
  | .number n => .number <$> orMalformed n.value?
  | .string ps => .string <$> orMalformed (Piece.text? ps)
  | .array items ending =>
    match depth with
    | 0 => .error .malformed
    | depth + 1 => do
      let vs ← values depth items
      if ending = .closed then .ok (.array vs) else .error .malformed
  | .object members ending =>
    match depth with
    | 0 => .error .malformed
    | depth + 1 => do
      let ms ← memberValues depth [] members
      if ending = .closed then .ok (.object ms) else .error .malformed
  | .broken => .error .malformed

/-- the items of an array -/
def values (depth : Nat) : List Tree → Except Error (List Json)
  | [] => .ok []
  | t :: r => do
    let v ← t.value depth
    let vs ← values depth r
    .ok (v :: vs)

/-- the members of an object, by the order of names; of a repeated name the last one counts -/
def memberValues (depth : Nat) (done : List (String × Json)) :
    List Member → Except Error (List (String × Json))
  | [] => .ok done
  | (k, t) :: r => do
    let name ← orMalformed (Piece.text? k)
    let v ← t.value depth
    memberValues depth (Json.insert name v done) r

end

end Tree

/-- containers may be nested so deep in a text read by `Tree.value` -/
def maxDepth : Nat := 127

/-- reads a whole text -/
def Document.read (read : Tree → Except Error α) (d : Document) : Except Error α := do
  let a ← read d.tree
  if d.complete then .ok a else .error .malformed

/-- reads a whole text -/
def readText (read : Tree → Except Error α) (text : Bytes) : Except Error α :=
  (Document.ofText text).read read

end Credentials.Json
