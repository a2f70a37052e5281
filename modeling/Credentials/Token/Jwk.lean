import Credentials.Json.Record
import Credentials.Token.Algorithm

/-!
# Keys inside headers

A header may carry a key. It is an object whose members are collected first, all of them, so that
nothing is asked about their meaning in a text that breaks off. Then the common fields are taken from
them one by one, and last the parameters that the type of the key demands.

* `Jwk.Common`               the fields that keys of every type may have;
* `Jwk.Parameters`           the parameters of a type of keys;
* `Jwk`                      a key;
* `Jwk.members`              the members of a key, as they are written;
* `Jwk.Parameters.ofMembers?`   the parameters among some members;
* `Jwk.ofTree`               a key out of a written tree.

The parameters are those of the one type that the member `kty` names. Each of them has to be there just
once; members of other names do not matter.
-/

namespace Credentials

namespace Jwk

open Json (Tree Piece Member Ending Slot orMalformed)

/-! ## What a key says -/

/-- what a key is for -/
inductive Use where
  | signature
  | encryption
  | other (name : String)
  deriving DecidableEq

def Use.ofName : String → Use
  | "sig" => .signature
  | "enc" => .encryption
  | s => .other s

/-- what may be done with a key -/
inductive Operation where
  | sign
  | verify
  | encrypt
  | decrypt
  | wrapKey
  | unwrapKey
  | deriveKey
  | deriveBits
  | other (name : String)
  deriving DecidableEq

def Operation.ofName : String → Operation
  | "sign" => .sign
  | "verify" => .verify
  | "encrypt" => .encrypt
  | "decrypt" => .decrypt
  | "wrapKey" => .wrapKey
  | "unwrapKey" => .unwrapKey
  | "deriveKey" => .deriveKey
  | "deriveBits" => .deriveBits
  | s => .other s

/-- the algorithm a key is made for: one of signatures, one of encryption, or one that is not known -/
inductive Purpose where
  | signing (algorithm : Algorithm)
  | rsa1_5
  | rsaOaep
  | rsaOaep256
  | unknown
  deriving DecidableEq

def Purpose.ofName (s : String) : Purpose :=
  match Algorithm.ofName? s with
  | some a => .signing a
  | none =>
    match s with
    | "RSA1_5" => .rsa1_5
    | "RSA-OAEP" => .rsaOaep
    | "RSA-OAEP-256" => .rsaOaep256
    | _ => .unknown

inductive Curve where
  | p256
  | p384
  | p521
  | ed25519
  deriving DecidableEq

def Curve.name : Curve → String
  | .p256 => "P-256"
  | .p384 => "P-384"
  | .p521 => "P-521"
  | .ed25519 => "Ed25519"

def Curve.all : List Curve := [.p256, .p384, .p521, .ed25519]

def Curve.ofName? (s : String) : Option Curve := Curve.all.find? fun c => c.name == s

theorem Curve.ofName?_name (c : Curve) : ofName? c.name = some c := by cases c <;> rfl

/-- the fields that keys of every type may have -/
structure Common where
  use : Option Use
  operations : Option (List Operation)
  purpose : Option Purpose
  keyId : Option String
  x5u : Option String
  x5c : Option (List String)
  x5t : Option String
  x5tS256 : Option String
  deriving DecidableEq

/-- the parameters of a type of keys -/
inductive Parameters where
  | ellipticCurve (curve : Curve) (x y : String)
  | rsa (n e : String)
  | octets (k : String)
  | octetPair (curve : Curve) (x : String)
  deriving DecidableEq

end Jwk

/-- a key in a header -/
structure Jwk where
  common : Jwk.Common
  parameters : Jwk.Parameters
  deriving DecidableEq

namespace Jwk

open Json (Tree Piece Member Ending Slot orMalformed)

/-! ## Members -/

/-- values of members may be nested so deep: the header and the key are around them -/
def memberDepth : Nat := Json.maxDepth - 2

/-- takes one member; its value has to be readable, whatever its name is -/
def collect (done : List (String × Tree)) (name : String) (t : Tree) :
    Except Json.Error (List (String × Tree)) := do
  let _ ← t.value memberDepth
  .ok (done ++ [(name, t)])

/-- the members of a key, with their values as they are written -/
def members (written : List Member) (ending : Ending) : Except Json.Error (List (String × Tree)) :=
  Tree.foldMembers collect ending [] written

/-! ## Common fields -/

/-- the name of an algorithm: as a string, or as an object with this one key and nothing at it -/
def purposeOfTree : Tree → Except Json.Error Purpose
  | .string ps => Purpose.ofName <$> orMalformed (Piece.text? ps)
  | .object [(k, v)] _ => do
    let name ← orMalformed (Piece.text? k)
    match v with
    | .object [] _ => .ok ()
    | v => v.unit
    .ok (Purpose.ofName name)
  | .object .. => .error (.invalidValue .map "map with a single key")
  | t => t.mismatch "string or map"

def useOfTree : Tree → Except Json.Error (Option Use) :=
  Tree.optional fun t => Use.ofName <$> t.text

def operationsOfTree : Tree → Except Json.Error (Option (List Operation)) :=
  Tree.optional fun t => List.map Operation.ofName <$> t.texts

/-- an optional text -/
def textOfTree : Tree → Except Json.Error (Option String) := Tree.optional Tree.text

/-- optional texts -/
def textsOfTree : Tree → Except Json.Error (Option (List String)) := Tree.optional Tree.texts

/-- the common fields that were met -/
structure Slots where
  use : Slot (Option Use) := none
  operations : Slot (Option (List Operation)) := none
  purpose : Slot (Option Purpose) := none
  keyId : Slot (Option String) := none
  x5u : Slot (Option String) := none
  x5c : Slot (Option (List String)) := none
  x5t : Slot (Option String) := none
  x5tS256 : Slot (Option String) := none

/-- takes one member; members of other names are no common fields -/
def Slots.take (s : Slots) (name : String) (t : Tree) : Except Json.Error Slots :=
  match name with
  | "use" => do
    let v ← Slot.fill name s.use (useOfTree t)
    .ok { s with use := v }
  | "key_ops" => do
    let v ← Slot.fill name s.operations (operationsOfTree t)
    .ok { s with operations := v }
  | "alg" => do
    let v ← Slot.fill name s.purpose (t.optional purposeOfTree)
    .ok { s with purpose := v }
  | "kid" => do
    let v ← Slot.fill name s.keyId (textOfTree t)
    .ok { s with keyId := v }
  | "x5u" => do
    let v ← Slot.fill name s.x5u (textOfTree t)
    .ok { s with x5u := v }
  | "x5c" => do
    let v ← Slot.fill name s.x5c (textsOfTree t)
    .ok { s with x5c := v }
  | "x5t" => do
    let v ← Slot.fill name s.x5t (textOfTree t)
    .ok { s with x5t := v }
  | "x5t#S256" => do
    let v ← Slot.fill name s.x5tS256 (textOfTree t)
    .ok { s with x5tS256 := v }
  | _ => .ok s

/-- the common fields that were met; none of them has to be there -/
def Slots.finish (s : Slots) : Common :=
  ⟨s.use.join, s.operations.join, s.purpose.join, s.keyId.join, s.x5u.join, s.x5c.join, s.x5t.join,
    s.x5tS256.join⟩

/-- the common fields among some members -/
def Common.ofMembers (ms : List (String × Tree)) : Except Json.Error Common := do
  let s ← ms.foldlM (fun s m => Slots.take s m.1 m.2) {}
  .ok s.finish

/-! ## Parameters -/

/-- the value of a name that is there just once -/
def only? (ms : List (String × Tree)) (name : String) : Option Tree :=
  match ms.filter fun m => m.1 == name with
  | [(_, t)] => some t
  | _ => none

/-- the string of a name -/
def text? (ms : List (String × Tree)) (name : String) : Option String :=
  match only? ms name with
  | some (.string ps) => Piece.text? ps
  | _ => none

/-- the choice that stands at a name: as a string, or as an object with this one key and `null` -/
def choice? (ms : List (String × Tree)) (name : String) : Option String :=
  match only? ms name with
  | some (.string ps) => Piece.text? ps
  | some (.object [(k, .null)] _) => Piece.text? k
  | _ => none

/-- the parameters among some members -/
def Parameters.ofMembers? (ms : List (String × Tree)) : Option Parameters := do
  match ← choice? ms "kty" with
  | "EC" => do
    let curve ← (choice? ms "crv").bind Curve.ofName?
    some (.ellipticCurve curve (← text? ms "x") (← text? ms "y"))
  | "RSA" => some (.rsa (← text? ms "n") (← text? ms "e"))
  | "oct" => some (.octets (← text? ms "k"))
  | "OKP" => do
    let curve ← (choice? ms "crv").bind Curve.ofName?
    some (.octetPair curve (← text? ms "x"))
  | _ => none

/-- a key out of a written tree -/
def ofTree : Tree → Except Json.Error Jwk
  | .object written ending => do
    let ms ← members written ending
    let common ← Common.ofMembers ms
    let parameters ← orMalformed (Parameters.ofMembers? ms)
    .ok ⟨common, parameters⟩
  | t => t.mismatch "struct Jwk"

end Jwk

end Credentials
