import Credentials.Json.Record
import Credentials.Token.Algorithm
import Credentials.Token.Compact
import Credentials.Token.Error
import Credentials.Token.Jwk

/-!
# Token headers

* `Header`          the fields of a header; all but the algorithm may be missing;
* `Header.ofTree`   a header out of a written tree;
* `Header.ofToken`  the header of a token, cut at its last two dots;
* `Header.issued`   the header that issued tokens have, as JSON.
-/

namespace Credentials

structure Header where
  typ : Option String
  algorithm : Algorithm
  cty : Option String
  jku : Option String
  jwk : Option Jwk
  keyId : Option String
  x5u : Option String
  x5c : Option (List String)
  x5t : Option String
  x5tS256 : Option String

namespace Header

open Json (Tree Member Ending Items Slot)

/-- an algorithm by its name -/
def algorithmOfTree : Tree → Except Json.Error Algorithm :=
  Tree.variant (Algorithm.all.map Algorithm.name) Algorithm.ofName?

/-- whether there is a key in a header -/
def hasJwk (h : Header) : Bool := h.jwk.isSome

/-- an optional key -/
def jwkOfTree : Tree → Except Json.Error (Option Jwk) := Tree.optional Jwk.ofTree

/-- an optional text -/
def textOfTree : Tree → Except Json.Error (Option String) := Tree.optional Tree.text

/-- the fields that were met -/
structure Slots where
  typ : Slot (Option String) := none
  algorithm : Slot Algorithm := none
  cty : Slot (Option String) := none
  jku : Slot (Option String) := none
  jwk : Slot (Option Jwk) := none
  keyId : Slot (Option String) := none
  x5u : Slot (Option String) := none
  x5c : Slot (Option (List String)) := none
  x5t : Slot (Option String) := none
  x5tS256 : Slot (Option String) := none

/-- takes one member; members of other names do not matter -/
def Slots.take (s : Slots) (name : String) (t : Tree) : Except Json.Error Slots :=
  match name with
  | "typ" => do
    let v ← Slot.fill name s.typ (textOfTree t)
    .ok { s with typ := v }
  | "alg" => do
    let v ← Slot.fill name s.algorithm (algorithmOfTree t)
    .ok { s with algorithm := v }
  | "cty" => do
    let v ← Slot.fill name s.cty (textOfTree t)
    .ok { s with cty := v }
  | "jku" => do
    let v ← Slot.fill name s.jku (textOfTree t)
    .ok { s with jku := v }
  | "jwk" => do
    let v ← Slot.fill name s.jwk (jwkOfTree t)
    .ok { s with jwk := v }
  | "kid" => do
    let v ← Slot.fill name s.keyId (textOfTree t)
    .ok { s with keyId := v }
  | "x5u" => do
    let v ← Slot.fill name s.x5u (textOfTree t)
    .ok { s with x5u := v }
  | "x5c" => do
    let v ← Slot.fill name s.x5c (t.optional Tree.texts)
    .ok { s with x5c := v }
  | "x5t" => do
    let v ← Slot.fill name s.x5t (textOfTree t)
    .ok { s with x5t := v }
  | "x5t#S256" => do
    let v ← Slot.fill name s.x5tS256 (textOfTree t)
    .ok { s with x5tS256 := v }
  | _ => do
    t.skip
    .ok s

/-- the header of the fields that were met -/
def Slots.finish (s : Slots) : Except Json.Error Header := do
  let algorithm ← Slot.require "alg" s.algorithm
  .ok ⟨s.typ.join, algorithm, s.cty.join, s.jku.join, s.jwk.join, s.keyId.join,
    s.x5u.join, s.x5c.join, s.x5t.join, s.x5tS256.join⟩

def ofMembers (members : List Member) (ending : Ending) : Except Json.Error Header := do
  let s ← Tree.foldMembers Slots.take ending {} members
  s.finish

def ofItems (xs : Items) : Except Json.Error (Header × Items) := do
  let (typ, xs) ← xs.next textOfTree
  let (algorithm, xs) ← xs.next algorithmOfTree
  let (cty, xs) ← xs.next textOfTree
  let (jku, xs) ← xs.next textOfTree
  let (jwk, xs) ← xs.next jwkOfTree
  let (keyId, xs) ← xs.next textOfTree
  let (x5u, xs) ← xs.next textOfTree
  let (x5c, xs) ← xs.next (Tree.optional Tree.texts)
  let (x5t, xs) ← xs.next textOfTree
  let (x5tS256, xs) ← xs.next textOfTree
  .ok (⟨typ, algorithm, cty, jku, jwk, keyId, x5u, x5c, x5t, x5tS256⟩, xs)

/-- a header out of a written tree -/
def ofTree : Tree → Except Json.Error Header :=
  Tree.record "Header" "10 elements" ofMembers ofItems

/-- the header of a segment -/
def ofSegment (segment : String) : Except JwsError Header := do
  let bs ← (Compact.decode segment).mapError .base64
  (Json.readText ofTree bs).mapError .json

/-- the header of a token -/
def ofTokenJws (token : String) : Except JwsError Header :=
  match Compact.ofText? token with
  | some c => ofSegment c.header
  | none => .error .invalidToken

/-- the header of a token, unverified -/
def ofToken (token : String) : Except TokenError Header :=
  (ofTokenJws token).mapError fun e =>
    .invalidTokenFormat ("Failed to decode JWT header: " ++ e.message)

/-- the header of an issued token -/
def issued (algorithm : Algorithm) (keyId : String) : Json :=
  .object [("typ", .string "JWT"), ("alg", .string algorithm.name), ("kid", .string keyId)]

end Header

end Credentials
