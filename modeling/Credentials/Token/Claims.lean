import Credentials.Json.Record
import Credentials.Token.Compact
import Credentials.Token.Error

/-!
# Token claims

* `Claims`            what a token says; instants are seconds since the epoch;
* `Claims.toJson`     the payload of an issued token;
* `Claims.ofTree`     claims out of a written tree: each of the eight names once, in any order;
* `Claims.ofToken`    the claims of a token, unverified;
* `Claims.validate`   the check of times and audience.
-/

namespace Credentials

structure Claims where
  jti : String
  sub : String
  iss : String
  aud : String
  nbf : Nat
  iat : Nat
  exp : Nat
  preferredUsername : String
  deriving DecidableEq

namespace Claims

open Json (Tree Member Ending Items Slot)

/-- claims as a JSON object -/
def toJson (c : Claims) : Json :=
  .object [("jti", .string c.jti), ("sub", .string c.sub), ("iss", .string c.iss),
    ("aud", .string c.aud), ("nbf", .nat c.nbf), ("iat", .nat c.iat), ("exp", .nat c.exp),
    ("preferred_username", .string c.preferredUsername)]

/-- the fields that were met -/
structure Slots where
  jti : Slot String := none
  sub : Slot String := none
  iss : Slot String := none
  aud : Slot String := none
  nbf : Slot Nat := none
  iat : Slot Nat := none
  exp : Slot Nat := none
  preferredUsername : Slot String := none

/-- takes one member; members of other names do not matter -/
def Slots.take (s : Slots) (name : String) (t : Tree) : Except Json.Error Slots :=
  match name with
  | "jti" => do
    let v ← Slot.fill name s.jti t.text
    .ok { s with jti := v }
  | "sub" => do
    let v ← Slot.fill name s.sub t.text
    .ok { s with sub := v }
  | "iss" => do
    let v ← Slot.fill name s.iss t.text
    .ok { s with iss := v }
  | "aud" => do
    let v ← Slot.fill name s.aud t.text
    .ok { s with aud := v }
  | "nbf" => do
    let v ← Slot.fill name s.nbf t.word
    .ok { s with nbf := v }
  | "iat" => do
    let v ← Slot.fill name s.iat t.word
    .ok { s with iat := v }
  | "exp" => do
    let v ← Slot.fill name s.exp t.word
    .ok { s with exp := v }
  | "preferred_username" => do
    let v ← Slot.fill name s.preferredUsername t.text
    .ok { s with preferredUsername := v }
  | _ => do
    t.skip
    .ok s

/-- the claims of the fields that were met; all have to be there -/
def Slots.finish (s : Slots) : Except Json.Error Claims := do
  let jti ← Slot.require "jti" s.jti
  let sub ← Slot.require "sub" s.sub
  let iss ← Slot.require "iss" s.iss
  let aud ← Slot.require "aud" s.aud
  let nbf ← Slot.require "nbf" s.nbf
  let iat ← Slot.require "iat" s.iat
  let exp ← Slot.require "exp" s.exp
  let preferredUsername ← Slot.require "preferred_username" s.preferredUsername
  .ok ⟨jti, sub, iss, aud, nbf, iat, exp, preferredUsername⟩

def ofMembers (members : List Member) (ending : Ending) : Except Json.Error Claims := do
  let s ← Tree.foldMembers Slots.take ending {} members
  s.finish

def ofItems (xs : Items) : Except Json.Error (Claims × Items) := do
  let (jti, xs) ← xs.next Tree.text
  let (sub, xs) ← xs.next Tree.text
  let (iss, xs) ← xs.next Tree.text
  let (aud, xs) ← xs.next Tree.text
  let (nbf, xs) ← xs.next Tree.word
  let (iat, xs) ← xs.next Tree.word
  let (exp, xs) ← xs.next Tree.word
  let (preferredUsername, xs) ← xs.next Tree.text
  .ok (⟨jti, sub, iss, aud, nbf, iat, exp, preferredUsername⟩, xs)

/-- claims out of a written tree -/
def ofTree : Tree → Except Json.Error Claims :=
  Tree.record "BearerClaims" "8 elements" ofMembers ofItems

/-- names a claim that is empty but must not be -/
def firstEmpty? (c : Claims) : Option String :=
  if c.jti = "" then some "jti"
  else if c.sub = "" then some "sub"
  else if c.iss = "" then some "iss"
  else if c.aud = "" then some "aud"
  else none

/-- the claims of a token, unverified; the token has exactly two dots -/
def ofToken (token : String) : Except TokenError Claims :=
  match Compact.segments token with
  | [_, payload, _] => do
    let bs ← (Compact.decode payload).mapError fun e =>
      .invalidTokenFormat ("Failed to decode JWT payload: " ++ e.message)
    let c ← (Json.readText ofTree bs).mapError fun e =>
      .invalidTokenFormat ("Failed to parse JWT claims: " ++ e.message)
    match c.firstEmpty? with
    | some name => .error (.missingClaim name)
    | none => .ok c
  | _ => .error (.invalidTokenFormat "JWT must have 3 parts separated by dots")

/-- seconds by which `nbf` and `iat` may lie in the future -/
def leeway : Nat := 60

/-- checks times against the present and the audience, if one is expected -/
def validate (c : Claims) (now : Nat) (audience : Option String) : Except TokenError Unit :=
  if c.exp ≤ now then .error .tokenExpired
  else if now + leeway < c.nbf then .error .tokenNotYetValid
  else if now + leeway < c.iat then .error (.invalidTokenFormat "iat claim is in the future")
  else if c.exp < c.iat then .error (.invalidTokenFormat "iat claim is after exp")
  else
    match audience with
    | some expected =>
      if c.aud = expected then .ok ()
      else .error (.invalidAudience ("expected '" ++ expected ++ "', got '" ++ c.aud ++ "'"))
    | none => .ok ()

end Claims

end Credentials
