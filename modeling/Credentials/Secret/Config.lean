import Credentials.Json.Record
import Credentials.Secret.Engine
import Credentials.Secret.Error
import Credentials.Time.Span

/-!
# Settings of a secret service

* `VaultConfig`            where the service is, the token for it, the engine, and two time limits;
* `VaultConfig.validate`   the first thing that is wrong with settings;
* `VaultConfig.toJson`     settings as JSON, without the token;
* `VaultConfig.ofTree`     settings out of a written tree; fields of other names are refused;
* `VaultConfig.text`       settings as text, with the token hidden.
-/

namespace Credentials

structure VaultConfig where
  uri : String
  token : String
  engine : Engine
  connectTimeout : Span
  readTimeout : Span
  deriving DecidableEq

namespace VaultConfig

open Json (Tree Member Ending Items Slot)

/-- five seconds -/
def defaultConnectTimeout : Span := ⟨5, 0, by decide, nanosPerSecond_pos⟩

/-- fifteen seconds -/
def defaultReadTimeout : Span := ⟨15, 0, by decide, nanosPerSecond_pos⟩

/-- what follows a start -/
def after? (start cs : List Char) : Option (List Char) :=
  if start.isPrefixOf cs then some (cs.drop start.length) else none

/-- what follows the scheme of a web address -/
def afterScheme? (uri : String) : Option (List Char) :=
  match after? "https://".toList uri.toList with
  | some r => some r
  | none => after? "http://".toList uri.toList

/-- the first thing that is wrong with settings -/
def validate (c : VaultConfig) : Except SecretError Unit :=
  match afterScheme? c.uri with
  | none => .error (.configuration ("uri '" ++ c.uri ++ "' must use the http or https scheme"))
  | some rest =>
    if rest.all (· == '/') then .error (.configuration ("uri '" ++ c.uri ++ "' has no host"))
    else if Text.isBlankText c.token then .error (.configuration "token cannot be empty")
    else if c.connectTimeout.isZero then
      .error (.configuration "connect_timeout must be greater than zero")
    else if c.readTimeout.isZero then
      .error (.configuration "read_timeout must be greater than zero")
    else .ok ()

/-- settings that are valid -/
def build (c : VaultConfig) : Except SecretError VaultConfig := do
  c.validate
  .ok c

/-- settings as JSON, without the token -/
def toJson (c : VaultConfig) : Json :=
  .object [("uri", .string c.uri), ("kv_engine", c.engine.toJson),
    ("connect_timeout", .string c.connectTimeout.text), ("read_timeout", .string c.readTimeout.text)]

/-- settings as text, with the token hidden -/
def text (c : VaultConfig) : String :=
  "VaultConfig \x7b uri: " ++ Quoted.string c.uri ++ ", token: " ++ Quoted.string "<redacted>" ++
    ", kv_engine: " ++ c.engine.constant ++ ", connect_timeout: " ++ c.connectTimeout.decimalText ++
    ", read_timeout: " ++ c.readTimeout.decimalText ++ " \x7d"

/-- a length of time out of a written tree -/
def spanOfTree : Tree → Except Json.Error Span
  | .string ps => do
    let s ← Json.orMalformed (Json.Piece.text? ps)
    match Span.read? s with
    | some d => .ok d
    | none => .error (.invalidValue (.string s) "a duration")
  | t => t.mismatch "a duration"

/-- the names of the fields, in the order of their declaration -/
def fields : List String := ["uri", "token", "kv_engine", "connect_timeout", "read_timeout"]

/-- the fields that were met -/
structure Slots where
  uri : Slot String := none
  token : Slot String := none
  engine : Slot Engine := none
  connectTimeout : Slot Span := none
  readTimeout : Slot Span := none

/-- takes one member -/
def Slots.take (s : Slots) (name : String) (t : Tree) : Except Json.Error Slots :=
  match name with
  | "uri" => do
    let v ← Slot.fill name s.uri t.text
    .ok { s with uri := v }
  | "token" => do
    let v ← Slot.fill name s.token t.text
    .ok { s with token := v }
  | "kv_engine" => do
    let v ← Slot.fill name s.engine (Engine.ofTree t)
    .ok { s with engine := v }
  | "connect_timeout" => do
    let v ← Slot.fill name s.connectTimeout (spanOfTree t)
    .ok { s with connectTimeout := v }
  | "read_timeout" => do
    let v ← Slot.fill name s.readTimeout (spanOfTree t)
    .ok { s with readTimeout := v }
  | _ => .error (.unknownField name fields)

/-- the settings of the fields that were met -/
def Slots.finish (s : Slots) : Except Json.Error VaultConfig := do
  let uri ← Slot.require "uri" s.uri
  let token ← Slot.require "token" s.token
  .ok ⟨uri, token, s.engine.getD .default, s.connectTimeout.getD defaultConnectTimeout,
    s.readTimeout.getD defaultReadTimeout⟩

def ofMembers (members : List Member) (ending : Ending) : Except Json.Error VaultConfig := do
  let s ← Tree.foldMembers Slots.take ending {} members
  s.finish

def ofItems (xs : Items) : Except Json.Error (VaultConfig × Items) := do
  let (uri, xs) ← xs.next Tree.text
  let (token, xs) ← xs.next Tree.text
  let (engine, xs) ← xs.nextD .default Engine.ofTree
  let (connectTimeout, xs) ← xs.nextD defaultConnectTimeout spanOfTree
  let (readTimeout, xs) ← xs.nextD defaultReadTimeout spanOfTree
  .ok (⟨uri, token, engine, connectTimeout, readTimeout⟩, xs)

/-- settings out of a written tree -/
def ofTree : Tree → Except Json.Error VaultConfig :=
  Tree.record "VaultConfig" "5 elements" ofMembers ofItems

/-- settings for a service on this machine -/
def loopback : VaultConfig :=
  ⟨"http://127.0.0.1:8200", "test-root-token", .default, defaultConnectTimeout, defaultReadTimeout⟩

end VaultConfig

end Credentials
