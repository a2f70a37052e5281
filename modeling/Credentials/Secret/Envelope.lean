import Credentials.Json.Record
import Credentials.Secret.Error

/-!
# The stored form of secrets

* `Envelope`            a secret as it is stored: an object with the single field `value`;
* `Response`            what a read answers: any data, or none;
* `Lookup`              a secret that was looked for;
* `Response.envelope`   the envelope in a response; anything else breaks the contract.
-/

namespace Credentials

/-- a stored secret; its value may be null -/
structure Envelope where
  value : Option String
  deriving DecidableEq

/-- what a read answers -/
structure Response where
  data : Option Json

/-- a secret that was looked for -/
inductive Lookup where
  | found (value : Option String)
  | notFound
  deriving DecidableEq

/-- an optional secret as text, with its content hidden -/
def hiddenText : Option String → String
  | some _ => "Some(<redacted>)"
  | none => "None"

namespace Envelope

open Json (Tree Member Ending Items Slot)

def toJson (e : Envelope) : Json := .object [("value", .option e.value)]

/-- an envelope as text -/
def text (e : Envelope) : String :=
  "SecretEnvelope \x7b value: " ++ hiddenText e.value ++ " \x7d"

/-- takes one member; members of other names do not matter -/
def take (slot : Slot (Option String)) (name : String) (t : Tree) :
    Except Json.Error (Slot (Option String)) :=
  if name = "value" then Slot.fill name slot (t.optional Tree.text)
  else do
    t.skip
    .ok slot

def ofMembers (members : List Member) (ending : Ending) : Except Json.Error Envelope := do
  let slot ← Tree.foldMembers take ending none members
  .ok ⟨slot.join⟩

def ofItems (xs : Items) : Except Json.Error (Envelope × Items) := do
  let (value, xs) ← xs.next (Tree.optional Tree.text)
  .ok (⟨value⟩, xs)

/-- an envelope out of a written tree -/
def ofTree : Tree → Except Json.Error Envelope :=
  Tree.record "SecretEnvelope" "1 element" ofMembers ofItems

end Envelope

namespace Response

open Json (Tree Member Ending Items Slot)

/-- an envelope as the service answers it -/
def ofEnvelope (e : Envelope) : Response := ⟨some e.toJson⟩

def toJson (r : Response) : Json := .object [("data", r.data.getD .null)]

/-- data out of a written tree; the container around it counts as nesting -/
def dataOfTree : Tree → Except Json.Error (Option Json) :=
  Tree.optional (Tree.value (Json.maxDepth - 1))

/-- takes one member; members of other names do not matter -/
def take (slot : Slot (Option Json)) (name : String) (t : Tree) :
    Except Json.Error (Slot (Option Json)) :=
  if name = "data" then Slot.fill name slot (dataOfTree t)
  else do
    t.skip
    .ok slot

def ofMembers (members : List Member) (ending : Ending) : Except Json.Error Response := do
  let slot ← Tree.foldMembers take ending none members
  .ok ⟨slot.join⟩

def ofItems (xs : Items) : Except Json.Error (Response × Items) := do
  let (data, xs) ← xs.nextD none dataOfTree
  .ok (⟨data⟩, xs)

/-- a response out of a written tree -/
def ofTree : Tree → Except Json.Error Response :=
  Tree.record "KeyValueResponse" "1 element" ofMembers ofItems

/-- what a value shows where another type was expected -/
def found : Json → Json.Found
  | .null => .null
  | .bool b => .bool b
  | .number n => .number n
  | .string s => .string s
  | .array _ => .sequence
  | .object _ => .map

/-- the envelope in the data of a response, or what is wrong with it -/
def check (r : Response) : Except String Envelope :=
  match r.data with
  | none => .error "response has no data"
  | some (.object members) =>
    match members.lookup "value" with
    | none => .error "response data has no 'value' field"
    | some .null => .ok ⟨none⟩
    | some (.string s) => .ok ⟨some s⟩
    | some v =>
      .error ("'value' is not a string or null: " ++
        (Json.Error.invalidType (found v) "a string").message)
  | some _ => .error "response data is not an object"

/-- the envelope in a response; anything else breaks the contract -/
def envelope (r : Response) (space key : String) : Except SecretError Envelope :=
  r.check.mapError fun m => .contractViolation space key m

end Response

namespace Lookup

/-- the secret, if one was found and is not null -/
def value : Lookup → Option String
  | .found v => v
  | .notFound => none

def isFound : Lookup → Bool
  | .found _ => true
  | .notFound => false

/-- a lookup as text, with its content hidden -/
def text : Lookup → String
  | .found v => "Found(" ++ hiddenText v ++ ")"
  | .notFound => "NotFound"

end Lookup

end Credentials
