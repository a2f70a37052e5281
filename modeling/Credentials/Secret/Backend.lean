import Credentials.Run.Effect
import Credentials.Run.Fault
import Credentials.Run.Log
import Credentials.Run.Random
import Credentials.Secret.Config
import Credentials.Secret.Store

/-!
# Backends

A backend does the work behind a secret service. All but the scripted one keep their secrets in
memory.

* `BackendKind`        plain, counting its handles, refusing at first, or answering from a script;
* `Handle`             an open namespace; each construction gives another handle;
* `Vault`              a backend with the services over it, its random stream, its faults and its log;
* `Vault.encryptTransit`, `Vault.decryptTransit`   the transit operations of the backend;
* `Vault.construct`    a new handle;
* `Vault.putThrough`, `Vault.getThrough`           the operations of a handle.
-/

namespace Credentials

/-- what a backend does, and what it has counted; a call adds one at most, so 64 bits are enough -/
inductive BackendKind where
  | memory
  /-- counts the constructions of each namespace; `slow` ones take a while -/
  | counting (slow : Bool) (constructions : List (String × Nat)) (lastEngine : Option Engine)
  /-- refuses the first `failures` constructions and everything about transit -/
  | failing (failures attempts : Nat)
  /-- answers every read in the same way and keeps what is written -/
  | scripted (response : Option Response) (puts : List (String × Envelope))

/-- an open namespace -/
structure Handle where
  /-- constructions are numbered -/
  number : Nat
  space : String
  engine : Engine
  deriving DecidableEq

structure Backend where
  kind : BackendKind
  store : Store
  /-- the number of the next handle -/
  nextHandle : Nat

/-- a backend that has done nothing yet -/
def Backend.start (kind : BackendKind) : Backend := ⟨kind, .empty, 0⟩

/-- handles by their namespaces, for one engine -/
structure HandleCache where
  engine : Engine
  handles : List (String × Handle)

/-- a secret service: its settings and its handles -/
structure Service where
  config : VaultConfig
  cache : HandleCache

/-- a backend with the services over it and all that their work depends on -/
structure Vault where
  backend : Backend
  services : List Service
  random : RandomStream
  faults : Faults
  /-- entries so far, the newest first -/
  log : List LogEntry

namespace Vault

/-- what a vault does -/
abbrev Act (α : Type) := Effect Vault SecretError α

/-- appends to the log -/
def note (e : LogEntry) : Act Unit := Effect.modify fun v => { v with log := e :: v.log }

/-- logs a failure -/
def orNote {α : Type} (x : Act α) (entry : SecretError → LogEntry) : Act α :=
  x.onFailure fun e v => { v with log := entry e :: v.log }

/-- the next random octets -/
def draw (n : Nat) : Act Bytes :=
  Effect.modifyGet fun v =>
    let (bs, r) := v.random.draw n
    (bs, { v with random := r })

/-- fails if the plan of a site says so -/
def passSite (site : String) : Act Unit := do
  let fails ← Effect.modifyGet fun v =>
    let (fails, faults) := v.faults.pass site
    (fails, { v with faults := faults })
  if fails then Effect.fail (.transport (Faults.message site) none)

/-- changes what is kept in memory -/
def updateStore (f : Store → Store) : Act Unit :=
  Effect.modify fun v => { v with backend := { v.backend with store := f v.backend.store } }

/-- changes the kind of backend, which holds its counters -/
def updateKind (f : BackendKind → BackendKind) : Act Unit :=
  Effect.modify fun v => { v with backend := { v.backend with kind := f v.backend.kind } }

/-! ## Transit -/

/-- the key of a path; a path without one gets a fresh one -/
def transitKey (path : String) : Act Bytes := do
  let v ← Effect.get
  match v.backend.store.transitKey? path with
  | some key => pure key
  | none =>
    note (.debug "generated transit key" [("path", path)])
    let key ← draw Ciphertext.keySize
    updateStore fun s => s.addTransitKey path key
    pure key

/-- encrypts in memory -/
def encryptInMemory (path : String) (plaintext : Bytes) : Act String := do
  passSite "memory-backend-encrypt"
  let key ← transitKey path
  let nonce ← draw Ciphertext.nonceSize
  match Ciphertext.text? key nonce plaintext with
  | some c => pure c
  | none => Effect.fail (.rejected "encrypt" "encryption failed: aead::Error")

/-- decrypts in memory -/
def decryptInMemory (path ciphertext : String) : Act Bytes := do
  passSite "memory-backend-decrypt"
  let v ← Effect.get
  Effect.ofExcept (Ciphertext.plaintext path (v.backend.store.transitKey? path) ciphertext)

/-- encrypts with the key of a path -/
def encryptTransit (path : String) (plaintext : Bytes) : Act String := do
  let v ← Effect.get
  match v.backend.kind with
  | .failing .. => Effect.fail (.transport "connection refused" none)
  | .scripted .. => pure ("scripted:" ++ toString plaintext.length)
  | _ => encryptInMemory path plaintext

/-- decrypts with the key of a path -/
def decryptTransit (path ciphertext : String) : Act Bytes := do
  let v ← Effect.get
  match v.backend.kind with
  | .failing .. => Effect.fail (.transport "connection refused" none)
  | .scripted .. => Effect.fail (.rejected "decrypt" "scripted backend cannot decrypt")
  | _ => decryptInMemory path ciphertext

/-! ## Handles -/

/-- a handle with the next number -/
def newHandle (space : String) (engine : Engine) : Act Handle :=
  Effect.modifyGet fun v =>
    (⟨v.backend.nextHandle, space, engine⟩,
      { v with backend := { v.backend with nextHandle := v.backend.nextHandle + 1 } })

/-- a new handle of the memory -/
def constructInMemory (space : String) (engine : Engine) : Act Handle := do
  passSite "memory-backend-kv-handle"
  updateStore fun s => { s.openSpace space with handlesCreated := s.handlesCreated + 1 }
  newHandle space engine

/-- a new handle -/
def construct (space : String) (engine : Engine) : Act Handle := do
  let v ← Effect.get
  match v.backend.kind with
  | .memory => constructInMemory space engine
  | .counting slow counts _ =>
    updateKind fun _ =>
      .counting slow (putAt space ((counts.lookup space).getD 0 + 1) counts) (some engine)
    constructInMemory space engine
  | .failing failures attempts =>
    updateKind fun _ => .failing failures (attempts + 1)
    if attempts < failures then
      Effect.fail (.transport ("connection refused while opening '" ++ space ++ "'") none)
    else constructInMemory space engine
  | .scripted .. => newHandle space engine

/-- stores an envelope at a key -/
def putThrough (h : Handle) (key : String) (e : Envelope) : Act Unit := do
  let v ← Effect.get
  match v.backend.kind with
  | .scripted response puts => updateKind fun _ => .scripted response (puts ++ [(key, e)])
  | _ =>
    passSite "memory-kv-put"
    updateStore fun s => s.put h.space key (.ofEnvelope e)

/-- the response at a key -/
def getThrough (h : Handle) (key : String) : Act (Option Response) := do
  let v ← Effect.get
  match v.backend.kind with
  | .scripted response _ => pure response
  | _ =>
    passSite "memory-kv-get"
    let v ← Effect.get
    pure (v.backend.store.get? h.space key)

end Vault

end Credentials
