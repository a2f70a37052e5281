import Credentials.Secret.Backend

/-!
# Secret services

A service keeps a handle for each namespace it has used, and enforces the stored form of secrets.
Everything else goes straight to the backend, and failures come back unchanged. Services are
named by their position.

* `Vault.openSpace`      the handle of a namespace, constructed on first use;
* `Vault.openTogether`   the handles of several namespaces that are asked for at once;
* `Vault.encrypt`, `Vault.decrypt`, `Vault.write`, `Vault.read`   the operations of a service;
* `Vault.start?`         services over one backend, if their settings are valid.
-/

namespace Credentials

namespace HandleCache

/-- the handle of a namespace -/
def find? (c : HandleCache) (space : String) : Option Handle := c.handles.lookup space

def contains (c : HandleCache) (space : String) : Bool := (c.find? space).isSome

/-- how many handles there are -/
def size (c : HandleCache) : Nat := c.handles.length

/-- keeps the handle of a namespace -/
def keep (c : HandleCache) (space : String) (h : Handle) : HandleCache :=
  { c with handles := putAt space h c.handles }

end HandleCache

namespace Vault

/-- the handles of a service -/
def cacheOf (v : Vault) (svc : Nat) : HandleCache :=
  (v.services[svc]?.map Service.cache).getD ⟨.default, []⟩

/-- changes the handles of a service -/
def updateCache (svc : Nat) (f : HandleCache → HandleCache) : Act Unit :=
  Effect.modify fun v =>
    { v with services := v.services.modify svc fun s => { s with cache := f s.cache } }

/-- the entry of a construction that failed -/
def openFailed (space : String) (e : SecretError) : LogEntry :=
  .warn "failed to create key-value handle" [("namespace", space), ("error", e.message)]

/-- the handle of a namespace; it is constructed on first use, and a failure is not kept -/
def openSpace (svc : Nat) (space : String) : Act Handle := do
  let v ← Effect.get
  let cache := v.cacheOf svc
  match cache.find? space with
  | some h => pure h
  | none =>
    let h ← orNote (construct space cache.engine) (openFailed space)
    note (.debug "created key-value handle"
      [("namespace", space), ("engine", cache.engine.name)])
    updateCache svc fun c => c.keep space h
    pure h

/-- a construction takes a while, so that others can wait for it -/
def isSlow (v : Vault) : Bool :=
  match v.backend.kind with
  | .counting slow .. => slow
  | _ => false

/-- opens namespaces one after another, whatever becomes of each -/
def openEach (svc : Nat) : List String → Vault → List (Except SecretError Handle) × Vault
  | [], v => ([], v)
  | space :: r, v =>
    let (h, v) := (openSpace svc space).run v
    let (hs, v) := openEach svc r v
    (h :: hs, v)

/-- the entries of those who waited in vain. Of each namespace that failed as many as `waiting` have
waited; they hear of it in rounds, one of each namespace in every round. -/
def lateEntries (waiting : List (LogEntry × Nat)) (rounds : Nat) : List LogEntry :=
  (List.range rounds).flatMap fun k =>
    waiting.filterMap fun (entry, n) => if k < n then some entry else none

/-- opens namespaces whose constructions take a while: whoever asks first for a namespace constructs
its handle, and the others wait for it. The constructions end in the order of their beginnings, and
only then those who waited hear of them. -/
def openWaiting (svc : Nat) (spaces : List String) (v : Vault) :
    List (Except SecretError Handle) × Vault :=
  let first := spaces.eraseDups
  let (hs, v) := openEach svc first v
  let opened := first.zip hs
  let waiting := opened.filterMap fun (space, h) =>
    match h with
    | .ok _ => none
    | .error e => some (openFailed space e, spaces.count space - 1)
  let late := lateEntries waiting spaces.length
  (spaces.filterMap (fun space => opened.lookup space), { v with log := late.reverse ++ v.log })

/-- the handles of several namespaces that are asked for at once -/
def openTogether (svc : Nat) (spaces : List String) (v : Vault) :
    List (Except SecretError Handle) × Vault :=
  if v.isSlow then openWaiting svc spaces v else openEach svc spaces v

/-! ## The operations of a service -/

/-- encrypts with the transit key of a path -/
def encrypt (path : String) (plaintext : Bytes) : Act String := do
  note (.span "encrypt" [("transit_path", path), ("len", toString plaintext.length)])
  orNote (encryptTransit path plaintext) fun e =>
    .warn "transit encrypt failed" [("transit_path", path), ("error", e.message)]

/-- decrypts with the transit key of a path -/
def decrypt (path ciphertext : String) : Act Bytes := do
  note (.span "decrypt" [("transit_path", path)])
  orNote (decryptTransit path ciphertext) fun e =>
    .warn "transit decrypt failed" [("transit_path", path), ("error", e.message)]

/-- an entry about a key of a namespace that failed -/
def keyFailed (name space key : String) (e : SecretError) : LogEntry :=
  .warn name [("namespace", space), ("key", key), ("error", e.message)]

/-- stores a secret, in place of the one that is there -/
def write (svc : Nat) (space key value : String) : Act Unit := do
  note (.span "write_key_value_secret" [("namespace", space), ("key", key)])
  let h ← openSpace svc space
  orNote (putThrough h key ⟨some value⟩) (keyFailed "key-value write failed" space key)

/-- looks a secret up -/
def read (svc : Nat) (space key : String) : Act Lookup := do
  note (.span "read_key_value_secret" [("namespace", space), ("key", key)])
  let h ← openSpace svc space
  let response ← orNote (getThrough h key) (keyFailed "key-value read failed" space key)
  match response with
  | none =>
    note (.debug "no secret at key" [("namespace", space), ("key", key)])
    pure .notFound
  | some r =>
    let e ← orNote (Effect.ofExcept (r.envelope space key))
      (keyFailed "malformed key-value response" space key)
    pure (.found e.value)

/-! ## Services -/

/-- a service of valid settings -/
def startService (config : VaultConfig) : Act Unit := do
  Effect.ofExcept config.validate
  note (.debug "vault service created" [("uri", config.uri), ("kv_engine", config.engine.name)])
  Effect.modify fun v => { v with services := v.services ++ [⟨config, ⟨config.engine, []⟩⟩] }

/-- services of the same settings, one after another -/
def startServices (config : VaultConfig) : Nat → Act Unit
  | 0 => pure ()
  | n + 1 => do
    startService config
    startServices config n

/-- a vault with services of the same settings over a new backend -/
def start? (config : VaultConfig) (kind : BackendKind) (seed : UInt64) (services : Nat) :
    Except SecretError Vault :=
  let v : Vault := ⟨.start kind, [], ⟨seed⟩, [], []⟩
  match (startServices config services).run v with
  | (.ok (), v) => .ok v
  | (.error e, _) => .error e

end Vault

end Credentials
