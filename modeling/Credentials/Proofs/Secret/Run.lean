import Credentials.Secret.Service

/-!
# Runs of a vault

* `Vault.Call`         a call on a service, on the handles of a service, or on the backend itself;
* `Vault.after`        the vault behind a call, whether it succeeds or fails;
* `Vault.afterAll`     the vault behind calls, one after another;
* `Vault.afterUnder`   the same with fault plans of its own for each call;
* `Vault.initial`      a backend in memory that has done nothing yet, without services.
-/

namespace Credentials

/-- a call -/
inductive Vault.Call where
  /-- a new service, whose handles are for the engine of its settings -/
  | start (config : VaultConfig)
  | write (svc : Nat) (space key value : String)
  | read (svc : Nat) (space key : String)
  | encrypt (path : String) (plaintext : Bytes)
  | decrypt (path ciphertext : String)
  /-- the handle of a namespace from the handles of a service -/
  | openSpace (svc : Nat) (space : String)
  /-- a new handle from the backend -/
  | construct (space : String) (engine : Engine)
  | putThrough (h : Handle) (key : String) (e : Envelope)
  | getThrough (h : Handle) (key : String)
  | encryptTransit (path : String) (plaintext : Bytes)
  | decryptTransit (path ciphertext : String)
  /-- a response of any shape put at a key of the backend -/
  | plant (space key : String) (r : Response)

namespace Vault

/-- puts a response of any shape at a key -/
def plant (space key : String) (r : Response) : Act Unit := updateStore fun s => s.put space key r

/-- the vault behind a call -/
def after (v : Vault) : Call → Vault
  | .start config => ((startService config).run v).2
  | .write svc space key value => ((write svc space key value).run v).2
  | .read svc space key => ((read svc space key).run v).2
  | .encrypt path plaintext => ((encrypt path plaintext).run v).2
  | .decrypt path ciphertext => ((decrypt path ciphertext).run v).2
  | .openSpace svc space => ((openSpace svc space).run v).2
  | .construct space engine => ((construct space engine).run v).2
  | .putThrough h key e => ((putThrough h key e).run v).2
  | .getThrough h key => ((getThrough h key).run v).2
  | .encryptTransit path plaintext => ((encryptTransit path plaintext).run v).2
  | .decryptTransit path ciphertext => ((decryptTransit path ciphertext).run v).2
  | .plant space key r => ((plant space key r).run v).2

/-- the vault behind calls -/
def afterAll (v : Vault) (cs : List Call) : Vault := cs.foldl after v

/-- the vault with other fault plans -/
def withFaults (v : Vault) (faults : Faults) : Vault := { v with faults := faults }

/-- the vault behind calls, each of them under its own fault plans -/
def afterUnder (v : Vault) (cs : List (Faults × Call)) : Vault :=
  cs.foldl (fun v c => (v.withFaults c.1).after c.2) v

/-- a backend in memory that has done nothing yet -/
def initial (random : RandomStream) : Vault := ⟨.start .memory, [], random, [], []⟩

end Vault

end Credentials
