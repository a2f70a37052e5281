import Credentials.Run.Effect
import Credentials.Run.Fault
import Credentials.Run.Log
import Credentials.Run.Random
import Credentials.Run.Uuid
import Credentials.Token.KeyRing

/-!
# Where signers come from

* `Provider`      a key ring, a handle that never changes, or a source that always fails; the last two
                  count how often they were asked;
* `Authority`     a provider with its clocks, its random stream, its faults and its log;
* `Authority.Act` what an authority does;
* `rotate`, `insertKey`, `revoke`, `prune`, `verifyingKey`   work on the ring;
* `select`        the signer for tokens of an expiration.
-/

namespace Credentials

inductive Provider where
  | rotating (ring : KeyRing)
  | fixed (handle : SignerHandle) (calls : Nat) (lastExpiration : Option Instant)
  | failing (error : TokenError) (calls : Nat)

/-- the ring of a provider; the others have no keys -/
def Provider.ring : Provider → KeyRing
  | .rotating ring => ring
  | _ => .empty

/-- Handles cannot be compared, since devices cannot; rings can. -/
instance (p : Provider) (r : KeyRing) : Decidable (p = .rotating r) :=
  match p with
  | .rotating s => decidable_of_iff (s = r) ⟨congrArg _, Provider.rotating.inj⟩
  | .fixed .. => isFalse nofun
  | .failing .. => isFalse nofun

/-- a provider with all that its work depends on -/
structure Authority where
  /-- the clock by which tokens are verified -/
  systemTime : Instant
  /-- the clock by which keys are chosen and tokens issued; the system clock if there is none -/
  clock : Option Instant
  random : RandomStream
  faults : Faults
  /-- entries so far, the newest first -/
  log : List LogEntry
  provider : Provider

namespace Authority

/-- the instant by which keys are chosen and tokens issued -/
def now (a : Authority) : Instant := a.clock.getD a.systemTime

/-- appends to the log -/
def record (a : Authority) (e : LogEntry) : Authority := { a with log := e :: a.log }

/-- the same authority over another ring, if it has one -/
def withRing (a : Authority) (ring : KeyRing) : Authority :=
  match a.provider with
  | .rotating _ => { a with provider := .rotating ring }
  | _ => a

/-- what an authority does -/
abbrev Act (α : Type) := Effect Authority TokenError α

/-- appends to the log -/
def note (e : LogEntry) : Act Unit := Effect.modify fun a => a.record e

/-- logs a failure -/
def orNote {α : Type} (x : Act α) (entry : TokenError → LogEntry) : Act α :=
  x.onFailure fun e a => a.record (entry e)

/-- the next random octets -/
def draw (n : Nat) : Act Bytes :=
  Effect.modifyGet fun a =>
    let (bs, r) := a.random.draw n
    (bs, { a with random := r })

/-- a new random identifier -/
def drawUuid : Act String := do
  let bs ← draw 16
  pure (Uuid.text (Uuid.ofRandom bs))

/-- registers a key -/
def insertKey (k : SigningKey) : Act Unit := do
  let a ← Effect.get
  let ring ← Effect.ofExcept (a.provider.ring.insert k)
  note (.debug "registered signing key"
    [("kid", k.keyId), ("activation", toString a.provider.ring.nextActivation)])
  Effect.modify fun a => a.withRing ring

/-- registers a fresh key that may sign from now on for a while; gives its identifier -/
def rotate (validity : Delta) : Act String := do
  if validity.isPositive then
    let a ← Effect.get
    match a.now.add? validity with
    | none => Effect.fail (.precondition "key validity overflows the calendar")
    | some validUntil =>
      let keyId ← drawUuid
      let secret ← draw 32
      insertKey ⟨keyId, secret, a.now, validUntil⟩
      note (.info "rotated signing key" [("kid", keyId), ("valid_until", validUntil.text)])
      pure keyId
  else Effect.fail (.precondition "key validity must be positive")

/-- takes a key out of use; the first time is logged -/
def revoke (keyId : String) : Act Unit := do
  let a ← Effect.get
  let ring := a.provider.ring
  let next ← Effect.ofExcept (ring.revoke keyId a.now)
  if (ring.find? keyId).any fun e => !e.revoked then
    note (.warn "revoked signing key" [("kid", keyId)])
  Effect.modify fun a => a.withRing next

/-- drops the keys whose window has ended before an instant; gives their number -/
def prune (t : Instant) : Act Nat := do
  let a ← Effect.get
  let ring := a.provider.ring
  let next := ring.prune t
  let removed := ring.size - next.size
  if 0 < removed then
    note (.debug "pruned expired signing keys" [("removed", toString removed)])
  Effect.modify fun a => a.withRing next
  pure removed

/-- the public key of a key in use -/
def verifyingKey (keyId : String) : Act VerifyingKey := do
  let a ← Effect.get
  Effect.ofExcept (a.provider.ring.verifyingKey keyId)

/-- the site of faults in the choice of a signer -/
def selectSite : String := "provider-select-signer"

/-- fails if the plan of a site says so -/
def passSite (site : String) : Act Unit := do
  let fails ← Effect.modifyGet fun a =>
    let (fails, faults) := a.faults.pass site
    (fails, { a with faults := faults })
  if fails then Effect.fail (.keyProvider (Faults.message site) none)

/-- the signer for tokens of an expiration -/
def select (expiration : Instant) : Act SignerHandle := do
  let a ← Effect.get
  match a.provider with
  | .rotating ring =>
    passSite selectSite
    match ring.select? a.now expiration with
    | some e => pure e.handle
    | none =>
      note (.warn "no signing key covers token expiration" [("expiration", expiration.text)])
      Effect.fail (.noEligibleSigner expiration)
  | .fixed handle calls _ =>
    Effect.modify fun a => { a with provider := .fixed handle (calls + 1) (some expiration) }
    pure handle
  | .failing error calls =>
    Effect.modify fun a => { a with provider := .failing error (calls + 1) }
    Effect.fail error

end Authority

end Credentials
