import Credentials.Token.Policy
import Credentials.Token.Signer

/-!
# Rings of signing keys

* `KeyEntry`              a key with the window it may sign in, and whether it is revoked;
* `KeyRing.insert`        registers a key; the kid must be acceptable and new, the window not empty;
* `KeyRing.revoke`        takes a key out of use for good, as long as it is registered;
* `KeyRing.prune`         drops the keys whose window has ended;
* `KeyRing.verifyingKey`  the public key of a registered key that is not revoked;
* `KeyRing.select?`       of the keys in use that cover an expiration, the one registered last;
* `KeyRing.activeKeyIds`  the keys that are in use, the oldest first.

Each registration takes the next activation number, and no number is taken twice. A ring has given as
many numbers as it has seen registrations, so those of 64 bits do not run out before `2 ^ 64` of them.
-/

namespace Credentials

/-- a key with the window it may sign in -/
structure SigningKey where
  keyId : String
  secret : Bytes
  validFrom : Instant
  validUntil : Instant
  deriving DecidableEq

/-- a registered key -/
structure KeyEntry where
  key : SigningKey
  activation : Nat
  /-- when it was revoked, if it is -/
  revokedAt : Option Instant
  deriving DecidableEq

namespace KeyEntry

/-- is out of use -/
def revoked (e : KeyEntry) : Bool := e.revokedAt.isSome

/-- the entry out of use; the instant of an earlier revocation stays -/
def revoke (e : KeyEntry) (now : Instant) : KeyEntry :=
  if e.revoked then e else { e with revokedAt := some now }

@[simp] theorem key_revoke (e : KeyEntry) (now : Instant) : (e.revoke now).key = e.key := by
  unfold revoke
  split <;> rfl

@[simp] theorem activation_revoke (e : KeyEntry) (now : Instant) :
    (e.revoke now).activation = e.activation := by
  unfold revoke
  split <;> rfl

theorem revoke_of_revoked {e : KeyEntry} (h : e.revoked = true) (now : Instant) : e.revoke now = e :=
  if_pos h

theorem revoked_revoke (e : KeyEntry) (now : Instant) : (e.revoke now).revoked = true := by
  unfold revoke
  split
  · assumption
  · rfl

/-- may sign at an instant for tokens that expire at another one -/
def covers (e : KeyEntry) (now expiration : Instant) : Bool :=
  !e.revoked && decide (e.key.validFrom ≤ now) && decide (expiration ≤ e.key.validUntil)

/-- is neither revoked nor past its window -/
def isActive (e : KeyEntry) (now : Instant) : Bool :=
  !e.revoked && decide (now ≤ e.key.validUntil)

/-- the key as a signer -/
def handle (e : KeyEntry) : SignerHandle := ⟨e.key.keyId, .edDSA, .ed25519 e.key.secret⟩

end KeyEntry

/-- registered keys in the order of their registration -/
structure KeyRing where
  entries : List KeyEntry
  nextActivation : Nat
  deriving DecidableEq

namespace KeyRing

/-- no key -/
def empty : KeyRing := ⟨[], 0⟩

/-- how many keys are registered, revoked ones included -/
def size (r : KeyRing) : Nat := r.entries.length

/-- the registered key of an identifier -/
def find? (r : KeyRing) (keyId : String) : Option KeyEntry :=
  r.entries.find? fun e => e.key.keyId == keyId

/-- registers a key -/
def insert (r : KeyRing) (k : SigningKey) : Except TokenError KeyRing :=
  match Policy.checkKeyId k.keyId with
  | .error e => .error (.precondition ("invalid key identifier: " ++ e.message))
  | .ok () =>
    if k.validUntil ≤ k.validFrom then
      .error (.precondition ("key '" ++ k.keyId ++ "' has an empty validity window"))
    else if (r.find? k.keyId).isSome then
      .error (.precondition ("key '" ++ k.keyId ++ "' is already registered"))
    else .ok ⟨r.entries ++ [⟨k, r.nextActivation, none⟩], r.nextActivation + 1⟩

/-- entries with the first one of an identifier out of use, if there is one -/
def revokeFirst? (keyId : String) (now : Instant) : List KeyEntry → Option (List KeyEntry)
  | [] => none
  | e :: r =>
    if e.key.keyId == keyId then some (e.revoke now :: r)
    else (e :: ·) <$> revokeFirst? keyId now r

/-- takes a key out of use -/
def revoke (r : KeyRing) (keyId : String) (now : Instant) : Except TokenError KeyRing :=
  match revokeFirst? keyId now r.entries with
  | some entries => .ok { r with entries := entries }
  | none => .error (.keyNotFound keyId)

/-- drops the keys whose window has ended before an instant -/
def prune (r : KeyRing) (t : Instant) : KeyRing :=
  { r with entries := r.entries.filter fun e => decide (t ≤ e.key.validUntil) }

/-- the public key of a key in use -/
def verifyingKey (r : KeyRing) (keyId : String) : Except TokenError VerifyingKey :=
  match r.find? keyId with
  | none => .error (.keyNotFound keyId)
  | some e => if e.revoked then .error (.keyRevoked keyId) else .ok (.ofSecret e.key.secret)

/-- of two keys the one registered later; the second one if there is no difference -/
def later (a b : KeyEntry) : KeyEntry := if b.activation < a.activation then a else b

/-- the key registered last among some -/
def last? : List KeyEntry → Option KeyEntry
  | [] => none
  | e :: r => some (r.foldl later e)

/-- the key that signs at an instant for tokens that expire at another one -/
def select? (r : KeyRing) (now expiration : Instant) : Option KeyEntry :=
  last? (r.entries.filter fun e => e.covers now expiration)

/-- identifiers of the keys in use, in the order of their activation -/
def activeKeyIds (r : KeyRing) (now : Instant) : List String :=
  ((r.entries.filter fun e => e.isActive now).mergeSort fun a b => a.activation ≤ b.activation).map
    fun e => e.key.keyId

end KeyRing

end Credentials
