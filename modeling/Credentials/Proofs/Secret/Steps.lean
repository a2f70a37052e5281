import Credentials.Proofs.Run.Alike
import Credentials.Proofs.Secret.Run

/-!
# Steps of a vault under any relation

* `Vault.moves_encryptTransit`, `Vault.moves_construct`, …   the operations of the backend move along a
                         relation if the steps do of which they are made;
* `Vault.Lax`            a relation to which neither the log nor the fault plans matter;
* `Vault.Lax.moves_encrypt`, `Vault.Lax.moves_read`, …   the operations of a service move along such a
                         relation as the steps do that it has something to say about;
* `Vault.Level`          a relation of two vaults that have the same log, fault plans and handles, as far
                         as these matter;
* `Vault.Level.alike_openSpace`, …       two runs from vaults so related open namespaces alike, if they
                         construct handles alike.

A relation about keys is decided by how a transit key is made, and one about handles by how a namespace is
opened. The other steps of an operation are the same for all of them.
-/

set_option linter.unusedSectionVars false

namespace Credentials.Vault

/-! ## the backend -/

section
variable {R : Vault → Vault → Prop} [Std.Refl R] [Trans R R R]

theorem moves_passSite (hf : ∀ v plans, R v { v with faults := plans }) (site : String) :
    (passSite site).Moves R := by
  refine Effect.moves_bind (Effect.moves_modifyGet fun v => hf v _) fun fails => ?_
  split
  · exact Effect.moves_fail _
  · exact Effect.moves_pure _

theorem moves_transitKey {path : String}
    (hn : (note (.debug "generated transit key" [("path", path)])).Moves R)
    (hd : ∀ n, (draw n).Moves R) (ha : ∀ key, (updateStore fun s => s.addTransitKey path key).Moves R) :
    (transitKey path).Moves R := by
  refine Effect.moves_bind Effect.moves_get fun v => ?_
  split
  · exact Effect.moves_pure _
  · refine Effect.moves_bind hn fun _ => Effect.moves_bind (hd _) fun key => ?_
    exact Effect.moves_bind (ha key) fun _ => Effect.moves_pure _

theorem moves_encryptTransit (hp : ∀ site, (passSite site).Moves R) (hd : ∀ n, (draw n).Moves R)
    {path : String} (hk : (transitKey path).Moves R) (m : Bytes) : (encryptTransit path m).Moves R := by
  refine Effect.moves_bind Effect.moves_get fun v => ?_
  split
  · exact Effect.moves_fail _
  · exact Effect.moves_pure _
  · refine Effect.moves_bind (hp _) fun _ => ?_
    refine Effect.moves_bind hk fun key => ?_
    refine Effect.moves_bind (hd _) fun nonce => ?_
    split
    · exact Effect.moves_pure _
    · exact Effect.moves_fail _

theorem moves_decryptTransit (hp : ∀ site, (passSite site).Moves R) (path ciphertext : String) :
    (decryptTransit path ciphertext).Moves R := by
  refine Effect.moves_bind Effect.moves_get fun v => ?_
  split
  · exact Effect.moves_fail _
  · exact Effect.moves_fail _
  · exact Effect.moves_bind (hp _) fun _ =>
      Effect.moves_bind Effect.moves_get fun _ => Effect.moves_ofExcept _

theorem moves_construct (hk : ∀ f, (updateKind f).Moves R) {space : String} {engine : Engine}
    (hn : (newHandle space engine).Moves R) (hc : (constructInMemory space engine).Moves R) :
    (construct space engine).Moves R := by
  refine Effect.moves_bind Effect.moves_get fun v => ?_
  split
  · exact hc
  · exact Effect.moves_bind (hk _) fun _ => hc
  · refine Effect.moves_bind (hk _) fun _ => ?_
    split
    · exact Effect.moves_fail _
    · exact hc
  · exact hn

theorem moves_getThrough (hp : ∀ site, (passSite site).Moves R) (hd : Handle) (key : String) :
    (getThrough hd key).Moves R := by
  refine Effect.moves_bind Effect.moves_get fun v => ?_
  split
  · exact Effect.moves_pure _
  · exact Effect.moves_bind (hp _) fun _ =>
      Effect.moves_bind Effect.moves_get fun _ => Effect.moves_pure _

end

/-! ## a service over it -/

/-- a relation to which neither the log nor the fault plans matter -/
structure Lax (R : Vault → Vault → Prop) : Prop where
  log (v : Vault) (entries : List LogEntry) : R v { v with log := entries }
  faults (v : Vault) (plans : Faults) : R v { v with faults := plans }

namespace Lax

variable {R : Vault → Vault → Prop} [Std.Refl R] [Trans R R R] (l : Lax R)

include l

theorem moves_note (e : LogEntry) : (note e).Moves R := fun v => l.log v _

theorem moves_orNote {α : Type} {x : Act α} (h : x.Moves R) (entry : SecretError → LogEntry) :
    (orNote x entry).Moves R := Effect.moves_onFailure h fun _ v => l.log v _

theorem moves_passSite (site : String) : (passSite site).Moves R := Vault.moves_passSite l.faults site

theorem moves_encrypt {path : String} {m : Bytes} (h : (encryptTransit path m).Moves R) :
    (encrypt path m).Moves R :=
  Effect.moves_bind (l.moves_note _) fun _ => l.moves_orNote h _

theorem moves_decrypt (path ciphertext : String) : (decrypt path ciphertext).Moves R :=
  Effect.moves_bind (l.moves_note _) fun _ =>
    l.moves_orNote (moves_decryptTransit l.moves_passSite path ciphertext) _

theorem moves_openSpace {svc : Nat} {space : String} (hc : ∀ engine, (construct space engine).Moves R)
    (hu : ∀ f, (updateCache svc f).Moves R) : (openSpace svc space).Moves R := by
  refine Effect.moves_bind Effect.moves_get fun v => ?_
  dsimp only
  split
  · exact Effect.moves_pure _
  · refine Effect.moves_bind (l.moves_orNote (hc _) _) fun hd => ?_
    refine Effect.moves_bind (l.moves_note _) fun _ => ?_
    exact Effect.moves_bind (hu _) fun _ => Effect.moves_pure _

theorem moves_read {svc : Nat} {space : String} (ho : (openSpace svc space).Moves R) (key : String) :
    (read svc space key).Moves R := by
  refine Effect.moves_bind (l.moves_note _) fun _ => ?_
  refine Effect.moves_bind ho fun hd => ?_
  refine Effect.moves_bind (l.moves_orNote (moves_getThrough l.moves_passSite hd key) _)
    fun response => ?_
  cases response with
  | none => exact Effect.moves_bind (l.moves_note _) fun _ => Effect.moves_pure _
  | some r =>
    exact Effect.moves_bind (l.moves_orNote (Effect.moves_ofExcept _) _) fun _ => Effect.moves_pure _

end Lax

/-! ## two runs -/

/-- a relation that asks for the same fault plans and the same handles, and that holds on when these or the
logs are changed alike -/
structure Level (R : Vault → Vault → Prop) : Prop where
  faults {v w : Vault} (h : R v w) : w.faults = v.faults
  caches {v w : Vault} (h : R v w) (svc : Nat) : w.cacheOf svc = v.cacheOf svc
  logged {v w : Vault} (h : R v w) (e : LogEntry) :
    R { v with log := e :: v.log } { w with log := e :: w.log }
  planned {v w : Vault} (h : R v w) (plans : Faults) :
    R { v with faults := plans } { w with faults := plans }
  kept {v w : Vault} (h : R v w) (svc : Nat) (f : HandleCache → HandleCache) :
    R ((updateCache svc f).run v).2 ((updateCache svc f).run w).2

namespace Level

open Effect (Alike AlikeUpTo)

variable {R : Vault → Vault → Prop} (l : Level R)

include l

theorem alike_note (e : LogEntry) : Alike R (note e) (note e) :=
  Effect.alike_modify fun _ _ h => l.logged h e

theorem alike_orNote {α β : Type} {Q : α → β → Prop} {x : Act α} {y : Act β} (h : AlikeUpTo R Q x y)
    (entry : SecretError → LogEntry) : AlikeUpTo R Q (orNote x entry) (orNote y entry) :=
  h.onFailure fun e _ _ h => l.logged h (entry e)

theorem alike_passSite (site : String) : Alike R (passSite site) (passSite site) := by
  refine Effect.alike_bind (Effect.alike_modifyGet fun v w h => ?_) fun fails => ?_
  · simp only [l.faults h, true_and]
    exact l.planned h _
  · split
    · exact Effect.alike_fail _
    · exact Effect.alike_pure _

theorem alike_openSpace {space : String}
    (hc : ∀ engine, Alike R (construct space engine) (construct space engine)) (svc : Nat) :
    Alike R (openSpace svc space) (openSpace svc space) := by
  refine Effect.alike_get_bind fun v w h => ?_
  simp only [l.caches h svc]
  split
  · exact Effect.alike_pure _
  · have hopened := Effect.alike_onFailure (hc (v.cacheOf svc).engine)
      fun e _ _ h => l.logged h (openFailed space e)
    refine Effect.alike_bind hopened fun hd => ?_
    refine Effect.alike_bind (l.alike_note _) fun _ => ?_
    refine Effect.alike_bind (fun v w h => ⟨rfl, l.kept h svc _⟩) fun _ => Effect.alike_pure hd

end Level

end Credentials.Vault
