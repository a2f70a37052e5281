import Credentials.Proofs.Secret.Footprint

/-!
# Vaults that differ in their secrets only

* `BothWritten`                    at a key there is nothing, or a string that was written;
* `Vault.Twin`                     two vaults are the same but for the strings that were written and for the
                                   settings of their services;
* `VaultConfig.SameButToken`       settings that differ in their tokens only, both of them blank or neither;
* `Vault.alike_openSpace`          on twins a namespace is opened alike;
* `Vault.alike_write`, `Vault.alike_read`, `Vault.alike_encrypt`   so are the operations of a service, with
                                   different strings, and with different plaintexts of one length;
* `Vault.alike_decrypt`            a decryption is, if its ciphertexts are good or bad alike under the key of
                                   the path.

Two computations are alike on twins, if they leave twins and either both succeed or fail for one reason.
The entries that they log are part of the twins. What they answer may differ where it is a secret.
-/

namespace Credentials

open Effect (Agree Alike AlikeUpTo)

/-- nothing is there, or a string that was written -/
inductive BothWritten : Option Response → Option Response → Prop
  | nothing : BothWritten none none
  | written (value value' : String) :
      BothWritten (some (.ofEnvelope ⟨some value⟩)) (some (.ofEnvelope ⟨some value'⟩))

/-- answers that do not matter -/
abbrev Unseen {α β : Type} (_ : α) (_ : β) : Prop := True

/-- messages of one length are sealed or not alike -/
theorem Ciphertext.text?_eq_none_iff {key nonce m m' : Bytes} (hl : m.length = m'.length) :
    text? key nonce m = none ↔ text? key nonce m' = none := by
  have hlimit : Sealing.withinLimit m = Sealing.withinLimit m' := by
    unfold Sealing.withinLimit
    rw [hl]
  have hseal : (Sealing.seal? key nonce m).isSome = (Sealing.seal? key nonce m').isSome := by
    rw [Sealing.isSome_seal?, Sealing.isSome_seal?, hlimit]
  unfold text?
  rw [Option.map_eq_none_iff, Option.map_eq_none_iff, ← Option.not_isSome_iff_eq_none,
    ← Option.not_isSome_iff_eq_none, hseal]

namespace Vault

/-- the same memory, services, random stream, faults and log, but for the strings that were written and
for the settings of the services -/
structure Twin (v w : Vault) : Prop where
  memory : v.backend.kind = .memory
  memory' : w.backend.kind = .memory
  keys : w.backend.store.transitKeys = v.backend.store.transitKeys
  stored : ∀ space key, BothWritten (v.backend.store.get? space key) (w.backend.store.get? space key)
  nextHandle : w.backend.nextHandle = v.backend.nextHandle
  caches : w.services.map Service.cache = v.services.map Service.cache
  random : w.random = v.random
  faults : w.faults = v.faults
  log : w.log = v.log

variable {v w : Vault}

theorem Twin.keyAt (h : Twin v w) (path : String) : w.keyAt path = v.keyAt path := by
  unfold Vault.keyAt Store.transitKey?
  rw [h.keys]

theorem Twin.cacheOf (h : Twin v w) (svc : Nat) : w.cacheOf svc = v.cacheOf svc := by
  unfold Vault.cacheOf
  rw [← List.getElem?_map, ← List.getElem?_map, h.caches]

theorem Twin.withFaults (h : Twin v w) (faults : Faults) :
    Twin (v.withFaults faults) (w.withFaults faults) := { h with faults := rfl }

theorem twin_initial (random : RandomStream) : Twin (initial random) (initial random) :=
  ⟨rfl, rfl, rfl, fun _ _ => .nothing, rfl, rfl, rfl, rfl, rfl⟩

theorem map_cache_modify (services : List Service) (svc : Nat) (f : HandleCache → HandleCache) :
    (services.modify svc fun s => { s with cache := f s.cache }).map Service.cache
      = (services.map Service.cache).modify svc f := by
  refine List.ext_getElem? fun i => ?_
  simp only [List.getElem?_map, List.getElem?_modify]
  cases services[i]? with
  | none => rfl
  | some s =>
    by_cases hi : svc = i
    · simp [hi]
    · simp [hi]

theorem Twin.updateCache (h : Twin v w) (svc : Nat) (f : HandleCache → HandleCache) :
    Twin ((updateCache svc f).run v).2 ((updateCache svc f).run w).2 := by
  refine { h with caches := ?_ }
  show List.map _ (List.modify _ _ _) = List.map _ (List.modify _ _ _)
  rw [map_cache_modify, map_cache_modify, h.caches]

theorem level_twin : Level Twin where
  faults h := h.faults
  caches h := h.cacheOf
  logged h e := { h with log := congrArg (e :: ·) h.log }
  planned h plans := h.withFaults plans
  kept h := h.updateCache

/-! ## steps -/

theorem alike_note (e : LogEntry) : Alike Twin (note e) (note e) := level_twin.alike_note e

theorem alike_orNote {α β : Type} {Q : α → β → Prop} {x : Act α} {y : Act β}
    (h : AlikeUpTo Twin Q x y) (entry : SecretError → LogEntry) :
    AlikeUpTo Twin Q (orNote x entry) (orNote y entry) := level_twin.alike_orNote h entry

theorem alike_draw (n : Nat) : Alike Twin (draw n) (draw n) := by
  refine Effect.alike_modifyGet fun v w h => ?_
  simp only [h.random, true_and]
  exact { h with random := rfl }

theorem alike_passSite (site : String) : Alike Twin (passSite site) (passSite site) :=
  level_twin.alike_passSite site

/-- changes of what is kept that keep the keys alike and the responses twins -/
theorem alike_updateStore {f g : Store → Store}
    (hk : ∀ s t, t.transitKeys = s.transitKeys → (g t).transitKeys = (f s).transitKeys)
    (hs : ∀ s t, (∀ space key, BothWritten (s.get? space key) (t.get? space key)) →
      ∀ space key, BothWritten ((f s).get? space key) ((g t).get? space key)) :
    Alike Twin (updateStore f) (updateStore g) :=
  Effect.alike_modify fun _ _ h => { h with keys := hk _ _ h.keys, stored := hs _ _ h.stored }

theorem alike_newHandle (space : String) (engine : Engine) :
    Alike Twin (newHandle space engine) (newHandle space engine) := by
  refine Effect.alike_modifyGet fun v w h => ?_
  simp only [h.nextHandle, true_and]
  exact { h with nextHandle := rfl }

/-! ## handles -/

theorem alike_construct (space : String) (engine : Engine) :
    Alike Twin (construct space engine) (construct space engine) := by
  refine Effect.alike_get_bind fun v w h => ?_
  rw [h.memory, h.memory']
  refine Effect.alike_bind (alike_passSite _) fun _ => ?_
  refine Effect.alike_bind (alike_updateStore (fun _ _ hk => hk) fun s t hs n k => ?_) fun _ => ?_
  · show BothWritten ((s.openSpace space).get? n k) ((t.openSpace space).get? n k)
    rw [Store.get?_openSpace, Store.get?_openSpace]
    exact hs n k
  · exact alike_newHandle space engine

theorem alike_openSpace (svc : Nat) (space : String) :
    Alike Twin (openSpace svc space) (openSpace svc space) :=
  level_twin.alike_openSpace (alike_construct space) svc

theorem alike_putThrough (hd : Handle) (key value value' : String) :
    Alike Twin (putThrough hd key ⟨some value⟩) (putThrough hd key ⟨some value'⟩) := by
  refine Effect.alike_get_bind fun v w h => ?_
  rw [h.memory, h.memory']
  refine Effect.alike_bind (alike_passSite _) fun _ => ?_
  refine alike_updateStore (fun _ _ hk => hk) fun s t hs n k => ?_
  rw [Store.get?_put, Store.get?_put]
  split
  · exact .written value value'
  · exact hs n k

theorem alike_getThrough (hd : Handle) (key : String) :
    AlikeUpTo Twin BothWritten (getThrough hd key) (getThrough hd key) := by
  refine AlikeUpTo.get_bind fun v w h => ?_
  rw [h.memory, h.memory']
  refine (alike_passSite _).bind fun _ => ?_
  exact AlikeUpTo.get_bind fun v w h => .pure (h.stored hd.space key)

/-! ## transit -/

theorem alike_transitKey (path : String) : Alike Twin (transitKey path) (transitKey path) := by
  refine Effect.alike_get_bind fun v w h => ?_
  rw [show w.backend.store.transitKey? path = v.backend.store.transitKey? path from h.keyAt path]
  split
  · exact Effect.alike_pure _
  · refine Effect.alike_bind (alike_note _) fun _ => ?_
    refine Effect.alike_bind (alike_draw _) fun key => ?_
    refine Effect.alike_bind (alike_updateStore (fun s t hk => ?_) fun _ _ hs => hs) fun _ =>
      Effect.alike_pure key
    exact congrArg (putAt path key) hk

theorem alike_encryptTransit (path : String) {m m' : Bytes} (hl : m.length = m'.length) :
    AlikeUpTo Twin Unseen (encryptTransit path m) (encryptTransit path m') := by
  refine AlikeUpTo.get_bind fun v w h => ?_
  rw [h.memory, h.memory']
  refine (alike_passSite _).bind fun _ => (alike_transitKey path).bind fun key => ?_
  refine (alike_draw _).bind fun nonce => ?_
  cases hc : Ciphertext.text? key nonce m with
  | none =>
    rw [(Ciphertext.text?_eq_none_iff hl).1 hc]
    exact .fail _
  | some c =>
    cases hd : Ciphertext.text? key nonce m' with
    | none =>
      rw [(Ciphertext.text?_eq_none_iff hl).2 hd] at hc
      cases hc
    | some d => exact .pure trivial

/-! ## the operations of a service -/

theorem alike_encrypt (path : String) {m m' : Bytes} (hl : m.length = m'.length) :
    AlikeUpTo Twin Unseen (encrypt path m) (encrypt path m') := by
  unfold encrypt
  rw [hl]
  exact (alike_note _).bind fun _ => alike_orNote (alike_encryptTransit path hl) _

/-- ciphertexts are decrypted alike, if they are good or bad alike under the key that is there -/
theorem alike_decrypt {b : Backend} {path c d : String}
    (hc : Agree Unseen (Ciphertext.plaintext path (b.store.transitKey? path) c)
      (Ciphertext.plaintext path (b.store.transitKey? path) d)) :
    AlikeUpTo (fun v w => Twin v w ∧ v.backend = b) Unseen (decrypt path c) (decrypt path d) := by
  -- neither an entry nor the pass of a site changes the backend, so the key stays in view
  have hnote : ∀ e, AlikeUpTo (fun v w => Twin v w ∧ v.backend = b) Eq (note e) (note e) := fun e =>
    (Effect.alike_iff.1 (alike_note e)).framed fun _ h => h
  have hpass : ∀ site, AlikeUpTo (fun v w => Twin v w ∧ v.backend = b) Eq (passSite site)
      (passSite site) := fun site => by
    refine (Effect.alike_iff.1 (alike_passSite site)).framed fun v h => ?_
    rcases passSite_cases v site with e | e
    · rw [e]
      exact h
    · rw [e]
      exact h
  have hlogged : ∀ v w e, Twin v w ∧ v.backend = b →
      Twin { v with log := e :: v.log } { w with log := e :: w.log } ∧ v.backend = b :=
    fun v w e h => ⟨level_twin.logged h.1 e, h.2⟩
  refine (hnote _).bind fun _ _ _ => AlikeUpTo.onFailure ?_ fun _ v w h => hlogged v w _ h
  refine AlikeUpTo.get_bind fun v w h => ?_
  rw [h.1.memory, h.1.memory']
  refine (hpass _).bind fun _ _ _ => AlikeUpTo.get_bind fun v w h => .ofExcept ?_
  rw [show w.backend.store.transitKey? path = v.backend.store.transitKey? path from h.1.keyAt path, h.2]
  exact hc

theorem alike_write (svc : Nat) (space key value value' : String) :
    Alike Twin (write svc space key value) (write svc space key value') := by
  refine Effect.alike_bind (alike_note _) fun _ => ?_
  refine Effect.alike_bind (alike_openSpace svc space) fun hd => ?_
  exact Effect.alike_onFailure (alike_putThrough hd key value value') fun e _ _ h => level_twin.logged h _

theorem alike_read (svc : Nat) (space key : String) :
    AlikeUpTo Twin Unseen (read svc space key) (read svc space key) := by
  refine (alike_note _).bind fun _ => (alike_openSpace svc space).bind fun hd => ?_
  refine (alike_orNote (alike_getThrough hd key) _).bind fun r r' h => ?_
  cases h with
  | nothing => exact (alike_note _).bind fun _ => .pure trivial
  | written value value' =>
    -- what was written through a service has the agreed shape
    have hshape : ∀ x, (Response.ofEnvelope ⟨some x⟩).envelope space key = .ok ⟨some x⟩ := fun _ => rfl
    simp only [hshape]
    exact (alike_orNote (Q := Unseen) (.ofExcept (.ok trivial)) _).bind fun _ _ _ => .pure trivial

end Vault

/-! ## settings -/

/-- settings that differ in their tokens only, both of them blank or neither -/
structure VaultConfig.SameButToken (c d : VaultConfig) : Prop where
  uri : c.uri = d.uri
  engine : c.engine = d.engine
  connectTimeout : c.connectTimeout = d.connectTimeout
  readTimeout : c.readTimeout = d.readTimeout
  blank : Text.isBlankText c.token = Text.isBlankText d.token

/-- a token is neither shown nor written -/
theorem VaultConfig.SameButToken.hidden {c d : VaultConfig} (h : c.SameButToken d) :
    c.text = d.text ∧ c.toJson = d.toJson := by
  unfold text toJson
  rw [h.uri, h.engine, h.connectTimeout, h.readTimeout]
  exact ⟨rfl, rfl⟩

/-- a token is only looked at for being blank -/
theorem VaultConfig.SameButToken.validate {c d : VaultConfig} (h : c.SameButToken d) :
    c.validate = d.validate := by
  unfold VaultConfig.validate
  rw [h.uri, h.connectTimeout, h.readTimeout, h.blank]

theorem Vault.alike_startService {c d : VaultConfig} (h : c.SameButToken d) :
    Alike Twin (startService c) (startService d) := by
  unfold startService
  rw [h.validate, h.uri, h.engine]
  refine Effect.alike_bind (Effect.alike_ofExcept _) fun _ => ?_
  refine Effect.alike_bind (alike_note _) fun _ => Effect.alike_modify fun v w ht => ?_
  refine { ht with caches := ?_ }
  rw [List.map_append, List.map_append, ht.caches]
  rfl

end Credentials
