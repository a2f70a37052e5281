import Credentials.Proofs.Bytes.Base64
import Credentials.Proofs.Crypto.Sealing
import Credentials.Proofs.Secret.Steps

/-!
# What was encrypted can be decrypted ever after

* `Ciphertext.plaintext_of_text?`  a written ciphertext reads as its plaintext under the same key;
* `Vault.Call.sealsUnder`          the path that a call encrypts under;
* `Vault.KeysAdded`                keys are added at one path at most, and only where there was none;
* `Vault.keysAdded_after`          every call keeps to that, and only an encryption adds a key;
* `Vault.decrypt_of_encrypt`       a ciphertext is decrypted behind any later calls.

The key of a path is drawn once and is there from then on, whatever else happens. So a ciphertext is
always opened under the key it was sealed under.
-/

namespace Credentials

namespace Ciphertext

theorem toList_write (bs : Bytes) :
    (write bs).toList = mark.toList ++ (Base64.encode Base64.standard bs).toList := String.toList_append

/-- the octets of a written form -/
theorem octets_write (bs : Bytes) : octets (write bs) = .ok bs := by
  have hd : Base64.decode Base64.standard (utf8 (Base64.encode Base64.standard bs)) = .ok bs :=
    (Base64.decode_utf8_eq_ok_iff Base64.standard_lawful).2 rfl
  unfold octets
  rw [if_pos (by rw [toList_write]; exact List.isPrefixOf_iff_prefix.2 (List.prefix_append _ _)),
    toList_write, List.drop_left, String.ofList_toList]
  simp only [hd]
  rfl

theorem prefix_of_text? {key nonce plaintext : Bytes} {c : String}
    (h : text? key nonce plaintext = some c) : mark.toList <+: c.toList := by
  obtain ⟨sealed, -, rfl⟩ := Option.map_eq_some_iff.1 h
  rw [toList_write]
  exact List.prefix_append _ _

/-- a written ciphertext reads as its plaintext under the same key -/
theorem plaintext_of_text? {key nonce m : Bytes} {c : String} (hn : nonce.length = nonceSize)
    (h : text? key nonce m = some c) (path : String) : plaintext path (some key) c = .ok m := by
  obtain ⟨sealed, hs, rfl⟩ := Option.map_eq_some_iff.1 h
  have ho := Sealing.open?_of_seal? hn hs
  unfold plaintext
  rw [octets_write]
  show (if (nonce ++ sealed).length < nonceSize then _ else _) = _
  rw [if_neg (by rw [List.length_append, hn]; omega)]
  simp only [← hn, List.take_left, List.drop_left, ho]

end Ciphertext

namespace Vault

/-- the path that a call encrypts under -/
def Call.sealsUnder : Call → Option String
  | .encrypt path _ => some path
  | .encryptTransit path _ => some path
  | _ => none

/-- the key of a path -/
def keyAt (v : Vault) (path : String) : Option Bytes := v.backend.store.transitKey? path

/-- a memory stays one, and has the same keys as before but for a new one at `added` -/
def KeysAdded (added : Option String) (v w : Vault) : Prop :=
  v.backend.kind = .memory → w.backend.kind = .memory ∧
    ∀ path, w.keyAt path = v.keyAt path ∨ (added = some path ∧ v.keyAt path = none)

variable {added : Option String} {v w : Vault}

theorem KeysAdded.of_eq (hk : w.backend.kind = v.backend.kind)
    (hs : w.backend.store.transitKeys = v.backend.store.transitKeys) : KeysAdded added v w := by
  intro hm
  refine ⟨hk.trans hm, fun path => Or.inl ?_⟩
  unfold keyAt Store.transitKey?
  rw [hs]

instance : Std.Refl (KeysAdded added) := ⟨fun _ => .of_eq rfl rfl⟩

instance : Trans (KeysAdded added) (KeysAdded added) (KeysAdded added) := by
  refine ⟨fun h k hm => ?_⟩
  obtain ⟨hm', hv⟩ := h hm
  obtain ⟨hm'', hw⟩ := k hm'
  refine ⟨hm'', fun path => ?_⟩
  rcases hw path with e | ⟨ha, hn⟩
  · rw [e]
    exact hv path
  · rcases hv path with e | hv
    · exact Or.inr ⟨ha, by rw [← e]; exact hn⟩
    · exact Or.inr hv

/-- a key that is there stays -/
theorem KeysAdded.keeps (h : KeysAdded added v w) (hm : v.backend.kind = .memory) {path : String}
    {key : Bytes} (hk : v.keyAt path = some key) : w.keyAt path = some key := by
  rcases (h hm).2 path with e | ⟨-, hn⟩
  · rw [e, hk]
  · rw [hk] at hn
    cases hn

/-! ## what each step adds -/

theorem lax_keysAdded : Lax (KeysAdded added) := ⟨fun _ _ => .of_eq rfl rfl, fun _ _ => .of_eq rfl rfl⟩

theorem keysAdded_draw (n : Nat) : (draw n).Moves (KeysAdded added) := fun _ => .of_eq rfl rfl

theorem keysAdded_newHandle (space : String) (engine : Engine) :
    (newHandle space engine).Moves (KeysAdded added) := fun _ => .of_eq rfl rfl

theorem keysAdded_updateCache (svc : Nat) (f : HandleCache → HandleCache) :
    (updateCache svc f).Moves (KeysAdded added) := fun _ => .of_eq rfl rfl

theorem keysAdded_updateStore {f : Store → Store} (hf : ∀ s, (f s).transitKeys = s.transitKeys) :
    (updateStore f).Moves (KeysAdded added) := fun v => .of_eq rfl (hf v.backend.store)

/-- a path without a key gets one -/
theorem keysAdded_transitKey (path : String) :
    (transitKey path).Moves (KeysAdded (some path)) := by
  intro v hm
  unfold transitKey
  simp only [Effect.run_bind, Effect.run_get]
  cases hk : v.backend.store.transitKey? path with
  | some key => exact ⟨hm, fun _ => Or.inl rfl⟩
  | none =>
    refine ⟨hm, fun q => ?_⟩
    by_cases hq : q = path
    · rw [hq]
      exact Or.inr ⟨rfl, hk⟩
    · refine Or.inl ?_
      show (v.backend.store.addTransitKey path _).transitKey? q = v.backend.store.transitKey? q
      rw [Store.transitKey?_addTransitKey, if_neg hq]

theorem keysAdded_encryptTransit (path : String) (plaintext : Bytes) :
    (encryptTransit path plaintext).Moves (KeysAdded (some path)) :=
  moves_encryptTransit lax_keysAdded.moves_passSite keysAdded_draw (keysAdded_transitKey path) plaintext

theorem keysAdded_construct (space : String) (engine : Engine) :
    (construct space engine).Moves (KeysAdded added) := by
  intro v hm
  have h : (constructInMemory space engine).Moves (KeysAdded added) :=
    Effect.moves_bind (lax_keysAdded.moves_passSite _) fun _ =>
      Effect.moves_bind (keysAdded_updateStore fun _ => rfl) fun _ => keysAdded_newHandle _ _
  unfold construct
  simp only [Effect.run_bind, Effect.run_get, hm]
  exact h v hm

theorem keysAdded_openSpace (svc : Nat) (space : String) :
    (openSpace svc space).Moves (KeysAdded added) :=
  lax_keysAdded.moves_openSpace (keysAdded_construct space) (keysAdded_updateCache svc)

theorem keysAdded_putThrough (hd : Handle) (key : String) (e : Envelope) :
    (putThrough hd key e).Moves (KeysAdded added) := by
  intro v hm
  have h : (passSite "memory-kv-put" >>= fun _ =>
      updateStore fun s => s.put hd.space key (.ofEnvelope e)).Moves (KeysAdded added) :=
    Effect.moves_bind (lax_keysAdded.moves_passSite _) fun _ => keysAdded_updateStore fun _ => rfl
  unfold putThrough
  rw [Effect.run_bind, Effect.run_get]
  simp only [hm]
  exact h v hm

theorem keysAdded_startService (config : VaultConfig) :
    (startService config).Moves (KeysAdded added) := by
  refine Effect.moves_bind (Effect.moves_ofExcept _) fun _ => ?_
  exact Effect.moves_bind (lax_keysAdded.moves_note _) fun _ => Effect.moves_modify fun _ => .of_eq rfl rfl

/-! ## what calls add -/

/-- a call adds a key at most at the path that it encrypts under, and only if there was none -/
theorem keysAdded_after (v : Vault) (c : Call) : KeysAdded c.sealsUnder v (v.after c) := by
  cases c with
  | start config => exact keysAdded_startService config v
  | write svc space key value =>
    exact Effect.moves_bind (lax_keysAdded.moves_note _) (fun _ =>
      Effect.moves_bind (keysAdded_openSpace svc space) fun hd =>
        lax_keysAdded.moves_orNote (keysAdded_putThrough hd key _) _) v
  | read svc space key => exact lax_keysAdded.moves_read (keysAdded_openSpace svc space) key v
  | encrypt path plaintext =>
    exact lax_keysAdded.moves_encrypt (keysAdded_encryptTransit path plaintext) v
  | decrypt path ciphertext => exact lax_keysAdded.moves_decrypt path ciphertext v
  | openSpace svc space => exact keysAdded_openSpace svc space v
  | construct space engine => exact keysAdded_construct space engine v
  | putThrough hd key e => exact keysAdded_putThrough hd key e v
  | getThrough hd key => exact moves_getThrough lax_keysAdded.moves_passSite hd key v
  | encryptTransit path plaintext => exact keysAdded_encryptTransit path plaintext v
  | decryptTransit path ciphertext =>
    exact moves_decryptTransit lax_keysAdded.moves_passSite path ciphertext v
  | plant space key r => exact keysAdded_updateStore (fun _ => rfl) v

/-- a memory stays one behind any calls, and each of its keys stays as it is -/
theorem afterUnder_keeps (hm : v.backend.kind = .memory) (cs : List (Faults × Call)) :
    (v.afterUnder cs).backend.kind = .memory ∧
      ∀ path key, v.keyAt path = some key → (v.afterUnder cs).keyAt path = some key := by
  induction cs generalizing v with
  | nil => exact ⟨hm, fun _ _ h => h⟩
  | cons c cs ih =>
    have hc := keysAdded_after (v.withFaults c.1) c.2
    obtain ⟨hm', hk⟩ := ih (hc hm).1
    exact ⟨hm', fun path key h => hk path key (hc.keeps hm h)⟩

theorem initial_memory (random : RandomStream) : (initial random).backend.kind = .memory := rfl

theorem reachable_memory (random : RandomStream) (cs : List (Faults × Call)) :
    ((initial random).afterUnder cs).backend.kind = .memory :=
  (afterUnder_keeps (initial_memory random) cs).1

/-! ## the round trip -/

/-- the key that is used is the one of the path from then on -/
theorem transitKey_run (v : Vault) (path : String) :
    ∃ key, ((transitKey path).run v).1 = .ok key ∧
      ((transitKey path).run v).2.keyAt path = some key := by
  unfold transitKey
  simp only [Effect.run_bind, Effect.run_get]
  cases hk : v.backend.store.transitKey? path with
  | some key => exact ⟨key, rfl, hk⟩
  | none =>
    refine ⟨_, rfl, ?_⟩
    show (v.backend.store.addTransitKey path _).transitKey? path = some _
    rw [Store.transitKey?_addTransitKey, if_pos rfl]

theorem length_of_draw {n : Nat} {bs : Bytes} (h : ((draw n).run v).1 = .ok bs) : bs.length = n := by
  have e : (v.random.draw n).1 = bs := Except.ok.inj h
  rw [← e, RandomStream.length_draw]

/-- a ciphertext is sealed under the key that its path has from then on -/
theorem ok_of_encryptTransit (hm : v.backend.kind = .memory) {path : String} {m : Bytes}
    {c : String} (h : ((encryptTransit path m).run v).1 = .ok c) :
    ∃ key nonce, nonce.length = Ciphertext.nonceSize ∧
      ((encryptTransit path m).run v).2.keyAt path = some key ∧
      Ciphertext.text? key nonce m = some c := by
  have hr : (encryptTransit path m).run v = (encryptInMemory path m).run v := by
    unfold encryptTransit
    simp only [Effect.run_bind, Effect.run_get, hm]
  rw [hr] at h ⊢
  unfold encryptInMemory at h ⊢
  obtain ⟨_, -, e⟩ := Effect.ok_of_run_bind h
  rw [e] at h ⊢
  obtain ⟨key, hk, hkey⟩ := transitKey_run ((passSite "memory-backend-encrypt").run v).2 path
  rw [Effect.run_bind_of_ok hk] at h ⊢
  obtain ⟨nonce, hn, e⟩ := Effect.ok_of_run_bind h
  rw [e] at h ⊢
  refine ⟨key, nonce, length_of_draw hn, ?_, ?_⟩
  · split <;> exact hkey
  · cases hc : Ciphertext.text? key nonce m with
    | none => rw [hc] at h; cases h
    | some d =>
      rw [hc] at h
      rw [Except.ok.inj h]

/-- the site of faults in decrypting -/
def decryptSite : String := "memory-backend-decrypt"

/-- without a fault a memory decrypts by the key of the path -/
theorem decryptTransit_run (hm : v.backend.kind = .memory) (hf : (v.faults.pass decryptSite).1 = false)
    (path c : String) :
    ((decryptTransit path c).run v).1 = Ciphertext.plaintext path (v.keyAt path) c := by
  unfold decryptTransit decryptInMemory passSite
  simp only [Effect.run_bind, Effect.run_get, hm, Effect.run_modifyGet]
  unfold decryptSite at hf
  simp only [hf]
  rfl

/-- a service answers as the backend does -/
theorem encrypt_run (v : Vault) (path : String) (m : Bytes) :
    ∃ u, u.backend = v.backend ∧ u.faults = v.faults ∧
      ((encrypt path m).run v).1 = ((encryptTransit path m).run u).1 ∧
      ∀ c, ((encryptTransit path m).run u).1 = .ok c →
        ((encrypt path m).run v).2 = ((encryptTransit path m).run u).2 := by
  refine ⟨((note (.span "encrypt" [("transit_path", path), ("len", toString m.length)])).run v).2,
    rfl, rfl, ?_, ?_⟩
  · unfold encrypt
    rw [Effect.run_bind_of_ok (x := note _) rfl, orNote, Effect.run_onFailure_fst]
  · intro c h
    unfold encrypt
    rw [Effect.run_bind_of_ok (x := note _) rfl, orNote, Effect.run_onFailure_of_ok h]

theorem decrypt_run (v : Vault) (path c : String) :
    ∃ u, u.backend = v.backend ∧ u.faults = v.faults ∧
      ((decrypt path c).run v).1 = ((decryptTransit path c).run u).1 := by
  refine ⟨((note (.span "decrypt" [("transit_path", path)])).run v).2, rfl, rfl, ?_⟩
  unfold decrypt
  rw [Effect.run_bind_of_ok (x := note _) rfl, orNote, Effect.run_onFailure_fst]

/-- the state behind an encryption that succeeds, through a service or not -/
theorem ok_of_encrypt (hm : v.backend.kind = .memory) {path : String} {m : Bytes} {c : String}
    {sealing : Act String} (hs : sealing = encrypt path m ∨ sealing = encryptTransit path m)
    (h : (sealing.run v).1 = .ok c) :
    ∃ key nonce, nonce.length = Ciphertext.nonceSize ∧ (sealing.run v).2.backend.kind = .memory ∧
      (sealing.run v).2.keyAt path = some key ∧ Ciphertext.text? key nonce m = some c := by
  have hkind : ∀ u : Vault, u.backend.kind = .memory →
      ((encryptTransit path m).run u).2.backend.kind = .memory := fun u hu =>
    (keysAdded_encryptTransit path m u hu).1
  rcases hs with rfl | rfl
  · obtain ⟨u, hb, -, h1, h2⟩ := encrypt_run v path m
    have hu : u.backend.kind = .memory := by rw [hb, hm]
    rw [h1] at h
    rw [h2 c h]
    obtain ⟨key, nonce, hl, hk, ht⟩ := ok_of_encryptTransit hu h
    exact ⟨key, nonce, hl, hkind u hu, hk, ht⟩
  · obtain ⟨key, nonce, hl, hk, ht⟩ := ok_of_encryptTransit hm h
    exact ⟨key, nonce, hl, hkind v hm, hk, ht⟩

/-- decrypting under the key of the path, through a service or not -/
theorem run_decrypt (hm : v.backend.kind = .memory) (hf : (v.faults.pass decryptSite).1 = false)
    {path c : String} {opening : Act Bytes}
    (ho : opening = decrypt path c ∨ opening = decryptTransit path c) :
    (opening.run v).1 = Ciphertext.plaintext path (v.keyAt path) c := by
  rcases ho with rfl | rfl
  · obtain ⟨u, hb, hu, h1⟩ := decrypt_run v path c
    rw [h1, decryptTransit_run (by rw [hb, hm]) (by rw [hu]; exact hf), keyAt, keyAt, hb]
  · exact decryptTransit_run hm hf path c

/-- the site of faults in encrypting -/
def encryptSite : String := "memory-backend-encrypt"

/-- without a fault a memory encrypts every message within the limit -/
theorem exists_ok_encryptTransit (hm : v.backend.kind = .memory)
    (hf : (v.faults.pass encryptSite).1 = false) (path : String) {m : Bytes}
    (hw : Sealing.withinLimit m = true) : ∃ c, ((encryptTransit path m).run v).1 = .ok c := by
  have hr : (encryptTransit path m).run v = (encryptInMemory path m).run v := by
    unfold encryptTransit
    simp only [Effect.run_bind, Effect.run_get, hm]
  have hp : ((passSite "memory-backend-encrypt").run v).1 = .ok () := by
    unfold passSite
    unfold encryptSite at hf
    simp only [Effect.run_bind, Effect.run_modifyGet, hf]
    rfl
  rw [hr, encryptInMemory, Effect.run_bind_of_ok hp]
  obtain ⟨key, hk, -⟩ := transitKey_run ((passSite "memory-backend-encrypt").run v).2 path
  rw [Effect.run_bind_of_ok hk, Effect.run_bind_of_ok (x := draw _) rfl]
  obtain ⟨sealed, hs⟩ := Option.isSome_iff_exists.1 ((Sealing.isSome_seal? key _ m).trans hw)
  unfold Ciphertext.text?
  rw [hs]
  exact ⟨_, rfl⟩

/-- Every call adds a key at most at the path that it encrypts under, only if there was none, and
changes no other key. A ciphertext that was given once, through a service or by the backend, starts
with its mark and is decrypted to its plaintext behind any later calls and faults, unless decrypting
itself is made to fail. -/
theorem decrypt_of_encrypt (random : RandomStream) (before : List (Faults × Call)) :
    let v := (initial random).afterUnder before
    (∀ (faults : Faults) (call : Call) (q : String),
      ((v.withFaults faults).after call).keyAt q = v.keyAt q ∨
        (call.sealsUnder = some q ∧ v.keyAt q = none)) ∧
    ∀ (faults : Faults) (path : String) (m : Bytes) (c : String) (sealing : Act String),
      (sealing = encrypt path m ∨ sealing = encryptTransit path m) →
      (sealing.run (v.withFaults faults)).1 = .ok c →
      "vault:v1:".toList <+: c.toList ∧
      ∀ (later : List (Faults × Call)) (faults' : Faults) (opening : Act Bytes),
        (opening = decrypt path c ∨ opening = decryptTransit path c) →
        (faults'.pass decryptSite).1 = false →
        (opening.run (((sealing.run (v.withFaults faults)).2.afterUnder later).withFaults
          faults')).1 = .ok m := by
  intro v
  have hm : v.backend.kind = .memory := reachable_memory random before
  refine ⟨fun faults call q => (keysAdded_after (v.withFaults faults) call hm).2 q, ?_⟩
  intro faults path m c sealing hs h
  obtain ⟨key, nonce, hl, hm', hk, ht⟩ := ok_of_encrypt (v := v.withFaults faults) hm hs h
  refine ⟨Ciphertext.prefix_of_text? ht, ?_⟩
  intro later faults' opening ho hf
  obtain ⟨hm'', hkeep⟩ := afterUnder_keeps hm' later
  rw [run_decrypt (v := Vault.withFaults _ faults') hm'' hf ho]
  have hkey : keyAt (Vault.withFaults _ faults') path = some key := hkeep path key hk
  rw [hkey]
  exact Ciphertext.plaintext_of_text? hl ht path

/-- two octets are encrypted, another path gets a key, and the two octets are back -/
theorem decrypt_two_octets : ∃ c, ((encryptTransit "app" [104, 105]).run (initial ⟨.generator 0⟩)).1 = .ok c ∧
    ((decryptTransit "app" c).run
      ((((encryptTransit "app" [104, 105]).run (initial ⟨.generator 0⟩)).2.after (.encrypt "web" [])))).1
        = .ok [104, 105] := by
  obtain ⟨c, hc⟩ := exists_ok_encryptTransit (v := initial ⟨.generator 0⟩) rfl rfl "app" (m := [104, 105]) rfl
  refine ⟨c, hc, ?_⟩
  exact ((decrypt_of_encrypt ⟨.generator 0⟩ []).2 [] "app" [104, 105] c _ (Or.inr rfl) hc).2
    [([], .encrypt "web" [])] [] _ (Or.inr rfl) rfl

end Vault

end Credentials
