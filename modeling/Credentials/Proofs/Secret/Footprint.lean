import Credentials.Proofs.Secret.Desk
import Credentials.Proofs.Secret.Transit

/-!
# What an operation of a service changes

* `Vault.SameSecrets`      transit keys, responses and the random stream are as before;
* `Vault.StoresOnly`       so they are but for one response;
* `Vault.openSpace_cases`  all that opening a namespace can come to over a memory, faults or not;
* `Vault.sameSecrets_encrypt`, `Vault.sameSecrets_read`, `Vault.write_cases`   what the operations change;
* `Vault.failed_of_openSpace`   without a handle an operation changes neither handles nor backend;
* `Vault.HandlesFit.after` each handle stays one for the namespace it is kept under;
* `Vault.footprint_afterUnder`   all of this behind any calls and faults.

An operation passes the site at which it can be made to fail before it draws or stores anything. Only a
handle may be there already by then, and the namespace it was made for, which is empty.
-/

namespace Credentials.Vault

variable {v w u : Vault}

/-- the transit keys, the responses at all keys of all namespaces and the random stream are as before -/
structure SameSecrets (v w : Vault) : Prop where
  keys : w.backend.store.transitKeys = v.backend.store.transitKeys
  responses : ∀ space key, w.backend.store.get? space key = v.backend.store.get? space key
  random : w.random = v.random

theorem SameSecrets.trans (h : SameSecrets v w) (h' : SameSecrets w u) : SameSecrets v u :=
  ⟨h'.keys.trans h.keys, fun space key => (h'.responses space key).trans (h.responses space key),
    h'.random.trans h.random⟩

instance : Std.Refl SameSecrets := ⟨fun _ => ⟨rfl, fun _ _ => rfl, rfl⟩⟩

instance : Trans SameSecrets SameSecrets SameSecrets := ⟨SameSecrets.trans⟩

/-- a response is stored in one place, and nothing else is changed -/
structure StoresOnly (space key : String) (r : Response) (v w : Vault) : Prop where
  keys : w.backend.store.transitKeys = v.backend.store.transitKeys
  responses : ∀ n k, w.backend.store.get? n k
    = if n = space ∧ k = key then some r else v.backend.store.get? n k
  random : w.random = v.random

/-! ## steps that change no secret -/

theorem lax_sameSecrets : Lax SameSecrets :=
  ⟨fun _ _ => ⟨rfl, fun _ _ => rfl, rfl⟩, fun _ _ => ⟨rfl, fun _ _ => rfl, rfl⟩⟩

theorem sameSecrets_constructInMemory (space : String) (engine : Engine) :
    (constructInMemory space engine).Moves SameSecrets := by
  refine Effect.moves_bind (lax_sameSecrets.moves_passSite _) fun _ => ?_
  -- a namespace that is opened again keeps its responses
  refine Effect.moves_bind (Effect.moves_modify fun v => ⟨rfl, fun n k => ?_, rfl⟩) fun _ => ?_
  · exact Store.get?_openSpace v.backend.store space n k
  · exact Effect.moves_modifyGet fun _ => ⟨rfl, fun _ _ => rfl, rfl⟩

theorem sameSecrets_updateKind (f : BackendKind → BackendKind) : (updateKind f).Moves SameSecrets :=
  Effect.moves_modify fun _ => ⟨rfl, fun _ _ => rfl, rfl⟩

theorem sameSecrets_construct (space : String) (engine : Engine) :
    (construct space engine).Moves SameSecrets :=
  moves_construct sameSecrets_updateKind (Effect.moves_modifyGet fun _ => ⟨rfl, fun _ _ => rfl, rfl⟩)
    (sameSecrets_constructInMemory space engine)

theorem sameSecrets_openSpace (svc : Nat) (space : String) : (openSpace svc space).Moves SameSecrets :=
  lax_sameSecrets.moves_openSpace (sameSecrets_construct space) fun _ =>
    Effect.moves_modify fun _ => ⟨rfl, fun _ _ => rfl, rfl⟩

theorem passSite_cases (v : Vault) (site : String) :
    (passSite site).run v = (.error (.transport (Faults.message site) none), v.passed site) ∨
      (passSite site).run v = (.ok (), v.passed site) := by
  cases h : (v.faults.planAt site).pass.1 with
  | true => exact Or.inl (passSite_fails h)
  | false => exact Or.inr (passSite_passes h)

/-! ## what opening a namespace can come to -/

theorem inMemory_of_memory (hm : v.backend.kind = .memory) : v.backend.kind.inMemory := by
  rw [hm]
  trivial

/-- a memory makes a handle for the asked namespace, or fails at the site of handles -/
theorem construct_cases (hm : v.backend.kind = .memory) (space : String) (engine : Engine) :
    (construct space engine).run v = (.error .injected, v.passed handleSite) ∨
      ∃ w, (construct space engine).run v = (.ok ⟨v.backend.nextHandle, space, engine⟩, w) ∧
        w.services = v.services := by
  have hr : (construct space engine).run v = (constructInMemory space engine).run v := by
    unfold construct
    simp only [Effect.run_bind, Effect.run_get, hm]
  rw [hr, constructInMemory, show "memory-backend-kv-handle" = handleSite from rfl, Effect.run_bind]
  rcases passSite_cases v handleSite with h | h
  · rw [h]
    exact Or.inl rfl
  · rw [h]
    exact Or.inr ⟨_, rfl, rfl⟩

/-- a handle that is kept is given, a handle that is made is kept, and a failure leaves nothing but the
pass of a site and its entry -/
theorem openSpace_cases (hm : v.backend.kind = .memory) (svc : Nat) (space : String) :
    (∃ hd, (v.cacheOf svc).find? space = some hd ∧ (openSpace svc space).run v = (.ok hd, v)) ∨
      (∃ hd w, hd.space = space ∧ w.services = v.services ∧ (openSpace svc space).run v
        = (.ok hd, ((updateCache svc fun c => c.keep hd.space hd).run w).2)) ∨
      ∃ log, (openSpace svc space).run v = (.error .injected, { v.passed handleSite with log := log }) := by
  cases hc : (v.cacheOf svc).find? space with
  | some hd => exact Or.inl ⟨hd, rfl, openSpace_of_kept hc⟩
  | none =>
    rw [openSpace_of_not_kept hc]
    rcases construct_cases hm space (v.cacheOf svc).engine with h | ⟨w, h, hs⟩
    · have he := congrArg Prod.fst h
      rw [Effect.run_bind_of_error (by rw [orNote, Effect.run_onFailure_fst, he]), orNote,
        Effect.run_onFailure_of_error he, h]
      exact Or.inr (Or.inr ⟨_, rfl⟩)
    · have ho := congrArg Prod.fst h
      rw [Effect.run_bind_of_ok (by rw [orNote, Effect.run_onFailure_fst, ho]), orNote,
        Effect.run_onFailure_of_ok ho, h]
      exact Or.inr (Or.inl ⟨_, ((note _).run w).2, rfl, hs, rfl⟩)

theorem HandlesFit.openSpace (hf : v.HandlesFit) (hm : v.backend.kind = .memory) (svc : Nat)
    (space : String) : ((openSpace svc space).run v).2.HandlesFit := by
  rcases openSpace_cases hm svc space with ⟨hd, -, h⟩ | ⟨hd, w, -, hw, h⟩ | ⟨log, h⟩
  · rw [h]
    exact hf
  · rw [h]
    exact (hf.congr hw).keep svc hd
  · rw [h]
    exact hf.congr rfl

theorem memory_openSpace (hm : v.backend.kind = .memory) (svc : Nat) (space : String) :
    ((openSpace svc space).run v).2.backend.kind = .memory := by
  have h : KeysAdded none v ((openSpace svc space).run v).2 := keysAdded_openSpace svc space v
  exact (h hm).1

/-! ## transit -/

/-- no namespace is touched, no handle, and no counter -/
structure SameSpaces (v w : Vault) : Prop where
  spaces : w.backend.store.spaces = v.backend.store.spaces
  services : w.services = v.services
  kind : w.backend.kind = v.backend.kind
  next : w.backend.nextHandle = v.backend.nextHandle
  created : w.backend.store.handlesCreated = v.backend.store.handlesCreated

instance : Std.Refl SameSpaces := ⟨fun _ => ⟨rfl, rfl, rfl, rfl, rfl⟩⟩

instance : Trans SameSpaces SameSpaces SameSpaces :=
  ⟨fun h h' => ⟨h'.spaces.trans h.spaces, h'.services.trans h.services, h'.kind.trans h.kind,
    h'.next.trans h.next, h'.created.trans h.created⟩⟩

theorem SameSpaces.get? (h : SameSpaces v w) (space key : String) :
    w.backend.store.get? space key = v.backend.store.get? space key := by
  unfold Store.get? Store.space
  rw [h.spaces]

theorem lax_sameSpaces : Lax SameSpaces :=
  ⟨fun _ _ => ⟨rfl, rfl, rfl, rfl, rfl⟩, fun _ _ => ⟨rfl, rfl, rfl, rfl, rfl⟩⟩

theorem sameSpaces_draw (n : Nat) : (draw n).Moves SameSpaces := fun _ => ⟨rfl, rfl, rfl, rfl, rfl⟩

theorem sameSpaces_transitKey (path : String) : (transitKey path).Moves SameSpaces :=
  moves_transitKey (lax_sameSpaces.moves_note _) sameSpaces_draw
    fun _ => Effect.moves_modify fun _ => ⟨rfl, rfl, rfl, rfl, rfl⟩

theorem sameSpaces_encryptTransit (path : String) (m : Bytes) : (encryptTransit path m).Moves SameSpaces :=
  moves_encryptTransit lax_sameSpaces.moves_passSite sameSpaces_draw (sameSpaces_transitKey path) m

theorem sameSpaces_encrypt (path : String) (m : Bytes) : (encrypt path m).Moves SameSpaces :=
  lax_sameSpaces.moves_encrypt (sameSpaces_encryptTransit path m)

theorem sameSpaces_decryptTransit (path ciphertext : String) :
    (decryptTransit path ciphertext).Moves SameSpaces :=
  moves_decryptTransit lax_sameSpaces.moves_passSite path ciphertext

theorem sameSpaces_decrypt (path ciphertext : String) : (decrypt path ciphertext).Moves SameSpaces :=
  lax_sameSpaces.moves_decrypt path ciphertext

/-- within the limit of the cipher, an encryption fails only before it does anything -/
theorem sameSecrets_encrypt (hm : v.backend.kind = .memory) {path : String} {m : Bytes}
    (hw : Sealing.withinLimit m = true) {e : SecretError} (h : ((encrypt path m).run v).1 = .error e) :
    SameSecrets v ((encrypt path m).run v).2 := by
  unfold encrypt at h ⊢
  rw [Effect.run_bind_of_ok (x := note _) rfl] at h ⊢
  generalize hu : ((note _).run v).2 = u at h ⊢
  have hvu : SameSecrets v u := hu ▸ lax_sameSecrets.moves_note _ v
  have hmu : u.backend.kind = .memory := by rw [← hu]; exact hm
  rw [orNote, Effect.run_onFailure_fst] at h
  refine (hvu.trans ?_).trans (Effect.moves_looking (fun _ v => lax_sameSecrets.log v _)
    (encryptTransit path m) u)
  -- only the site can have failed, and it comes before the key and the nonce
  cases hp : (u.faults.pass encryptSite).1 with
  | false =>
    obtain ⟨c, hc⟩ := exists_ok_encryptTransit hmu hp path hw
    rw [h] at hc
    cases hc
  | true =>
    have hr : (encryptTransit path m).run u = (encryptInMemory path m).run u := by
      unfold encryptTransit
      simp only [Effect.run_bind, Effect.run_get, hmu]
    rw [Faults.pass_fst] at hp
    rw [hr, encryptInMemory, show "memory-backend-encrypt" = encryptSite from rfl,
      Effect.run_bind_of_error (congrArg Prod.fst (passSite_fails hp)), passSite_fails hp]
    exact lax_sameSecrets.faults u _

/-! ## reads and writes -/

theorem putThrough_cases (hm : v.backend.kind = .memory) (hd : Handle) (key : String) (e : Envelope) :
    (∃ err w, (putThrough hd key e).run v = (.error err, w) ∧ SameSecrets v w) ∨
      ∃ w, (putThrough hd key e).run v = (.ok (), w) ∧ StoresOnly hd.space key (.ofEnvelope e) v w := by
  have hmem := inMemory_of_memory hm
  rw [run_putThrough hmem, Effect.run_bind]
  rcases passSite_cases v "memory-kv-put" with h | h
  · rw [h]
    exact Or.inl ⟨_, _, rfl, lax_sameSecrets.faults v _⟩
  · rw [h]
    exact Or.inr ⟨_, rfl, rfl, fun n k => Store.get?_put v.backend.store hd.space key n k _, rfl⟩

/-- a write that fails changes no secret, and one that succeeds only its own -/
theorem write_cases (hm : v.backend.kind = .memory) (hf : v.HandlesFit) (svc : Nat)
    (space key value : String) :
    (∃ e w, (write svc space key value).run v = (.error e, w) ∧ SameSecrets v w) ∨
      ∃ w, (write svc space key value).run v = (.ok (), w) ∧
        StoresOnly space key (.ofEnvelope ⟨some value⟩) v w := by
  unfold write
  rw [Effect.run_bind_of_ok (x := note _) rfl]
  generalize hu : ((note _).run v).2 = u
  have hvu : SameSecrets v u := hu ▸ lax_sameSecrets.moves_note _ v
  have hmu : u.backend.kind = .memory := by rw [← hu]; exact hm
  have hfu : u.HandlesFit := hu ▸ hf.congr rfl
  have hopen := hvu.trans (sameSecrets_openSpace svc space u)
  have hmo := memory_openSpace hmu svc space
  cases ho : ((openSpace svc space).run u).1 with
  | error e =>
    rw [Effect.run_bind_of_error ho]
    exact Or.inl ⟨e, _, rfl, hopen⟩
  | ok hd =>
    rw [Effect.run_bind_of_ok ho]
    obtain rfl := space_of_openSpace hfu ho
    rcases putThrough_cases hmo hd key ⟨some value⟩ with ⟨e, w, hp, hw⟩ | ⟨w, hp, hw⟩
    · have he := congrArg Prod.fst hp
      rw [orNote, Effect.run_onFailure_of_error he, hp]
      exact Or.inl ⟨e, _, rfl, (hopen.trans hw).trans ⟨rfl, fun _ _ => rfl, rfl⟩⟩
    · have he := congrArg Prod.fst hp
      rw [orNote, Effect.run_onFailure_of_ok he, hp]
      refine Or.inr ⟨w, rfl, hw.keys.trans hopen.keys, fun n k => ?_, hw.random.trans hopen.random⟩
      rw [hw.responses, hopen.responses]

theorem openSpace_fst_of_desk (hm : v.backend.kind.inMemory) (hd : w.desk = v.desk) (svc : Nat)
    (space : String) : ((openSpace svc space).run w).1 = ((openSpace svc space).run v).1 := by
  have h := onDesk_openSpace (inMemory_of_desk hd hm) svc space
  rw [hd, ← onDesk_openSpace hm] at h
  exact (Prod.mk.inj h).1

/-- a call whose handle cannot be made fails in the same way, and leaves services and backend alone -/
theorem failed_of_openSpace {α : Type} (hm : v.backend.kind = .memory) {svc : Nat} {space : String}
    {e : SecretError} (h : ((openSpace svc space).run v).1 = .error e) (entry : LogEntry)
    (f : Handle → Act α) :
    ∃ w, (do note entry; let hd ← openSpace svc space; f hd : Act α).run v = (.error e, w) ∧
      w.services = v.services ∧ w.backend = v.backend := by
  rw [Effect.run_bind_of_ok (x := note entry) rfl]
  generalize hu : ((note entry).run v).2 = u
  have hmu : u.backend.kind = .memory := by rw [← hu]; exact hm
  have hou : ((openSpace svc space).run u).1 = .error e := by
    rw [← h, ← hu]
    exact openSpace_fst_of_desk (w := ((note entry).run v).2) (inMemory_of_memory hm) rfl svc space
  rcases openSpace_cases hmu svc space with ⟨hd, -, ho⟩ | ⟨hd, w, -, -, ho⟩ | ⟨log, ho⟩
  · rw [ho] at hou
    cases hou
  · rw [ho] at hou
    cases hou
  · rw [Effect.run_bind_of_error hou, ho, ← hu]
    exact ⟨_, rfl, rfl, rfl⟩

/-! ## handles behind any calls -/

theorem HandlesFit.of_desk (hf : v.HandlesFit) (h : w.desk = v.desk) : w.HandlesFit :=
  hf.congr (congrArg Desk.services h)

theorem HandlesFit.of_ask (hf : v.HandlesFit) (hm : v.backend.kind = .memory) {svc : Nat}
    {space : String} (h : w.desk = (v.desk.ask svc space).2) : w.HandlesFit := by
  have hmem := inMemory_of_memory hm
  refine (hf.openSpace hm svc space).of_desk (h.trans ?_)
  exact (desk_after_openSpace hmem svc space).symm

/-- each handle stays one for the namespace it is kept under -/
theorem HandlesFit.after (hf : v.HandlesFit) (hm : v.backend.kind = .memory) (c : Call) :
    (v.after c).HandlesFit := by
  have hmem := inMemory_of_memory hm
  cases c with
  | start config => exact hf.startService config
  | write svc space key value => exact hf.of_ask hm (desk_after_write hmem svc space key value)
  | read svc space key => exact hf.of_ask hm (desk_after_read hmem svc space key)
  | encrypt path m => exact hf.congr (sameSpaces_encrypt path m v).services
  | decrypt path c => exact hf.congr (sameSpaces_decrypt path c v).services
  | openSpace svc space => exact hf.openSpace hm svc space
  | construct space engine =>
    show ((Vault.construct space engine).run v).2.HandlesFit
    rcases construct_cases hm space engine with h | ⟨w, h, hs⟩
    · rw [h]
      exact hf.congr rfl
    · rw [h]
      exact hf.congr hs
  | putThrough h key e => exact hf.of_desk (desk_after_putThrough hmem h key e)
  | getThrough h key => exact hf.of_desk (desk_after_getThrough hmem h key)
  | encryptTransit path m => exact hf.congr (sameSpaces_encryptTransit path m v).services
  | decryptTransit path c => exact hf.congr (sameSpaces_decryptTransit path c v).services
  | plant space key r => exact hf.congr rfl

theorem HandlesFit.afterUnder (hf : v.HandlesFit) (hm : v.backend.kind = .memory)
    (cs : List (Faults × Call)) : (v.afterUnder cs).HandlesFit := by
  induction cs generalizing v with
  | nil => exact hf
  | cons c cs ih =>
    have hw : (v.withFaults c.1).HandlesFit := hf.congr rfl
    exact ih (hw.after hm c.2) (keysAdded_after (v.withFaults c.1) c.2 hm).1

theorem handlesFit_initial (random : RandomStream) : (initial random).HandlesFit := by
  intro svc space hd h
  cases h

/-- Behind any calls and faults, and whatever faults are planned now: an operation of a service that
fails changes no secret, and if no handle could be made for it, it changes neither the backend nor the
handles. A write that succeeds stores its own response and nothing else, an encryption that succeeds
adds a key at most at its own path, and decrypting and reading change no secret in any case. -/
theorem footprint_afterUnder (random : RandomStream) (before : List (Faults × Call)) (faults : Faults) :
    let v := ((initial random).afterUnder before).withFaults faults
    (∀ (path : String) (m : Bytes),
      (∀ e, Sealing.withinLimit m = true → ((encrypt path m).run v).1 = .error e →
        SameSecrets v ((encrypt path m).run v).2) ∧
      ∀ c, ((encrypt path m).run v).1 = .ok c → ∀ space key q,
        ((encrypt path m).run v).2.backend.store.get? space key = v.backend.store.get? space key ∧
        (((encrypt path m).run v).2.keyAt q = v.keyAt q ∨ (q = path ∧ v.keyAt path = none))) ∧
    (∀ path c, SameSecrets v ((decrypt path c).run v).2) ∧
    (∀ svc space key, SameSecrets v ((read svc space key).run v).2) ∧
    (∀ svc space key value,
      (∃ e w, (write svc space key value).run v = (.error e, w) ∧ SameSecrets v w) ∨
      ∃ w, (write svc space key value).run v = (.ok (), w) ∧
        StoresOnly space key (.ofEnvelope ⟨some value⟩) v w) ∧
    ∀ svc space e, ((openSpace svc space).run v).1 = .error e → ∀ key,
      (∃ w, (read svc space key).run v = (.error e, w) ∧
        w.services = v.services ∧ w.backend = v.backend) ∧
      ∀ value, ∃ w, (write svc space key value).run v = (.error e, w) ∧
        w.services = v.services ∧ w.backend = v.backend := by
  intro v
  have hm : v.backend.kind = .memory := reachable_memory random before
  have hf : v.HandlesFit :=
    ((handlesFit_initial random).afterUnder (initial_memory random) before).congr rfl
  refine ⟨fun path m => ⟨fun e hw h => sameSecrets_encrypt hm hw h, fun c _ space key q => ⟨?_, ?_⟩⟩,
    fun path c => lax_sameSecrets.moves_decrypt path c v,
    fun svc space key => lax_sameSecrets.moves_read (sameSecrets_openSpace svc space) key v,
    fun svc space key value => write_cases hm hf svc space key value, fun svc space e h key => ?_⟩
  · exact (sameSpaces_encrypt path m v).get? space key
  · rcases (keysAdded_after v (.encrypt path m) hm).2 q with h | ⟨hq, hn⟩
    · exact Or.inl h
    · cases hq
      exact Or.inr ⟨rfl, hn⟩
  · exact ⟨failed_of_openSpace hm h _ _, fun value => failed_of_openSpace hm h _ _⟩

/-- a put that is made to fail leaves the secret that is there, a handle that is made to fail leaves no
namespace, and an encryption that is made to fail leaves no key -/
theorem footprint_afterUnder_faulty :
    let v (site : String) : Vault := ((initial ⟨.generator 0⟩).afterUnder
      [([], .start .loopback), ([], .write 0 "app" "user" "alice")]).withFaults [(site, [⟨none, true⟩])]
    (∃ e w, (write 0 "app" "user" "bob").run (v "memory-kv-put") = (.error e, w) ∧
      w.backend.store.get? "app" "user" = some (.ofEnvelope ⟨some "alice"⟩)) ∧
    (∃ e w, (write 0 "web" "user" "bob").run (v handleSite) = (.error e, w) ∧
      w.backend = (v handleSite).backend) ∧
    Sealing.withinLimit [1] = true ∧ ∃ e, ((encrypt "app" [1]).run (v encryptSite)).1 = .error e ∧
      SameSecrets (v encryptSite) ((encrypt "app" [1]).run (v encryptSite)).2 := by
  intro v
  have hfoot := fun site => footprint_afterUnder ⟨.generator 0⟩
    [([], .start .loopback), ([], .write 0 "app" "user" "alice")] [(site, [⟨none, true⟩])]
  refine ⟨?_, ?_, rfl, ?_⟩
  · obtain ⟨-, -, -, hwrite, -⟩ := hfoot "memory-kv-put"
    rcases hwrite 0 "app" "user" "bob" with ⟨e, w, h, hw⟩ | ⟨w, h, -⟩
    · exact ⟨e, w, h, (hw.responses "app" "user").trans rfl⟩
    · have hf : ((write 0 "app" "user" "bob").run (v "memory-kv-put")).1
          = .error (.transport (Faults.message "memory-kv-put") none) := rfl
      rw [h] at hf
      cases hf
  · obtain ⟨-, -, -, -, hopen⟩ := hfoot handleSite
    obtain ⟨w, h, -, hb⟩ := (hopen 0 "web" .injected rfl "user").2 "bob"
    exact ⟨_, w, h, hb⟩
  · obtain ⟨hencrypt, -⟩ := hfoot encryptSite
    have he : ((encrypt "app" [1]).run (v encryptSite)).1
        = .error (.transport (Faults.message encryptSite) none) := rfl
    exact ⟨_, he, (hencrypt "app" [1]).1 _ rfl he⟩

end Credentials.Vault
