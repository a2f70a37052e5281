import Credentials.Proofs.Secret.Steps

/-!
# Services over one memory refine a plain map

* `SecretMap`            the plain map: responses by their namespaces and keys;
* `Vault.Serves`         a vault without faults whose memory holds a plain map and whose handles are
                         for the namespaces they are kept under;
* `Vault.KeepsMap`       what does not store anything keeps the map;
* `Vault.Serves.after`   a call on such a vault changes the map exactly as the call says;
* `Vault.lastStored`     the response that calls stored last at a key of a namespace;
* `Vault.serves_afterAll`   behind any calls the map is that of the responses stored last.

A handle names its namespace and holds nothing of it, and opening a namespace again keeps what is in
it: so it does not matter when a handle was made, nor through which service.
-/

namespace Credentials

/-- responses by their namespaces and keys -/
abbrev SecretMap := String → String → Option Response

namespace SecretMap

/-- nothing -/
def empty : SecretMap := fun _ _ => none

/-- a response put at a key of a namespace -/
def put (m : SecretMap) (space key : String) (r : Response) : SecretMap := fun n k =>
  if n = space ∧ k = key then some r else m n k

end SecretMap

namespace Vault

/-- what a call stores: a namespace, a key in it, and the response -/
def Call.stored : Call → Option (String × String × Response)
  | .write _ space key value => some (space, key, .ofEnvelope ⟨some value⟩)
  | .putThrough h key e => some (h.space, key, .ofEnvelope e)
  | .plant space key r => some (space, key, r)
  | _ => none

/-- the response that a call stores at a key of a namespace -/
def Call.storedAt (space key : String) (c : Call) : Option Response :=
  match c.stored with
  | some (n, k, r) => if n = space ∧ k = key then some r else none
  | none => none

/-- the response that calls stored last at a key of a namespace -/
def lastStored (cs : List Call) (space key : String) : Option Response :=
  (cs.filterMap (Call.storedAt space key)).getLast?

/-- what a read answers for a response, if there is one -/
def answer (space key : String) : Option Response → Except SecretError Lookup
  | none => .ok .notFound
  | some r => (r.envelope space key).map fun e => .found e.value

/-- the map behind a call -/
def Call.apply (m : SecretMap) (c : Call) : SecretMap :=
  match c.stored with
  | some (space, key, r) => m.put space key r
  | none => m

theorem apply_eq (m : SecretMap) (c : Call) (space key : String) :
    c.apply m space key = (c.storedAt space key).or (m space key) := by
  unfold Call.apply Call.storedAt
  cases c.stored with
  | none => rfl
  | some s =>
    obtain ⟨n, k, r⟩ := s
    show (if space = n ∧ key = k then some r else m space key) = _
    by_cases h : n = space ∧ k = key
    · rw [if_pos ⟨h.1.symm, h.2.symm⟩]
      simp only [h, and_self, if_true, Option.some_or]
    · rw [if_neg fun e => h ⟨e.1.symm, e.2.symm⟩]
      simp only [h, if_false, Option.none_or]

theorem lastStored_append (cs : List Call) (c : Call) (space key : String) :
    lastStored (cs ++ [c]) space key
      = (c.storedAt space key).or (lastStored cs space key) := by
  unfold lastStored
  rw [List.filterMap_append, List.getLast?_append]
  congr 1
  cases h : c.storedAt space key <;> simp [h]

/-- the plain map behind calls holds what they stored last -/
theorem foldl_apply (cs : List Call) : cs.foldl Call.apply .empty = lastStored cs := by
  have e : ∀ cs : List Call, cs.reverse.foldl Call.apply .empty = lastStored cs.reverse := by
    intro cs
    induction cs with
    | nil => rfl
    | cons c cs ih =>
      funext space key
      rw [List.reverse_cons, List.foldl_append, List.foldl_cons, List.foldl_nil, apply_eq, ih,
        lastStored_append]
  rw [← cs.reverse_reverse]
  exact e cs.reverse

/-! ## what a vault holds -/

/-- each handle is for the namespace it is kept under -/
def HandlesFit (v : Vault) : Prop :=
  ∀ svc space h, (v.cacheOf svc).find? space = some h → h.space = space

/-- a vault without faults over a memory that holds a plain map -/
structure Serves (v : Vault) (m : SecretMap) : Prop where
  memory : v.backend.kind = .memory
  quiet : v.faults = []
  fit : v.HandlesFit
  holds : ∀ space key, v.backend.store.get? space key = m space key

/-- what does not store anything -/
def KeepsMap (v w : Vault) : Prop := ∀ m, Serves v m → Serves w m

instance : Std.Refl KeepsMap := ⟨fun _ _ h => h⟩

instance : Trans KeepsMap KeepsMap KeepsMap := ⟨fun h k m s => k m (h m s)⟩

variable {v w : Vault} {m : SecretMap}

/-- only the services matter to the handles -/
theorem HandlesFit.congr (h : v.HandlesFit) (hs : w.services = v.services) : w.HandlesFit := by
  intro svc space hd e
  refine h svc space hd ?_
  unfold cacheOf at e ⊢
  rwa [hs] at e

/-- only the backend, the faults and the services matter -/
theorem Serves.congr (h : Serves v m) (hb : w.backend.kind = v.backend.kind)
    (hf : w.faults = v.faults) (hs : w.services = v.services)
    (hg : ∀ space key, w.backend.store.get? space key = v.backend.store.get? space key) :
    Serves w m := by
  exact ⟨hb.trans h.memory, hf.trans h.quiet, h.fit.congr hs, fun space key => (hg space key).trans
    (h.holds space key)⟩

theorem keeps_note (e : LogEntry) : (note e).Moves KeepsMap := fun _ _ h =>
  h.congr rfl rfl rfl fun _ _ => rfl

theorem keeps_orNote {α : Type} {x : Act α} (h : x.Moves KeepsMap) (entry : SecretError → LogEntry) :
    (orNote x entry).Moves KeepsMap :=
  Effect.moves_onFailure h fun _ _ _ h => h.congr rfl rfl rfl fun _ _ => rfl

theorem keeps_draw (n : Nat) : (draw n).Moves KeepsMap := fun _ _ h =>
  h.congr rfl rfl rfl fun _ _ => rfl

theorem keeps_newHandle (space : String) (engine : Engine) :
    (newHandle space engine).Moves KeepsMap := fun _ _ h => h.congr rfl rfl rfl fun _ _ => rfl

theorem keeps_updateStore {f : Store → Store}
    (hf : ∀ s space key, (f s).get? space key = s.get? space key) :
    (updateStore f).Moves KeepsMap := fun v _ h =>
  h.congr rfl rfl rfl fun space key => hf v.backend.store space key

/-- without faults every site is passed, and nothing changes -/
theorem passSite_quiet (hq : v.faults = []) (site : String) : (passSite site).run v = (.ok (), v) := by
  obtain ⟨backend, services, random, faults, log⟩ := v
  obtain rfl : faults = [] := hq
  rfl

theorem keeps_passSite (site : String) : (passSite site).Moves KeepsMap := fun v m h => by
  rw [passSite_quiet h.quiet]
  exact h

theorem keeps_transitKey (path : String) : (transitKey path).Moves KeepsMap :=
  moves_transitKey (keeps_note _) keeps_draw fun _ => keeps_updateStore fun _ _ _ => rfl

theorem keeps_encryptTransit (path : String) (plaintext : Bytes) :
    (encryptTransit path plaintext).Moves KeepsMap :=
  moves_encryptTransit keeps_passSite keeps_draw (keeps_transitKey path) plaintext

theorem keeps_decryptTransit (path ciphertext : String) :
    (decryptTransit path ciphertext).Moves KeepsMap :=
  moves_decryptTransit keeps_passSite path ciphertext

/-! ## handles -/

/-- a vault over a memory makes a handle for the asked namespace, and keeps the map -/
theorem construct_serves (h : Serves v m) (space : String) (engine : Engine) :
    ∃ hd, ((construct space engine).run v).1 = .ok hd ∧ hd.space = space ∧
      Serves ((construct space engine).run v).2 m := by
  have hr : (construct space engine).run v = (constructInMemory space engine).run v := by
    unfold construct
    simp only [Effect.run_bind, Effect.run_get, h.memory]
  have hc : (constructInMemory space engine).run v
      = (.ok ⟨v.backend.nextHandle, space, engine⟩, ((constructInMemory space engine).run v).2) := by
    unfold constructInMemory
    simp only [Effect.run_bind, passSite_quiet h.quiet]
    rfl
  have hm : (constructInMemory space engine).Moves KeepsMap := by
    refine Effect.moves_bind (keeps_passSite _) fun _ => ?_
    refine Effect.moves_bind (keeps_updateStore fun s n k => ?_) fun _ => keeps_newHandle _ _
    exact Store.get?_openSpace s space n k
  rw [hr]
  exact ⟨_, by rw [hc], rfl, hm v m h⟩

theorem cacheOf_updateCache (v : Vault) (svc i : Nat) (f : HandleCache → HandleCache) :
    ((updateCache svc f).run v).2.cacheOf i
      = if svc = i ∧ i < v.services.length then f (v.cacheOf i) else v.cacheOf i := by
  unfold updateCache cacheOf
  rw [Effect.run_modify]
  simp only [List.getElem?_modify]
  by_cases hl : i < v.services.length
  · rw [List.getElem?_eq_getElem hl]
    by_cases he : svc = i
    · simp [he, hl]
    · simp [he]
  · rw [List.getElem?_eq_none (Nat.le_of_not_lt hl)]
    simp [hl]

/-- a handle that is kept under its namespace leaves all handles fitting -/
theorem HandlesFit.keep (h : v.HandlesFit) (svc : Nat) (hd : Handle) :
    ((updateCache svc fun c => c.keep hd.space hd).run v).2.HandlesFit := by
  intro i space hd' e
  rw [cacheOf_updateCache] at e
  split at e
  · rw [HandleCache.keep, HandleCache.find?, lookup_putAt] at e
    split at e
    · rename_i hs
      cases e
      exact hs.symm
    · exact h i space hd' e
  · exact h i space hd' e

theorem keep_serves (h : Serves v m) (svc : Nat) (hd : Handle) :
    Serves ((updateCache svc fun c => c.keep hd.space hd).run v).2 m :=
  ⟨h.memory, h.quiet, h.fit.keep svc hd, h.holds⟩

/-- a handle that is kept is given, and nothing happens -/
theorem openSpace_of_kept {svc : Nat} {space : String} {hd : Handle}
    (h : (v.cacheOf svc).find? space = some hd) : (openSpace svc space).run v = (.ok hd, v) := by
  unfold openSpace
  simp only [Effect.run_bind, Effect.run_get, h, Effect.run_pure]

/-- a handle that is not kept is constructed, and kept from then on -/
theorem openSpace_of_not_kept {svc : Nat} {space : String}
    (h : (v.cacheOf svc).find? space = none) :
    (openSpace svc space).run v = (do
      let hd ← orNote (construct space (v.cacheOf svc).engine) (openFailed space)
      note (.debug "created key-value handle"
        [("namespace", space), ("engine", (v.cacheOf svc).engine.name)])
      updateCache svc fun c => c.keep space hd
      pure hd : Act Handle).run v := by
  unfold openSpace
  rw [Effect.run_bind, Effect.run_get]
  simp only [h]

/-- every service has a handle for the asked namespace, from before or from now on -/
theorem openSpace_serves (h : Serves v m) (svc : Nat) (space : String) :
    ∃ hd, ((openSpace svc space).run v).1 = .ok hd ∧ hd.space = space ∧
      Serves ((openSpace svc space).run v).2 m := by
  cases hc : (v.cacheOf svc).find? space with
  | some hd =>
    rw [openSpace_of_kept hc]
    exact ⟨hd, rfl, h.fit svc space hd hc, h⟩
  | none =>
    obtain ⟨hd, hr, rfl, hw⟩ := construct_serves h space (v.cacheOf svc).engine
    rw [openSpace_of_not_kept hc, Effect.run_bind_of_ok (by
      rw [orNote, Effect.run_onFailure_fst]
      exact hr), orNote, Effect.run_onFailure_of_ok hr]
    exact ⟨hd, rfl, rfl, keep_serves (keeps_note _ _ m hw) svc hd⟩

/-- a service that is started comes last, without handles; one whose settings are refused is not started -/
theorem startService_cases (v : Vault) (config : VaultConfig) :
    ((startService config).run v).2 = v ∨ ∃ entry, ((startService config).run v).2
      = { v with services := v.services ++ [⟨config, ⟨config.engine, []⟩⟩], log := entry :: v.log } := by
  unfold startService
  simp only [Effect.run_bind, Effect.run_ofExcept]
  cases config.validate with
  | error e => exact Or.inl rfl
  | ok _ => exact Or.inr ⟨_, rfl⟩

/-- the services that were there keep their handles, and no others are kept -/
theorem find?_of_startService {config : VaultConfig} {svc : Nat} {space : String} {hd : Handle}
    (e : (((startService config).run v).2.cacheOf svc).find? space = some hd) :
    (v.cacheOf svc).find? space = some hd := by
  rcases startService_cases v config with h | ⟨entry, h⟩
  · rwa [h] at e
  · rw [h] at e
    unfold cacheOf at e ⊢
    by_cases hl : svc < v.services.length
    · simpa [List.getElem?_append_left hl] using e
    · exfalso
      have hl := Nat.le_of_not_lt hl
      simp only [List.getElem?_append_right hl] at e
      cases hn : svc - v.services.length <;> simp [HandleCache.find?, hn] at e

theorem HandlesFit.startService (h : v.HandlesFit) (config : VaultConfig) :
    ((startService config).run v).2.HandlesFit :=
  fun svc space hd e => h svc space hd (find?_of_startService e)

theorem startService_serves (h : Serves v m) (config : VaultConfig) :
    Serves ((startService config).run v).2 m := by
  have hfit := h.fit.startService config
  rcases startService_cases v config with hs | ⟨entry, hs⟩
  · rwa [hs]
  · rw [hs] at hfit ⊢
    exact ⟨h.memory, h.quiet, hfit, h.holds⟩

/-! ## secrets -/

/-- a response put through a handle is in the map from then on -/
theorem putThrough_serves (h : Serves v m) (hd : Handle) (key : String) (e : Envelope) :
    Serves ((putThrough hd key e).run v).2 (m.put hd.space key (.ofEnvelope e)) := by
  have hr : (putThrough hd key e).run v
      = (updateStore fun s => s.put hd.space key (.ofEnvelope e)).run v := by
    unfold putThrough
    simp only [Effect.run_bind, Effect.run_get, h.memory, passSite_quiet h.quiet]
  rw [hr]
  refine ⟨h.memory, h.quiet, h.fit, fun n k => ?_⟩
  show (v.backend.store.put hd.space key _).get? n k = _
  rw [Store.get?_put, h.holds]
  rfl

/-- a handle answers from the map -/
theorem getThrough_serves (h : Serves v m) (hd : Handle) (key : String) :
    (getThrough hd key).run v = (.ok (m hd.space key), v) := by
  unfold getThrough
  simp only [Effect.run_bind, Effect.run_get, h.memory, passSite_quiet h.quiet, Effect.run_pure,
    h.holds]

theorem plant_serves (h : Serves v m) (space key : String) (r : Response) :
    Serves ((plant space key r).run v).2 (m.put space key r) := by
  refine ⟨h.memory, h.quiet, h.fit, fun n k => ?_⟩
  show (v.backend.store.put space key r).get? n k = _
  rw [Store.get?_put, h.holds]
  rfl

theorem note_serves (h : Serves v m) (e : LogEntry) : Serves ((note e).run v).2 m :=
  keeps_note e v m h

/-- a secret that a service writes is in the map from then on -/
theorem write_serves (h : Serves v m) (svc : Nat) (space key value : String) :
    Serves ((write svc space key value).run v).2 (m.put space key (.ofEnvelope ⟨some value⟩)) := by
  have hn := note_serves h (.span "write_key_value_secret" [("namespace", space), ("key", key)])
  obtain ⟨hd, hr, rfl, hw⟩ := openSpace_serves hn svc space
  unfold write
  rw [Effect.run_bind_of_ok (x := note _) rfl, Effect.run_bind_of_ok hr, orNote]
  have hp := putThrough_serves hw hd key ⟨some value⟩
  rw [Effect.run_onFailure]
  split
  · rename_i a t hs
    rw [hs] at hp
    exact hp
  · rename_i e t hs
    rw [hs] at hp
    exact hp.congr rfl rfl rfl fun _ _ => rfl

/-- what a read through a service answers, and that it keeps the map -/
theorem read_serves (h : Serves v m) (svc : Nat) (space key : String) :
    ((read svc space key).run v).1 = answer space key (m space key) ∧
      Serves ((read svc space key).run v).2 m := by
  have hn := note_serves h (.span "read_key_value_secret" [("namespace", space), ("key", key)])
  obtain ⟨hd, hr, rfl, hw⟩ := openSpace_serves hn svc space
  have hg := getThrough_serves hw hd key
  unfold read
  rw [Effect.run_bind_of_ok (x := note _) rfl, Effect.run_bind_of_ok hr, orNote,
    Effect.run_bind_of_ok (by rw [Effect.run_onFailure_fst, hg]),
    Effect.run_onFailure_of_ok (by rw [hg]), hg]
  cases hm : m hd.space key with
  | none => exact ⟨rfl, note_serves hw _⟩
  | some r =>
    unfold answer
    cases he : r.envelope hd.space key with
    | ok e => exact ⟨by simp [orNote, he]; rfl, by simpa [orNote, he] using hw⟩
    | error e =>
      refine ⟨by simp [orNote, he]; rfl, ?_⟩
      have hk : (orNote (Effect.ofExcept (.error e) : Act Envelope)
          (keyFailed "malformed key-value response" hd.space key)).Moves KeepsMap :=
        keeps_orNote (Effect.moves_ofExcept _) _
      simpa [orNote, he] using hk _ m hw

/-! ## runs -/

/-- a call changes the map exactly as the call says -/
theorem Serves.after (h : Serves v m) (c : Call) : Serves (v.after c) (c.apply m) := by
  cases c with
  | start config => exact startService_serves h config
  | write svc space key value => exact write_serves h svc space key value
  | read svc space key => exact (read_serves h svc space key).2
  | encrypt path plaintext =>
    exact Effect.moves_bind (keeps_note _) (fun _ =>
      keeps_orNote (keeps_encryptTransit path plaintext) _) v m h
  | decrypt path ciphertext =>
    exact Effect.moves_bind (keeps_note _) (fun _ =>
      keeps_orNote (keeps_decryptTransit path ciphertext) _) v m h
  | openSpace svc space =>
    obtain ⟨_, _, _, hw⟩ := openSpace_serves h svc space
    exact hw
  | construct space engine =>
    obtain ⟨_, _, _, hw⟩ := construct_serves h space engine
    exact hw
  | putThrough hd key e => exact putThrough_serves h hd key e
  | getThrough hd key =>
    show Serves ((getThrough hd key).run v).2 m
    rw [getThrough_serves h]
    exact h
  | encryptTransit path plaintext => exact keeps_encryptTransit path plaintext v m h
  | decryptTransit path ciphertext => exact keeps_decryptTransit path ciphertext v m h
  | plant space key r => exact plant_serves h space key r

/-- calls change the map one after another -/
theorem Serves.afterAll (h : Serves v m) (cs : List Call) :
    Serves (v.afterAll cs) (cs.foldl Call.apply m) := by
  induction cs generalizing v m with
  | nil => exact h
  | cons c cs ih => exact ih (h.after c)

/-- a vault that has done nothing yet holds nothing -/
theorem serves_initial (random : RandomStream) : Serves (initial random) .empty := by
  refine ⟨rfl, rfl, ?_, fun _ _ => rfl⟩
  intro svc space hd e
  cases e

/-- behind any calls the vault holds at each key what was stored there last, whoever stored it -/
theorem serves_afterAll (random : RandomStream) (cs : List Call) :
    Serves ((initial random).afterAll cs) (lastStored cs) :=
  foldl_apply cs ▸ (serves_initial random).afterAll cs

end Vault

end Credentials
