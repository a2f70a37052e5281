import Credentials.Proofs.Secret.Footprint

/-!
# Handles that hold their maps

* `SharedMaps`            maps of responses, and where the map of each namespace is;
* `SharedMaps.hold`       the place of the map of a namespace, which gets one on first use;
* `HeldMaps`              such maps, and the place that each handle holds;
* `HeldMaps.after`        what a call does to them;
* `HeldMaps.Fits`         every handle made so far holds the map that its namespace has now;
* `Vault.Shares`          the maps hold what the vault stores, and its handles fit;
* `Vault.Shares.after`    a call keeps this;
* `Vault.Shares.made_of_kept`, `Vault.Shares.made_of_openSpace`   handles that are kept or given were made;
* `Vault.read_afterAll`   reads answer for what was stored last, and so do the maps that handles hold.

A handle of a vault names its namespace, and every use looks the namespace up. A handle may as well find
the map of its namespace once, when it is made, and share it with all other handles. This answers alike,
however old a handle is: a namespace that is opened again keeps its map, and no two namespaces have the
same one.
-/

namespace Credentials

/-- maps of responses, and where the map of each namespace is -/
structure SharedMaps where
  places : List (String × Nat)
  maps : List (List (String × Response))
  /-- there is a map at every place -/
  bounded : ∀ space p, places.lookup space = some p → p < maps.length
  /-- no two namespaces have the same map -/
  distinct : ∀ a b p, places.lookup a = some p → places.lookup b = some p → a = b

namespace SharedMaps

variable {s : SharedMaps} {space name key : String} {p : Nat}

/-- no namespaces -/
def empty : SharedMaps where
  places := []
  maps := []
  bounded _ _ h := nomatch h
  distinct _ _ _ h := nomatch h

/-- where the map of a namespace is -/
def place? (s : SharedMaps) (space : String) : Option Nat := s.places.lookup space

/-- the response at a key of the map at a place -/
def at? (s : SharedMaps) (p : Nat) (key : String) : Option Response :=
  s.maps[p]?.bind fun l => l.lookup key

/-- the response at a key of the map of a namespace -/
def get? (s : SharedMaps) : SecretMap := fun space key => (s.place? space).bind fun p => s.at? p key

/-- an empty map for a namespace -/
def add (s : SharedMaps) (space : String) : SharedMaps where
  places := putAt space s.maps.length s.places
  maps := s.maps ++ [[]]
  bounded name p h := by
    rw [lookup_putAt] at h
    rw [List.length_append, List.length_singleton]
    split at h
    · cases h
      exact Nat.lt_succ_self _
    · exact Nat.lt_succ_of_lt (s.bounded name p h)
  distinct a b p ha hb := by
    -- no namespace had the new place before
    have hnew : ∀ n, s.places.lookup n ≠ some s.maps.length := fun n h =>
      Nat.lt_irrefl _ (s.bounded n _ h)
    rw [lookup_putAt] at ha hb
    split at ha <;> split at hb
    · rename_i ha' hb'
      exact ha'.trans hb'.symm
    · cases ha
      exact absurd hb (hnew b)
    · cases hb
      exact absurd ha (hnew a)
    · exact s.distinct a b p ha hb

/-- the place of the map of a namespace, which gets one on first use -/
def hold (s : SharedMaps) (space : String) : Nat × SharedMaps :=
  match s.place? space with
  | some p => (p, s)
  | none => (s.maps.length, s.add space)

/-- a response put at a key of the map at a place -/
def put (s : SharedMaps) (p : Nat) (key : String) (r : Response) : SharedMaps where
  places := s.places
  maps := s.maps.modify p (putAt key r)
  bounded := by simpa only [List.length_modify] using s.bounded
  distinct := s.distinct

theorem hold_of_place? (h : s.place? space = some p) : s.hold space = (p, s) := by
  rw [hold, h]

theorem hold_of_none (h : s.place? space = none) : s.hold space = (s.maps.length, s.add space) := by
  rw [hold, h]

/-- a namespace that is held has its map at the place that is given -/
theorem place?_hold (s : SharedMaps) (space : String) :
    (s.hold space).2.place? space = some (s.hold space).1 := by
  cases h : s.place? space with
  | some p => rw [hold_of_place? h, h]
  | none =>
    rw [hold_of_none h]
    exact (lookup_putAt ..).trans (if_pos rfl)

/-- a map stays where it is, whichever namespace is held -/
theorem place?_hold_of_place? (h : s.place? name = some p) (space : String) :
    (s.hold space).2.place? name = some p := by
  cases hs : s.place? space with
  | some q => rw [hold_of_place? hs, h]
  | none =>
    have hn : name ≠ space := fun e => by rw [e, hs] at h; cases h
    rw [hold_of_none hs]
    exact (lookup_putAt ..).trans ((if_neg hn).trans h)

/-- a new map holds nothing, and the others hold what they held -/
theorem get?_hold (s : SharedMaps) (space : String) : (s.hold space).2.get? = s.get? := by
  cases hs : s.place? space with
  | some q => rw [hold_of_place? hs]
  | none =>
    rw [hold_of_none hs]
    funext name key
    unfold get?
    by_cases hn : name = space
    · subst hn
      have hnew : (s.add name).place? name = some s.maps.length :=
        (lookup_putAt ..).trans (if_pos rfl)
      rw [hnew, hs, Option.bind_some, Option.bind_none, at?, add, List.getElem?_concat_length]
      rfl
    · have hother : (s.add space).place? name = s.place? name := (lookup_putAt ..).trans (if_neg hn)
      rw [hother]
      cases hp : s.place? name with
      | none => rfl
      | some p =>
        have hlt := s.bounded name p hp
        rw [Option.bind_some, Option.bind_some, at?, add, List.getElem?_append_left hlt, at?]

theorem at?_put (hp : p < s.maps.length) (key k : String) (r : Response) (q : Nat) :
    (s.put p key r).at? q k = if q = p ∧ k = key then some r else s.at? q k := by
  unfold at? put
  rw [List.getElem?_modify]
  by_cases hq : q = p
  · subst hq
    simp only [List.getElem?_eq_getElem hp, if_true, Option.map_eq_map, Option.map_some,
      Option.bind_some, true_and]
    exact lookup_putAt ..
  · have hq' : p ≠ q := fun e => hq e.symm
    simp only [hq, hq', if_false, false_and]
    cases s.maps[q]? <;> rfl

/-- a response put in the map of a namespace is at its own namespace and key, and nowhere else -/
theorem get?_put (h : s.place? space = some p) (key : String) (r : Response) :
    (s.put p key r).get? = SecretMap.put s.get? space key r := by
  have hlt := s.bounded space p h
  funext name k
  unfold SecretMap.put get?
  rw [show (s.put p key r).place? name = s.place? name from rfl]
  cases hn : s.place? name with
  | none =>
    have hne : name ≠ space := fun e => by rw [e, h] at hn; cases hn
    rw [if_neg fun e => hne e.1]
    rfl
  | some q =>
    rw [Option.bind_some, Option.bind_some, at?_put hlt]
    -- two namespaces are the same if their maps are
    have hq : q = p ↔ name = space :=
      ⟨fun e => s.distinct name space p (e ▸ hn) h, fun e => by
        rw [e, h] at hn; exact (Option.some.inj hn).symm⟩
    simp only [hq]

end SharedMaps

/-- a handle that is found was kept just now, or before -/
theorem Desk.find?_keep {d : Desk} {svc i : Nat} {space name : String} {h hd : Handle}
    (hk : ((d.keep svc space h).cacheOf i).find? name = some hd) :
    (name = space ∧ hd = h) ∨ (d.cacheOf i).find? name = some hd := by
  unfold cacheOf keep at hk
  simp only [List.getElem?_modify] at hk
  unfold cacheOf
  cases hi : d.services[i]? with
  | none =>
    rw [hi] at hk
    cases hk
  | some service =>
    rw [hi] at hk
    by_cases hsvc : svc = i
    · simp only [hsvc, if_true, Option.map_eq_map, Option.map_some, Option.getD_some,
        HandleCache.find?, HandleCache.keep, lookup_putAt] at hk
      split at hk
      · rename_i hname
        exact .inl ⟨hname, (Option.some.inj hk).symm⟩
      · exact .inr hk
    · simp only [hsvc, if_false] at hk
      exact .inr hk

/-- maps, and the handles that hold them -/
structure HeldMaps where
  maps : SharedMaps
  /-- the namespace of each handle and the place that it holds, by the numbers of the handles -/
  held : List (String × Nat)

namespace HeldMaps

/-- no namespaces and no handles -/
def empty : HeldMaps := ⟨.empty, []⟩

/-- a new handle, which holds the map of its namespace from now on -/
def make (s : HeldMaps) (space : String) : HeldMaps :=
  ⟨(s.maps.hold space).2, s.held ++ [(space, (s.maps.hold space).1)]⟩

/-- the number of the handle of a namespace, from the handles that are kept or from now on -/
def ask (s : HeldMaps) (kept : HandleCache) (space : String) : Nat × HeldMaps :=
  match kept.find? space with
  | some h => (h.number, s)
  | none => (s.held.length, s.make space)

/-- the response at a key of the map that a handle holds -/
def get? (s : HeldMaps) (n : Nat) (key : String) : Option Response :=
  s.held[n]?.bind fun e => s.maps.at? e.2 key

/-- a response put at a key of the map that a handle holds -/
def put (s : HeldMaps) (n : Nat) (key : String) (r : Response) : HeldMaps :=
  match s.held[n]? with
  | some e => { s with maps := s.maps.put e.2 key r }
  | none => s

/-- a response put at a key of a namespace, past all handles -/
def plant (s : HeldMaps) (space key : String) (r : Response) : HeldMaps :=
  { s with maps := (s.maps.hold space).2.put (s.maps.hold space).1 key r }

/-- what a call on a vault does to maps and handles -/
def after (s : HeldMaps) (v : Vault) : Vault.Call → HeldMaps
  | .write svc space key value =>
    let (n, s) := s.ask (v.cacheOf svc) space
    s.put n key (.ofEnvelope ⟨some value⟩)
  | .read svc space _ | .openSpace svc space => (s.ask (v.cacheOf svc) space).2
  | .construct space _ => s.make space
  | .putThrough h key e => s.put h.number key (.ofEnvelope e)
  | .plant space key r => s.plant space key r
  | _ => s

/-- what calls on a vault do, one after another -/
def afterAll (s : HeldMaps) (v : Vault) : List Vault.Call → HeldMaps
  | [] => s
  | c :: cs => (s.after v c).afterAll (v.after c) cs

/-- a handle that was made for its namespace -/
def Made (s : HeldMaps) (h : Handle) : Prop := ∃ p, s.held[h.number]? = some (h.space, p)

/-- a handle that holds the map which its namespace has now, with the responses of a plain map -/
structure Finds (s : HeldMaps) (m : SecretMap) (h : Handle) : Prop where
  current : ∃ p, s.held[h.number]? = some (h.space, p) ∧ s.maps.place? h.space = some p
  found : ∀ key, s.get? h.number key = m h.space key

/-- a call that puts nothing through a handle but one that was made -/
def Admits (s : HeldMaps) : Vault.Call → Prop
  | .putThrough h _ _ => s.Made h
  | _ => True

/-- calls that put nothing through a handle but one that was made before -/
def AdmitsAll (s : HeldMaps) (v : Vault) : List Vault.Call → Prop
  | [] => True
  | c :: cs => s.Admits c ∧ (s.after v c).AdmitsAll (v.after c) cs

variable {s : HeldMaps} {d : Desk} {kept : HandleCache} {space : String} {n p : Nat}

theorem ask_of_kept {h : Handle} (hk : kept.find? space = some h) :
    s.ask kept space = (h.number, s) := by
  rw [ask, hk]

theorem ask_of_not_kept (hk : kept.find? space = none) :
    s.ask kept space = (s.held.length, s.make space) := by
  rw [ask, hk]

/-- whoever asks for a handle changes no response -/
theorem get?_ask (s : HeldMaps) (kept : HandleCache) (space : String) :
    (s.ask kept space).2.maps.get? = s.maps.get? := by
  cases hk : kept.find? space with
  | some h => rw [ask_of_kept hk]
  | none =>
    rw [ask_of_not_kept hk]
    exact SharedMaps.get?_hold s.maps space

/-! ## handles of all ages -/

/-- the handles are those of a desk, and each holds the map that its namespace has now -/
structure Fits (s : HeldMaps) (d : Desk) : Prop where
  next : s.held.length = d.next
  kept : ∀ svc space h, (d.cacheOf svc).find? space = some h → ∃ p, s.held[h.number]? = some (space, p)
  current : ∀ e ∈ s.held, s.maps.place? e.1 = some e.2

theorem Fits.place? (h : s.Fits d) (hn : s.held[n]? = some (space, p)) :
    s.maps.place? space = some p := h.current _ (List.mem_of_getElem? hn)

/-- what a handle finds is what its namespace has -/
theorem Fits.get? (h : s.Fits d) (hn : s.held[n]? = some (space, p)) (key : String) :
    s.get? n key = s.maps.get? space key := by
  rw [HeldMaps.get?, hn, SharedMaps.get?, h.place? hn]
  rfl

/-- only the services and the number of the next handle matter -/
theorem Fits.congr (h : s.Fits d) {d' : Desk} (hs : d'.services = d.services) (hn : d'.next = d.next) :
    s.Fits d' := by
  refine ⟨h.next.trans hn.symm, fun svc name hd hk => h.kept svc name hd ?_, h.current⟩
  unfold Desk.cacheOf at hk ⊢
  rwa [← hs]

/-- other maps in the same places do as well -/
theorem Fits.of_maps (h : s.Fits d) {maps : SharedMaps}
    (hm : ∀ name p, s.maps.place? name = some p → maps.place? name = some p) :
    Fits { s with maps := maps } d :=
  ⟨h.next, h.kept, fun e he => hm _ _ (h.current e he)⟩

theorem Fits.put (h : s.Fits d) (n : Nat) (key : String) (r : Response) : (s.put n key r).Fits d := by
  unfold HeldMaps.put
  split
  · exact h.of_maps fun _ _ hp => hp
  · exact h

theorem Fits.plant (h : s.Fits d) (space key : String) (r : Response) :
    (s.plant space key r).Fits d :=
  h.of_maps fun _ _ hp => SharedMaps.place?_hold_of_place? hp space

/-- a handle that is made holds the map that its namespace has, and so do those before it -/
theorem Fits.make (h : s.Fits d) (space : String) {d' : Desk} (hs : d'.services = d.services)
    (hn : d'.next = d.next + 1) : (s.make space).Fits d' := by
  refine ⟨?_, fun svc name hd hk => ?_, fun e he => ?_⟩
  · rw [HeldMaps.make, List.length_append, List.length_singleton, h.next, hn]
  · unfold Desk.cacheOf at hk
    rw [hs] at hk
    obtain ⟨p, hp⟩ := h.kept svc name hd hk
    have hlt := (List.getElem?_eq_some_iff.1 hp).1
    exact ⟨p, (List.getElem?_append_left hlt).trans hp⟩
  · rcases List.mem_append.1 he with hbefore | hnew
    · exact SharedMaps.place?_hold_of_place? (h.current e hbefore) space
    · rw [List.mem_singleton.1 hnew]
      exact SharedMaps.place?_hold s.maps space

/-- a new handle may be kept under its namespace -/
theorem Fits.keep (h : s.Fits d) {hd : Handle} (hn : s.held[hd.number]? = some (space, p)) (svc : Nat) :
    s.Fits (d.keep svc space hd) := by
  refine ⟨h.next, fun i name hd' hk => ?_, h.current⟩
  rcases Desk.find?_keep hk with ⟨rfl, rfl⟩ | hk
  · exact ⟨p, hn⟩
  · exact h.kept i name hd' hk

/-- whoever asks for a namespace gets a handle that holds its map -/
theorem Fits.ask (h : s.Fits d) (hm : d.kind = .memory) (hq : d.plan = []) (svc : Nat) (space : String) :
    (s.ask (d.cacheOf svc) space).2.Fits (d.ask svc space).2 ∧
      ∃ p, (s.ask (d.cacheOf svc) space).2.held[(s.ask (d.cacheOf svc) space).1]? = some (space, p) := by
  have hc := d.asks svc space
  generalize d.ask svc space = r at hc
  cases hc with
  | kept hk =>
    rw [ask_of_kept hk]
    exact ⟨h, h.kept svc space _ hk⟩
  | refused hk hr =>
    rw [hm] at hr
    cases hr
  | injected hk hr hp =>
    rw [hq] at hp
    cases hp
  | made hk hr hp =>
    rw [ask_of_not_kept hk, h.next]
    have hnew : (s.make space).held[d.next]? = some (space, (s.maps.hold space).1) := by
      rw [← h.next]
      exact List.getElem?_concat_length
    have hmade : (s.make space).Fits { d.met space (d.cacheOf svc).engine with
        plan := d.plan.pass.2, next := d.next + 1, created := d.created + 1 } :=
      h.make space rfl rfl
    exact ⟨hmade.keep hnew svc, _, hnew⟩

/-- a desk in memory without faults makes a handle, which holds the map that its namespace has -/
theorem Fits.construct (h : s.Fits d) (hm : d.kind = .memory) (hq : d.plan = []) (space : String)
    (engine : Engine) : (s.make space).Fits (d.construct space engine).2 := by
  have hr : d.kind.refusal? space = none := by
    rw [hm]
    rfl
  have hp : (d.met space engine).plan.pass.1 = false := by
    rw [show (d.met space engine).plan = d.plan from rfl, hq]
    rfl
  unfold Desk.construct Desk.constructInMemory
  simp only [hr, hp]
  exact h.make space rfl rfl

/-- what is put through a handle is in the map of its namespace -/
theorem Fits.get?_put (h : s.Fits d) (hn : s.held[n]? = some (space, p)) (key : String) (r : Response) :
    (s.put n key r).maps.get? = SecretMap.put s.maps.get? space key r := by
  rw [HeldMaps.put, hn]
  exact SharedMaps.get?_put (h.place? hn) key r

theorem get?_plant (s : HeldMaps) (space key : String) (r : Response) :
    (s.plant space key r).maps.get? = SecretMap.put s.maps.get? space key r := by
  rw [← SharedMaps.get?_hold s.maps space]
  exact SharedMaps.get?_put (SharedMaps.place?_hold s.maps space) key r

end HeldMaps

namespace Vault

variable {v w : Vault} {s : HeldMaps} {m : SecretMap}

/-! ## vaults -/

theorem fits_of_sameSpaces (h : s.Fits v.desk) (hw : SameSpaces v w) : s.Fits w.desk :=
  h.congr hw.services hw.next

/-- a service starts without handles -/
theorem fits_startService (h : s.Fits v.desk) (config : VaultConfig) :
    s.Fits ((startService config).run v).2.desk := by
  refine ⟨?_, fun svc space hd hk => h.kept svc space hd (find?_of_startService hk), h.current⟩
  rcases startService_cases v config with hs | ⟨entry, hs⟩
  · rw [hs]
    exact h.next
  · rw [hs]
    exact h.next

/-- a vault that holds a plain map, with maps that hold the same, and with the same handles -/
structure Shares (v : Vault) (s : HeldMaps) (m : SecretMap) : Prop where
  serves : Serves v m
  fits : s.Fits v.desk
  stored : s.maps.get? = m

namespace Shares

/-- without faults no plan is left for handles either -/
theorem plan (h : Shares v s m) : v.desk.plan = [] := by
  unfold desk
  rw [h.serves.quiet]
  rfl

/-- whoever asks a service for a namespace gets a handle that holds its map -/
theorem ask (h : Shares v s m) (svc : Nat) (space : String) :
    (s.ask (v.cacheOf svc) space).2.Fits (v.desk.ask svc space).2 ∧
      ∃ p, (s.ask (v.cacheOf svc) space).2.held[(s.ask (v.cacheOf svc) space).1]? = some (space, p) :=
  h.fits.ask h.serves.memory h.plan svc space

/-- every handle that was made finds what is stored -/
theorem finds (h : Shares v s m) {hd : Handle} (hm : s.Made hd) : s.Finds m hd := by
  obtain ⟨p, hp⟩ := hm
  exact ⟨⟨p, hp, h.fits.place? hp⟩, fun key => by rw [h.fits.get? hp, h.stored]⟩

/-- a handle that the backend gives was made -/
theorem made_of_construct (h : Shares v s m) {space : String} {engine : Engine} {hd : Handle}
    (hr : ((construct space engine).run v).1 = .ok hd) :
    (s.after v (.construct space engine)).Made hd := by
  rcases construct_cases h.serves.memory space engine with hf | ⟨w, ho, -⟩
  · rw [hf] at hr
    cases hr
  · rw [ho] at hr
    obtain rfl := Except.ok.inj hr
    refine ⟨(s.maps.hold space).1, ?_⟩
    rw [show v.backend.nextHandle = s.held.length from h.fits.next.symm]
    exact List.getElem?_concat_length

/-- a handle that a service keeps was made, for the namespace it is kept under -/
theorem made_of_kept (h : Shares v s m) {svc : Nat} {space : String} {hd : Handle}
    (hk : (v.cacheOf svc).find? space = some hd) : hd.space = space ∧ s.Made hd := by
  obtain rfl := h.serves.fit svc space hd hk
  exact ⟨rfl, h.fits.kept svc hd.space hd hk⟩

/-- a handle that a service gives was made -/
theorem made_of_openSpace (h : Shares v s m) {svc : Nat} {space : String} {hd : Handle}
    (hr : ((openSpace svc space).run v).1 = .ok hd) :
    (s.after v (.openSpace svc space)).Made hd := by
  show (s.ask (v.cacheOf svc) space).2.Made hd
  cases hc : (v.cacheOf svc).find? space with
  | some hd' =>
    rw [openSpace_of_kept hc] at hr
    obtain rfl := Except.ok.inj hr
    rw [HeldMaps.ask_of_kept hc]
    exact (h.made_of_kept hc).2
  | none =>
    rw [openSpace_of_not_kept hc] at hr
    obtain ⟨hd', hmade, hrest⟩ := Effect.ok_of_run_bind hr
    rw [hrest] at hr
    obtain rfl : hd' = hd := Except.ok.inj hr
    rw [orNote, Effect.run_onFailure_fst] at hmade
    rw [HeldMaps.ask_of_not_kept hc]
    exact h.made_of_construct hmade

/-- behind a call the handles fit the desk of the vault behind it -/
theorem fits_after (h : Shares v s m) (c : Call) : (s.after v c).Fits (v.after c).desk := by
  have hmem : v.backend.kind.inMemory := inMemory_of_memory h.serves.memory
  cases c with
  | start config => exact fits_startService h.fits config
  | write svc space key value =>
    rw [desk_after_write hmem]
    exact (h.ask svc space).1.put _ key _
  | read svc space key =>
    rw [desk_after_read hmem]
    exact (h.ask svc space).1
  | encrypt path plaintext =>
    exact fits_of_sameSpaces h.fits (sameSpaces_encrypt path _ v)
  | decrypt path ciphertext => exact fits_of_sameSpaces h.fits (sameSpaces_decrypt path _ v)
  | openSpace svc space =>
    rw [desk_after_openSpace hmem]
    exact (h.ask svc space).1
  | construct space engine =>
    rw [desk_after_construct hmem]
    exact h.fits.construct h.serves.memory h.plan space engine
  | putThrough hd key e =>
    rw [desk_after_putThrough hmem]
    exact h.fits.put _ key _
  | getThrough hd key =>
    rw [desk_after_getThrough hmem]
    exact h.fits
  | encryptTransit path plaintext => exact fits_of_sameSpaces h.fits (sameSpaces_encryptTransit path _ v)
  | decryptTransit path ciphertext => exact fits_of_sameSpaces h.fits (sameSpaces_decryptTransit path _ v)
  | plant space key r => exact h.fits.plant space key r

/-- behind a call the maps hold what the call says -/
theorem stored_after (h : Shares v s m) (c : Call) (hc : s.Admits c) :
    (s.after v c).maps.get? = c.apply m := by
  cases c with
  | write svc space key value =>
    obtain ⟨hf, p, hp⟩ := h.ask svc space
    rw [show (s.after v (.write svc space key value)).maps.get? = _ from hf.get?_put hp key _,
      HeldMaps.get?_ask, h.stored]
    rfl
  | putThrough hd key e =>
    obtain ⟨p, hp⟩ := hc
    rw [show (s.after v (.putThrough hd key e)).maps.get? = _ from h.fits.get?_put hp key _, h.stored]
    rfl
  | plant space key r =>
    rw [show (s.after v (.plant space key r)).maps.get? = _ from HeldMaps.get?_plant s space key r,
      h.stored]
    rfl
  | read svc space _ | openSpace svc space => exact (HeldMaps.get?_ask s _ space).trans h.stored
  | construct space _ => exact (SharedMaps.get?_hold s.maps space).trans h.stored
  | start | encrypt | decrypt | getThrough | encryptTransit | decryptTransit => exact h.stored

/-- a call keeps maps and handles as the vault keeps what is stored -/
theorem after (h : Shares v s m) (c : Call) (hc : s.Admits c) :
    Shares (v.after c) (s.after v c) (c.apply m) :=
  ⟨h.serves.after c, h.fits_after c, h.stored_after c hc⟩

theorem afterAll (h : Shares v s m) (cs : List Call) (hcs : s.AdmitsAll v cs) :
    Shares (v.afterAll cs) (s.afterAll v cs) (cs.foldl Call.apply m) := by
  induction cs generalizing v s m with
  | nil => exact h
  | cons c cs ih => exact ih (h.after c hcs.1) hcs.2

end Shares

theorem shares_initial (random : RandomStream) : Shares (initial random) .empty .empty := by
  refine ⟨serves_initial random, ⟨rfl, ?_, fun e he => nomatch he⟩, rfl⟩
  intro svc space hd hk
  cases hk

/-- Behind any calls a read through any service answers for the response that was stored last at its
namespace and key, whoever stored it; a string that was written last is found, the empty one too.
Unless something is put through a handle that was never made, every handle that was made so far, the
kept ones among them, holds the one map that its namespace has now. This map has what was stored last,
a get through the handle gives it, and the read answers for what the handle of its service finds. -/
theorem read_afterAll (random : RandomStream) (cs : List Call) (svc : Nat) (space key : String) :
    let v := (initial random).afterAll cs
    let s := HeldMaps.empty.afterAll (initial random) cs
    let answered := ((read svc space key).run v).1
    answered = answer space key (lastStored cs space key) ∧
    (∀ value, lastStored cs space key = some (.ofEnvelope ⟨some value⟩) →
      answered = .ok (.found (some value))) ∧
    (HeldMaps.empty.AdmitsAll (initial random) cs →
      (∀ h, s.Made h → s.Finds (lastStored cs) h ∧
        ∀ k, ((getThrough h k).run v).1 = .ok (s.get? h.number k)) ∧
      (∀ i n h, (v.cacheOf i).find? n = some h → h.space = n ∧ s.Made h) ∧
      ∃ h, ((openSpace svc space).run v).1 = .ok h ∧ h.space = space ∧
        (s.after v (.openSpace svc space)).Finds (lastStored cs) h ∧
        answered = answer space key ((s.after v (.openSpace svc space)).get? h.number key)) := by
  intro v s answered
  have hv : Serves v (lastStored cs) := serves_afterAll random cs
  have ha : answered = answer space key (lastStored cs space key) := (read_serves hv svc space key).1
  refine ⟨ha, fun value hw => ?_, fun hcs => ?_⟩
  · rw [ha, hw]
    rfl
  have hs : Shares v s (lastStored cs) := foldl_apply cs ▸ (shares_initial random).afterAll cs hcs
  refine ⟨fun h hm => ?_, fun i n h hk => hs.made_of_kept hk, ?_⟩
  · have hf := hs.finds hm
    refine ⟨hf, fun k => ?_⟩
    rw [getThrough_serves hv, hf.found]
  · obtain ⟨h, hr, rfl, -⟩ := openSpace_serves hv svc space
    have hopened : Shares (v.after (.openSpace svc h.space)) (s.after v (.openSpace svc h.space))
        (lastStored cs) := hs.after (.openSpace svc h.space) trivial
    have hf := hopened.finds (hs.made_of_openSpace hr)
    exact ⟨h, hr, rfl, hf, by rw [ha, hf.found]⟩

/-- puts through the handle that a service keeps, and through a later one for its namespace -/
def throughHandles : List Call :=
  [.start .loopback, .write 0 "app" "user" "alice", .construct "app" .v2,
    .putThrough ⟨1, "app", .v2⟩ "user" ⟨some "bob"⟩, .putThrough ⟨0, "app", .v1⟩ "pin" ⟨some ""⟩]

/-- the handle that was kept before finds what was put through the later one -/
theorem read_afterAll_throughHandles :
    let v := (initial ⟨.generator 0⟩).afterAll throughHandles
    let s := HeldMaps.empty.afterAll (initial ⟨.generator 0⟩) throughHandles
    HeldMaps.empty.AdmitsAll (initial ⟨.generator 0⟩) throughHandles ∧
    ((read 0 "app" "user").run v).1 = .ok (.found (some "bob")) ∧
    ((read 0 "app" "pin").run v).1 = .ok (.found (some "")) ∧
    s.Made ⟨0, "app", .v1⟩ ∧ s.get? 0 "user" = some (.ofEnvelope ⟨some "bob"⟩) := by
  intro v s
  have hcs : HeldMaps.empty.AdmitsAll (initial ⟨.generator 0⟩) throughHandles :=
    ⟨trivial, trivial, trivial, ⟨0, rfl⟩, ⟨0, rfl⟩, trivial⟩
  have hmade : s.Made ⟨0, "app", .v1⟩ := ⟨0, rfl⟩
  obtain ⟨-, huser, hheld⟩ := read_afterAll ⟨.generator 0⟩ throughHandles 0 "app" "user"
  obtain ⟨-, hpin, -⟩ := read_afterAll ⟨.generator 0⟩ throughHandles 0 "app" "pin"
  exact ⟨hcs, huser "bob" rfl, hpin "" rfl, hmade, (((hheld hcs).1 _ hmade).1.found "user").trans rfl⟩

end Vault

end Credentials
