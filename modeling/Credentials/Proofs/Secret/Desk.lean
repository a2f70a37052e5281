import Credentials.Proofs.Secret.Refinement

/-!
# Opening namespaces, apart from the rest of a vault

* `Faults.planAt`           the plan at a site, as passes of this and of other sites leave it;
* `Desk`                    all that opening a namespace depends on: services, counters, and a plan;
* `Desk.construct`          a new handle, or why there is none;
* `Desk.ask`                the handle of a namespace, which is constructed unless it is kept;
* `Desk.Asks`               all that asking can come to;
* `Vault.desk`              the desk of a vault;
* `Vault.onDesk_openSpace`  a vault opens namespaces as its desk does;
* `Vault.space_of_openSpace`   the handle that is given is one for the asked namespace, over any backend;
* `Vault.desk_read`, `Vault.desk_write`   reads and writes leave the desk as opening does;
* `Vault.desk_after_read`, `Vault.desk_after_construct`, …   so the desk behind a call depends on the desk alone.

The log, the random octets, what is stored and the other fault plans have no part in it.
-/

namespace Credentials

namespace Faults

variable (fs : Faults) (site : String) {other : String}

/-- the plan at a site -/
def planAt : FaultPlan := (fs.lookup site).getD []

theorem pass_fst : (fs.pass site).1 = (fs.planAt site).pass.1 := by
  unfold pass planAt
  cases fs.lookup site <;> rfl

theorem planAt_pass : (fs.pass site).2.planAt site = (fs.planAt site).pass.2 := by
  unfold pass planAt
  cases h : fs.lookup site with
  | none => simp only [h, Option.getD_none]; rfl
  | some plan => simp only [set, List.lookup_cons, beq_self_eq_true, Option.getD_some]

variable {site}

theorem lookup_others (h : other ≠ site) :
    (fs.filter fun f => f.1 != site).lookup other = fs.lookup other := by
  induction fs with
  | nil => rfl
  | cons f fs ih =>
    obtain ⟨n, plan⟩ := f
    by_cases hn : n = site
    · have ho : (other == n) = false := beq_eq_false_iff_ne.2 (hn ▸ h)
      rw [List.filter_cons_of_neg (by simp [hn]), ih, List.lookup_cons, ho]
    · rw [List.filter_cons_of_pos (by simp [hn]), List.lookup_cons, List.lookup_cons, ih]

theorem planAt_pass_of_ne (h : other ≠ site) : (fs.pass site).2.planAt other = fs.planAt other := by
  unfold pass planAt
  cases fs.lookup site with
  | none => rfl
  | some plan =>
    simp only [set, List.lookup_cons, beq_eq_false_iff_ne.2 h, lookup_others fs h]

end Faults

/-- where a memory may fail to make a handle -/
def handleSite : String := "memory-backend-kv-handle"

def SecretError.injected : SecretError := .transport (Faults.message handleSite) none

def SecretError.refused (space : String) : SecretError :=
  .transport ("connection refused while opening '" ++ space ++ "'") none

namespace BackendKind

def inMemory : BackendKind → Prop
  | .scripted .. => False
  | _ => True

/-- the counters behind one more construction -/
def attempted (space : String) (engine : Engine) : BackendKind → BackendKind
  | .counting slow counts _ =>
    .counting slow (putAt space ((counts.lookup space).getD 0 + 1) counts) (some engine)
  | .failing failures attempts => .failing failures (attempts + 1)
  | kind => kind

/-- what a construction is refused with, before the memory is asked -/
def refusal? (space : String) : BackendKind → Option SecretError
  | .failing failures attempts => if attempts < failures then some (.refused space) else none
  | _ => none

end BackendKind

/-- what the handles of services depend on -/
structure Desk where
  services : List Service
  kind : BackendKind
  /-- the number of the next handle -/
  next : Nat
  /-- how many handles were made -/
  created : Nat
  /-- the plan at the site of handles -/
  plan : FaultPlan

namespace Desk

def cacheOf (d : Desk) (svc : Nat) : HandleCache :=
  (d.services[svc]?.map Service.cache).getD ⟨.default, []⟩

/-- the desk behind the counting of a construction -/
def met (d : Desk) (space : String) (engine : Engine) : Desk :=
  { d with kind := d.kind.attempted space engine }

/-- a new handle of the memory -/
def constructInMemory (d : Desk) (space : String) (engine : Engine) :
    Except SecretError Handle × Desk :=
  let passed := { d with plan := d.plan.pass.2 }
  if d.plan.pass.1 then (.error .injected, passed)
  else (.ok ⟨d.next, space, engine⟩, { passed with next := d.next + 1, created := d.created + 1 })

/-- a new handle -/
def construct (d : Desk) (space : String) (engine : Engine) : Except SecretError Handle × Desk :=
  match d.kind.refusal? space with
  | some e => (.error e, d.met space engine)
  | none => (d.met space engine).constructInMemory space engine

/-- a handle that is kept from now on -/
def keep (d : Desk) (svc : Nat) (space : String) (h : Handle) : Desk :=
  { d with services := d.services.modify svc fun s => { s with cache := s.cache.keep space h } }

/-- the handle of a namespace -/
def ask (d : Desk) (svc : Nat) (space : String) : Except SecretError Handle × Desk :=
  match (d.cacheOf svc).find? space with
  | some h => (.ok h, d)
  | none =>
    match d.construct space (d.cacheOf svc).engine with
    | (.ok h, d) => (.ok h, d.keep svc space h)
    | (.error e, d) => (.error e, d)

/-- the handles of namespaces, one after another -/
def askEach (svc : Nat) : List String → Desk → List (Except SecretError Handle) × Desk
  | [], d => ([], d)
  | space :: r, d =>
    let (h, d) := d.ask svc space
    let (hs, d) := askEach svc r d
    (h :: hs, d)

variable {d : Desk} {space : String} {engine : Engine} {svc : Nat}

/-- all that asking for a handle can come to -/
inductive Asks (d : Desk) (svc : Nat) (space : String) : Except SecretError Handle × Desk → Prop where
  | kept {h : Handle} (hk : (d.cacheOf svc).find? space = some h) : Asks d svc space (.ok h, d)
  | refused {e : SecretError} (hk : (d.cacheOf svc).find? space = none)
    (hr : d.kind.refusal? space = some e) :
    Asks d svc space (.error e, d.met space (d.cacheOf svc).engine)
  | injected (hk : (d.cacheOf svc).find? space = none) (hr : d.kind.refusal? space = none)
    (hp : d.plan.pass.1 = true) :
    Asks d svc space (.error .injected,
      { d.met space (d.cacheOf svc).engine with plan := d.plan.pass.2 })
  | made (hk : (d.cacheOf svc).find? space = none) (hr : d.kind.refusal? space = none)
    (hp : d.plan.pass.1 = false) :
    Asks d svc space (.ok ⟨d.next, space, (d.cacheOf svc).engine⟩,
      keep { d.met space (d.cacheOf svc).engine with
        plan := d.plan.pass.2, next := d.next + 1, created := d.created + 1 }
        svc space ⟨d.next, space, (d.cacheOf svc).engine⟩)

theorem asks (d : Desk) (svc : Nat) (space : String) : Asks d svc space (d.ask svc space) := by
  unfold ask construct constructInMemory
  cases hk : (d.cacheOf svc).find? space with
  | some h => exact .kept hk
  | none =>
    cases hr : d.kind.refusal? space with
    | some e => exact .refused hk hr
    | none =>
      cases hp : (d.met space (d.cacheOf svc).engine).plan.pass.1 with
      | true => exact .injected hk hr hp
      | false => exact .made hk hr hp

/-- what finds no handle comes to the outcome of its construction -/
theorem ask_fst_of_not_kept (hk : (d.cacheOf svc).find? space = none) :
    (d.ask svc space).1 = (d.construct space (d.cacheOf svc).engine).1 := by
  unfold ask
  rw [hk]
  cases d.construct space (d.cacheOf svc).engine with
  | mk r t => cases r <;> rfl

theorem inMemory_attempted {kind : BackendKind} (h : kind.inMemory) :
    (kind.attempted space engine).inMemory := by
  cases kind <;> exact h

theorem inMemory_ask (h : d.kind.inMemory) : (d.ask svc space).2.kind.inMemory := by
  have hc := d.asks svc space
  generalize d.ask svc space = r at hc
  cases hc with
  | kept => exact h
  | refused | injected | made => exact inMemory_attempted h

end Desk

namespace Vault

variable {v w : Vault} {svc : Nat} {space : String}

def desk (v : Vault) : Desk :=
  ⟨v.services, v.backend.kind, v.backend.nextHandle, v.backend.store.handlesCreated,
    v.faults.planAt handleSite⟩

/-- over a backend in memory the desk stays as it is -/
def KeepsDesk (v w : Vault) : Prop := v.backend.kind.inMemory → w.desk = v.desk

instance : Std.Refl KeepsDesk := ⟨fun _ _ => rfl⟩

theorem inMemory_of_desk (h : w.desk = v.desk) (hm : v.backend.kind.inMemory) :
    w.backend.kind.inMemory := by
  have hk : w.backend.kind = v.backend.kind := congrArg Desk.kind h
  rwa [hk]

instance : Trans KeepsDesk KeepsDesk KeepsDesk :=
  ⟨fun h k hm => (k (inMemory_of_desk (h hm) hm)).trans (h hm)⟩

theorem keepsDesk_note (e : LogEntry) : (note e).Moves KeepsDesk := fun _ _ => rfl

theorem keepsDesk_orNote {α : Type} {x : Act α} (h : x.Moves KeepsDesk)
    (entry : SecretError → LogEntry) : (orNote x entry).Moves KeepsDesk :=
  Effect.moves_onFailure h fun _ _ _ => rfl

def passed (v : Vault) (site : String) : Vault := { v with faults := (v.faults.pass site).2 }

theorem passSite_fails {site : String} (h : (v.faults.planAt site).pass.1 = true) :
    (passSite site).run v = (.error (.transport (Faults.message site) none), v.passed site) := by
  rw [← Faults.pass_fst] at h
  unfold passSite
  simp only [Effect.run_bind, Effect.run_modifyGet, h, if_true, Effect.run_fail]
  rfl

theorem passSite_passes {site : String} (h : (v.faults.planAt site).pass.1 = false) :
    (passSite site).run v = (.ok (), v.passed site) := by
  rw [← Faults.pass_fst] at h
  unfold passSite
  simp only [Effect.run_bind, Effect.run_modifyGet, h]
  rfl

theorem desk_passed {site : String} (h : handleSite ≠ site) : (v.passed site).desk = v.desk := by
  unfold desk passed
  rw [Faults.planAt_pass_of_ne v.faults h]

theorem keepsDesk_passSite {site : String} (h : handleSite ≠ site) :
    (passSite site).Moves KeepsDesk := by
  intro v _
  cases hp : (v.faults.planAt site).pass.1 with
  | true => rw [passSite_fails hp]; exact desk_passed h
  | false => rw [passSite_passes hp]; exact desk_passed h

/-- a memory puts envelopes past a site of its own -/
theorem run_putThrough (hm : v.backend.kind.inMemory) (h : Handle) (key : String) (e : Envelope) :
    (putThrough h key e).run v = (do
      passSite "memory-kv-put"
      updateStore fun s => s.put h.space key (.ofEnvelope e) : Act Unit).run v := by
  unfold putThrough
  rw [Effect.run_bind, Effect.run_get]
  cases hk : v.backend.kind with
  | scripted => rw [hk] at hm; exact hm.elim
  | memory | counting | failing => simp only [hk]

/-- a backend in memory answers with what it stores, past a site of its own -/
theorem run_getThrough (hm : v.backend.kind.inMemory) (h : Handle) (key : String) :
    (getThrough h key).run v
      = (if (v.faults.planAt "memory-kv-get").pass.1
          then .error (.transport (Faults.message "memory-kv-get") none)
          else .ok (v.backend.store.get? h.space key), v.passed "memory-kv-get") := by
  have hr : (getThrough h key).run v = (do
      passSite "memory-kv-get"
      let v ← Effect.get
      pure (v.backend.store.get? h.space key) : Act (Option Response)).run v := by
    unfold getThrough
    rw [Effect.run_bind, Effect.run_get]
    cases hk : v.backend.kind with
    | scripted => rw [hk] at hm; exact hm.elim
    | memory | counting | failing => simp only [hk]
  rw [hr, Effect.run_bind]
  cases hp : (v.faults.planAt "memory-kv-get").pass.1 with
  | true =>
    rw [passSite_fails hp]
    rfl
  | false =>
    rw [passSite_passes hp]
    rfl

theorem keepsDesk_putThrough (h : Handle) (key : String) (e : Envelope) :
    (putThrough h key e).Moves KeepsDesk := by
  intro v hm
  rw [run_putThrough hm]
  have hu : (updateStore fun s => s.put h.space key (.ofEnvelope e)).Moves KeepsDesk :=
    Effect.moves_modify fun _ _ => rfl
  exact Effect.moves_bind (keepsDesk_passSite (by decide)) (fun _ => hu) v hm

theorem keepsDesk_getThrough (h : Handle) (key : String) :
    (getThrough h key).Moves KeepsDesk := by
  intro v hm
  rw [run_getThrough hm]
  exact desk_passed (by decide)

/-! ## Opening -/

/-- the outcome of a run and the desk behind it -/
def onDesk {α : Type} (x : Act α) (v : Vault) : Except SecretError α × Desk :=
  ((x.run v).1, (x.run v).2.desk)

theorem onDesk_constructInMemory (v : Vault) (space : String) (engine : Engine) :
    onDesk (constructInMemory space engine) v = v.desk.constructInMemory space engine := by
  -- the only site whose plan the desk holds
  have hp : (v.passed handleSite).faults.planAt handleSite = v.desk.plan.pass.2 :=
    Faults.planAt_pass v.faults handleSite
  unfold onDesk Desk.constructInMemory constructInMemory
  rw [show "memory-backend-kv-handle" = handleSite from rfl]
  cases h : v.desk.plan.pass.1 with
  | true =>
    rw [Effect.run_bind, passSite_fails h, ← hp]
    rfl
  | false =>
    rw [Effect.run_bind, passSite_passes h, ← hp]
    rfl

/-- the vault behind the counting of a construction -/
def met (v : Vault) (space : String) (engine : Engine) : Vault :=
  { v with backend := { v.backend with kind := v.backend.kind.attempted space engine } }

/-- a construction counts before anything else, and the memory is asked last -/
theorem run_construct (hm : v.backend.kind.inMemory) (space : String) (engine : Engine) :
    (construct space engine).run v =
      match v.backend.kind.refusal? space with
      | some e => (.error e, v.met space engine)
      | none => (constructInMemory space engine).run (v.met space engine) := by
  obtain ⟨⟨kind, store, next⟩, services, random, faults, log⟩ := v
  unfold construct
  rw [Effect.run_bind, Effect.run_get]
  cases kind with
  | scripted => exact hm.elim
  | memory => rfl
  | counting slow counts last => rfl
  | failing failures attempts =>
    by_cases hf : attempts < failures
    · simp only [BackendKind.refusal?, hf, if_true, Effect.run_bind]
      rfl
    · simp only [BackendKind.refusal?, hf, if_false, Effect.run_bind]
      rfl

theorem onDesk_construct (hm : v.backend.kind.inMemory) (space : String) (engine : Engine) :
    onDesk (construct space engine) v = v.desk.construct space engine := by
  unfold Desk.construct
  rw [onDesk, run_construct hm, show v.desk.kind = v.backend.kind from rfl]
  cases v.backend.kind.refusal? space with
  | some e => rfl
  | none => exact onDesk_constructInMemory (v.met space engine) space engine

/-- what answers by script makes handles without more ado -/
theorem run_construct_of_scripted {a : Option Response} {puts : List (String × Envelope)}
    (hk : v.backend.kind = .scripted a puts) (space : String) (engine : Engine) :
    (construct space engine).run v = (newHandle space engine).run v := by
  unfold construct
  rw [Effect.run_bind, Effect.run_get]
  simp only [hk]

theorem space_of_construct {engine : Engine} {hd : Handle}
    (h : ((construct space engine).run v).1 = .ok hd) : hd.space = space := by
  by_cases hm : v.backend.kind.inMemory
  · have hdesk := congrArg Prod.fst (onDesk_construct hm space engine)
    rw [onDesk, h] at hdesk
    unfold Desk.construct Desk.constructInMemory at hdesk
    dsimp only at hdesk
    split at hdesk
    · cases hdesk
    · split at hdesk
      · cases hdesk
      · rw [Except.ok.inj hdesk]
  · cases hk : v.backend.kind with
    | scripted a puts =>
      rw [run_construct_of_scripted hk] at h
      rw [← Except.ok.inj h]
    | memory | counting | failing =>
      rw [hk] at hm
      exact absurd trivial hm

theorem onDesk_orNote {α : Type} (x : Act α) (entry : SecretError → LogEntry) (v : Vault) :
    onDesk (orNote x entry) v = onDesk x v := by
  unfold onDesk orNote
  rw [Effect.run_onFailure]
  cases hx : x.run v with
  | mk r t => cases r <;> rfl

/-- a vault opens namespaces as its desk does -/
theorem onDesk_openSpace (hm : v.backend.kind.inMemory) (svc : Nat) (space : String) :
    onDesk (openSpace svc space) v = v.desk.ask svc space := by
  unfold Desk.ask
  rw [show v.desk.cacheOf svc = v.cacheOf svc from rfl]
  cases hc : (v.cacheOf svc).find? space with
  | some h => rw [onDesk, openSpace_of_kept hc]
  | none =>
    have hd := onDesk_construct hm space (v.cacheOf svc).engine
    rw [← onDesk_orNote _ (openFailed space)] at hd
    rw [onDesk, openSpace_of_not_kept hc, Effect.run_bind, ← hd, onDesk]
    cases hr : (orNote (construct space (v.cacheOf svc).engine) (openFailed space)).run v with
    | mk r t => cases r <;> rfl

/-- a handle that is given is for the asked namespace, be it kept or made -/
theorem space_of_openSpace (hf : v.HandlesFit) {hd : Handle}
    (h : ((openSpace svc space).run v).1 = .ok hd) : hd.space = space := by
  cases hc : (v.cacheOf svc).find? space with
  | some hd' =>
    rw [openSpace_of_kept hc] at h
    obtain rfl := Except.ok.inj h
    exact hf svc space _ hc
  | none =>
    rw [openSpace_of_not_kept hc] at h
    obtain ⟨hd', hmade, hrest⟩ := Effect.ok_of_run_bind h
    rw [hrest] at h
    obtain rfl : hd' = hd := Except.ok.inj h
    rw [orNote, Effect.run_onFailure_fst] at hmade
    exact space_of_construct hmade

theorem inMemory_openSpace (hm : v.backend.kind.inMemory) (svc : Nat) (space : String) :
    ((openSpace svc space).run v).2.backend.kind.inMemory := by
  have hk := congrArg (fun r => r.2.kind) (onDesk_openSpace hm svc space)
  rw [show ((openSpace svc space).run v).2.backend.kind = _ from hk]
  exact Desk.inMemory_ask hm

theorem length_openEach (svc : Nat) (spaces : List String) (v : Vault) :
    (openEach svc spaces v).1.length = spaces.length := by
  induction spaces generalizing v with
  | nil => rfl
  | cons space r ih => exact congrArg (· + 1) (ih _)

/-- namespaces are opened one after another as the desk does -/
theorem openEach_desk (svc : Nat) (spaces : List String) (hm : v.backend.kind.inMemory) :
    ((openEach svc spaces v).1, (openEach svc spaces v).2.desk) = v.desk.askEach svc spaces := by
  induction spaces generalizing v with
  | nil => rfl
  | cons space r ih =>
    have h := onDesk_openSpace hm svc space
    have ih := ih (inMemory_openSpace hm svc space)
    unfold openEach Desk.askEach
    rw [← h]
    simp only [onDesk, ← ih]

/-- what follows an opening and leaves the desk alone -/
theorem desk_behind_openSpace {α : Type} {f : Handle → Act α} (hf : ∀ h, (f h).Moves KeepsDesk)
    (hm : v.backend.kind.inMemory) (svc : Nat) (space : String) (entry : LogEntry) :
    (((do note entry; let h ← openSpace svc space; f h : Act α).run v).2.desk
        = (v.desk.ask svc space).2) ∧
      ∀ e, (v.desk.ask svc space).1 = .error e →
        ((do note entry; let h ← openSpace svc space; f h : Act α).run v).1 = .error e := by
  -- an entry of the log is nothing to the desk
  have ho : onDesk (openSpace svc space) { v with log := entry :: v.log } = v.desk.ask svc space :=
    onDesk_openSpace (v := { v with log := entry :: v.log }) hm svc space
  have hm' := inMemory_openSpace (v := { v with log := entry :: v.log }) hm svc space
  rw [Effect.run_bind_of_ok (x := note entry) rfl, ← ho]
  show ((openSpace svc space >>= f).run { v with log := entry :: v.log }).2.desk = _ ∧
    ∀ e, _ → ((openSpace svc space >>= f).run { v with log := entry :: v.log }).1 = _
  unfold onDesk
  cases hr : ((openSpace svc space).run { v with log := entry :: v.log }).1 with
  | ok h =>
    rw [Effect.run_bind_of_ok hr]
    exact ⟨hf h _ hm', fun e he => by cases he⟩
  | error err =>
    rw [Effect.run_bind_of_error hr]
    refine ⟨rfl, fun e he => ?_⟩
    cases he
    rfl

/-- a write leaves the desk as opening its namespace does, and fails as it does -/
theorem desk_write (hm : v.backend.kind.inMemory) (svc : Nat) (space key value : String) :
    (((write svc space key value).run v).2.desk = (v.desk.ask svc space).2) ∧
      ∀ e, (v.desk.ask svc space).1 = .error e →
        ((write svc space key value).run v).1 = .error e :=
  desk_behind_openSpace (fun h => keepsDesk_orNote (keepsDesk_putThrough h key _) _) hm svc space _

/-- a read leaves the desk as opening its namespace does, and fails as it does -/
theorem desk_read (hm : v.backend.kind.inMemory) (svc : Nat) (space key : String) :
    (((read svc space key).run v).2.desk = (v.desk.ask svc space).2) ∧
      ∀ e, (v.desk.ask svc space).1 = .error e →
        ((read svc space key).run v).1 = .error e := by
  refine desk_behind_openSpace (fun h => ?_) hm svc space _
  refine Effect.moves_bind (keepsDesk_orNote (keepsDesk_getThrough h key) _) fun response => ?_
  cases response with
  | none => exact Effect.moves_bind (keepsDesk_note _) fun _ => Effect.moves_pure _
  | some r =>
    exact Effect.moves_bind (keepsDesk_orNote (Effect.moves_ofExcept _) _) fun _ =>
      Effect.moves_pure _

/-! ## The desk behind calls -/

section
variable (hm : v.backend.kind.inMemory)

include hm

theorem desk_after_write (svc : Nat) (space key value : String) :
    (v.after (.write svc space key value)).desk = (v.desk.ask svc space).2 :=
  (desk_write hm svc space key value).1

theorem desk_after_read (svc : Nat) (space key : String) :
    (v.after (.read svc space key)).desk = (v.desk.ask svc space).2 :=
  (desk_read hm svc space key).1

theorem desk_after_openSpace (svc : Nat) (space : String) :
    (v.after (.openSpace svc space)).desk = (v.desk.ask svc space).2 :=
  congrArg Prod.snd (onDesk_openSpace hm svc space)

theorem desk_after_construct (space : String) (engine : Engine) :
    (v.after (.construct space engine)).desk = (v.desk.construct space engine).2 :=
  congrArg Prod.snd (onDesk_construct hm space engine)

theorem desk_after_putThrough (h : Handle) (key : String) (e : Envelope) :
    (v.after (.putThrough h key e)).desk = v.desk :=
  keepsDesk_putThrough h key e v hm

theorem desk_after_getThrough (h : Handle) (key : String) :
    (v.after (.getThrough h key)).desk = v.desk :=
  keepsDesk_getThrough h key v hm

end

end Vault

end Credentials
