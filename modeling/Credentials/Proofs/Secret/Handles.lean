import Credentials.Proofs.Lists.Lookup
import Credentials.Proofs.Secret.Desk
import Mathlib.Data.Finset.Card

/-!
# One handle for each namespace

* `Vault.Use`            what is asked of a service: handles, singly or at once, reads and writes;
* `Vault.afterUses`      the vault behind uses, each of them under its own fault plans;
* `Vault.answers`        what the calls for handles in a use are answered;
* `Vault.constructions`  the constructions that a use attempts, with their outcomes;
* `Attempted`            constructions as one service attempts them;
* `Tally`                a desk is what constructions made it, and calls were answered from them;
* `Vault.tally_afterUses`   so it is behind any uses.

The step is `Tally.ask`, by the cases of `Desk.Asks`. Callers that wait for another one add nothing to
the desk, and nothing new to the answers.
-/

namespace Credentials

/-- outcomes by the namespaces that were asked for -/
abbrev Outcomes := List (String × Except SecretError Handle)

/-- something asked of a service -/
inductive Vault.Use where
  | handle (space : String)
  /-- handles for several callers at once -/
  | together (spaces : List String)
  | read (space key : String)
  | write (space key value : String)

namespace Vault

/-- a service over a backend that has done nothing yet -/
def single (kind : BackendKind) (config : VaultConfig) (random : RandomStream) : Vault :=
  ⟨.start kind, [⟨config, ⟨config.engine, []⟩⟩], random, [], []⟩

/-- the vault behind a use -/
def afterUse (v : Vault) : Use → Vault
  | .handle space => ((openSpace 0 space).run v).2
  | .together spaces => (openTogether 0 spaces v).2
  | .read space key => ((read 0 space key).run v).2
  | .write space key value => ((write 0 space key value).run v).2

/-- the vault behind uses, each of them under its own fault plans -/
def afterUses (v : Vault) (us : List (Faults × Use)) : Vault :=
  us.foldl (fun v u => (v.withFaults u.1).afterUse u.2) v

/-- the namespaces that a use asks for without waiting for another caller -/
def leading (v : Vault) : Use → List String
  | .handle space | .read space _ | .write space _ _ => [space]
  | .together spaces => if v.isSlow then spaces.eraseDups else spaces

/-- what the calls for handles in a use are answered -/
def answers (v : Vault) : Use → Outcomes
  | .handle space | .read space _ | .write space _ _ => [(space, ((openSpace 0 space).run v).1)]
  | .together spaces => spaces.zip (openTogether 0 spaces v).1

/-- the constructions attempted for namespaces, one after another -/
def constructionsFor : List String → Vault → Outcomes
  | [], _ => []
  | space :: r, v =>
    let behind := constructionsFor r ((openSpace 0 space).run v).2
    if (v.cacheOf 0).contains space then behind
    else (space, ((construct space (v.cacheOf 0).engine).run v).1) :: behind

/-- the constructions that a use attempts -/
def constructions (v : Vault) (u : Use) : Outcomes := constructionsFor (v.leading u) v

/-- outcomes of uses, each of them under its own fault plans -/
def gather (f : Vault → Use → Outcomes) (v : Vault) : List (Faults × Use) → Outcomes
  | [] => []
  | u :: us => f (v.withFaults u.1) u.2 ++ gather f ((v.withFaults u.1).afterUse u.2) us

end Vault

/-! ## The desk behind constructions -/

/-- the handles that constructions made -/
def made (cs : Outcomes) : List (String × Handle) :=
  cs.filterMap fun c => c.2.toOption.map fun h => (c.1, h)

theorem made_append_error (cs : Outcomes) (space : String) (e : SecretError) :
    made (cs ++ [(space, .error e)]) = made cs := by
  unfold made
  rw [List.filterMap_append]
  exact List.append_nil _

theorem made_append_ok (cs : Outcomes) (space : String) (h : Handle) :
    made (cs ++ [(space, .ok h)]) = made cs ++ [(space, h)] := by
  unfold made
  rw [List.filterMap_append]
  rfl

theorem mem_made {cs : Outcomes} {space : String} {h : Handle} :
    (space, h) ∈ made cs ↔ (space, .ok h) ∈ cs := by
  unfold made
  rw [List.mem_filterMap]
  constructor
  · rintro ⟨⟨n, r⟩, hc, he⟩
    cases r with
    | error e => cases he
    | ok h' => cases he; exact hc
  · intro hc
    exact ⟨_, hc, rfl⟩

/-- the counters behind constructions -/
def BackendKind.behind (kind : BackendKind) (engine : Engine) (cs : Outcomes) : BackendKind :=
  cs.foldl (fun k c => k.attempted c.1 engine) kind

theorem BackendKind.behind_append (kind : BackendKind) (engine : Engine) (cs : Outcomes)
    (c : String × Except SecretError Handle) :
    kind.behind engine (cs ++ [c]) = (kind.behind engine cs).attempted c.1 engine := by
  unfold behind
  rw [List.foldl_append]
  rfl

theorem BackendKind.inMemory_behind {kind : BackendKind} (h : kind.inMemory) (engine : Engine)
    (cs : Outcomes) : (kind.behind engine cs).inMemory := by
  unfold behind
  induction cs generalizing kind with
  | nil => exact h
  | cons c cs ih => exact ih (Desk.inMemory_attempted h)

/-- why a construction came to its outcome -/
def Explained (faulty : Prop) (refusal : Option SecretError) (r : Except SecretError Handle) :
    Prop :=
  match refusal with
  | some e => r = .error e
  | none => (∃ h, r = .ok h) ∨ (r = .error .injected ∧ faulty)

/-- constructions as one service attempts them: handles are numbered as they are made, no namespace is
constructed behind a success, and every outcome is explained by the constructions before it -/
structure Attempted (kind : BackendKind) (engine : Engine) (faulty : Prop) (cs : Outcomes) : Prop where
  numbered : ∀ i space (h : Handle), (made cs)[i]? = some (space, h) → h = ⟨i, space, engine⟩
  once : cs.Pairwise fun a b => a.1 = b.1 → a.2.toOption = none
  explained : ∀ n space r, cs[n]? = some (space, r) →
    Explained faulty ((kind.behind engine (cs.take n)).refusal? space) r

namespace Attempted

variable {kind : BackendKind} {engine : Engine} {faulty : Prop} {cs : Outcomes} {space : String}

theorem nil (kind : BackendKind) (engine : Engine) (faulty : Prop) :
    Attempted kind engine faulty [] :=
  ⟨fun _ _ _ h => (nomatch h), .nil, fun _ _ _ h => (nomatch h)⟩

theorem append (s : Attempted kind engine faulty cs) (hk : (made cs).lookup space = none)
    {r : Except SecretError Handle}
    (he : Explained faulty ((kind.behind engine cs).refusal? space) r)
    (hn : ∀ h, r = .ok h → h = ⟨(made cs).length, space, engine⟩) :
    Attempted kind engine faulty (cs ++ [(space, r)]) := by
  refine ⟨fun i n h hi => ?_, List.pairwise_append.2 ⟨s.once, List.pairwise_singleton _ _, ?_⟩, ?_⟩
  · cases r with
    | error e =>
      rw [made_append_error] at hi
      exact s.numbered i n h hi
    | ok h' =>
      rw [made_append_ok] at hi
      rcases of_getElem?_append_singleton hi with ⟨-, hi⟩ | ⟨hl, hi⟩
      · exact s.numbered i n h hi
      · cases hi
        rw [hl]
        exact hn h rfl
  · -- a handle for the namespace would be found
    rintro ⟨n, r'⟩ ha b hb (hs : n = b.1)
    rw [List.mem_singleton.1 hb] at hs
    cases r' with
    | error e => rfl
    | ok h =>
      have hm := List.lookup_eq_none_iff.1 hk _ (mem_made.2 ha)
      rw [hs, bne_self_eq_false] at hm
      cases hm
  · intro n m r' hn
    rcases of_getElem?_append_singleton hn with ⟨hl, hn⟩ | ⟨hl, hn⟩
    · rw [List.take_append_of_le_length (Nat.le_of_lt hl)]
      exact s.explained n m r' hn
    · cases hn
      rw [List.take_left' hl.symm]
      exact he

end Attempted

/-- the construction that a call for a handle attempts, if it finds none -/
def Desk.attempt (d : Desk) (space : String) : Outcomes :=
  if (d.cacheOf 0).contains space then [] else [(space, (d.ask 0 space).1)]

/-- the constructions that calls for handles attempt, one after another -/
def Desk.attempts : List String → Desk → Outcomes
  | [], _ => []
  | space :: r, d => d.attempt space ++ attempts r (d.ask 0 space).2

/-- a desk is what constructions made it, and calls were answered with their outcomes -/
structure Tally (kind : BackendKind) (config : VaultConfig) (faulty : Prop) (as cs : Outcomes)
    (d : Desk) : Prop where
  attempted : Attempted kind config.engine faulty cs
  services : d.services = [⟨config, ⟨config.engine, made cs⟩⟩]
  kind_eq : d.kind = kind.behind config.engine cs
  next : d.next = (made cs).length
  created : d.created = (made cs).length
  plan : d.plan ≠ [] → faulty
  answered : ∀ a, a ∈ as ↔ a ∈ cs

namespace Tally

variable {kind : BackendKind} {config : VaultConfig} {faulty : Prop} {as cs : Outcomes} {d : Desk}
  {space : String}

theorem cacheOf (t : Tally kind config faulty as cs d) :
    d.cacheOf 0 = ⟨config.engine, made cs⟩ := by
  unfold Desk.cacheOf
  rw [t.services]
  rfl

theorem find? (t : Tally kind config faulty as cs d) (space : String) :
    (d.cacheOf 0).find? space = (made cs).lookup space := by
  rw [t.cacheOf]
  rfl

theorem answered_append (t : Tally kind config faulty as cs d)
    (c : String × Except SecretError Handle) (a : String × Except SecretError Handle) :
    a ∈ as ++ [c] ↔ a ∈ cs ++ [c] := by
  rw [List.mem_append, List.mem_append, t.answered a]

theorem failed (t : Tally kind config faulty as cs d) (hk : (made cs).lookup space = none)
    {e : SecretError} (he : Explained faulty (d.kind.refusal? space) (.error e)) {plan : FaultPlan}
    (hp : plan ≠ [] → faulty) :
    Tally kind config faulty (as ++ [(space, .error e)]) (cs ++ [(space, .error e)])
      { d.met space config.engine with plan := plan } := by
  rw [t.kind_eq] at he
  refine ⟨t.attempted.append hk he fun h hr => (nomatch hr), ?_, ?_, ?_, ?_, hp,
    t.answered_append _⟩
  · rw [made_append_error]
    exact t.services
  · rw [BackendKind.behind_append, ← t.kind_eq]
    rfl
  · rw [made_append_error]
    exact t.next
  · rw [made_append_error]
    exact t.created

theorem opened (t : Tally kind config faulty as cs d) (hk : (made cs).lookup space = none)
    (hr : d.kind.refusal? space = none) {plan : FaultPlan} (hp : plan ≠ [] → faulty) :
    Tally kind config faulty (as ++ [(space, .ok ⟨d.next, space, config.engine⟩)])
      (cs ++ [(space, .ok ⟨d.next, space, config.engine⟩)])
      (Desk.keep { d.met space config.engine with
        plan := plan, next := d.next + 1, created := d.created + 1 } 0 space
        ⟨d.next, space, config.engine⟩) := by
  have he : Explained faulty ((kind.behind config.engine cs).refusal? space)
      (.ok ⟨d.next, space, config.engine⟩) := by
    rw [← t.kind_eq, hr]
    exact .inl ⟨_, rfl⟩
  refine ⟨t.attempted.append hk he fun h hr => ?_, ?_, ?_, ?_, ?_, hp, t.answered_append _⟩
  · cases hr
    rw [t.next]
  · rw [made_append_ok]
    show List.modify d.services 0 _ = _
    rw [t.services]
    show [Service.mk config ⟨config.engine, putAt space _ (made cs)⟩] = _
    rw [putAt_of_lookup_none hk]
  · rw [BackendKind.behind_append, ← t.kind_eq]
    rfl
  · rw [made_append_ok, List.length_append, ← t.next]
    rfl
  · rw [made_append_ok, List.length_append, ← t.created]
    rfl

/-- a call for a handle is answered, and attempts a construction if it finds no handle -/
theorem ask (t : Tally kind config faulty as cs d) (space : String) :
    Tally kind config faulty (as ++ [(space, (d.ask 0 space).1)]) (cs ++ d.attempt space)
      (d.ask 0 space).2 := by
  have hc := d.asks 0 space
  have he : (d.cacheOf 0).engine = config.engine := congrArg HandleCache.engine t.cacheOf
  have hq : (d.plan.pass.1 = true → d.plan ≠ []) ∧ (d.plan.pass.2 ≠ [] → d.plan ≠ []) := by
    cases d.plan with
    | nil => exact ⟨fun h => (nomatch h), fun h => h⟩
    | cons p r => exact ⟨fun _ => List.cons_ne_nil p r, fun _ => List.cons_ne_nil p r⟩
  unfold Desk.attempt HandleCache.contains
  -- `Desk.Asks` tells the outcome and the next desk together, in both places of the goal
  generalize d.ask 0 space = r at hc
  cases hc with
  | kept hk =>
    rw [hk]
    show Tally _ _ _ _ (cs ++ []) d
    rw [List.append_nil]
    rw [t.find?] at hk
    -- the answer is one that was given before
    have hm := mem_made.1 (mem_of_lookup hk)
    refine { t with answered := fun a => ?_ }
    rw [List.mem_append, List.mem_singleton, t.answered a, or_iff_left_iff_imp]
    rintro rfl
    exact hm
  | refused hk hr =>
    rw [hk, he]
    rw [t.find?] at hk
    exact t.failed hk (by rw [hr]; rfl) t.plan
  | injected hk hr hp =>
    rw [hk, he]
    rw [t.find?] at hk
    exact t.failed hk (by rw [hr]; exact .inr ⟨rfl, t.plan (hq.1 hp)⟩) fun h => t.plan (hq.2 h)
  | made hk hr hp =>
    rw [hk, he]
    rw [t.find?] at hk
    exact t.opened hk hr fun h => t.plan (hq.2 h)

theorem askEach (t : Tally kind config faulty as cs d) (spaces : List String) :
    Tally kind config faulty (as ++ spaces.zip (d.askEach 0 spaces).1)
      (cs ++ d.attempts spaces) (d.askEach 0 spaces).2 := by
  induction spaces generalizing as cs d with
  | nil =>
    show Tally _ _ _ (as ++ []) (cs ++ []) d
    rwa [List.append_nil, List.append_nil]
  | cons space r ih =>
    have h := ih (t.ask space)
    rw [List.append_assoc, List.append_assoc] at h
    exact h

end Tally

namespace Vault

variable {v w : Vault} {kind : BackendKind} {config : VaultConfig} {faulty : Prop}
  {as cs : Outcomes}

theorem constructionsFor_desk (spaces : List String) (hm : v.backend.kind.inMemory) :
    constructionsFor spaces v = v.desk.attempts spaces := by
  induction spaces generalizing v with
  | nil => rfl
  | cons space r ih =>
    have ih := ih (inMemory_openSpace hm 0 space)
    have ho := onDesk_openSpace hm 0 space
    have hc := onDesk_construct hm space (v.cacheOf 0).engine
    unfold constructionsFor Desk.attempts
    rw [ih, show ((openSpace 0 space).run v).2.desk = _ from congrArg Prod.snd ho,
      show ((construct space (v.cacheOf 0).engine).run v).1
        = (v.desk.construct space (v.cacheOf 0).engine).1 from congrArg Prod.fst hc]
    unfold Desk.attempt HandleCache.contains
    rw [show v.desk.cacheOf 0 = v.cacheOf 0 from rfl]
    cases hk : (v.cacheOf 0).find? space with
    | some h => rfl
    | none =>
      have hf : (v.desk.ask 0 space).1 = (v.desk.construct space (v.cacheOf 0).engine).1 :=
        Desk.ask_fst_of_not_kept hk
      rw [hf]
      rfl

theorem openTogether_desk (spaces : List String) :
    (openTogether 0 spaces v).2.desk = (openEach 0 (v.leading (.together spaces)) v).2.desk := by
  unfold openTogether leading
  split
  · rfl
  · rfl

/-- a use leaves the desk as the calls for handles leave it that wait for nobody -/
theorem desk_afterUse (hm : v.backend.kind.inMemory) (u : Use) :
    (v.afterUse u).desk = (v.desk.askEach 0 (v.leading u)).2 := by
  cases u with
  | handle space => exact congrArg Prod.snd (onDesk_openSpace hm 0 space)
  | together spaces =>
    show (openTogether 0 spaces v).2.desk = _
    rw [openTogether_desk]
    exact congrArg Prod.snd (openEach_desk 0 _ hm)
  | read space key => exact (desk_read hm 0 space key).1
  | write space key value => exact (desk_write hm 0 space key value).1

theorem nodup_opened (spaces : List String) (v : Vault) :
    ((spaces.eraseDups.zip (openEach 0 spaces.eraseDups v).1).map Prod.fst).Nodup := by
  rw [List.map_fst_zip (length_openEach 0 spaces.eraseDups v).ge]
  exact nodup_eraseDups spaces

/-- every caller finds the outcome of the one that leads -/
theorem lookup_opened (spaces : List String) (v : Vault) : ∀ n ∈ spaces, ∃ r,
    (spaces.eraseDups.zip (openEach 0 spaces.eraseDups v).1).lookup n = some r := by
  intro n hn
  rw [← List.mem_eraseDups, ← List.map_fst_zip (length_openEach 0 spaces.eraseDups v).ge,
    List.mem_map] at hn
  obtain ⟨⟨m, r⟩, hm, rfl⟩ := hn
  exact ⟨r, lookup_of_mem (nodup_opened spaces v) hm⟩

/-- everyone who asks for a handle is answered as those who wait for nobody are -/
theorem mem_answers (hm : v.backend.kind.inMemory) (u : Use)
    (a : String × Except SecretError Handle) :
    a ∈ v.answers u ↔ a ∈ (v.leading u).zip (v.desk.askEach 0 (v.leading u)).1 := by
  have ho := fun space => congrArg Prod.fst (onDesk_openSpace hm 0 space)
  cases u with
  | handle space | read space key | write space key value =>
    show a ∈ [(space, ((openSpace 0 space).run v).1)] ↔ _
    rw [show ((openSpace 0 space).run v).1 = _ from ho space]
    rfl
  | together spaces =>
    rw [← congrArg Prod.fst (openEach_desk 0 _ hm)]
    show a ∈ spaces.zip (openTogether 0 spaces v).1 ↔ _
    unfold openTogether leading
    split
    · -- all who ask for a namespace find the one outcome of it
      obtain ⟨n, r⟩ := a
      refine (mem_zip_lookups spaces (lookup_opened spaces v)).trans
        ⟨fun h => mem_of_lookup h.2, fun h => ?_⟩
      exact ⟨List.mem_eraseDups.1 (List.of_mem_zip h).1,
        lookup_of_mem (nodup_opened spaces v) h⟩
    · rfl

theorem inMemory_of_tally (t : Tally kind config faulty as cs v.desk) (hm : kind.inMemory) :
    v.backend.kind.inMemory := by
  rw [show v.backend.kind = _ from t.kind_eq]
  exact BackendKind.inMemory_behind hm config.engine cs

/-- a use is answered from what was made, and makes what is missing -/
theorem tally_afterUse (t : Tally kind config faulty as cs v.desk) (hm : kind.inMemory) (u : Use) :
    Tally kind config faulty (as ++ v.answers u) (cs ++ v.constructions u) (v.afterUse u).desk := by
  have hv := inMemory_of_tally t hm
  have h := t.askEach (v.leading u)
  rw [desk_afterUse hv, constructions, constructionsFor_desk _ hv]
  refine { h with answered := fun a => ?_ }
  rw [← h.answered a, List.mem_append, List.mem_append, mem_answers hv]

theorem tally_afterUses (t : Tally kind config faulty as cs v.desk) (hm : kind.inMemory)
    (us : List (Faults × Use)) (hf : ∀ u ∈ us, u.1.planAt handleSite ≠ [] → faulty) :
    Tally kind config faulty (as ++ gather answers v us) (cs ++ gather constructions v us)
      (v.afterUses us).desk := by
  -- the vault runs ahead, so what was answered and attempted so far has to vary with it
  induction us generalizing v as cs with
  | nil =>
    show Tally _ _ _ (as ++ []) (cs ++ []) _
    rwa [List.append_nil, List.append_nil]
  | cons u us ih =>
    -- new plans change nothing of the desk but its own plan
    have h : Tally kind config faulty as cs (v.withFaults u.1).desk :=
      { t with plan := hf u (List.mem_cons_self ..) }
    have h := ih (tally_afterUse h hm u.2) fun w hw => hf w (List.mem_cons_of_mem u hw)
    rw [List.append_assoc, List.append_assoc] at h
    exact h

theorem tally_single (kind : BackendKind) (config : VaultConfig) (faulty : Prop)
    (random : RandomStream) : Tally kind config faulty [] [] (single kind config random).desk where
  attempted := .nil kind config.engine faulty
  services := rfl
  kind_eq := rfl
  next := rfl
  created := rfl
  plan := fun h => (h rfl).elim
  answered := fun _ => .rfl

end Vault

end Credentials
