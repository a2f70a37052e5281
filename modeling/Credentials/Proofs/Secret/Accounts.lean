import Credentials.Proofs.Secret.Handles

/-!
# What is made for a cache of handles

* `BackendKind.Unused`           a backend in memory that has counted nothing yet;
* `BackendKind.Counts`           the counters of a backend agree with constructions;
* `Vault.Accounted`              handles, their number and the counters behind uses;
* `Vault.AsksOnce`               what one call for a handle does, by itself, in a read and in a write;
* `Vault.accounted_afterUses`    both hold behind any uses, whatever faults they meet.
-/

namespace Credentials

/-! ## Constructions -/

namespace Attempted

variable {kind : BackendKind} {engine : Engine} {faulty : Prop} {cs : Outcomes} {space : String}
  {h h' : Handle}

theorem nodup_made (s : Attempted kind engine faulty cs) : ((made cs).map Prod.fst).Nodup := by
  unfold List.Nodup made
  rw [List.pairwise_map, List.pairwise_filterMap]
  refine s.once.imp ?_
  -- the earlier of two handles for one namespace would be a success before another construction
  rintro ⟨n, r⟩ ⟨n', r'⟩ ho p hp p' hp' e
  obtain ⟨h, hr, rfl⟩ := Option.map_eq_some_iff.1 hp
  obtain ⟨h', -, rfl⟩ := Option.map_eq_some_iff.1 hp'
  rw [ho e] at hr
  cases hr

theorem same (s : Attempted kind engine faulty cs) (hm : (space, .ok h) ∈ cs)
    (hm' : (space, .ok h') ∈ cs) : h = h' := by
  have hl := lookup_of_mem s.nodup_made (mem_made.2 hm)
  have hl' := lookup_of_mem s.nodup_made (mem_made.2 hm')
  exact Option.some.inj (hl.symm.trans hl')

theorem numbered_of_mem (s : Attempted kind engine faulty cs) (hm : (space, .ok h) ∈ cs) :
    ∃ i, (made cs)[i]? = some (space, h) ∧ h = ⟨i, space, engine⟩ := by
  obtain ⟨i, hi⟩ := List.mem_iff_getElem?.1 (mem_made.2 hm)
  exact ⟨i, hi, s.numbered i space h hi⟩

theorem different (s : Attempted kind engine faulty cs) {other : String} (hm : (space, .ok h) ∈ cs)
    (hm' : (other, .ok h') ∈ cs) (hn : space ≠ other) : h.number ≠ h'.number := by
  obtain ⟨i, hi, rfl⟩ := s.numbered_of_mem hm
  obtain ⟨j, hj, rfl⟩ := s.numbered_of_mem hm'
  rintro (rfl : i = j)
  rw [hi] at hj
  cases hj
  exact hn rfl

end Attempted

/-- of a namespace there are the constructions that failed and those that made a handle -/
theorem countP_constructions (cs : Outcomes) (space : String) :
    cs.countP (fun c => c.1 = space)
      = cs.countP (fun c => c.1 = space ∧ c.2.toOption = none)
        + ((made cs).map Prod.fst).count space := by
  induction cs with
  | nil => rfl
  | cons c cs ih =>
    obtain ⟨n, r⟩ := c
    rw [List.countP_cons, List.countP_cons, ih]
    cases r with
    | error e =>
      have hm : made ((n, .error e) :: cs) = made cs := rfl
      rw [hm]
      by_cases hn : n = space
      · simp [hn, Except.toOption]
        omega
      · simp [hn]
    | ok h =>
      have hm : made ((n, .ok h) :: cs) = (n, h) :: made cs := rfl
      rw [hm, List.map_cons, List.count_cons]
      by_cases hn : n = space
      · simp [hn, Except.toOption]
        omega
      · simp [hn]

namespace BackendKind

/-- in memory, and has counted nothing yet -/
def Unused : BackendKind → Prop
  | .memory => True
  | .counting _ constructions lastEngine => constructions = [] ∧ lastEngine = none
  | .failing _ attempts => attempts = 0
  | .scripted .. => False

def failures : BackendKind → Nat
  | .failing failures _ => failures
  | _ => 0

def total (counts : List (String × Nat)) : Nat := counts.foldr (fun c n => c.2 + n) 0

/-- a backend of this kind behind constructions for an engine -/
def Counts (engine : Engine) (cs : Outcomes) : BackendKind → BackendKind → Prop
  | .memory, k => k = .memory
  | .counting slow .., k => ∃ counts last, k = .counting slow counts last ∧
    (∀ space, (counts.lookup space).getD 0 = cs.countP fun c => c.1 = space) ∧
    total counts = cs.length ∧
    last = if cs.isEmpty then none else some engine
  | .failing failures _, k => k = .failing failures cs.length
  | .scripted .., _ => False

variable {kind : BackendKind}

theorem inMemory_of_unused (h : kind.Unused) : kind.inMemory := by
  cases kind with
  | scripted => exact h
  | memory | counting | failing => trivial

theorem behind_memory (engine : Engine) (cs : Outcomes) :
    BackendKind.memory.behind engine cs = .memory := by
  unfold behind
  induction cs with
  | nil => rfl
  | cons c cs ih => exact ih

theorem behind_failing (failures attempts : Nat) (engine : Engine) (cs : Outcomes) :
    (BackendKind.failing failures attempts).behind engine cs
      = .failing failures (attempts + cs.length) := by
  unfold behind
  induction cs generalizing attempts with
  | nil => rfl
  | cons c cs ih =>
    rw [List.foldl_cons, attempted, ih, List.length_cons]
    congr 1
    omega

theorem total_putAt (k : String) (l : List (String × Nat)) :
    total (putAt k ((l.lookup k).getD 0 + 1) l) = total l + 1 := by
  induction l with
  | nil => rfl
  | cons p r ih =>
    obtain ⟨n, b⟩ := p
    rw [List.lookup_cons]
    by_cases hn : n = k
    · rw [putAt, if_pos hn, hn, beq_self_eq_true]
      show b + 1 + total r = b + total r + 1
      omega
    · rw [putAt, if_neg hn, beq_eq_false_iff_ne.2 (Ne.symm hn)]
      show b + total _ = b + total r + 1
      rw [ih]
      rfl

theorem behind_counting (slow : Bool) (engine : Engine) (cs : Outcomes) :
    (BackendKind.counting slow [] none).Counts engine cs
      ((BackendKind.counting slow [] none).behind engine cs) := by
  induction cs using List.reverseRecOn with
  | nil => exact ⟨[], none, rfl, fun _ => rfl, rfl, rfl⟩
  | append_singleton cs c ih =>
    obtain ⟨counts, last, hk, hc, hs, -⟩ := ih
    rw [behind_append, hk]
    refine ⟨_, _, rfl, fun space => ?_, ?_, ?_⟩
    · rw [lookup_putAt, List.countP_append, ← hc space]
      by_cases hn : space = c.1
      · simp [hn]
      · simp [hn, Ne.symm hn]
    · rw [total_putAt, hs, List.length_append]
      rfl
    · simp

/-- the counters of a backend that was not used before -/
theorem counts_behind (hu : kind.Unused) (engine : Engine) (cs : Outcomes) :
    kind.Counts engine cs (kind.behind engine cs) := by
  cases kind with
  | memory => exact behind_memory engine cs
  | counting slow counts last =>
    obtain ⟨rfl, rfl⟩ := hu
    exact behind_counting slow engine cs
  | failing failures attempts =>
    obtain rfl : attempts = 0 := hu
    show _ = BackendKind.failing failures cs.length
    rw [behind_failing, Nat.zero_add]
  | scripted => exact hu

/-- the first constructions are refused, and no others -/
theorem refusal?_behind (hu : kind.Unused) (engine : Engine) (cs : Outcomes) (space : String) :
    (kind.behind engine cs).refusal? space
      = if cs.length < kind.failures then some (.refused space) else none := by
  have hc := counts_behind hu engine cs
  cases kind with
  | memory => rw [show BackendKind.memory.behind engine cs = _ from hc]; rfl
  | counting slow counts last =>
    obtain ⟨counts, last, hk, -⟩ := hc
    rw [hk]
    rfl
  | failing failures attempts =>
    rw [show (BackendKind.failing failures attempts).behind engine cs = _ from hc]
    rfl
  | scripted => exact hu.elim

end BackendKind

namespace Desk

variable {d : Desk} {svc : Nat} {space : String}

theorem cacheOf_keep (hs : svc < d.services.length) (space : String) (h : Handle) :
    (d.keep svc space h).cacheOf svc = (d.cacheOf svc).keep space h := by
  unfold cacheOf keep
  rw [List.getElem?_modify_eq, List.getElem?_eq_getElem hs]
  rfl

theorem cacheOf_of_ask_error {e : SecretError} (h : (d.ask svc space).1 = .error e) :
    (d.ask svc space).2.cacheOf svc = d.cacheOf svc := by
  have ha := d.asks svc space
  generalize d.ask svc space = r at h ha
  cases ha with
  | kept | made => cases h
  | refused | injected => rfl

/-- a handle that was answered is found from then on, and the others are as before -/
theorem find?_of_ask {h : Handle} (hs : svc < d.services.length)
    (hr : (d.ask svc space).1 = .ok h) (other : String) :
    ((d.ask svc space).2.cacheOf svc).find? other
      = if other = space then some h else (d.cacheOf svc).find? other := by
  have ha := d.asks svc space
  generalize d.ask svc space = r at hr ha
  cases ha with
  | refused | injected => cases hr
  | kept hk =>
    cases hr
    split
    · rename_i he
      rw [he, hk]
    · rfl
  | made hk =>
    cases hr
    show ((keep _ svc space _).cacheOf svc).find? other = _
    rw [cacheOf_keep (by exact hs)]
    exact lookup_putAt space other _ _

end Desk

namespace Vault

/-- handles, their number and the counters behind uses, by what calls were answered and which
constructions were attempted -/
structure Accounted (kind : BackendKind) (config : VaultConfig) (us : List (Faults × Use))
    (as cs : Outcomes) (v : Vault) : Prop where
  contained : ∀ space, (v.cacheOf 0).contains space ↔ ∃ h, (space, .ok h) ∈ as
  same : ∀ space h h', (space, .ok h) ∈ as → (space, .ok h') ∈ as → h = h'
  different : ∀ space other (h h' : Handle), (space, .ok h) ∈ as → (other, .ok h') ∈ as →
    space ≠ other → h.number ≠ h'.number
  made : ∀ space h, (space, .ok h) ∈ as → h.space = space ∧ h.engine = config.engine
  /-- every answer is the outcome of a construction, a failure too -/
  answered : ∀ a, a ∈ as ↔ a ∈ cs
  /-- of a namespace those that failed, and one more if it is contained -/
  attempts : ∀ space, cs.countP (fun c => c.1 = space)
    = cs.countP (fun c => c.1 = space ∧ c.2.toOption = none)
      + if (v.cacheOf 0).contains space then 1 else 0
  /-- there is none behind a success -/
  once : cs.Pairwise fun a b => a.1 = b.1 → a.2.toOption = none
  size : ∃ s : Finset String, (∀ space, space ∈ s ↔ (v.cacheOf 0).contains space) ∧
    (v.cacheOf 0).size = s.card
  created : v.backend.store.handlesCreated = (v.cacheOf 0).size
  engine : (v.cacheOf 0).engine = config.engine
  counted : kind.Counts config.engine cs v.backend.kind
  explained : ∀ n space r, cs[n]? = some (space, r) →
    if n < kind.failures then r = .error (.refused space)
    else (∃ h, r = .ok h) ∨
      (r = .error .injected ∧ ∃ u ∈ us, u.1.planAt handleSite ≠ [])

/-- one call for the handle of a namespace, by itself, in a read and in a write -/
structure AsksOnce (v : Vault) (space : String) : Prop where
  /-- a handle that is kept is given, and nothing else happens -/
  kept : ∀ h, (v.cacheOf 0).find? space = some h → (openSpace 0 space).run v = (.ok h, v)
  /-- otherwise there is one construction, and its outcome is the answer -/
  constructs : (v.cacheOf 0).contains space = false →
    ((openSpace 0 space).run v).1 = ((construct space (v.cacheOf 0).engine).run v).1 ∧
    ((openSpace 0 space).run v).2.backend
      = ((construct space (v.cacheOf 0).engine).run v).2.backend ∧
    ((openSpace 0 space).run v).2.faults = ((construct space (v.cacheOf 0).engine).run v).2.faults
  opened : ∀ h, ((openSpace 0 space).run v).1 = .ok h → ∀ other,
    (((openSpace 0 space).run v).2.cacheOf 0).find? other
      = if other = space then some h else (v.cacheOf 0).find? other
  failed : ∀ e, ((openSpace 0 space).run v).1 = .error e →
    ((openSpace 0 space).run v).2.cacheOf 0 = v.cacheOf 0
  read : ∀ key, ((read 0 space key).run v).2.desk = ((openSpace 0 space).run v).2.desk ∧
    ∀ e, ((openSpace 0 space).run v).1 = .error e → ((read 0 space key).run v).1 = .error e
  write : ∀ key value,
    ((write 0 space key value).run v).2.desk = ((openSpace 0 space).run v).2.desk ∧
    ∀ e, ((openSpace 0 space).run v).1 = .error e → ((write 0 space key value).run v).1 = .error e

/-- several callers at once: each of them is answered, and as those are who wait for nobody -/
structure AsksTogether (v : Vault) (spaces : List String) : Prop where
  length : (openTogether 0 spaces v).1.length = spaces.length
  desk : (openTogether 0 spaces v).2.desk
    = (openEach 0 (v.leading (.together spaces)) v).2.desk
  answers : ∀ a, a ∈ spaces.zip (openTogether 0 spaces v).1 ↔
    a ∈ (v.leading (.together spaces)).zip (openEach 0 (v.leading (.together spaces)) v).1

variable {v : Vault} {space : String} {kind : BackendKind} {config : VaultConfig} {as cs : Outcomes}

theorem openSpace_constructs {svc : Nat} (hk : (v.cacheOf svc).find? space = none) :
    ((openSpace svc space).run v).1 = ((construct space (v.cacheOf svc).engine).run v).1 ∧
    ((openSpace svc space).run v).2.backend
      = ((construct space (v.cacheOf svc).engine).run v).2.backend ∧
    ((openSpace svc space).run v).2.faults
      = ((construct space (v.cacheOf svc).engine).run v).2.faults := by
  rw [openSpace_of_not_kept hk, Effect.run_bind, orNote, Effect.run_onFailure]
  cases (construct space (v.cacheOf svc).engine).run v with
  | mk r t => cases r <;> exact ⟨rfl, rfl, rfl⟩

theorem asksOnce (hm : v.backend.kind.inMemory) (hs : 0 < v.services.length) (space : String) :
    v.AsksOnce space := by
  have ho := onDesk_openSpace hm 0 space
  have h1 : ((openSpace 0 space).run v).1 = (v.desk.ask 0 space).1 := congrArg Prod.fst ho
  have h2 : ((openSpace 0 space).run v).2.desk = (v.desk.ask 0 space).2 := congrArg Prod.snd ho
  refine ⟨fun h hk => openSpace_of_kept hk, fun hk => ?_, fun h hr other => ?_, fun e hr => ?_,
    fun key => ?_, fun key value => ?_⟩
  · exact openSpace_constructs (Option.isNone_iff_eq_none.1 (Option.isSome_eq_false_iff.1 hk))
  · rw [h1] at hr
    show (((openSpace 0 space).run v).2.desk.cacheOf 0).find? other = _
    rw [h2]
    exact Desk.find?_of_ask hs hr other
  · rw [h1] at hr
    show ((openSpace 0 space).run v).2.desk.cacheOf 0 = _
    rw [h2]
    exact Desk.cacheOf_of_ask_error hr
  · rw [h1, h2]
    exact desk_read hm 0 space key
  · rw [h1, h2]
    exact desk_write hm 0 space key value

theorem asksTogether (hm : v.backend.kind.inMemory) (spaces : List String) :
    v.AsksTogether spaces := by
  refine ⟨?_, openTogether_desk spaces, fun a => ?_⟩
  · unfold openTogether
    split
    · exact length_lookups spaces (lookup_opened spaces v)
    · exact length_openEach 0 spaces v
  · have h := mem_answers hm (.together spaces) a
    rw [← congrArg Prod.fst (openEach_desk 0 _ hm)] at h
    exact h

/-- what a desk is made of by constructions accounts for all that its vault shows -/
theorem accounted {us : List (Faults × Use)}
    (t : Tally kind config (∃ u ∈ us, u.1.planAt handleSite ≠ []) as cs v.desk)
    (hu : kind.Unused) : Accounted kind config us as cs v := by
  have hv : v.cacheOf 0 = ⟨config.engine, made cs⟩ := t.cacheOf
  have hl : (v.cacheOf 0).size = (made cs).length := congrArg HandleCache.size hv
  have hc : ∀ space, (v.cacheOf 0).contains space ↔ ∃ h, (space, .ok h) ∈ cs := by
    intro space
    rw [hv, HandleCache.contains, Option.isSome_iff_exists]
    exact exists_congr fun h =>
      ⟨fun hm => mem_made.1 (mem_of_lookup hm),
        fun hm => lookup_of_mem t.attempted.nodup_made (mem_made.2 hm)⟩
  have hk : ∀ space, space ∈ (made cs).map Prod.fst ↔ (v.cacheOf 0).contains space := by
    intro space
    rw [hc space, List.mem_map]
    constructor
    · rintro ⟨⟨n, h⟩, hm, rfl⟩
      exact ⟨h, mem_made.1 hm⟩
    · rintro ⟨h, hm⟩
      exact ⟨_, mem_made.2 hm, rfl⟩
  refine {
    contained := fun space => by simpa only [t.answered] using hc space
    same := fun space h h' hm hm' =>
      t.attempted.same ((t.answered _).1 hm) ((t.answered _).1 hm')
    different := fun space other h h' hm hm' hn =>
      t.attempted.different ((t.answered _).1 hm) ((t.answered _).1 hm') hn
    made := fun space h hm => ?_
    answered := t.answered
    attempts := fun space => ?_
    once := t.attempted.once
    size := ⟨((made cs).map Prod.fst).toFinset, fun space => ?_, ?_⟩
    created := t.created.trans hl.symm
    engine := congrArg HandleCache.engine hv
    counted := ?_
    explained := fun n space r hn => ?_ }
  · obtain ⟨i, -, rfl⟩ := t.attempted.numbered_of_mem ((t.answered _).1 hm)
    exact ⟨rfl, rfl⟩
  · rw [countP_constructions, t.attempted.nodup_made.count]
    simp only [hk]
  · rw [List.mem_toFinset, hk]
  · rw [hl, List.toFinset_card_of_nodup t.attempted.nodup_made, List.length_map]
  · rw [show v.backend.kind = _ from t.kind_eq]
    exact BackendKind.counts_behind hu config.engine cs
  · -- before the construction at a place there were as many as the place says
    have he := t.attempted.explained n space r hn
    have hlt := (List.getElem?_eq_some_iff.1 hn).1
    rw [BackendKind.refusal?_behind hu, List.length_take, Nat.min_eq_left (Nat.le_of_lt hlt)] at he
    split
    · rename_i hf
      rw [if_pos hf] at he
      exact he
    · rename_i hf
      rw [if_neg hf] at he
      exact he

/-- behind any uses of a service over an unused backend, whatever faults each of them meets, the
handles, their number and the counters are accounted for, and the next call does its part -/
theorem accounted_afterUses (kind : BackendKind) (hu : kind.Unused) (config : VaultConfig)
    (random : RandomStream) (us : List (Faults × Use)) :
    Accounted kind config us (gather answers (single kind config random) us)
        (gather constructions (single kind config random) us)
        ((single kind config random).afterUses us) ∧
      (∀ faults space,
        (((single kind config random).afterUses us).withFaults faults).AsksOnce space) ∧
      ∀ faults spaces,
        (((single kind config random).afterUses us).withFaults faults).AsksTogether spaces := by
  have hm := BackendKind.inMemory_of_unused hu
  have t := tally_afterUses (tally_single kind config (∃ u ∈ us, u.1.planAt handleSite ≠ []) random)
    hm us fun u hu hf => ⟨u, hu, hf⟩
  have hv := inMemory_of_tally t hm
  have hs : 0 < ((single kind config random).afterUses us).services.length := by
    rw [show ((single kind config random).afterUses us).services = _ from t.services]
    exact Nat.one_pos
  exact ⟨accounted t hu, fun faults => asksOnce (v := _) hv hs, fun faults => asksTogether hv⟩

/-- a refusal, a fault in a read, and three callers at once -/
def flakyUses : List (Faults × Use) :=
  [([], .handle "kv"), ([(handleSite, [⟨some 1, true⟩])], .read "kv" "k"),
    ([], .together ["kv", "ops", "kv"])]

/-- a service over a backend that refuses once -/
def flaky : Vault := single (.failing 1 0) .loopback ⟨.generator 0⟩

theorem accounted_afterUses_flaky :
    (BackendKind.failing 1 0).Unused ∧
      gather constructions flaky flakyUses
        = [("kv", .error (.refused "kv")), ("kv", .error .injected), ("kv", .ok ⟨0, "kv", .v1⟩),
          ("ops", .ok ⟨1, "ops", .v1⟩)] ∧
      Accounted (.failing 1 0) .loopback flakyUses (gather answers flaky flakyUses)
        (gather constructions flaky flakyUses) (flaky.afterUses flakyUses) :=
  ⟨rfl, rfl, (accounted_afterUses (.failing 1 0) rfl .loopback ⟨.generator 0⟩ flakyUses).1⟩

end Vault

end Credentials
