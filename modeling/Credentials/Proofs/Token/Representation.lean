import Credentials.Proofs.Token.Pruning

/-!
# What holds of every ring

* `KeyRing.Sound`             a ring is well-formed, no window in it is empty, and activation numbers rise
                              from entry to entry and stay below the next one;
* `KeyRing.Sound.of_changes`  whatever a call does to a ring, it stays so;
* `KeyRing.Continues`         a later ring gives no number that was taken to another key;
* `KeyRing.Sound.activeKeyIds_eq`   such a ring lists its keys in the order in which it holds them;
* `Authority.verdict`         whether a call succeeds, or why it fails;
* `Authority.provider_of_verdict`   a call that fails leaves a ring as it is;
* `Authority.ring_reachable`  all of this holds of every ring that calls lead to.

A revocation changes one entry in place, and a pruning takes entries out of the middle. Neither touches a
number, and what is left of a rising sequence rises.
-/

namespace Credentials

namespace KeyRing

/-- identifiers are acceptable and distinct, no window is empty, numbers rise and are below the next one -/
structure Sound (r : KeyRing) : Prop extends r.WellFormed where
  windows : ∀ e ∈ r.entries, e.key.validFrom < e.key.validUntil
  rising : r.entries.Pairwise fun e f => e.activation < f.activation
  below : ∀ e ∈ r.entries, e.activation < r.nextActivation

theorem sound_empty : empty.Sound :=
  ⟨wellFormed_empty, fun _ h => absurd h List.not_mem_nil, .nil, fun _ h => absurd h List.not_mem_nil⟩

variable {r s t : KeyRing}

theorem Sound.of_insert (h : r.Sound) (hw : s.WellFormed) {k : SigningKey} (hi : r.insert k = .ok s) :
    s.Sound := by
  obtain ⟨-, hwindow, -, rfl⟩ := insert_eq_ok_iff.1 hi
  refine ⟨hw, fun e he => ?_, ?_, fun e he => ?_⟩
  · rcases List.mem_append.1 he with he | he
    · exact h.windows e he
    · obtain rfl := List.mem_singleton.1 he
      exact hwindow
  · -- all numbers so far are below the one that is given
    refine List.pairwise_append.2 ⟨h.rising, List.pairwise_singleton _ _, fun e he f hf => ?_⟩
    obtain rfl := List.mem_singleton.1 hf
    exact h.below e he
  · rcases List.mem_append.1 he with he | he
    · exact Nat.lt_succ_of_lt (h.below e he)
    · obtain rfl := List.mem_singleton.1 he
      exact Nat.lt_succ_self _

theorem Sound.of_revoke (h : r.Sound) (hw : s.WellFormed) {keyId : String} {now : Instant}
    (hi : r.revoke keyId now = .ok s) : s.Sound := by
  refine ⟨hw, fun e he => ?_, ?_, fun e he => ?_⟩
  · obtain ⟨f, hf, hk, -⟩ := exists_of_mem_revoke hi he
    rw [← hk]
    exact h.windows f hf
  · have hsame := map_of_revoke hi fun e => e.activation_revoke now
    have hrising := List.pairwise_map.2 h.rising
    rw [← hsame] at hrising
    exact List.pairwise_map.1 hrising
  · obtain ⟨f, hf, -, ha⟩ := exists_of_mem_revoke hi he
    rw [← ha, nextActivation_of_revoke hi]
    exact h.below f hf

theorem Sound.of_prune (h : r.Sound) {u : Instant} (hw : (r.prune u).WellFormed) : (r.prune u).Sound :=
  ⟨hw, fun e he => h.windows e (mem_prune.1 he).1, h.rising.sublist List.filter_sublist,
    fun e he => h.below e (mem_prune.1 he).1⟩

/-- whatever a call does to a sound ring, it stays sound -/
theorem Sound.of_changes (h : r.Sound) {c : Authority.Call} (hc : c.Changes r s) : s.Sound := by
  have hw := h.toWellFormed.of_changes hc
  cases hc with
  | nothing => exact h
  | insert _ hi => exact h.of_insert hw hi
  | revoke hi => exact h.of_revoke hw hi
  | prune u => exact h.of_prune hw

/-- a later ring: numbers go on, and an entry with a number that was taken before is the entry of that
number from before, revoked or not -/
structure Continues (r s : KeyRing) : Prop where
  next : r.nextActivation ≤ s.nextActivation
  taken : ∀ e ∈ s.entries, e.activation < r.nextActivation →
    ∃ f ∈ r.entries, f.key = e.key ∧ f.activation = e.activation

theorem Continues.refl (r : KeyRing) : r.Continues r := ⟨Nat.le_refl _, fun e he _ => ⟨e, he, rfl, rfl⟩⟩

theorem Continues.trans (h : r.Continues s) (h' : s.Continues t) : r.Continues t := by
  refine ⟨Nat.le_trans h.next h'.next, fun e he hlt => ?_⟩
  obtain ⟨f, hf, hk, ha⟩ := h'.taken e he (Nat.lt_of_lt_of_le hlt h.next)
  obtain ⟨g, hg, hk', ha'⟩ := h.taken f hf (ha ▸ hlt)
  exact ⟨g, hg, hk'.trans hk, ha'.trans ha⟩

theorem continues_of_changes {c : Authority.Call} (hc : c.Changes r s) : r.Continues s := by
  cases hc with
  | nothing => exact .refl r
  | insert _ hi =>
    obtain ⟨-, -, -, rfl⟩ := insert_eq_ok_iff.1 hi
    refine ⟨Nat.le_succ _, fun e he hlt => ?_⟩
    rcases List.mem_append.1 he with he | he
    · exact ⟨e, he, rfl, rfl⟩
    · -- the new key has the next number
      obtain rfl := List.mem_singleton.1 he
      exact absurd hlt (Nat.lt_irrefl _)
  | revoke hi =>
    exact ⟨Nat.le_of_eq (nextActivation_of_revoke hi).symm, fun e he _ => exists_of_mem_revoke hi he⟩
  | prune u => exact ⟨Nat.le_refl _, fun e he _ => ⟨e, (mem_prune.1 he).1, rfl, rfl⟩⟩

/-- sorting what is taken from a sound ring by its numbers changes nothing -/
theorem Sound.mergeSort_filter (h : r.Sound) (p : KeyEntry → Bool) :
    ((r.entries.filter p).mergeSort fun a b => a.activation ≤ b.activation) = r.entries.filter p := by
  refine List.mergeSort_of_pairwise ((h.rising.sublist List.filter_sublist).imp fun {e f} hlt => ?_)
  exact decide_eq_true (Nat.le_of_lt hlt)

/-- a sound ring lists its keys in use in the order in which it holds them -/
theorem Sound.activeKeyIds_eq (h : r.Sound) (now : Instant) :
    r.activeKeyIds now = (r.entries.filter fun e => e.isActive now).map fun e => e.key.keyId := by
  unfold activeKeyIds
  rw [h.mergeSort_filter]

end KeyRing

namespace Authority

variable {a : Authority} {r : KeyRing}

/-- whether a call succeeds, or why it fails -/
def verdict (a : Authority) : Call → Except TokenError Unit
  | .insertKey k => ((insertKey k).run a).1.map fun _ => ()
  | .rotate validity => ((rotate validity).run a).1.map fun _ => ()
  | .revoke keyId => ((revoke keyId).run a).1.map fun _ => ()
  | .prune t => ((prune t).run a).1.map fun _ => ()
  | .select expiration => ((select expiration).run a).1.map fun _ => ()
  | .issueAt now i => ((issueAt now i).run a).1.map fun _ => ()
  | .verify token audience => ((verify token audience).run a).1.map fun _ => ()
  | .setWorld .. => .ok ()

/-- a call that fails leaves a ring as it is -/
theorem provider_of_verdict (hr : a.provider = .rotating r) {c : Call} {e : TokenError}
    (h : a.verdict c = .error e) : (a.after c).provider = .rotating r := by
  cases c with
  | insertKey k =>
    rcases insertKey_cases hr k with ⟨_, -, he⟩ | ⟨_, -, ho, -⟩
    · rw [after, he, hr]
    · rw [verdict, ho] at h
      cases h
  | rotate validity =>
    rcases rotate_cases hr validity with ⟨_, -, hp⟩ | ⟨_, _, -, ho, -⟩
    · exact hp
    · rw [verdict, ho] at h
      cases h
  | revoke keyId =>
    rcases revoke_cases hr keyId with ⟨_, -, he⟩ | ⟨_, -, ho, -⟩
    · rw [after, he, hr]
    · rw [verdict, ho] at h
      cases h
  | prune t =>
    -- a pruning does not fail
    rw [verdict, prune_fst hr t] at h
    cases h
  | select expiration => exact keeps_select expiration a r hr
  | issueAt now i => exact keeps_issueAt now i a r hr
  | verify token audience => exact lax_keepsRing.moves_verify token audience a r hr
  | setWorld systemTime clock faults => exact hr

/-- calls keep a sound ring sound, and what they lead to continues it -/
theorem sound_afterAll (hr : a.provider = .rotating r) (h : r.Sound) (cs : List Call) :
    ∃ s, (a.afterAll cs).provider = .rotating s ∧ s.Sound ∧ r.Continues s := by
  induction cs generalizing a r with
  | nil => exact ⟨r, hr, h, .refl r⟩
  | cons c cs ih =>
    obtain ⟨s, hs, hc⟩ := changes_after hr c
    obtain ⟨t, ht, hsound, hcont⟩ := ih hs (h.of_changes hc)
    exact ⟨t, ht, hsound, (KeyRing.continues_of_changes hc).trans hcont⟩

/-- Every ring that calls lead to is sound. The number that it gives next is that of the registrations so
far, and whatever is called behind it, this never decreases, and no number is given again, not even that
of a key that was pruned. A call that fails leaves the ring, the next number included, exactly as it
was. The keys in use are listed as the ring holds them, and sorting them changes nothing. -/
theorem ring_reachable (a : Authority) (calls : List Call) :
    let b := a.emptied.afterAll calls
    ∃ r, b.provider = .rotating r ∧ r.Sound ∧
      r.nextActivation = (a.emptied.registrations calls).length ∧
      (∀ more, ∃ s, (b.afterAll more).provider = .rotating s ∧ r.Continues s) ∧
      (∀ c e, b.verdict c = .error e → (b.after c).provider = .rotating r) ∧
      ∀ now, ((r.entries.filter fun e => e.isActive now).mergeSort
          fun e f => e.activation ≤ f.activation) = r.entries.filter (fun e => e.isActive now) ∧
        r.activeKeyIds now = (r.entries.filter fun e => e.isActive now).map fun e => e.key.keyId := by
  intro b
  obtain ⟨r, hr, hsound, -⟩ := sound_afterAll (a := a.emptied) rfl KeyRing.sound_empty calls
  obtain ⟨s, hs, hrec⟩ := records_reachable a calls
  obtain rfl : r = s := Provider.rotating.inj (hr.symm.trans hs)
  refine ⟨r, hr, hsound, hrec.next, fun more => ?_, fun c e h => provider_of_verdict hr h,
    fun now => ⟨hsound.mergeSort_filter _, hsound.activeKeyIds_eq now⟩⟩
  obtain ⟨t, ht, -, hcont⟩ := sound_afterAll hr hsound more
  exact ⟨t, ht, hcont⟩

/-- behind a pruning the third key has the third number, and a key that is there already is refused -/
theorem ring_reachable_pruned :
    let start : Instant := ⟨0, 0, by decide, by decide⟩
    let soon : Instant := ⟨10, 0, by decide, by decide⟩
    let late : Instant := ⟨50, 0, by decide, by decide⟩
    let x : SigningKey := ⟨"x", [1], start, late⟩
    let y : SigningKey := ⟨"y", [2], start, soon⟩
    let z : SigningKey := ⟨"z", [3], start, late⟩
    let a : Authority := ⟨start, none, ⟨.generator 0⟩, [], [], .rotating .empty⟩
    let b := a.emptied.afterAll [.insertKey x, .insertKey y, .revoke "x", .prune late, .insertKey z]
    let r : KeyRing := ⟨[⟨x, 0, some start⟩, ⟨z, 2, none⟩], 3⟩
    b.provider = .rotating r ∧
      b.verdict (.insertKey x) = .error (.precondition "key 'x' is already registered") ∧
      (b.after (.insertKey x)).provider = .rotating r ∧ r.Sound ∧ r.activeKeyIds start = ["z"] := by
  intro start soon late x y z a b r
  have hr : b.provider = .rotating r := by decide +kernel
  have hverdict : b.verdict (.insertKey x) = .error (.precondition "key 'x' is already registered") := by
    decide +kernel
  obtain ⟨s, hs, hsound, -, -, hfails, hlisted⟩ := ring_reachable a
    [.insertKey x, .insertKey y, .revoke "x", .prune late, .insertKey z]
  obtain rfl : r = s := Provider.rotating.inj (hr.symm.trans hs)
  exact ⟨hr, hverdict, hfails _ _ hverdict, hsound, (hlisted start).2⟩

end Authority

end Credentials
